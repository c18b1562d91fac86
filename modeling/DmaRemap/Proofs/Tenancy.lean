import DmaRemap.Proofs.Runs

/-! Who lives on a unit. Domains that were created and not destroyed live, even those that the
software gave up. In every run the ids of the domains that live are accounted for, devices are bound
to such domains only, and a domain that is destroyed gives back what it took and nothing else. -/

namespace DmaRemap

variable {ρ : Type}

namespace DomainIds

variable {ids rest : DomainIds} {taken taken' : List DomainId} {id : DomainId} {count : Nat}

/-- Every id from 1 to `count` is either free or taken, and none is both or taken twice. -/
structure Accounts (ids : DomainIds) (taken : List DomainId) (count : Nat) : Prop where
  count_eq : ids.count = count
  counted : ids.Counted
  perm : (taken.map (·.val.val) ++ ids.free).Perm (List.range' 1 count)

theorem accounts_ofLimit (limit : Nat) :
    (ofLimit limit).Accounts [] (ofLimit limit).available := by
  refine ⟨rfl, counted_ofLimit limit, ?_⟩
  rw [free_ofLimit]
  exact .refl _

namespace Accounts

theorem of_perm (accounts : ids.Accounts taken count) (perm : taken'.Perm taken) :
    ids.Accounts taken' count :=
  ⟨accounts.count_eq, accounts.counted, ((perm.map _).append_right _).trans accounts.perm⟩

theorem nodup (accounts : ids.Accounts taken count) :
    (taken.map (·.val.val) ++ ids.free).Nodup :=
  accounts.perm.nodup_iff.mpr List.nodup_range'

theorem not_free (accounts : ids.Accounts taken count) (member : id ∈ taken) :
    id.val.val ∉ ids.free := fun free =>
  (List.nodup_append.mp accounts.nodup).2.2 _ (List.mem_map_of_mem member) _ free rfl

theorem nodup_taken (accounts : ids.Accounts taken count) : taken.Nodup :=
  (List.nodup_append.mp accounts.nodup).1.of_map _

theorem bounds (accounts : ids.Accounts taken count) {n : Nat}
    (member : n ∈ taken.map (·.val.val) ++ ids.free) : 1 ≤ n ∧ n ≤ count := by
  have range := List.mem_range'_1.mp (accounts.perm.mem_iff.mp member)
  omega

theorem isValid (accounts : ids.Accounts taken count) (member : id ∈ taken) :
    id.isValid = true :=
  id.isValid_of_pos (accounts.bounds (List.mem_append_left _ (List.mem_map_of_mem member))).1

theorem available_add_length (accounts : ids.Accounts taken count) :
    ids.available + taken.length = count := by
  have length := accounts.perm.length_eq
  rw [List.length_append, List.length_map, List.length_range'] at length
  rw [accounts.counted.available_eq, Nat.add_comm, length]

theorem take (accounts : ids.Accounts taken count) (handed : ids.take = (some id, rest)) :
    rest.Accounts (id :: taken) count := by
  obtain ⟨free, same⟩ := free_of_take handed
  have perm := accounts.perm
  rw [free] at perm
  exact ⟨same.trans accounts.count_eq, accounts.counted.take handed,
    List.perm_middle.symm.trans perm⟩

theorem giveBack (accounts : ids.Accounts (id :: taken) count) :
    (ids.giveBack id).2.Accounts taken count := by
  have range := accounts.bounds (List.mem_append_left _ List.mem_cons_self)
  have held := accounts.not_free List.mem_cons_self
  have perm := perm_free_giveBack range.1 (accounts.count_eq ▸ range.2) held
  refine ⟨(count_giveBack ids id).trans accounts.count_eq, accounts.counted.giveBack id, ?_⟩
  exact (perm.append_left _).trans (List.perm_middle.trans accounts.perm)

end Accounts

end DomainIds

namespace Platform

variable {platform platform' : Platform ρ}

/-- The platform with further domains, which come last. -/
def beside (platform : Platform ρ) (others : List Domain) : Platform ρ :=
  { platform with domains := platform.domains ++ others }

theorem Ordered.of_perm (ordered : platform.Ordered)
    (controller : platform'.machine.controller = platform.machine.controller)
    (perm : platform'.holdings.Perm platform.holdings) : platform'.Ordered := by
  obtain ⟨wired, ids, valid⟩ := ordered
  rw [← controller] at wired ids
  exact ⟨wired, ids, fun holding member => valid holding (perm.mem_iff.mp member)⟩

theorem Separate.of_perm (separate : platform.Separate)
    (controller : platform'.machine.controller = platform.machine.controller)
    (perm : platform'.holdings.Perm platform.holdings) : platform'.Separate := by
  refine ⟨fun holding member => separate.within holding (perm.mem_iff.mp member),
    (perm.pairwise_iff Or.symm).mpr separate.apart, ?_⟩
  rw [controller]
  intro bdf entry now present
  obtain ⟨holding, member, same⟩ := separate.bound now present
  exact ⟨holding, perm.mem_iff.mpr member, same⟩

end Platform

theorem perm_eraseIdx_append {α : Type} (xs : List α) (place : Nat) :
    (xs.eraseIdx place ++ xs[place]?.toList).Perm xs := by
  induction xs generalizing place with
  | nil => simp
  | cons x xs ih =>
    cases place with
    | zero => exact List.perm_append_singleton x xs
    | succ place => exact (ih place).cons x

namespace Call.Does

variable {start last : Journaled (Platform ρ)} {call : Call} {reply : Except IommuError Reply}

/-- A call that changes something does the same if there are further domains, as long as it gives
none up. -/
theorem beside (does : call.Does start reply last) (keeps : ∀ place, call ≠ .abandon place)
    (others : List Domain) :
    last.state = start.state ∨ call.Does ⟨start.state.beside others, start.journal⟩ reply
      ⟨last.state.beside others, last.journal⟩ := by
  have still {place : Nat} {domain : Domain} (here : start.state.domains[place]? = some domain) :
      (start.state.beside others).domains[place]? = some domain ∧
        place < start.state.domains.length := by
    obtain ⟨inside, _⟩ := List.getElem?_eq_some_iff.mp here
    exact ⟨(List.getElem?_append_left inside).trans here, inside⟩
  have replaced {place : Nat} {domain domain' : Domain}
      (here : start.state.domains[place]? = some domain)
      (domains : last.state.domains = start.state.domains.set place domain') :
      (last.state.beside others).domains =
        (start.state.beside others).domains.set place domain' := by
    rw [Platform.beside, domains]
    exact (List.set_append_left _ _ (still here).2).symm
  cases does with
  | idle same => exact .inl same
  | created made taken controller domains empty =>
    exact .inr (.created made taken controller (congrArg (· ++ others) domains) empty)
  | uncreated wired uncreated domains =>
    exact .inr (.uncreated wired uncreated (congrArg (· ++ others) domains))
  | edited here evolves controller domains edits =>
    exact .inr (.edited (still here).1 evolves controller (replaced here domains) edits)
  | bound here bound issues told controller domains listed =>
    exact .inr (.bound (still here).1 bound issues told controller (replaced here domains) listed)
  | unbound here unbound issues told controller domains listed =>
    exact .inr
      (.unbound (still here).1 unbound issues told controller (replaced here domains) listed)
  | destroyed here wired unbinding destroys domains frees =>
    refine .inr (.destroyed (still here).1 wired unbinding destroys ?_ frees)
    rw [Platform.beside, domains]
    exact (List.eraseIdx_append_of_lt_length (still here).2 _).symm
  | abandoned => exact absurd rfl (keeps _)

/-- A call that gives up no domain keeps the ids accounted for: one is taken for every domain. -/
theorem accounts (does : call.Does start reply last) (keeps : ∀ place, call ≠ .abandon place)
    {count : Nat} (accounts : start.state.machine.controller.ids.Accounts
      (start.state.holdings.map Holding.id) count) :
    last.state.machine.controller.ids.Accounts (last.state.holdings.map Holding.id) count := by
  cases does with
  | idle same => rwa [same]
  | created made taken controller domains =>
    rw [controller, Platform.holdings, domains]
    exact accounts.take taken
  | uncreated wired uncreated domains =>
    rw [Platform.holdings, domains]
    rcases uncreated.ids with same | ⟨id, taken, handed, same⟩
    · rwa [same]
    · rw [same]
      exact (accounts.take handed).giveBack
  | edited here evolves controller domains =>
    rwa [controller, Platform.holdings_of_set here domains evolves.holding]
  | bound here _ _ _ controller domains | unbound here _ _ _ controller domains =>
    rwa [controller, Platform.holdings_of_set here domains rfl]
  | @destroyed place domain _ _ _ _ _ here wired unbinding destroys domains =>
    rw [destroys.controller, Platform.holdings_of_eraseIdx domains]
    apply DomainIds.Accounts.giveBack
    apply accounts.of_perm
    have holding := Platform.getElem?_holdings here
    have perm := perm_eraseIdx_append start.state.holdings place
    rw [holding] at perm
    exact ((List.perm_append_singleton ..).symm.trans perm).map Holding.id
  | abandoned => exact absurd rfl (keeps _)

theorem of_abandon {place : Nat} (does : (abandon place).Does start reply last) :
    last.state.machine.controller = start.state.machine.controller ∧
      last.state.domains = start.state.domains.eraseIdx place := by
  cases does with
  | idle same absent =>
    rw [same]
    exact ⟨rfl, (List.eraseIdx_of_length_le (List.getElem?_eq_none_iff.mp absent)).symm⟩
  | edited _ _ _ _ edits => exact edits.elim
  | abandoned controller domains => exact ⟨controller, domains⟩

end Call.Does

section Parallel

variable {α β : Type} {related : α → β → Prop} {xs : List α} {ys : List β}

theorem forall₂_eraseIdx (all : List.Forall₂ related xs ys) (place : Nat) :
    List.Forall₂ related (xs.eraseIdx place) (ys.eraseIdx place) := by
  induction all generalizing place with
  | nil => exact .nil
  | cons first rest ih =>
    cases place with
    | zero => exact rest
    | succ place => exact .cons first (ih place)

theorem forall₂_set (all : List.Forall₂ related xs ys) {place : Nat} {x x' : α}
    (here : xs[place]? = some x) (step : ∀ y, related x y → related x' y) :
    List.Forall₂ related (xs.set place x') ys := by
  induction all generalizing place with
  | nil => exact .nil
  | cons first rest ih =>
    cases place with
    | zero =>
      cases here
      exact .cons (step _ first) rest
    | succ place => exact .cons first (ih here)

theorem exists_of_forall₂ (all : List.Forall₂ related xs ys) {place : Nat} {x : α}
    (here : xs[place]? = some x) : ∃ y, ys[place]? = some y ∧ related x y := by
  induction all generalizing place with
  | nil => cases here
  | cons first rest ih =>
    cases place with
    | zero =>
      cases here
      exact ⟨_, rfl, first⟩
    | succ place => exact ih here

end Parallel

/-- A domain has its table in the pool that it was given, whose nodes links can name. -/
structure Leased (domain : Domain) (given : Pool) : Prop where
  fits : Format.secondLevel.Fits given
  made : Made given domain.table domain.pool

namespace Leased

variable {domain : Domain} {given pool : Pool}

theorem contains_root (leased : Leased domain given) :
    domain.pool.contains domain.table.root = true := by
  obtain ⟨_, branches, held⟩ := leased.made.held leased.fits
  exact Pool.contains_iff.mpr ⟨_, held.node⟩

/-- What a pool holds once all nodes of the table were given back is what it held before. -/
theorem restored (leased : Leased domain given) (frees : domain.Frees pool) :
    (∀ address, pool.node? address = given.node? address) ∧ (given.Sound → pool = given) := by
  obtain ⟨branches, held, taken⟩ := leased.made.takes leased.fits
  have exchange := taken.trans (frees branches held)
  have same (address : PhysicalAddress) : pool.node? address = given.node? address :=
    exchange.elsewhere address List.not_mem_nil List.not_mem_nil
  exact ⟨same, fun sound =>
    sound.eq_of_node? (exchange.sound sound) exchange.base exchange.size same⟩

end Leased

/-- What becomes of the pools that the domains of a platform were given, in their order. -/
def Call.given (given : List Pool) (returned : Bool) : Call → List Pool
  | create pool _ => if returned then pool :: given else given
  | destroy place | abandon place => given.eraseIdx place
  | _ => given

theorem Call.Does.leased {start last : Journaled (Platform ρ)} {call : Call}
    {reply : Except IommuError Reply} (does : call.Does start reply last)
    (fits : Platform.Fits call) {given : List Pool}
    (leased : List.Forall₂ Leased start.state.domains given) :
    List.Forall₂ Leased last.state.domains (call.given given reply.isOk) := by
  cases does with
  | idle same idles =>
    rw [same]
    have unnamed {place : Nat} (absent : start.state.domains[place]? = none) :
        given.eraseIdx place = given := by
      apply List.eraseIdx_of_length_le
      rw [← leased.length_eq]
      exact List.getElem?_eq_none_iff.mp absent
    cases call with
    | create => exact idles.elim
    | destroy place | abandon place =>
      rw [Call.given, unnamed idles]
      exact leased
    | addRange | removeRange | enable | disable => exact leased
  | created made taken controller domains =>
    rw [domains]
    exact .cons ⟨fits, made⟩ leased
  | uncreated wired uncreated domains =>
    rw [domains]
    exact leased
  | edited here evolves controller domains edits =>
    rw [domains]
    cases call with
    | addRange | removeRange =>
      exact forall₂_set leased here fun pool held => ⟨held.fits, held.made.trans evolves⟩
    | create | enable | disable | destroy | abandon => exact edits.elim
  | bound here _ _ _ _ domains | unbound here _ _ _ _ domains =>
    rw [domains]
    exact forall₂_set leased here fun pool held => ⟨held.fits, held.made⟩
  | destroyed _ _ _ _ domains | abandoned _ domains =>
    rw [domains]
    exact forall₂_eraseIdx leased _

/-- A platform and what the software knows of its past: the pools that it gave to the domains, in
their order, and the domains that it gave up, whose tables stay taken. -/
structure Tenancy (ρ : Type) where
  platform : Platform ρ
  given : List Pool
  abandoned : List Domain

namespace Tenancy

variable {tenancy : Tenancy ρ} {total : Nat}

/-- The domains that were created and not destroyed. -/
def live (tenancy : Tenancy ρ) : List Domain :=
  tenancy.platform.domains ++ tenancy.abandoned

/-- Whether a new domain is given a pool whose nodes links can name, apart from those of the domains
that live. -/
def Admits (tenancy : Tenancy ρ) : Call → Prop
  | .create pool _ => Format.secondLevel.Fits pool ∧
      ∀ domain ∈ tenancy.live, pool.window.Apart domain.pool.window
  | _ => True

/-- The tenancy after a call. -/
def after [RegisterPage ρ] (tenancy : Tenancy ρ) (call : Call) (threshold : Option Severity) :
    Tenancy ρ where
  platform := (call.perform.finish (tenancy.platform.fresh threshold)).state
  given := call.given tenancy.given
    (call.perform.outcome (tenancy.platform.fresh threshold)).isOk
  abandoned :=
    match call with
    | .abandon place => tenancy.platform.domains[place]?.toList ++ tenancy.abandoned
    | _ => tenancy.abandoned

/-- The tenancies that the software reaches from a unit it has taken over, with the number of ids
that were available then. Calls do not abort, and between two calls the registers may change in any
way. -/
inductive Reached [RegisterPage ρ] : (total : Nat) → Tenancy ρ → Prop
  | takeOver {name : String} {pool : Pool} {interrupt : Option FaultInterrupt} {config : Config}
      {start : Journaled ρ} {controller : Controller}
      (returned : (Controller.takeOver name pool interrupt config).outcome start = .ok controller) :
      Reached controller.ids.available
        ⟨⟨⟨controller, ((Controller.takeOver name pool interrupt config).finish start).state⟩, []⟩,
          [], []⟩
  | call {total : Nat} {tenancy : Tenancy ρ} (reached : Reached total tenancy) {call : Call}
      (admitted : tenancy.Admits call) {threshold : Option Severity}
      (completed : ∀ reason, call.perform.outcome (tenancy.platform.fresh threshold) ≠
        .error (.abort reason)) :
      Reached total (tenancy.after call threshold)
  | registers {total : Nat} {tenancy : Tenancy ρ} (reached : Reached total tenancy) (page : ρ) :
      Reached total
        { tenancy with platform :=
          { tenancy.platform with machine := { tenancy.platform.machine with page } } }

/-- What every call keeps of a tenancy. -/
structure Kept (tenancy : Tenancy ρ) (total : Nat) : Prop where
  ordered : (tenancy.platform.beside tenancy.abandoned).Ordered
  separate : (tenancy.platform.beside tenancy.abandoned).Separate
  ids : tenancy.platform.machine.controller.ids.Accounts
    ((tenancy.platform.beside tenancy.abandoned).holdings.map Holding.id) total
  leased : List.Forall₂ Leased tenancy.platform.domains tenancy.given
  lost : ∀ domain ∈ tenancy.abandoned, ∃ given, Leased domain given

namespace Kept

theorem ordered_platform (kept : tenancy.Kept total) : tenancy.platform.Ordered := by
  obtain ⟨wired, ids, valid⟩ := kept.ordered
  refine ⟨wired, ids, fun holding member => valid holding ?_⟩
  rw [Platform.holdings, Platform.beside, List.map_append]
  exact List.mem_append_left _ member

/-- What is admitted separates the new domain from all domains that live. -/
theorem separates {call : Call} (admitted : tenancy.Admits call)
    (keeps : ∀ place, call ≠ .abandon place) :
    (tenancy.platform.beside tenancy.abandoned).Separates call := by
  cases call with
  | create pool buffers =>
    intro holding member
    obtain ⟨domain, lives, rfl⟩ := List.mem_map.mp member
    exact admitted.2 domain lives
  | abandon place => exact absurd rfl (keeps place)
  | addRange | removeRange | enable | disable | destroy => trivial

theorem fits {call : Call} (admitted : tenancy.Admits call) : Platform.Fits call := by
  cases call with
  | create pool buffers => exact admitted.1
  | addRange | removeRange | enable | disable | destroy | abandon => trivial

variable {threshold : Option Severity} {call : Call} {reply : Except IommuError Reply}
  {last : Journaled (Platform ρ)}

theorem of_does (kept : tenancy.Kept total)
    (does : call.Does (tenancy.platform.fresh threshold) reply last)
    (admitted : tenancy.Admits call) (keeps : ∀ place, call ≠ .abandon place) :
    Kept ⟨last.state, call.given tenancy.given reply.isOk, tenancy.abandoned⟩ total := by
  have leased := does.leased (fits admitted) kept.leased
  rcases does.beside keeps tenancy.abandoned with same | whole
  · rw [same] at leased ⊢
    exact ⟨kept.ordered, kept.separate, kept.ids, leased, kept.lost⟩
  · exact ⟨whole.ordered kept.ordered,
      whole.separate kept.ordered kept.separate (separates admitted keeps),
      whole.accounts keeps kept.ids, leased, kept.lost⟩

theorem of_abandon (kept : tenancy.Kept total) {place : Nat}
    (does : (Call.abandon place).Does (tenancy.platform.fresh threshold) reply last) :
    Kept ⟨last.state, tenancy.given.eraseIdx place,
      tenancy.platform.domains[place]?.toList ++ tenancy.abandoned⟩ total := by
  obtain ⟨controller, domains⟩ := does.of_abandon
  have perm : (last.state.beside
      (tenancy.platform.domains[place]?.toList ++ tenancy.abandoned)).holdings.Perm
        (tenancy.platform.beside tenancy.abandoned).holdings := by
    apply List.Perm.map
    rw [Platform.beside, domains, ← List.append_assoc]
    exact (perm_eraseIdx_append tenancy.platform.domains place).append_right _
  refine ⟨kept.ordered.of_perm controller perm, kept.separate.of_perm controller perm, ?_,
    does.leased trivial kept.leased, fun domain member => ?_⟩
  · rw [controller]
    exact kept.ids.of_perm (perm.map _)
  · rcases List.mem_append.mp member with given | lost
    · obtain ⟨pool, _, leased⟩ := exists_of_forall₂ kept.leased (Option.mem_toList.mp given)
      exact ⟨pool, leased⟩
    · exact kept.lost domain lost

theorem after [RegisterPage ρ] [QuietPage ρ] (kept : tenancy.Kept total)
    (admitted : tenancy.Admits call)
    (completed : ∀ reason, call.perform.outcome (tenancy.platform.fresh threshold) ≠
      .error (.abort reason)) : (tenancy.after call threshold).Kept total := by
  obtain ⟨reply, answered, does⟩ := Call.does_of_completed kept.ordered_platform completed
  have same : (call.perform.outcome (tenancy.platform.fresh threshold)).isOk = reply.isOk := by
    rw [answered]
    cases reply <;> rfl
  cases call with
  | abandon place => exact kept.of_abandon does
  | create | addRange | removeRange | enable | disable | destroy =>
    have goesOn := kept.of_does does admitted fun _ => nofun
    rw [← same] at goesOn
    exact goesOn

end Kept

theorem Reached.kept [RegisterPage ρ] [QuietPage ρ] (reached : Reached total tenancy) :
    tenancy.Kept total := by
  induction reached with
  | takeOver returned =>
    obtain ⟨ordered, separate⟩ := Platform.Reached.separate (.takeOver returned)
    obtain ⟨_, limit, ids⟩ := ((Controller.takeOver_gives _ _ _ _).ends _).returned returned
    refine ⟨ordered, separate, ?_, .nil, fun _ member => absurd member List.not_mem_nil⟩
    rw [ids]
    exact DomainIds.accounts_ofLimit limit
  | call reached admitted completed ih => exact ih.after admitted completed
  | registers reached page ih =>
    obtain ⟨ordered, separate, ids, leased, lost⟩ := ih
    exact ⟨⟨ordered.wired, ordered.ids, ordered.valid⟩,
      ⟨separate.within, separate.apart, separate.bound⟩, ids, leased, lost⟩

/-- The entry of a device in the context tables. -/
def context (tenancy : Tenancy ρ) (bdf : Bdf) : Except Abort ContextEntry :=
  tenancy.platform.machine.controller.bindings.context bdf

/-- Devices are bound to domains that live, whose tables are not freed. Every such domain has an id
of its own, and the ids that are available are the others. -/
structure Safe (tenancy : Tenancy ρ) (total : Nat) : Prop where
  readable : ∀ bdf, ∃ entry, tenancy.context bdf = .ok entry
  bound : ∀ {bdf entry}, tenancy.context bdf = .ok entry → entry.present = true →
    ∃ domain ∈ tenancy.live, entry = .binding domain.table.root domain.id ∧
      domain.pool.contains domain.table.root = true
  distinct : (tenancy.live.map Domain.id).Nodup
  taken : ∀ domain ∈ tenancy.live, domain.id.isValid = true ∧
    domain.id.val.val ∉ tenancy.platform.machine.controller.ids.free
  available : tenancy.platform.machine.controller.ids.available + tenancy.live.length = total
  given : tenancy.given.length = tenancy.platform.domains.length

/-- Destroying a domain takes away its own entries and no others, and gives back the pool that the
domain was given, with the nodes that were used then. -/
structure Vacates (tenancy : Tenancy ρ) (domain : Domain) (given : Pool) (reply : Reply)
    (last : Platform ρ) : Prop where
  context : ∀ {bdf entry}, tenancy.context bdf = .ok entry →
    last.machine.controller.bindings.context bdf =
      .ok (if entry = .binding domain.table.root domain.id then entry.cleared else entry)
  pool : ∃ pool, reply = .destroyed pool ∧ (∀ address, pool.node? address = given.node? address) ∧
    (given.Sound → pool = given)

/-- No device is bound to the domain that was created last, not even by its id. -/
def Unused (tenancy : Tenancy ρ) (last : Platform ρ) : Prop :=
  ∃ domain, last.domains = domain :: tenancy.platform.domains ∧
    ∀ bdf entry, last.machine.controller.bindings.context bdf = .ok entry →
      entry.present = true → entry.domain ≠ domain.id

namespace Kept

theorem safe (kept : tenancy.Kept total) : tenancy.Safe total := by
  obtain ⟨contexts, wired⟩ := kept.ordered.wired
  have ids := kept.ids
  rw [Platform.holdings, List.map_map] at ids
  refine ⟨fun bdf => ⟨_, wired.context_eq bdf⟩, ?bound, ids.nodup_taken, ?taken, ?available,
    kept.leased.length_eq.symm⟩
  case bound =>
    intro bdf entry before present
    obtain ⟨holding, member, rfl⟩ := kept.separate.bound before present
    obtain ⟨domain, lives, rfl⟩ := List.mem_map.mp member
    refine ⟨domain, lives, rfl, ?_⟩
    rcases List.mem_append.mp lives with given | lost
    · obtain ⟨place, here⟩ := List.mem_iff_getElem?.mp given
      obtain ⟨_, _, leased⟩ := exists_of_forall₂ kept.leased here
      exact leased.contains_root
    · obtain ⟨_, leased⟩ := kept.lost domain lost
      exact leased.contains_root
  case taken =>
    intro domain lives
    have member : domain.id ∈ tenancy.live.map Domain.id := List.mem_map_of_mem lives
    exact ⟨ids.isValid member, ids.not_free member⟩
  case available =>
    have length := ids.available_add_length
    rwa [List.length_map] at length

variable [RegisterPage ρ] [QuietPage ρ] {place : Nat} {domain : Domain} {given : Pool}

theorem destroy_ends (kept : tenancy.Kept total)
    (here : tenancy.platform.domains[place]? = some domain)
    (gave : tenancy.given[place]? = some given) (threshold : Option Severity) :
    (Call.destroy place).perform.Ends (tenancy.platform.fresh threshold)
      (fun reply last => tenancy.Vacates domain given reply last.state)
      (fun cause _ => ∃ reason, cause = .abort reason) := by
  obtain ⟨contexts, wired⟩ := kept.ordered.wired
  have found (absent : tenancy.platform.domains[place]? = none) : False := by
    rw [here] at absent
    cases absent
  apply (Call.perform_ends wired (.destroy place)).mono
  · intro reply last does
    cases does with
    | idle _ absent => exact (found absent).elim
    | edited _ _ _ _ edits => exact edits.elim
    | destroyed here' wired unbinding destroys domains frees =>
      cases here.symm.trans here'
      have lives : domain.holding ∈ (tenancy.platform.beside tenancy.abandoned).holdings :=
        List.mem_map_of_mem (List.mem_append_left _ (List.mem_of_getElem? here))
      refine ⟨fun {bdf entry} before => ?_, ?_⟩
      · rw [destroys.controller]
        obtain ⟨named, unnamed⟩ := unbinding.context_eq wired before
        by_cases names : entry.Names domain.table.root
        · have own : entry = .binding domain.table.root domain.id :=
            kept.separate.entry_eq lives before names
          rw [if_pos own]
          exact (named names).1
        · have other : entry ≠ .binding domain.table.root domain.id := by
            rintro rfl
            have aligned := (kept.separate.within domain.holding lives).1
            exact names ⟨ContextEntry.present_binding, ContextEntry.table_binding aligned⟩
          rw [if_neg other]
          exact unnamed names
      · obtain ⟨lent, gave', leased⟩ := exists_of_forall₂ kept.leased here
        cases gave.symm.trans gave'
        exact ⟨_, rfl, leased.restored frees⟩
  · rintro cause last (aborted | ⟨error, _, does⟩)
    · exact aborted
    · cases does with
      | idle _ absent => exact (found absent).elim
      | edited _ _ _ _ edits => exact edits.elim

theorem create_ends (kept : tenancy.Kept total) (pool : Pool) (buffers : List DmaBuffer)
    (threshold : Option Severity) :
    (Call.create pool buffers).perform.Ends (tenancy.platform.fresh threshold)
      (fun _ last => tenancy.Unused last.state) (fun _ _ => True) := by
  obtain ⟨contexts, wired⟩ := kept.ordered.wired
  apply (Call.perform_ends wired (.create pool buffers)).mono _ fun _ _ _ => trivial
  intro reply last does
  cases does with
  | idle _ idles => exact idles.elim
  | edited _ _ _ _ edits => exact edits.elim
  | @created _ _ domain _ _ made taken controller domains =>
    refine ⟨domain, domains, fun bdf entry now present => ?_⟩
    rw [controller] at now
    obtain ⟨holding, member, rfl⟩ := kept.separate.bound now present
    rw [ContextEntry.domain_binding]
    rintro same
    have fresh := (List.nodup_cons.mp (kept.ids.take taken).nodup_taken).1
    exact fresh (same ▸ List.mem_map_of_mem member)

end Kept

open Platform (bareSample poolSample otherPoolSample bufferSample deviceSample fits_samples
  not_aborted_of_isOk)

theorem Reached.next {tenancy : Tenancy EmulatedUnit} (reached : Reached total tenancy)
    (call : Call) (admitted : tenancy.Admits call)
    (returned : (call.perform.outcome (tenancy.platform.fresh none)).isOk = true) :
    Reached total (tenancy.after call none) :=
  reached.call admitted (not_aborted_of_isOk returned)

end Tenancy

end DmaRemap

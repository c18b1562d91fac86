import DmaRemap.Proofs.Adoption
import DmaRemap.Proofs.Platform

namespace DmaRemap

open Bindings (Bound Unbound Unbinding)

variable {ρ : Type}

/-- What a domain holds of what the domains share. -/
structure Holding where
  id : DomainId
  root : PhysicalAddress
  window : Window

def Domain.holding (domain : Domain) : Holding :=
  ⟨domain.id, domain.table.root, domain.pool.window⟩

theorem Evolves.holding {domain : Domain} {pool : Pool}
    (evolves : Evolves domain.table domain.pool pool) :
    Domain.holding { domain with pool } = domain.holding := by
  rw [Domain.holding, evolves.window, Domain.holding]

namespace Platform

variable {platform platform' : Platform ρ} {place : Nat} {domain domain' : Domain}

def holdings (platform : Platform ρ) : List Holding :=
  platform.domains.map Domain.holding

/-- Nothing that a domain shares changes when its state does. -/
theorem holdings_of_set {after : Platform ρ} (here : platform.domains[place]? = some domain)
    (domains : after.domains = platform.domains.set place domain')
    (same : domain'.holding = domain.holding) : after.holdings = platform.holdings := by
  rw [holdings, domains, List.map_set, same, ← List.map_set, set_domains here, holdings]

theorem holdings_of_eraseIdx {after : Platform ρ}
    (domains : after.domains = platform.domains.eraseIdx place) :
    after.holdings = platform.holdings.eraseIdx place := by
  rw [holdings, domains, ← List.eraseIdx_map, holdings]

theorem getElem?_holdings (here : platform.domains[place]? = some domain) :
    platform.holdings[place]? = some domain.holding := by
  rw [holdings, List.getElem?_map, here, Option.map_some]

/-- The bindings work, the ids are counted, and every domain has a valid one. -/
structure Ordered (platform : Platform ρ) : Prop where
  wired : ∃ contexts, platform.machine.controller.bindings.Wired contexts
  ids : platform.machine.controller.ids.Counted
  valid : ∀ holding ∈ platform.holdings, holding.id.isValid = true

/-- The pools of the domains are apart, and every device that is bound is bound to a domain that
lives. -/
structure Separate (platform : Platform ρ) : Prop where
  within : ∀ holding ∈ platform.holdings, holding.window.Contains holding.root
  apart : platform.holdings.Pairwise fun holding other => holding.window.Apart other.window
  bound : ∀ {bdf entry}, platform.machine.controller.bindings.context bdf = .ok entry →
    entry.present = true → ∃ holding ∈ platform.holdings, entry = .binding holding.root holding.id

theorem Separate.eq_of_root {platform : Platform ρ} (separate : platform.Separate)
    {holding other : Holding} (member : holding ∈ platform.holdings)
    (also : other ∈ platform.holdings) (same : holding.root = other.root) : holding = other := by
  by_contra different
  have symmetric : Std.Symm fun holding other : Holding => holding.window.Apart other.window :=
    ⟨fun _ _ => Or.symm⟩
  exact (separate.apart.forall member also different).ne (separate.within holding member)
    (separate.within other also) same

theorem Separate.entry_eq (separate : platform.Separate) {holding : Holding}
    (member : holding ∈ platform.holdings) {bdf : Bdf} {entry : ContextEntry}
    (before : platform.machine.controller.bindings.context bdf = .ok entry)
    (names : entry.Names holding.root) : entry = .binding holding.root holding.id := by
  obtain ⟨other, also, rfl⟩ := separate.bound before names.1
  have table := names.2
  rw [ContextEntry.table_binding (separate.within other also).1] at table
  rw [separate.eq_of_root also member (Except.ok.inj table)]

theorem Separate.not_names (separate : platform.Separate) {window : Window}
    (apart : ∀ holding ∈ platform.holdings, window.Apart holding.window) {root : PhysicalAddress}
    (within : window.Contains root) {bdf : Bdf} {entry : ContextEntry}
    (before : platform.machine.controller.bindings.context bdf = .ok entry) :
    ¬entry.Names root := by
  intro names
  obtain ⟨holding, member, rfl⟩ := separate.bound before names.1
  have table := names.2
  rw [ContextEntry.table_binding (separate.within holding member).1] at table
  exact (apart holding member).ne within (separate.within holding member)
    (Except.ok.inj table).symm

/-- With the holdings of a platform that is in order, only what the devices are bound to is left. -/
theorem Separate.of_holdings (separate : platform.Separate)
    (same : platform'.holdings = platform.holdings)
    (bound : ∀ {bdf entry}, platform'.machine.controller.bindings.context bdf = .ok entry →
      entry.present = true →
      ∃ holding ∈ platform.holdings, entry = .binding holding.root holding.id) :
    platform'.Separate := by
  obtain ⟨within, apart, _⟩ := separate
  rw [← same] at within apart bound
  exact ⟨within, apart, bound⟩

theorem Separate.cons {holding : Holding} (separate : platform.Separate)
    (holdings : platform'.holdings = holding :: platform.holdings)
    (controller : platform'.machine.controller.bindings = platform.machine.controller.bindings)
    (within : holding.window.Contains holding.root)
    (apart : ∀ other ∈ platform.holdings, holding.window.Apart other.window) :
    platform'.Separate := by
  refine ⟨?_, ?_, ?_⟩
  · rw [holdings, List.forall_mem_cons]
    exact ⟨within, separate.within⟩
  · rw [holdings, List.pairwise_cons]
    exact ⟨apart, separate.apart⟩
  · rw [controller, holdings]
    intro bdf entry now present
    obtain ⟨other, member, same⟩ := separate.bound now present
    exact ⟨other, List.mem_cons_of_mem _ member, same⟩

theorem Separate.eraseIdx {holding : Holding} (separate : platform.Separate)
    (holdings : platform'.holdings = platform.holdings.eraseIdx place)
    (here : platform.holdings[place]? = some holding)
    (left : ∀ {bdf entry}, platform'.machine.controller.bindings.context bdf = .ok entry →
      entry.present = true → platform.machine.controller.bindings.context bdf = .ok entry ∧
        ¬entry.Names holding.root) : platform'.Separate := by
  refine ⟨fun other member => ?_, ?_, fun {bdf entry} now present => ?_⟩
  · rw [holdings] at member
    exact separate.within other (List.mem_of_mem_eraseIdx member)
  · rw [holdings]
    exact separate.apart.sublist (List.eraseIdx_sublist ..)
  · obtain ⟨before, unnamed⟩ := left now present
    obtain ⟨other, member, rfl⟩ := separate.bound before present
    refine ⟨other, ?_, rfl⟩
    obtain ⟨found, at_found⟩ := List.mem_iff_getElem?.mp member
    rw [holdings, List.mem_eraseIdx_iff_getElem?]
    refine ⟨found, ?_, at_found⟩
    rintro rfl
    cases here.symm.trans at_found
    exact unnamed ⟨present, ContextEntry.table_binding (separate.within _ member).1⟩

/-- The pools of the domains hold their tables, and links can name all their nodes. -/
def Translates (platform : Platform ρ) : Prop :=
  ∀ domain ∈ platform.domains, domain.table.format.Fits domain.pool ∧
    ∃ branches, domain.table.Held domain.pool branches

/-- Whether links can name all nodes of a pool that a call is given. -/
def Fits : Call → Prop
  | .create pool _ => Format.secondLevel.Fits pool
  | _ => True

/-- Whether a domain that a call creates is given a pool apart from those of the others. No domain
is given up: it would keep its pool, and devices might be bound to it. -/
def Separates (platform : Platform ρ) : Call → Prop
  | .create pool _ => ∀ holding ∈ platform.holdings, pool.window.Apart holding.window
  | .abandon _ => False
  | _ => True

end Platform

namespace Call.Does

variable {start last : Journaled (Platform ρ)} {call : Call} {reply : Except IommuError Reply}

theorem ordered (does : call.Does start reply last) (ordered : start.state.Ordered) :
    last.state.Ordered := by
  obtain ⟨⟨contexts, wired⟩, ids, valid⟩ := ordered
  cases does with
  | idle same =>
    rw [same]
    exact ⟨⟨contexts, wired⟩, ids, valid⟩
  | created made taken controller domains =>
    have fresh := DomainIds.isValid_of_take taken
    refine ⟨⟨contexts, by rwa [controller]⟩, controller ▸ ids.take taken, ?_⟩
    rw [Platform.holdings, domains]
    intro holding member
    rcases List.mem_cons.mp member with rfl | before
    · exact fresh
    · exact valid holding before
  | uncreated wired uncreated domains =>
    refine ⟨?_, ?_, by rwa [Platform.holdings, domains]⟩
    · rcases uncreated.bindings with same | ⟨_, _, _, _, middle, _, same, unbinding⟩
      · exact ⟨_, by rwa [same]⟩
      · exact ⟨_, same ▸ unbinding.wired⟩
    · rcases uncreated.ids with same | ⟨id, taken, handed, same⟩
      · rwa [same]
      · rw [same]
        exact (ids.take handed).giveBack id
  | edited here evolves controller domains =>
    refine ⟨⟨contexts, by rwa [controller]⟩, by rwa [controller], ?_⟩
    rwa [Platform.holdings_of_set here domains evolves.holding]
  | bound here bound _ _ controller domains =>
    refine ⟨by rw [controller]; exact bound.rebinds.wired, by rwa [controller], ?_⟩
    rwa [Platform.holdings_of_set here domains rfl]
  | unbound here unbound _ _ controller domains =>
    refine ⟨by rw [controller]; exact unbound.wired ⟨contexts, wired⟩, by rwa [controller], ?_⟩
    rwa [Platform.holdings_of_set here domains rfl]
  | destroyed here wired unbinding destroys domains =>
    refine ⟨?_, ?_, ?_⟩
    · rw [destroys.controller]
      exact ⟨_, unbinding.wired⟩
    · rw [destroys.controller]
      exact ids.giveBack _
    · intro holding member
      rw [Platform.holdings_of_eraseIdx domains] at member
      exact valid holding (List.mem_of_mem_eraseIdx member)
  | abandoned controller domains =>
    refine ⟨⟨contexts, by rwa [controller]⟩, by rwa [controller], fun holding member => ?_⟩
    rw [Platform.holdings_of_eraseIdx domains] at member
    exact valid holding (List.mem_of_mem_eraseIdx member)

/-- A domain that could not be created leaves no trace in the bindings. -/
theorem uncreated_context {contexts : Fin 256 → Option PhysicalAddress} {pool : Pool}
    (wired : start.state.machine.controller.bindings.Wired contexts)
    (uncreated : Machine.Uncreated (Made pool) contexts start.state.machine.controller
      last.state.machine.controller) (separate : start.state.Separate)
    (apart : ∀ holding ∈ start.state.holdings, pool.window.Apart holding.window) (bdf : Bdf) :
    last.state.machine.controller.bindings.context bdf =
      start.state.machine.controller.bindings.context bdf := by
  rcases uncreated.bindings with same | ⟨table, now, made, first, middle, same, same', unbinding⟩
  · rw [same]
  · have before := wired.context_eq bdf
    have unnamed := separate.not_names apart made.window.2 before
    rw [← same', before, ← same]
    rw [← same] at wired before unnamed
    exact (unbinding.context_eq wired before).2 unnamed

theorem separate (does : call.Does start reply last) (ordered : start.state.Ordered)
    (separate : start.state.Separate) (separates : start.state.Separates call) :
    last.state.Separate := by
  obtain ⟨contexts, wired⟩ := ordered.wired
  cases does with
  | idle same =>
    rw [same]
    exact separate
  | @created pool _ domain _ _ made taken controller domains =>
    obtain ⟨window, within⟩ := made.window
    have holdings : last.state.holdings = domain.holding :: start.state.holdings := by
      rw [Platform.holdings, domains, List.map_cons, Platform.holdings]
    apply separate.cons holdings
    · rw [controller]
    · rwa [← window] at within
    · rw [Domain.holding, window]
      exact separates
  | @uncreated pool _ _ _ _ wired uncreated domains =>
    apply separate.of_holdings
    · rw [Platform.holdings, domains, Platform.holdings]
    · intro bdf entry now present
      rw [uncreated_context wired uncreated separate separates] at now
      exact separate.bound now present
  | edited here evolves controller domains =>
    apply separate.of_holdings (Platform.holdings_of_set here domains evolves.holding)
    rw [controller]
    exact separate.bound
  | @bound place bdf domain _ _ _ _ here bound _ _ controller domains =>
    apply separate.of_holdings (Platform.holdings_of_set here domains rfl)
    intro other entry now present
    rw [controller, bound.rebinds.context] at now
    split at now
    case isTrue =>
      cases now
      exact ⟨domain.holding, List.mem_of_getElem? (Platform.getElem?_holdings here), rfl⟩
    case isFalse => exact separate.bound now present
  | unbound here unbound _ _ controller domains =>
    apply separate.of_holdings (Platform.holdings_of_set here domains rfl)
    intro other entry now present
    rw [controller] at now
    exact separate.bound (unbound.context_of_present now present) present
  | @destroyed place domain _ _ _ _ _ here wired unbinding destroys domains =>
    apply separate.eraseIdx (Platform.holdings_of_eraseIdx domains)
      (Platform.getElem?_holdings here)
    intro bdf entry now present
    rw [destroys.controller] at now
    exact unbinding.context_of_present wired now present
  | abandoned => exact separates.elim

theorem translates (does : call.Does start reply last) (translates : start.state.Translates)
    (fits : Platform.Fits call) : last.state.Translates := by
  -- A domain that takes the place of another translates as that one does.
  have replaced {place : Nat} {domain domain' : Domain}
      (domains : last.state.domains = start.state.domains.set place domain')
      (here : start.state.domains[place]? = some domain)
      (holds : (domain.table.format.Fits domain.pool ∧
        ∃ branches, domain.table.Held domain.pool branches) →
          domain'.table.format.Fits domain'.pool ∧
            ∃ branches, domain'.table.Held domain'.pool branches) : last.state.Translates := by
    intro other member
    rw [domains] at member
    rcases List.mem_or_eq_of_mem_set member with before | rfl
    · exact translates other before
    · exact holds (translates domain (List.mem_of_getElem? here))
  cases does with
  | idle same =>
    rw [same]
    exact translates
  | created made taken controller domains =>
    intro domain member
    rw [domains] at member
    rcases List.mem_cons.mp member with rfl | before
    · exact made.held fits
    · exact translates domain before
  | uncreated wired uncreated domains =>
    intro domain member
    rw [domains] at member
    exact translates domain member
  | edited here evolves controller domains => exact replaced domains here evolves.held
  | bound here _ _ _ _ domains => exact replaced domains here id
  | unbound here _ _ _ _ domains => exact replaced domains here id
  | destroyed _ _ _ _ domains | abandoned _ domains =>
    intro domain member
    rw [domains] at member
    exact translates domain (List.mem_of_mem_eraseIdx member)

end Call.Does

namespace Platform

variable [RegisterPage ρ] {platform : Platform ρ}

omit [RegisterPage ρ] in
/-- A call starts with nothing in its journal. -/
def fresh (platform : Platform ρ) (threshold : Option Severity) : Journaled (Platform ρ) :=
  ⟨platform, { threshold }⟩

/-- The platforms that the software reaches from a unit it has taken over by calls that are admitted
and do not abort. Between two calls the registers may change in any way. -/
inductive Reached (admits : Platform ρ → Call → Prop) : Platform ρ → Prop where
  | takeOver {name : String} {pool : Pool} {interrupt : Option FaultInterrupt} {config : Config}
      {start : Journaled ρ} {controller : Controller}
      (returned : (Controller.takeOver name pool interrupt config).outcome start = .ok controller) :
      Reached admits
        ⟨⟨controller, ((Controller.takeOver name pool interrupt config).finish start).state⟩, []⟩
  | call {platform : Platform ρ} (reached : Reached admits platform) {call : Call}
      (admitted : admits platform call) {threshold : Option Severity}
      (completed : ∀ reason, call.perform.outcome (platform.fresh threshold) ≠
        .error (.abort reason)) :
      Reached admits (call.perform.finish (platform.fresh threshold)).state
  | registers {platform : Platform ρ} (reached : Reached admits platform) (page : ρ) :
      Reached admits { platform with machine := { platform.machine with page } }

end Platform

theorem Call.does_of_completed [RegisterPage ρ] [QuietPage ρ] {platform : Platform ρ}
    (ordered : platform.Ordered) {call : Call} {threshold : Option Severity}
    (completed : ∀ reason,
      call.perform.outcome (platform.fresh threshold) ≠ .error (.abort reason)) :
    ∃ reply, call.perform.outcome (platform.fresh threshold) = reply.mapError .error ∧
      call.Does (platform.fresh threshold) reply
        (call.perform.finish (platform.fresh threshold)) := by
  obtain ⟨contexts, wired⟩ := ordered.wired
  have ends : call.perform.Ends (platform.fresh threshold) _ _ := call.perform_ends wired
  rcases ends.outcome_finish with returned | ⟨cause, failed, ended⟩
  · obtain ⟨answer, returned, does⟩ := returned
    exact ⟨.ok answer, returned, does⟩
  · rcases ended with ⟨reason, rfl⟩ | ⟨error, rfl, does⟩
    · exact absurd failed (completed reason)
    · exact ⟨.error error, failed, does⟩

namespace Platform.Reached

variable [RegisterPage ρ] [QuietPage ρ] {admits : Platform ρ → Call → Prop}
  {platform : Platform ρ}

/-- What holds of a unit that was taken over, and is kept by whatever a call does and by whatever
happens to the registers, holds of every platform that is reached. -/
theorem invariant {invariant : Platform ρ → Prop}
    (taken : ∀ controller page, controller.bindings.Wired (fun _ => none) →
      (∃ limit, controller.ids = .ofLimit limit) → invariant ⟨⟨controller, page⟩, []⟩)
    (called : ∀ {start last call reply}, start.state.Ordered → invariant start.state →
      admits start.state call → Call.Does start call reply last → invariant last.state)
    (registers : ∀ platform page, invariant platform →
      invariant { platform with machine := { platform.machine with page } })
    (reached : Reached admits platform) : platform.Ordered ∧ invariant platform := by
  induction reached with
  | takeOver returned =>
    obtain ⟨wired, limit, ids⟩ := ((Controller.takeOver_gives _ _ _ _).ends _).returned returned
    exact ⟨⟨⟨_, wired⟩, ids ▸ DomainIds.counted_ofLimit limit, nofun⟩,
      taken _ _ wired ⟨limit, ids⟩⟩
  | @call platform _ call admitted threshold completed ih =>
    obtain ⟨ordered, kept⟩ := ih
    obtain ⟨reply, _, does⟩ := Call.does_of_completed ordered completed
    exact ⟨does.ordered ordered, called ordered kept admitted does⟩
  | registers _ page ih =>
    obtain ⟨ordered, kept⟩ := ih
    exact ⟨⟨ordered.wired, ordered.ids, ordered.valid⟩, registers _ page kept⟩

/-- If every domain is given a pool of its own, devices are bound only to domains that live. -/
theorem separate (reached : Reached Separates platform) :
    platform.Ordered ∧ platform.Separate := by
  refine reached.invariant ?taken ?called ?registers
  case taken =>
    refine fun controller page wired _ => ⟨nofun, .nil, fun {bdf entry} holds present => ?_⟩
    cases (wired.context_eq bdf).symm.trans holds
    cases ContextEntry.present_absent.symm.trans present
  case called => exact fun ordered kept admitted does => does.separate ordered kept admitted
  case registers =>
    exact fun platform _ separate => ⟨separate.within, separate.apart, separate.bound⟩

/-- If every domain is given a pool that links can name, then all domains translate. -/
theorem translates (reached : Reached (fun _ => Fits) platform) :
    platform.Ordered ∧ platform.Translates :=
  reached.invariant (fun _ _ _ _ => nofun)
    (fun _ kept admitted does => does.translates kept admitted) fun _ _ => id

end Platform.Reached

namespace Platform

open Forest (samplePool silent)

/-- The platform that taking over a unit leads to, if it returns. -/
def taken [RegisterPage ρ] (takeOver : Action ρ IommuError Controller) (start : Journaled ρ)
    (returns : (takeOver.outcome start).toOption.isSome = true) : Platform ρ :=
  ⟨⟨(takeOver.outcome start).toOption.get returns, (takeOver.finish start).state⟩, []⟩

theorem reached_taken [RegisterPage ρ] {admits : Platform ρ → Call → Prop} {name : String}
    {pool : Pool} {interrupt : Option FaultInterrupt} {config : Config} {start : Journaled ρ}
    (returns :
      ((Controller.takeOver name pool interrupt config).outcome start).toOption.isSome = true) :
    Reached admits (taken (Controller.takeOver name pool interrupt config) start returns) :=
  .takeOver (eq_ok_get returns)

/-- An emulated unit in caching mode. -/
def unitSample : Journaled EmulatedUnit := ⟨.create { cachingMode := true }, silent⟩

/-- The unit once it was taken over. -/
def bareSample : Platform EmulatedUnit :=
  taken (Controller.takeOver "unit" samplePool none (.strict 4)) unitSample (by decide +kernel)

theorem reached_bareSample {admits : Platform EmulatedUnit → Call → Prop} :
    Reached admits bareSample :=
  reached_taken _

/-- Pools of four nodes for the tables of two domains. -/
def poolSample : Pool := { samplePool with
  base := ⟨0x200 <<< 12, by decide⟩, aligned := by decide, fits := by decide }

def otherPoolSample : Pool := { samplePool with
  base := ⟨0x300 <<< 12, by decide⟩, aligned := by decide, fits := by decide }

theorem fits_samples :
    Format.secondLevel.Fits poolSample ∧ Format.secondLevel.Fits otherPoolSample := by
  constructor
  all_goals
    intro index
    have last : index.val < 4 := index.isLt
    simp only [Pool.addressOf, poolSample, otherPoolSample, Format.outputBits]
    omega

def deviceSample : Bdf := .ofRoutingId (.ofNat 8)

/-- The platform after a call. -/
def next (platform : Platform EmulatedUnit) (call : Call) : Platform EmulatedUnit :=
  (call.perform.finish (platform.fresh none)).state

def bufferSample : DmaBuffer := ⟨⟨1 <<< 12, by decide⟩, ⟨5 <<< 12, by decide⟩, 2 <<< 12⟩

/-- A domain that maps two pages. -/
def domainSample : Platform EmulatedUnit :=
  bareSample.next (.create poolSample [bufferSample])

/-- A second domain beside it. A device is bound to the first, which now comes last. -/
def pairSample : Platform EmulatedUnit :=
  (domainSample.next (.create otherPoolSample [])).next (.enable 1 deviceSample)

/-- The platform once the device was bound to the second domain instead. -/
def takenSample : Platform EmulatedUnit :=
  pairSample.next (.enable 0 deviceSample)

theorem not_aborted_of_isOk {ε α : Type} {outcome : Except (Failure ε) α}
    (ok : outcome.isOk = true) (reason : Abort) : outcome ≠ .error (.abort reason) := by
  rintro rfl
  cases ok

theorem Reached.next {admits : Platform EmulatedUnit → Call → Prop}
    {platform : Platform EmulatedUnit} (reached : Reached admits platform) {call : Call}
    (admitted : admits platform call)
    (returned : (call.perform.outcome (platform.fresh none)).isOk = true) :
    Reached admits (platform.next call) :=
  reached.call admitted (not_aborted_of_isOk returned)

theorem reached_pairSample {admits : Platform EmulatedUnit → Call → Prop}
    (first : admits bareSample (.create poolSample [bufferSample]))
    (second : admits domainSample (.create otherPoolSample []))
    (third : admits (domainSample.next (.create otherPoolSample [])) (.enable 1 deviceSample)) :
    Reached admits pairSample := by
  refine ((reached_bareSample.next first ?_).next second ?_).next third ?_
  all_goals decide +kernel

end Platform

end DmaRemap

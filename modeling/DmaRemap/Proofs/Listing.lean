import DmaRemap.Proofs.Runs

/-! The devices that a domain lists, and those that the unit has bound to its table. The lists
belong to the domains and the bindings to the unit, so a domain that takes a device over changes the
binding, but not the list of the domain that it takes the device from. -/

namespace DmaRemap

open Bindings (Bound Unbound)

variable {ρ : Type}

theorem Bdf.eq_of_compare {bdf other : Bdf} (same : compare bdf other = .eq) : bdf = other := by
  obtain ⟨bus, device, function⟩ := bdf
  obtain ⟨bus', device', function'⟩ := other
  change ((compare bus.val bus'.val).then (compare device.val device'.val)).then
    (compare function.val function'.val) = .eq at same
  simp only [Ordering.then_eq_eq, Nat.compare_eq_eq] at same
  obtain ⟨⟨sameBus, sameDevice⟩, sameFunction⟩ := same
  rw [Fin.ext sameBus, Fin.ext sameDevice, Fin.ext sameFunction]

theorem Domain.mem_insertDevice {bdf other : Bdf} {devices : List Bdf} :
    other ∈ insertDevice bdf devices ↔ other = bdf ∨ other ∈ devices := by
  induction devices with
  | nil => rw [insertDevice, List.mem_singleton, or_iff_left List.not_mem_nil]
  | cons first rest ih =>
    rw [insertDevice]
    split
    case h_1 => exact List.mem_cons
    case h_2 same =>
      cases Bdf.eq_of_compare same
      rw [or_iff_right_of_imp]
      rintro rfl
      exact List.mem_cons_self
    case h_3 =>
      rw [List.mem_cons, ih, List.mem_cons]
      exact or_left_comm

namespace Bindings

variable {start last : Journaled Bindings} {bdf : Bdf} {table table' : PhysicalAddress}
  {domain : DomainId} {entry : ContextEntry}

theorem Bound.replaced_of_names {outcome : BindOutcome}
    (bound : Bound start bdf table domain outcome last) (aligned : 4096 ∣ table.val)
    (different : table ≠ table') (before : start.state.context bdf = .ok entry)
    (names : entry.Names table') : outcome = .replaced entry := by
  obtain ⟨previous, held, known⟩ := bound.previous
  cases held.symm.trans before
  cases outcome with
  | unchanged =>
    rw [known] at names
    exact absurd (Except.ok.inj ((ContextEntry.table_binding aligned).symm.trans names.2)) different
  | installed => cases known.symm.trans names.1
  | replaced found => rw [known.1]

theorem Unbound.foreign_of_names {outcome : UnbindOutcome}
    (unbound : Unbound start bdf table outcome last) (different : table ≠ table')
    (before : start.state.context bdf = .ok entry) (names : entry.Names table') :
    outcome = .foreign table' := by
  obtain ⟨_, held, known⟩ := unbound
  cases held.symm.trans before
  cases outcome with
  | absent => cases known.1.symm.trans names.1
  | removed => exact absurd (Except.ok.inj (known.1.symm.trans names.2)) different
  | foreign found => rw [Except.ok.inj (known.1.symm.trans names.2)]

theorem Unbound.absent {outcome : UnbindOutcome} (unbound : Unbound start bdf table outcome last)
    (now : last.state.context bdf = .ok entry) : entry.present = false := by
  obtain ⟨previous, held, known⟩ := unbound
  have cleared (clears : Clears start last bdf previous) : entry.present = false := by
    rw [clears.rebinds.context, if_pos rfl] at now
    cases now
    exact ContextEntry.present_cleared
  cases outcome with
  | absent =>
    obtain ⟨absent, same⟩ := known
    rw [same] at now
    cases held.symm.trans now
    exact absent
  | removed => exact cleared known.2
  | foreign => exact cleared known.2.2

theorem Unbound.context_of_ne {outcome : UnbindOutcome}
    (unbound : Unbound start bdf table outcome last) {other : Bdf} (different : other ≠ bdf) :
    last.state.context other = start.state.context other := by
  obtain ⟨_, _, known⟩ := unbound
  cases outcome with
  | absent => rw [known.2]
  | removed => rw [known.2.rebinds.context, if_neg different]
  | foreign => rw [known.2.2.rebinds.context, if_neg different]

end Bindings

namespace Platform

variable {platform : Platform ρ} {place place' : Nat} {domain domain' : Domain} {bdf : Bdf}

/-- Whether the entry of a device is present and names the table of a domain. -/
def Binds (platform : Platform ρ) (bdf : Bdf) (domain : Domain) : Prop :=
  ∃ entry, platform.machine.controller.bindings.context bdf = .ok entry ∧
    entry.Names domain.table.root

theorem Separate.root_ne (separate : platform.Separate)
    (here : platform.domains[place]? = some domain)
    (there : platform.domains[place']? = some domain') (different : place ≠ place') :
    domain.table.root ≠ domain'.table.root := by
  have apart : domain.pool.window.Apart domain'.pool.window := by
    obtain ⟨inside, found⟩ := List.getElem?_eq_some_iff.mp (getElem?_holdings here)
    obtain ⟨inside', found'⟩ := List.getElem?_eq_some_iff.mp (getElem?_holdings there)
    have apart := List.pairwise_iff_getElem.mp separate.apart
    rcases Nat.lt_or_gt_of_ne different with before | after
    · have ordered := apart place place' inside inside' before
      rwa [found, found'] at ordered
    · have ordered := apart place' place inside' inside after
      rw [found, found'] at ordered
      exact ordered.symm
  exact apart.ne (separate.within _ (List.mem_of_getElem? (getElem?_holdings here)))
    (separate.within _ (List.mem_of_getElem? (getElem?_holdings there)))

theorem Binds.root_eq (binds : platform.Binds bdf domain) (binds' : platform.Binds bdf domain') :
    domain.table.root = domain'.table.root := by
  obtain ⟨entry, before, names⟩ := binds
  obtain ⟨_, before', names'⟩ := binds'
  cases before.symm.trans before'
  exact Except.ok.inj (names.2.symm.trans names'.2)

end Platform

/-- Whether a call takes a device from a domain that it is not called on: it overwrites or clears an
entry that binds the device to another table. -/
def Call.Poaches (bdf : Bdf) : Call → Except IommuError Reply → Prop
  | .enable _ device, .ok (.bound (.replaced _)) => device = bdf
  | .disable _ device, .ok (.unbound (.foreign _)) => device = bdf
  | _, _ => False

/-- What a domain that lives after a call lists and binds of a device: both since that call, or
neither, or what a domain did that lived before it, unless the device was taken from that. -/
inductive Listing (start last : Platform ρ) (bdf : Bdf) (poached : Prop) (domain : Domain) :
    Prop where
  | both (listed : bdf ∈ domain.devices) (binds : last.Binds bdf domain)
  | neither (unlisted : bdf ∉ domain.devices) (unbound : ¬last.Binds bdf domain)
  | before {old : Domain} (lived : old ∈ start.domains)
      (devices : bdf ∈ domain.devices ↔ bdf ∈ old.devices)
      (bound : last.Binds bdf domain → start.Binds bdf old)
      (binds : start.Binds bdf old → last.Binds bdf domain ∨ poached)

/-- A call that leaves the list of a domain and the entry of the device alone. -/
theorem Listing.of_context {start last : Platform ρ} {bdf : Bdf} {poached : Prop}
    {domain old : Domain} (lived : old ∈ start.domains) (root : old.table.root = domain.table.root)
    (devices : bdf ∈ domain.devices ↔ bdf ∈ old.devices)
    (same : last.machine.controller.bindings.context bdf =
      start.machine.controller.bindings.context bdf) : Listing start last bdf poached domain := by
  refine .before lived devices ?_ fun binds => .inl ?_
  · rw [Platform.Binds, Platform.Binds, same, root]
    exact id
  · rwa [Platform.Binds, same, ← root]

section Entries

variable {start last : Platform ρ} {bdf device : Bdf} {poached : Prop} {owner other : Domain}
  {devices : List Bdf} {journal : Journal} {middle : Journaled Bindings}

theorem Listing.of_made {pool : Pool} {buffers : List DmaBuffer} (separate : start.Separate)
    (separates : start.Separates (.create pool buffers)) (made : Made pool other.table other.pool)
    (bindings : last.machine.controller.bindings = start.machine.controller.bindings)
    (empty : other.devices = []) : Listing start last bdf poached other := by
  refine .neither (by rw [empty]; exact List.not_mem_nil) ?_
  rintro ⟨entry, before, names⟩
  rw [bindings] at before
  exact separate.not_names separates made.window.2 before names

section Bound

variable {outcome : BindOutcome}
  (bound : Bound ⟨start.machine.controller.bindings, journal⟩ device owner.table.root owner.id
    outcome middle)
  (bindings : last.machine.controller.bindings = middle.state)
  (aligned : 4096 ∣ owner.table.root.val)
include bound bindings aligned

theorem Listing.of_bound (listed : device ∈ devices) :
    Listing start last device poached { owner with devices } := by
  have now := bound.rebinds.context device
  rw [← bindings, if_pos rfl] at now
  exact .both listed ⟨_, now, ContextEntry.present_binding, ContextEntry.table_binding aligned⟩

/-- A device that is bound to one domain is bound to no other, and was taken from one that it was
bound to. -/
theorem Listing.of_bound_elsewhere {place : Nat} (member : other ∈ start.domains)
    (apart : owner.table.root ≠ other.table.root) :
    Listing start last device
      (Call.Poaches device (.enable place device) (.ok (.bound outcome))) other := by
  refine .before member .rfl ?_ ?_
  · rintro ⟨entry, held, names⟩
    rw [bindings, bound.rebinds.context, if_pos rfl] at held
    cases held
    exact absurd (Except.ok.inj ((ContextEntry.table_binding aligned).symm.trans names.2)) apart
  · rintro ⟨entry, before, names⟩
    rw [bound.replaced_of_names aligned apart before names]
    exact .inr rfl

end Bound

section Unbound

variable {outcome : UnbindOutcome}
  (unbound : Unbound ⟨start.machine.controller.bindings, journal⟩ device owner.table.root outcome
    middle)
  (bindings : last.machine.controller.bindings = middle.state)
include unbound bindings

theorem Listing.of_unbound (unlisted : device ∉ devices) :
    Listing start last device poached { owner with devices } := by
  refine .neither unlisted ?_
  rintro ⟨entry, now, names⟩
  rw [bindings] at now
  cases (unbound.absent now).symm.trans names.1

/-- A device that is unbound through one domain was taken from another one that it was bound to. -/
theorem Listing.of_unbound_elsewhere {place : Nat} (member : other ∈ start.domains)
    (apart : owner.table.root ≠ other.table.root) :
    Listing start last device
      (Call.Poaches device (.disable place device) (.ok (.unbound outcome))) other := by
  refine .before member .rfl ?_ ?_
  · rintro ⟨entry, now, names⟩
    rw [bindings] at now
    exact ⟨entry, unbound.context_of_present now names.1, names⟩
  · rintro ⟨entry, before, names⟩
    rw [unbound.foreign_of_names apart before names]
    exact .inr rfl

end Unbound

theorem Listing.of_unbinding {contexts : Fin 256 → Option PhysicalAddress}
    (wired : start.machine.controller.bindings.Wired contexts)
    (unbinding : Bindings.Unbinding ⟨start.machine.controller.bindings, journal⟩ middle contexts
      owner.table.root (List.finRange 256))
    (bindings : last.machine.controller.bindings = middle.state) (member : other ∈ start.domains)
    (apart : other.table.root ≠ owner.table.root) : Listing start last bdf poached other := by
  refine .before member .rfl ?_ ?_
  · rintro ⟨entry, now, names⟩
    rw [bindings] at now
    exact ⟨entry, (unbinding.context_of_present wired now names.1).1, names⟩
  · rintro ⟨entry, before, names⟩
    have unnamed : ¬entry.Names owner.table.root := fun names' =>
      apart (Except.ok.inj (names.2.symm.trans names'.2))
    refine .inl ⟨entry, ?_, names⟩
    rw [bindings]
    exact (unbinding.context_eq wired before).2 unnamed

end Entries

theorem getElem?_set_cases {α : Type} {xs : List α} {place other : Nat} {x y : α}
    (found : (xs.set place x)[other]? = some y) :
    (other = place ∧ y = x) ∨ (place ≠ other ∧ xs[other]? = some y) := by
  by_cases same : place = other
  · subst same
    rw [List.getElem?_set, if_pos rfl] at found
    split at found
    case isTrue => exact .inl ⟨rfl, (Option.some.inj found).symm⟩
    case isFalse => cases found
  · rw [List.getElem?_set_ne same] at found
    exact .inr ⟨same, found⟩

/-- A call on one domain that changes the entry of one device, and on the list of the domain nothing
but that device. -/
theorem Listing.of_set {start last : Platform ρ} {call : Call} {reply : Except IommuError Reply}
    {place place' : Nat} {owner changed domain : Domain} {bdf : Bdf} (device : Bdf)
    (separate : start.Separate) (there : start.domains[place]? = some owner)
    (domains : last.domains = start.domains.set place changed)
    (root : owner.table.root = changed.table.root)
    (context : ∀ other ≠ device, last.machine.controller.bindings.context other =
      start.machine.controller.bindings.context other)
    (devices : ∀ other ≠ device, other ∈ changed.devices ↔ other ∈ owner.devices)
    (here : Listing start last device (call.Poaches device reply) changed)
    (elsewhere : ∀ other ∈ start.domains, owner.table.root ≠ other.table.root →
      Listing start last device (call.Poaches device reply) other)
    (found : last.domains[place']? = some domain) :
    Listing start last bdf (call.Poaches bdf reply) domain := by
  rw [domains] at found
  rcases getElem?_set_cases found with ⟨rfl, rfl⟩ | ⟨different, lived⟩
  · by_cases same : bdf = device
    · exact same ▸ here
    · exact .of_context (List.mem_of_getElem? there) root (devices bdf same) (context bdf same)
  · have member := List.mem_of_getElem? lived
    by_cases same : bdf = device
    · exact same ▸ elsewhere _ member (separate.root_ne there lived different)
    · exact .of_context member rfl .rfl (context bdf same)

namespace Call.Does

variable {start last : Journaled (Platform ρ)} {call : Call} {reply : Except IommuError Reply}

theorem listing (does : call.Does start reply last) (ordered : start.state.Ordered)
    (separate : start.state.Separate) (separates : start.state.Separates call) {place : Nat}
    {domain : Domain} (here : last.state.domains[place]? = some domain) (bdf : Bdf) :
    Listing start.state last.state bdf (call.Poaches bdf reply) domain := by
  obtain ⟨contexts, wired⟩ := ordered.wired
  cases does with
  | idle same =>
    rw [same] at here ⊢
    exact .of_context (List.mem_of_getElem? here) rfl .rfl rfl
  | created made taken controller domains empty =>
    rw [domains] at here
    cases place with
    | zero =>
      cases here
      exact .of_made separate separates made (by rw [controller]) empty
    | succ place => exact .of_context (List.mem_of_getElem? here) rfl .rfl (by rw [controller])
  | uncreated wired uncreated domains =>
    rw [domains] at here
    exact .of_context (List.mem_of_getElem? here) rfl .rfl
      (uncreated_context wired uncreated separate separates bdf)
  | edited there evolves controller domains =>
    rw [domains] at here
    rcases getElem?_set_cases here with ⟨rfl, rfl⟩ | ⟨_, here⟩
    · exact .of_context (List.mem_of_getElem? there) rfl .rfl (by rw [controller])
    · exact .of_context (List.mem_of_getElem? here) rfl .rfl (by rw [controller])
  | @bound _ device owner _ middle _ _ there bound _ _ controller domains listed =>
    have aligned := (separate.within _ (List.mem_of_getElem? (Platform.getElem?_holdings there))).1
    have bindings : last.state.machine.controller.bindings = middle.state := by rw [controller]
    refine .of_set device separate there domains rfl ?context ?devices
      (.of_bound bound bindings aligned ?listed)
      (fun _ => .of_bound_elsewhere bound bindings aligned) here
    case context =>
      intro other different
      rw [bindings, bound.rebinds.context, if_neg different]
    case devices =>
      intro other different
      rw [listed, Domain.mem_insertDevice, or_iff_right different]
    case listed => exact listed ▸ Domain.mem_insertDevice.mpr (.inl rfl)
  | @unbound _ device owner _ middle _ _ there unbound _ _ controller domains listed =>
    have bindings : last.state.machine.controller.bindings = middle.state := by rw [controller]
    refine .of_set device separate there domains rfl ?context ?devices
      (.of_unbound unbound bindings (by simp [listed]))
      (fun _ => .of_unbound_elsewhere unbound bindings) here
    case context => exact fun other different => bindings ▸ unbound.context_of_ne different
    case devices =>
      intro other different
      simp [listed, different]
  | @destroyed named owner _ _ middle _ _ there wired unbinding destroys domains =>
    have member := List.mem_of_getElem? here
    rw [domains, List.mem_eraseIdx_iff_getElem?] at member
    obtain ⟨other, different, lived⟩ := member
    exact .of_unbinding wired unbinding (by rw [destroys.controller]) (List.mem_of_getElem? lived)
      (separate.root_ne lived there different)
  | abandoned => exact separates.elim

end Call.Does

namespace Platform

variable [RegisterPage ρ] {platform : Platform ρ} {past : List (Call × Except IommuError Reply)}

/-- The platforms that the software reaches from a unit it has taken over, with the calls that led
there and what they answered, the last call first. Every domain is given a pool of its own. -/
inductive History : List (Call × Except IommuError Reply) → Platform ρ → Prop where
  | takeOver {name : String} {pool : Pool} {interrupt : Option FaultInterrupt} {config : Config}
      {start : Journaled ρ} {controller : Controller}
      (returned : (Controller.takeOver name pool interrupt config).outcome start = .ok controller) :
      History []
        ⟨⟨controller, ((Controller.takeOver name pool interrupt config).finish start).state⟩, []⟩
  | call {past : List (Call × Except IommuError Reply)} {platform : Platform ρ}
      (history : History past platform) {call : Call} (separates : platform.Separates call)
      {threshold : Option Severity} {reply : Except IommuError Reply}
      (answered : call.perform.outcome (platform.fresh threshold) = reply.mapError .error) :
      History ((call, reply) :: past) (call.perform.finish (platform.fresh threshold)).state
  | registers {past : List (Call × Except IommuError Reply)} {platform : Platform ρ}
      (history : History past platform) (page : ρ) :
      History past { platform with machine := { platform.machine with page } }

/-- An answer is not an abort, and what was answered is determined. -/
theorem answer_eq {ε α : Type} {reply reply' : Except ε α}
    (same : (reply.mapError .error : Except (Failure ε) α) = reply'.mapError .error) :
    reply = reply' := by
  cases reply <;> cases reply' <;> cases same <;> rfl

theorem answer_ne_abort {ε α : Type} (reply : Except ε α) (reason : Abort) :
    reply.mapError Failure.error ≠ .error (.abort reason) := by
  cases reply <;> exact nofun

theorem History.reached (history : History past platform) : Reached Separates platform := by
  induction history with
  | takeOver returned => exact .takeOver returned
  | call _ separates answered ih =>
    exact ih.call separates fun reason => answered ▸ answer_ne_abort _ reason
  | registers _ page ih => exact ih.registers page

variable [QuietPage ρ]

/-- A domain lists every device that is bound to its table, and another device only if that was
taken from it. -/
theorem History.lists (history : History past platform) (bdf : Bdf) :
    ∀ domain ∈ platform.domains, (platform.Binds bdf domain → bdf ∈ domain.devices) ∧
      (bdf ∈ domain.devices →
        platform.Binds bdf domain ∨ ∃ step ∈ past, step.1.Poaches bdf step.2) := by
  induction history with
  | takeOver returned => exact nofun
  | @call past platform history call separates threshold reply answered ih =>
    intro domain member
    obtain ⟨ordered, separate⟩ := history.reached.separate
    obtain ⟨_, answered', does⟩ := Call.does_of_completed ordered fun reason =>
      answered ▸ answer_ne_abort reply reason
    cases answer_eq (answered'.symm.trans answered)
    obtain ⟨place, here⟩ := List.mem_iff_getElem?.mp member
    rcases does.listing ordered separate separates here bdf with
      ⟨listed, binds⟩ | ⟨unlisted, unbound⟩ | ⟨lived, devices, bound, binds⟩
    · exact ⟨fun _ => listed, fun _ => .inl binds⟩
    · exact ⟨fun binds => absurd binds unbound, fun listed => absurd listed unlisted⟩
    · obtain ⟨complete, exact⟩ := ih _ lived
      refine ⟨fun now => devices.mpr (complete (bound now)), fun listed => ?_⟩
      rcases exact (devices.mp listed) with before | ⟨step, among, poached⟩
      · exact (binds before).imp_right fun poached => ⟨_, List.mem_cons_self, poached⟩
      · exact .inr ⟨step, List.mem_cons_of_mem _ among, poached⟩
  | registers _ page ih => exact ih

/-- A domain lists every device that is bound to its table. As long as no call takes a device from a
domain that it is not called on, that domain alone lists the device which it is bound to. -/
theorem mem_devices_iff_binds (history : History past platform) :
    (∀ domain ∈ platform.domains, ∀ bdf, platform.Binds bdf domain → bdf ∈ domain.devices) ∧
      ∀ bdf, (∀ step ∈ past, ¬step.1.Poaches bdf step.2) →
        (∀ domain ∈ platform.domains, bdf ∈ domain.devices ↔ platform.Binds bdf domain) ∧
        platform.domains.Pairwise fun domain other =>
          ¬(bdf ∈ domain.devices ∧ bdf ∈ other.devices) := by
  refine ⟨fun domain member bdf => (history.lists bdf domain member).1, fun bdf untaken => ?_⟩
  have iff_binds (domain : Domain) (member : domain ∈ platform.domains) :
      bdf ∈ domain.devices ↔ platform.Binds bdf domain := by
    obtain ⟨complete, exact⟩ := history.lists bdf domain member
    refine ⟨fun listed => (exact listed).resolve_right ?_, complete⟩
    rintro ⟨step, among, poached⟩
    exact untaken step among poached
  refine ⟨iff_binds, List.pairwise_iff_getElem.mpr ?_⟩
  rintro place place' inside inside' before ⟨listed, listed'⟩
  apply history.reached.separate.2.root_ne (List.getElem?_eq_getElem inside)
    (List.getElem?_eq_getElem inside') before.ne
  exact ((iff_binds _ (List.getElem_mem inside)).mp listed).root_eq
    ((iff_binds _ (List.getElem_mem inside')).mp listed')

end Platform

namespace Platform

open Forest (samplePool silent)

theorem History.next {past : List (Call × Except IommuError Reply)}
    {platform : Platform EmulatedUnit} (history : History past platform) (call : Call)
    (separates : platform.Separates call)
    (returned : (call.perform.outcome (platform.fresh none)).isOk = true) :
    ∃ reply, call.perform.outcome (platform.fresh none) = .ok reply ∧
      History ((call, .ok reply) :: past) (platform.next call) := by
  cases answered : call.perform.outcome (platform.fresh none) with
  | error => cases answered ▸ returned
  | ok reply => exact ⟨reply, rfl, history.call separates answered⟩

/-- What a call answers of the entry before that it has bound. -/
def bindOutcome? : Reply → Option BindOutcome
  | .bound outcome => some outcome
  | _ => none

theorem history_pairSample : ∃ past, History past pairSample ∧
    ∀ step ∈ past, ¬step.1.Poaches deviceSample step.2 := by
  have taken : History [] bareSample := .takeOver (eq_ok_get _)
  obtain ⟨_, _, (first : History _ domainSample)⟩ :=
    taken.next (.create poolSample [bufferSample]) (List.forall_mem_nil _) (by decide +kernel)
  obtain ⟨_, _, second⟩ := first.next (.create otherPoolSample [])
    (by unfold Separates; decide +kernel) (by decide +kernel)
  obtain ⟨reply, answered, third⟩ := second.next (.enable 1 deviceSample) trivial
    (by decide +kernel)
  have installed : ((Call.enable 1 deviceSample).perform.outcome
      ((domainSample.next (.create otherPoolSample [])).fresh none)).toOption.bind bindOutcome? =
        some .installed := by
    decide +kernel
  have kept : ¬(Call.enable 1 deviceSample).Poaches deviceSample (.ok reply) := by
    rw [answered] at installed
    cases reply <;> cases installed
    exact id
  refine ⟨_, third, ?_⟩
  simpa [Call.Poaches] using kept

/-- The device is bound to the first of the two domains, and only that domain lists it. -/
theorem mem_devices_iff_binds_sample : ∃ past, History past pairSample ∧
    (∀ step ∈ past, ¬step.1.Poaches deviceSample step.2) ∧
    (∀ domain ∈ pairSample.domains,
      deviceSample ∈ domain.devices ↔ pairSample.Binds deviceSample domain) ∧
    pairSample.domains.Pairwise fun domain other =>
      ¬(deviceSample ∈ domain.devices ∧ deviceSample ∈ other.devices) := by
  obtain ⟨past, history, untaken⟩ := history_pairSample
  exact ⟨past, history, untaken, (mem_devices_iff_binds history).2 deviceSample untaken⟩

/-- The first domain goes on to list the device, which is not bound to it any more. -/
theorem listed_not_bound : ∃ past, History past takenSample ∧
    ∃ domain ∈ takenSample.domains, ∃ other ∈ takenSample.domains,
      domain.table.root ≠ other.table.root ∧ deviceSample ∈ domain.devices ∧
      deviceSample ∈ other.devices ∧ ¬takenSample.Binds deviceSample domain := by
  obtain ⟨past, history, _⟩ := history_pairSample
  obtain ⟨_, _, taken⟩ := history.next (.enable 0 deviceSample) trivial (by decide +kernel)
  have shown : takenSample.domains.map (fun domain => (domain.table.root, domain.devices)) =
      [(otherPoolSample.base, [deviceSample]), (poolSample.base, [deviceSample])] := by
    decide +kernel
  have different : poolSample.base ≠ otherPoolSample.base := by decide
  have context : takenSample.machine.controller.bindings.context deviceSample =
      .ok (.binding otherPoolSample.base (.ofNat 2)) := by
    decide +kernel
  obtain ⟨other, domain, domains⟩ : ∃ other domain, takenSample.domains = [other, domain] :=
    List.length_eq_two.mp (by simpa using congrArg List.length shown)
  rw [domains] at shown ⊢
  simp only [List.map_cons, List.map_nil, List.cons.injEq, Prod.mk.injEq, and_true] at shown
  obtain ⟨⟨root', devices'⟩, root, devices⟩ := shown
  refine ⟨_, taken, domain, by simp, other, by simp, by rwa [root, root'], by simp [devices],
    by simp [devices'], ?_⟩
  rintro ⟨entry, held, names⟩
  cases context.symm.trans held
  rw [root] at names
  have aligned := Nat.dvd_of_mod_eq_zero otherPoolSample.aligned
  exact different (Except.ok.inj (names.2.symm.trans (ContextEntry.table_binding aligned)))

end Platform

end DmaRemap

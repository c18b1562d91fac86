import DmaRemap.Controller.Domain
import DmaRemap.Proofs.Bindings
import DmaRemap.Proofs.DomainIds
import DmaRemap.Proofs.Handshake
import DmaRemap.Proofs.Window

namespace DmaRemap

open RemappingUnit (contextRequest iotlbRequest)

variable {ρ ε : Type}

/-- Whether every version that the software got has registers to invalidate with. -/
def OffersRegisters (log : List Effect) : Prop :=
  ∀ version ∈ log.filterMap Effect.version?,
    version.major ≤ RemappingUnit.lastRegisterInvalidation

instance (log : List Effect) : Decidable (OffersRegisters log) :=
  inferInstanceAs (Decidable (∀ version ∈ log.filterMap Effect.version?, _))

theorem OffersRegisters.of_read {log : List Effect} (offers : OffersRegisters log)
    {version : Version} (asked : version.read ∈ log) :
    version.major ≤ RemappingUnit.lastRegisterInvalidation :=
  offers version (List.mem_filterMap.mpr ⟨_, asked, version.version?_read⟩)

theorem OffersRegisters.of_subset {log log' : List Effect} (offers : OffersRegisters log')
    (within : log ⊆ log') : OffersRegisters log :=
  fun version among => offers version (List.filterMap_subset _ within among)

theorem OffersRegisters.append {log log' : List Effect} (offers : OffersRegisters log)
    (offers' : OffersRegisters log') : OffersRegisters (log ++ log') := by
  rw [OffersRegisters, List.filterMap_append]
  exact List.forall_mem_append.mpr ⟨offers, offers'⟩

theorem OffersRegisters.of_reads {version : Version}
    (offered : version.major ≤ RemappingUnit.lastRegisterInvalidation) :
    OffersRegisters [version.read] := by
  intro _ among
  rw [List.filterMap_cons_some version.version?_read, List.filterMap_nil, List.mem_singleton]
    at among
  exact among ▸ offered

theorem OffersRegisters.of_none {log : List Effect}
    (none : ∀ effect ∈ log, effect.version? = none) : OffersRegisters log := by
  intro version among
  obtain ⟨effect, member, shown⟩ := List.mem_filterMap.mp among
  cases (none effect member).symm.trans shown

theorem Domain.stays_release (table : TranslationTable) :
    (release table : Action Pool ε Unit).Keeps (Pool.Stays Effect.IsWipe) :=
  .bind (table.stays_clear fun table => ⟨table, rfl⟩) fun _ =>
    Pool.stays_destruct (fun table => ⟨table, rfl⟩) _

/-- Unless the unit has no registers to invalidate with, it was told to forget a domain, or what it
holds of a device, in the context cache first and then in the IOTLB. -/
def RemappingUnit.Flushed (unit : RemappingUnit) (domain : DomainId) (device : Option RoutingId)
    (start last : Journal) : Prop :=
  OffersRegisters last.log → start.Issues last
    [(contextRequest (some domain) device).submission,
      unit.submission (iotlbRequest (some domain))]

theorem RemappingUnit.Flushed.trans {unit : RemappingUnit} {domain : DomainId}
    {device : Option RoutingId} {start middle last : Journal}
    (flushed : unit.Flushed domain device start middle) (issues : middle.Issues last []) :
    unit.Flushed domain device start last := by
  intro offers
  have both := (flushed (offers.of_subset issues.subset)).trans issues
  rwa [List.append_nil] at both

variable [RegisterPage ρ] [QuietPage ρ]

namespace Machine

/-- A change of the bindings led to `middle`, and from there on only registers were accessed. -/
structure Rewires (start : Journaled (Machine ρ)) (middle : Journaled Bindings)
    (last : Journaled (Machine ρ)) : Prop where
  controller : last.state.controller = { start.state.controller with bindings := middle.state }
  issues : middle.journal.Issues last.journal []

theorem invalidateIotlb_ends (domain : Option DomainId) (address : VirtualAddress) (size : Nat)
    (start : Journaled (Machine ρ)) :
    (invalidateIotlb domain address size : Action (Machine ρ) ε Invalidation).Ends start
      (fun _ last => last.state.controller = start.state.controller ∧
        start.journal.Issues last.journal
          [start.state.controller.unit.submission (iotlbRequest domain)])
      (fun cause _ => ∃ reason, cause = .abort reason) := by
  unfold invalidateIotlb unit
  simp only [Action.ends_bind, Action.ends_state, Action.ends_pure, Action.ends_on]
  apply (RemappingUnit.invalidateIotlb_ends _ domain address size _).mono
  · exact fun _ _ issues => ⟨rfl, issues⟩
  · exact fun _ _ failed => failed.1

theorem invalidateAll_ends (domain : Option DomainId) (device : Option RoutingId)
    (start : Journaled (Machine ρ)) :
    (invalidateAll domain device : Action (Machine ρ) ε Invalidation).Ends start
      (fun _ last => last.state.controller = start.state.controller ∧
        start.journal.Issues last.journal [] ∧
        (OffersRegisters last.journal.log → start.journal.Issues last.journal
          [(contextRequest domain device).submission,
            start.state.controller.unit.submission (iotlbRequest domain)]))
      (fun cause _ => ∃ reason, cause = .abort reason) := by
  unfold invalidateAll unit
  simp only [Action.ends_bind, Action.ends_state, Action.ends_pure, Action.ends_on]
  apply (RemappingUnit.invalidateAll_ends _ domain device _).mono
  · intro _ last issued
    obtain ⟨version, issues⟩ := issued
    refine ⟨rfl, issues.sublist (List.nil_sublist _), fun offers => ?_⟩
    have asked : version.read ∈ last.journal.log := by
      obtain ⟨added, log, _, within⟩ := issues
      rw [log]
      exact List.mem_append_right _ (within.subset List.mem_cons_self)
    rw [if_pos (offers.of_read asked)] at issues
    exact issues.sublist (List.sublist_cons_self ..)
  · exact fun _ _ failed => failed.1

end Machine

namespace Attached

/-- A change of a domain's tables led to `middle`, and then the unit was told of it. -/
structure Edits (start : Journaled (Attached ρ)) (middle : Journaled Pool)
    (last : Journaled (Attached ρ)) (wanted : List Effect) : Prop where
  controller : last.state.machine.controller = start.state.machine.controller
  domain : last.state.domain = { start.state.domain with pool := middle.state }
  issues : middle.journal.Issues last.journal wanted

/-- What a unit is told of a range that was mapped: in caching mode it may have cached that it was
not. -/
def told (attached : Attached ρ) : List Effect :=
  if attached.machine.controller.unit.cachingMode then
    [attached.machine.controller.unit.submission (iotlbRequest (some attached.domain.id))]
  else []

/-- Telling the unit of a mapping, and going on from there. -/
theorem tell_ends {start : Journaled (Attached ρ)} (middle : Journaled Pool) (range : DmaRange)
    {rest : Action (Attached ρ) IommuError Unit}
    {returns : Unit → Journaled (Attached ρ) → Prop}
    {fails : Failure IommuError → Journaled (Attached ρ) → Prop}
    (goesOn : ∀ last, Edits start middle last start.state.told → rest.Ends last returns fails)
    (stops : ∀ reason last, fails (.abort reason) last) :
    (if start.state.machine.controller.unit.cachingMode then do
      discard <| Action.on machinePart <|
        Machine.invalidateIotlb (some start.state.domain.id) range.start range.size
      rest
    else rest).Ends ⟨poolPart.set middle.state start.state, middle.journal⟩ returns fails := by
  rw [Action.ends_ite]
  constructor
  · intro caching
    rw [Action.ends_bind, Action.ends_discard, Action.ends_on]
    apply (Machine.invalidateIotlb_ends (some start.state.domain.id) _ _ _).mono
    · intro _ last issued
      refine goesOn _ ⟨issued.1, rfl, ?_⟩
      rw [told, if_pos caching]
      exact issued.2
    · rintro _ last ⟨reason, rfl⟩
      exact stops reason _
  · intro direct
    refine goesOn _ ⟨rfl, rfl, ?_⟩
    rw [told, if_neg direct]
    exact .of_log_eq rfl

/-- Mapping a range inserts it into the table, whatever comes of that, and tells the unit. -/
theorem addRange_ends {start : Journaled (Attached ρ)} {range : DmaRange} {target : PhysicalAddress}
    {returns : Unit → Journaled Pool → Prop} {fails : Failure TableError → Journaled Pool → Prop}
    (inserts : (start.state.domain.table.insert range.start target range.size
      PageFlags.dmaBuffer).Ends ⟨start.state.domain.pool, start.journal⟩ returns fails) :
    (addRange range target).Ends start
      (fun _ last => ∃ middle, returns () middle ∧ Edits start middle last start.state.told)
      (fun cause last => (∃ reason, cause = .abort reason) ∨
        ∃ error middle, cause = .error (.table error) ∧ fails (.error error) middle ∧
          Edits start middle last start.state.told) := by
  unfold addRange
  simp only [Action.ends_bind, Action.ends_state, Action.ends_attempt, Action.ends_on]
  apply inserts.mono
  · intro _ middle inserted
    apply tell_ends middle range _ fun reason _ => .inl ⟨reason, rfl⟩
    intro last edits
    rw [Action.ends_record]
    refine ⟨middle, inserted, edits.controller, edits.domain, ?_⟩
    exact edits.issues.still (Journal.log_record ..)
  · intro cause middle failed
    cases cause with
    | abort reason => exact .inl ⟨reason, rfl⟩
    | error error =>
      apply tell_ends middle range _ fun reason _ => .inl ⟨reason, rfl⟩
      intro last edits
      rw [Action.ends_fail]
      exact .inr ⟨error, middle, rfl, failed, edits⟩

/-- Unmapping a range removes it from the table and tells the unit, unless the range is refused. -/
theorem removeRange_ends {start : Journaled (Attached ρ)} {range : DmaRange}
    {returns : Unit → Journaled Pool → Prop} {fails : Failure TableError → Journaled Pool → Prop}
    (removes : (start.state.domain.table.remove range.start range.size).Ends
      ⟨start.state.domain.pool, start.journal⟩ returns fails) :
    (removeRange range).Ends start
      (fun _ last => ∃ middle, returns () middle ∧ Edits start middle last
        [start.state.machine.controller.unit.submission
          (iotlbRequest (some start.state.domain.id))])
      (fun cause last => (∃ reason, cause = .abort reason) ∨
        ∃ error middle, cause = .error (.table error) ∧ fails (.error error) middle ∧
          Edits start middle last []) := by
  unfold removeRange
  simp only [Action.ends_bind, Action.ends_state, Action.ends_mapError, Action.ends_on,
    Action.ends_record, Action.ends_discard]
  apply removes.mono
  · intro _ middle removed
    apply (Machine.invalidateIotlb_ends (some start.state.domain.id) _ _ _).mono
    · intro _ last issued
      refine ⟨middle, removed, issued.1, rfl, ?_⟩
      exact (Journal.Issues.of_log_eq (Journal.log_record ..)).trans issued.2
    · exact fun _ _ => .inl
  · intro cause middle failed
    cases cause with
    | abort reason => exact .inl ⟨reason, rfl⟩
    | error error => exact .inr ⟨error, middle, rfl, failed, rfl, rfl, .of_log_eq rfl⟩

/-- Binding a device led to `middle`, and the unit was told of a binding that was overwritten. -/
structure Binds (start : Journaled (Attached ρ)) (bdf : Bdf) (outcome : BindOutcome)
    (middle : Journaled Bindings) (last : Journaled (Attached ρ)) : Prop where
  rewires : Machine.Rewires ⟨start.state.machine, start.journal⟩ middle
    ⟨last.state.machine, last.journal⟩
  domain : last.state.domain = { start.state.domain with
    devices := Domain.insertDevice bdf start.state.domain.devices }
  flushed : ∀ previous, outcome = .replaced previous →
    start.state.machine.controller.unit.Flushed previous.domain (some bdf.routingId)
      middle.journal last.journal

theorem Binds.tell {start now : Journaled (Attached ρ)} {bdf : Bdf} {outcome : BindOutcome}
    {middle : Journaled Bindings} (binds : Binds start bdf outcome middle now)
    (domain : DomainId) (condition : Bool) {returns : BindOutcome → Journaled (Attached ρ) → Prop}
    {fails : Failure IommuError → Journaled (Attached ρ) → Prop}
    (goesOn : ∀ last, Binds start bdf outcome middle last → returns outcome last)
    (stops : ∀ reason last, fails (.abort reason) last) :
    (if condition then do
      discard <| Action.on machinePart <| Machine.invalidateAll (some domain) (some bdf.routingId)
      return outcome
    else return outcome).Ends now returns fails := by
  rw [Action.ends_ite]
  constructor
  · intro _
    simp only [Action.ends_bind, Action.ends_discard, Action.ends_on, Action.ends_pure]
    apply (Machine.invalidateAll_ends (some domain) _ _).mono
    · intro _ last issued
      obtain ⟨same, issues, _⟩ := issued
      exact goesOn _ ⟨⟨same.trans binds.rewires.controller, binds.rewires.issues.trans issues⟩,
        binds.domain, fun previous replaced => (binds.flushed previous replaced).trans issues⟩
    · rintro _ last ⟨reason, rfl⟩
      exact stops reason _
  · intro _
    rw [Action.ends_pure]
    exact goesOn now binds

/-- Binding a device changes the bindings, and tells the unit of a binding that was overwritten. -/
theorem enableDevice_ends {start : Journaled (Attached ρ)} {bdf : Bdf}
    {returns : BindOutcome → Journaled Bindings → Prop}
    {fails : Failure TableError → Journaled Bindings → Prop}
    (ends : (Bindings.bind bdf start.state.domain.table.root start.state.domain.id).Ends
      ⟨start.state.machine.controller.bindings, start.journal⟩ returns fails) :
    (enableDevice bdf).Ends start
      (fun outcome last => ∃ middle, returns outcome middle ∧
        Binds start bdf outcome middle last)
      (fun cause last => (∃ reason, cause = .abort reason) ∨
        ∃ error middle, cause = .error (.table error) ∧ fails (.error error) middle ∧
          last = ⟨machinePart.set (Machine.bindingsPart.set middle.state start.state.machine)
            start.state, middle.journal⟩) := by
  unfold enableDevice setDevices
  simp only [Action.ends_bind, Action.ends_state, Action.ends_mapError, Action.ends_on,
    Action.ends_update]
  apply ends.mono
  · intro outcome middle bound
    have goesOn (last : Journaled (Attached ρ)) (binds : Binds start bdf outcome middle last) :
        ∃ middle, returns outcome middle ∧ Binds start bdf outcome middle last :=
      ⟨middle, bound, binds⟩
    have same : middle.journal.Issues middle.journal [] := .of_log_eq rfl
    cases outcome with
    | replaced previous =>
      simp only [Action.ends_bind, Action.ends_discard, Action.ends_on]
      apply (Machine.invalidateAll_ends (some previous.domain) _ _).mono _ fun _ _ => .inl
      intro _ last issued
      obtain ⟨same, issues, flushed⟩ := issued
      apply Binds.tell _ _ _ goesOn fun reason _ => .inl ⟨reason, rfl⟩
      refine ⟨⟨same, issues⟩, rfl, ?_⟩
      rintro _ ⟨⟩
      exact flushed
    | installed =>
      apply Binds.tell _ _ _ goesOn fun reason _ => .inl ⟨reason, rfl⟩
      refine ⟨⟨rfl, same⟩, rfl, ?_⟩
      rintro _ ⟨⟩
    | unchanged =>
      apply Binds.tell _ _ _ goesOn fun reason _ => .inl ⟨reason, rfl⟩
      refine ⟨⟨rfl, same⟩, rfl, ?_⟩
      rintro _ ⟨⟩
  · intro cause middle failed
    cases cause with
    | abort reason => exact .inl ⟨reason, rfl⟩
    | error error => exact .inr ⟨error, middle, rfl, failed, rfl⟩

/-- Unbinding a device led to `middle`, and then the unit was told to forget the domain. -/
structure Unbinds (start : Journaled (Attached ρ)) (bdf : Bdf) (middle : Journaled Bindings)
    (last : Journaled (Attached ρ)) : Prop where
  rewires : Machine.Rewires ⟨start.state.machine, start.journal⟩ middle
    ⟨last.state.machine, last.journal⟩
  domain : last.state.domain = { start.state.domain with
    devices := start.state.domain.devices.filter (· != bdf) }
  flushed : start.state.machine.controller.unit.Flushed start.state.domain.id none
    middle.journal last.journal

/-- Unbinding a device changes the bindings, and tells the unit to forget the domain. -/
theorem disableDevice_ends {start : Journaled (Attached ρ)} {bdf : Bdf}
    {returns : UnbindOutcome → Journaled Bindings → Prop}
    {fails : Failure ε → Journaled Bindings → Prop}
    (unbinds : (Bindings.unbind bdf start.state.domain.table.root : Action _ ε _).Ends
      ⟨start.state.machine.controller.bindings, start.journal⟩ returns fails)
    (aborts : ∀ cause last, fails cause last → ∃ reason, cause = .abort reason) :
    (disableDevice bdf : Action _ ε _).Ends start
      (fun outcome last => ∃ middle, returns outcome middle ∧ Unbinds start bdf middle last)
      (fun cause _ => ∃ reason, cause = .abort reason) := by
  unfold disableDevice setDevices
  simp only [Action.ends_bind, Action.ends_state, Action.ends_on, Action.ends_update,
    Action.ends_discard, Action.ends_pure]
  apply unbinds.mono _ aborts
  intro outcome middle unbound
  apply (Machine.invalidateAll_ends (some start.state.domain.id) none _).mono _ fun _ _ => id
  intro _ last issued
  obtain ⟨same, issues, flushed⟩ := issued
  exact ⟨middle, unbound, ⟨same, issues⟩, rfl, flushed⟩

end Attached

namespace Machine

/-- Destroying a domain led to `middle` once its devices were unbound and to `flushed` once the unit
was told; then its tables were freed. -/
structure Destroys (start : Journaled (Machine ρ)) (domain : Domain) (middle : Journaled Bindings)
    (flushed last : Journaled (Machine ρ)) : Prop where
  controller : last.state.controller = { start.state.controller with
    bindings := middle.state
    ids := (start.state.controller.ids.giveBack domain.id).2 }
  issues : middle.journal.Issues flushed.journal []
  told : start.state.controller.unit.Flushed domain.id none middle.journal flushed.journal
  wipes : Grows Effect.IsWipe flushed last

theorem destroyDomain_ends {start : Journaled (Machine ρ)} {domain : Domain}
    {returns : Nat → Journaled Bindings → Prop} {fails : Failure ε → Journaled Bindings → Prop}
    (unbinds : (Bindings.unbindAll domain.table.root : Action _ ε _).Ends
      ⟨start.state.controller.bindings, start.journal⟩ returns fails)
    (aborts : ∀ cause last, fails cause last → ∃ reason, cause = .abort reason) :
    (destroyDomain domain : Action _ ε _).Ends start
      (fun _ last => ∃ removed middle flushed, returns removed middle ∧
        Destroys start domain middle flushed last)
      (fun cause _ => ∃ reason, cause = .abort reason) := by
  unfold destroyDomain unit
  simp only [Action.ends_bind, Action.ends_state, Action.ends_on, Action.ends_discard,
    Action.ends_pure, Action.ends_record, Action.ends_beside]
  apply unbinds.mono _ aborts
  intro removed middle unbound
  apply (invalidateAll_ends (some domain.id) none _).mono _ fun _ _ => id
  intro _ flushed issued
  obtain ⟨same, issues, told⟩ := issued
  apply (DomainIds.release_ends domain.id _).mono
  case failing =>
    rintro cause _ ⟨reason, aborted, _⟩
    exact ⟨reason, aborted⟩
  intro _ released freed
  obtain ⟨returned, quiet⟩ := freed
  apply ((Domain.stays_release domain.table).ends _).mono
  · intro _ last wiped
    refine ⟨removed, middle, flushed, unbound, ?_, issues, told, ?_⟩
    · change { flushed.state.controller with ids := released.state } = _
      rw [returned]
      change { flushed.state.controller with
        ids := (flushed.state.controller.ids.giveBack domain.id).2 } = _
      rw [same]
      rfl
    · obtain ⟨added, log, passed⟩ := wiped.grows
      refine ⟨added, ?_, passed⟩
      rw [log, Journal.log_record, quiet]
  · intro cause last _
    cases cause with
    | error cause => exact cause.elim
    | abort reason => exact ⟨reason, rfl⟩

variable {contexts : Fin 256 → Option PhysicalAddress} {invariant : TranslationTable → Pool → Prop}

/-- Mapping buffers changes the pool of the domain and nothing else of the software's state. -/
structure Maps (invariant : TranslationTable → Pool → Prop) (start last : Attached ρ) : Prop where
  controller : last.machine.controller = start.machine.controller
  domain : last.domain = { start.domain with pool := last.domain.pool }
  kept : invariant start.domain.table last.domain.pool

/-- When a buffer is mapped, the table becomes what the insertion makes of it, and the error of an
insertion that fails is passed on. -/
theorem mapBuffer_ends {start : Attached ρ} {now : Journaled (Attached ρ)} {buffer : DmaBuffer}
    {inserted : TranslationTable → Pool → Prop}
    {refused : TableError → TranslationTable → Pool → Prop}
    (maps : Maps invariant start now.state)
    (inserts : ∀ {table pool}, invariant table pool → ∀ journal,
      (table.insert buffer.start buffer.target buffer.size .dmaBuffer).Ends ⟨pool, journal⟩
        (fun _ last => inserted table last.state)
        fun cause last => ∀ error, cause = .error error → refused error table last.state)
    (unit : RemappingUnit) :
    (mapBuffer unit buffer).Ends now (fun _ last => Maps inserted start last.state)
      (fun cause last => (∃ reason, cause = .abort reason) ∨
        ∃ error, cause = .error (.table error) ∧ Maps (refused error) start last.state) := by
  have table : now.state.domain.table = start.domain.table := by rw [maps.domain]
  have goesOn {kept : TranslationTable → Pool → Prop} {middle : Journaled Pool}
      {last : Journaled (Attached ρ)} {wanted : List Effect}
      (holds : kept now.state.domain.table middle.state)
      (edits : Attached.Edits now middle last wanted) : Maps kept start last.state := by
    refine ⟨edits.controller.trans maps.controller, ?_, ?_⟩
    · rw [edits.domain, maps.domain]
    · rw [edits.domain, ← table]
      exact holds
  unfold mapBuffer
  simp only [Action.ends_bind, Action.ends_attempt]
  apply (Attached.addRange_ends (inserts (table ▸ maps.kept) _)).mono
  · intro _ last ended
    obtain ⟨middle, holds, edits⟩ := ended
    rw [Action.ends_pure]
    exact goesOn holds edits
  · intro cause last ended
    rcases ended with ⟨reason, rfl⟩ | ⟨error, middle, rfl, holds, edits⟩
    · exact .inl ⟨reason, rfl⟩
    · simp only [Action.Handled, Action.ends_bind, Action.ends_state, Action.ends_record,
        Action.ends_fail]
      exact .inr ⟨error, rfl, goesOn (holds error rfl) edits⟩

/-- Why no domain could be created, and what was left of the controller: no id was free, no table
could be made, or a buffer could not be mapped once the buffers before it were. An id that was
handed out was given back, and the devices of a table that was made were unbound. -/
inductive GivenUp (unmade : TableError → Prop)
    (unmapped : List DmaBuffer → DmaBuffer → TableError → TranslationTable → Pool → Prop)
    (contexts : Fin 256 → Option PhysicalAddress) (buffers : List DmaBuffer) (before : Controller) :
    IommuError → Controller → Prop where
  | exhausted (none : before.ids.free = []) :
      GivenUp unmade unmapped contexts buffers before .domainIdsExhausted before
  | tableless {id : DomainId} {ids : DomainIds} {cause : TableError}
      (taken : before.ids.take = (some id, ids)) (failed : unmade cause) :
      GivenUp unmade unmapped contexts buffers before (.table cause)
        { before with ids := (ids.giveBack id).2 }
  | unmapped {id : DomainId} {ids : DomainIds} {cause : TableError} {past later : List DmaBuffer}
      {buffer : DmaBuffer} {table : TranslationTable} {pool : Pool}
      {first last : Journaled Bindings}
      (taken : before.ids.take = (some id, ids)) (split : buffers = past ++ buffer :: later)
      (failed : unmapped past buffer cause table pool) (start : first.state = before.bindings)
      (unbinding : Bindings.Unbinding first last contexts table.root (List.finRange 256)) :
      GivenUp unmade unmapped contexts buffers before (.table cause)
        { before with bindings := last.state, ids := (ids.giveBack id).2 }

/-- What is left of a machine on which no domain could be created: if an id was handed out it was
given back, and if a table was made its devices were unbound. -/
structure Uncreated (invariant : TranslationTable → Pool → Prop)
    (contexts : Fin 256 → Option PhysicalAddress) (before after : Controller) : Prop where
  rest : after = { before with bindings := after.bindings, ids := after.ids }
  ids : after.ids = before.ids ∨ ∃ id taken, before.ids.take = (some id, taken) ∧
    after.ids = (taken.giveBack id).2
  bindings : after.bindings = before.bindings ∨ ∃ table pool, invariant table pool ∧
    ∃ first last : Journaled Bindings, first.state = before.bindings ∧
      last.state = after.bindings ∧
      Bindings.Unbinding first last contexts table.root (List.finRange 256)

section Creation

variable {unmade : TableError → Prop} {buffers : List DmaBuffer}
  {unmapped : List DmaBuffer → DmaBuffer → TableError → TranslationTable → Pool → Prop}

omit [RegisterPage ρ] [QuietPage ρ] in
theorem GivenUp.uncreated {before after : Controller} {error : IommuError}
    (givenUp : GivenUp unmade unmapped contexts buffers before error after)
    (kept : ∀ {past buffer cause table pool}, unmapped past buffer cause table pool →
      invariant table pool) : Uncreated invariant contexts before after := by
  cases givenUp with
  | exhausted => exact ⟨rfl, .inl rfl, .inl rfl⟩
  | tableless taken => exact ⟨rfl, .inr ⟨_, _, taken, rfl⟩, .inl rfl⟩
  | unmapped taken split failed start unbinding =>
    exact ⟨rfl, .inr ⟨_, _, taken, rfl⟩, .inr ⟨_, _, kept failed, _, _, start, rfl, unbinding⟩⟩

theorem giveUp_ends {controller : Controller} {ids : DomainIds} {first : Attached ρ}
    {now : Journaled (Attached ρ)} {returns : Domain → Journaled (Machine ρ) → Prop}
    {cause : TableError} {past later : List DmaBuffer} {buffer : DmaBuffer}
    (wired : controller.bindings.Wired contexts)
    (taken : controller.ids.take = (some first.domain.id, ids))
    (same : first.machine.controller = { controller with ids })
    (split : buffers = past ++ buffer :: later)
    (maps : Maps (unmapped past buffer cause) first now.state) :
    Action.Ends (do
      discard <| destroyDomain now.state.domain
      Action.fail (.table cause)) ⟨now.state.machine, now.journal⟩ returns
      (fun cause last => (∃ reason, cause = .abort reason) ∨ ∃ error, cause = .error error ∧
        GivenUp unmade unmapped contexts buffers controller error last.state.controller) := by
  have bindings : now.state.machine.controller.bindings = controller.bindings := by
    rw [maps.controller, same]
  have root : now.state.domain.table = first.domain.table := by rw [maps.domain]
  rw [← bindings] at wired
  rw [Action.ends_bind, Action.ends_discard]
  apply (destroyDomain_ends (Bindings.unbindAll_ends wired _) fun _ _ => id).mono _ fun _ _ => .inl
  intro _ last ended
  obtain ⟨_, middle, flushed, unbinding, destroys⟩ := ended
  have left : last.state.controller = { controller with
      bindings := middle.state, ids := (ids.giveBack first.domain.id).2 } := by
    rw [destroys.controller, maps.controller, maps.domain, same]
  rw [Action.ends_fail, left]
  exact .inr ⟨_, rfl, .unmapped taken split maps.kept bindings (root ▸ unbinding)⟩

/-- Creating a domain hands out an id, makes a table and maps the buffers one after the other, or
says why it was given up. -/
theorem createDomain_ends_explaining {start : Journaled (Machine ρ)} {pool : Pool}
    (filled : List DmaBuffer → TranslationTable → Pool → Prop) (unmade : TableError → Prop)
    (unmapped : List DmaBuffer → DmaBuffer → TableError → TranslationTable → Pool → Prop)
    (wired : start.state.controller.bindings.Wired contexts)
    (creates : ∀ journal,
      (TranslationTable.create .secondLevel start.state.controller.unit.coherency).Ends
        ⟨pool, journal⟩ (fun table last => filled [] table last.state)
        fun cause _ => ∀ error, cause = .error error → unmade error)
    (inserts : ∀ {past buffer table pool}, filled past table pool → ∀ journal,
      (table.insert buffer.start buffer.target buffer.size .dmaBuffer).Ends ⟨pool, journal⟩
        (fun _ last => filled (past ++ [buffer]) table last.state)
        fun cause last => ∀ error, cause = .error error →
          unmapped past buffer error table last.state)
    (buffers : List DmaBuffer) :
    (createDomain pool buffers).Ends start
      (fun domain last => ∃ ids, start.state.controller.ids.take = (some domain.id, ids) ∧
        last.state.controller = { start.state.controller with ids } ∧
        filled buffers domain.table domain.pool ∧ domain.devices = [])
      (fun cause last => (∃ reason, cause = .abort reason) ∨ ∃ error, cause = .error error ∧
        GivenUp unmade unmapped contexts buffers start.state.controller error
          last.state.controller) := by
  unfold createDomain unit
  simp only [Action.ends_bind, Action.ends_state, Action.ends_on, Action.ends_pure,
    Action.ends_beside]
  apply (DomainIds.acquire_ends _).mono
  · intro number acquired taken
    apply (creates _).mono
    · intro table made kept
      simp only [withDomain, Action.ends_bind, Action.ends_beside, Action.ends_on]
      let first : Attached ρ := ⟨idsPart.set acquired.state start.state,
        { id := number, table, pool := made.state, devices := [] }⟩
      have handed : start.state.controller.ids.take = (some first.domain.id, acquired.state) :=
        taken.1
      apply Action.ends_forM fun past now => Maps (filled past) first now.state
      case initial => exact ⟨rfl, rfl, kept⟩
      case turn =>
        intro past buffer later now split maps
        apply (mapBuffer_ends maps inserts _).mono (fun _ _ => id)
        intro cause last failed
        rcases failed with ⟨reason, rfl⟩ | ⟨error, rfl, maps⟩
        · exact .inl ⟨reason, rfl⟩
        · exact giveUp_ends wired handed rfl split maps
      case final =>
        intro last maps
        rw [Action.ends_record, Action.ends_pure]
        refine ⟨acquired.state, ?_, maps.controller, ?_, ?_⟩
        · rw [maps.domain]
          exact handed
        · rw [maps.domain]
          exact maps.kept
        · rw [maps.domain]
    · intro cause made failed
      cases cause with
      | abort reason => exact .inl ⟨reason, rfl⟩
      | error error =>
        simp only [Action.Handled, Action.ends_bind, Action.ends_on, Action.ends_fail]
        apply (DomainIds.release_ends number _).mono
        case failing =>
          rintro cause _ ⟨reason, aborted, _⟩
          exact .inl ⟨reason, aborted⟩
        intro _ released freed
        refine .inr ⟨_, rfl, ?_⟩
        change GivenUp _ _ _ _ _ _ { start.state.controller with ids := released.state }
        rw [freed.1]
        exact .tableless taken.1 (failed error rfl)
  · intro cause last failed
    rcases failed with ⟨reason, rfl, _⟩ | ⟨rfl, rfl, none⟩
    · exact .inl ⟨reason, rfl⟩
    · exact .inr ⟨_, rfl, .exhausted none⟩

/-- What creating a table establishes and insertions keep, whatever comes of them, holds of the
table of a new domain, and of the one that was made if the domain was given up. -/
theorem createDomain_ends {start : Journaled (Machine ρ)} {pool : Pool}
    (wired : start.state.controller.bindings.Wired contexts)
    (creates : ∀ coherency journal, (TranslationTable.create .secondLevel coherency).Ends
      ⟨pool, journal⟩ (fun table last => invariant table last.state) fun _ _ => True)
    (inserts : ∀ {table pool}, invariant table pool → ∀ start target size flags journal,
      (table.insert start target size flags).Ends ⟨pool, journal⟩
        (fun _ last => invariant table last.state) fun _ last => invariant table last.state)
    (buffers : List DmaBuffer) :
    (createDomain pool buffers).Ends start
      (fun domain last => ∃ ids, start.state.controller.ids.take = (some domain.id, ids) ∧
        last.state.controller = { start.state.controller with ids } ∧
        invariant domain.table domain.pool ∧ domain.devices = [])
      (fun cause last => (∃ reason, cause = .abort reason) ∨ ∃ error, cause = .error error ∧
        Uncreated invariant contexts start.state.controller last.state.controller) := by
  apply (createDomain_ends_explaining (fun _ => invariant) (fun _ => True)
    (fun _ _ _ => invariant) wired ?_ ?_ buffers).mono (fun _ _ => id)
  · exact fun _ _ failed => failed.imp_right fun ⟨error, same, givenUp⟩ =>
      ⟨error, same, givenUp.uncreated id⟩
  · exact fun journal => (creates _ journal).mono (fun _ _ => id) fun _ _ _ _ _ => trivial
  · exact fun kept journal => (inserts kept ..).mono (fun _ _ => id) fun _ _ kept _ _ => kept

end Creation

end Machine

end DmaRemap

import DmaRemap.Proofs.Runs

/-! Caches. A unit may go on with what it has cached of the tables until it is told to forget that.
What a call takes away from the tables, it must tell the unit to forget before it returns, and only
after it has taken it away. -/

namespace DmaRemap

variable {ρ : Type}

namespace Machine

/-- Whether a log shows that the entry of a device was written, and that the unit was told to forget
what it had cached of that entry afterwards: first the context cache, then the IOTLB. -/
def Forgets (machine : Machine ρ) (bdf : Bdf) (domain : DomainId) (log : List Effect) : Prop :=
  ∃ (past later : List Effect) (context : ContextCommand) (iotlb : IotlbCommand),
    log = past ++ later ∧ machine.controller.bindings.Wrote bdf past ∧
      (∀ effect ∈ later, ¬effect.IsWrite) ∧ context.Covers bdf.routingId domain ∧
      iotlb.Covers domain ∧
      [context.submission, machine.controller.unit.submission iotlb].Sublist later

end Machine

namespace Machine

open RemappingUnit (contextRequest covers_contextRequest_device covers_contextRequest_domain
  covers_iotlbRequest)

variable {machine : Machine ρ} {bdf bdf' : Bdf} {domain : DomainId} {device : Option RoutingId}
  {entry : ContextEntry} {table : PhysicalAddress} {journal flushed : Journal}
  {middle : Journaled Bindings}

/-- Once the entry was written, it is enough to tell the unit. -/
theorem Forgets.of_flushed {middle : Journal}
    (flushes : machine.controller.unit.Flushed domain device middle flushed)
    (offers : OffersRegisters flushed.log)
    (wrote : machine.controller.bindings.Wrote bdf middle.log)
    (covers : (contextRequest (some domain) device).Covers bdf.routingId domain) :
    machine.Forgets bdf domain flushed.log := by
  obtain ⟨added, log, accesses, within⟩ := flushes offers
  refine ⟨middle.log, added, _, _, log, wrote, ?_, covers, covers_iotlbRequest domain, within⟩
  exact fun effect told => (accesses effect told).not_isWrite

theorem Forgets.append {log rest : List Effect} (forgets : machine.Forgets bdf domain log)
    (wipes : ∀ effect ∈ rest, effect.IsWipe) : machine.Forgets bdf domain (log ++ rest) := by
  obtain ⟨past, later, context, iotlb, rfl, wrote, settled, covers, covers', told⟩ := forgets
  refine ⟨past, later ++ rest, context, iotlb, List.append_assoc .., wrote, ?_, covers, covers',
    told.trans (List.sublist_append_left ..)⟩
  intro effect member
  rcases List.mem_append.mp member with before | freed
  · exact settled effect before
  · exact (wipes effect freed).not_isWrite

/-- Binding a device tells the unit of the entry that it overwrites. -/
theorem Forgets.of_bound {outcome : BindOutcome}
    (bound : Bindings.Bound ⟨machine.controller.bindings, journal⟩ bdf' table domain outcome middle)
    (told : ∀ previous, outcome = .replaced previous → machine.controller.unit.Flushed
      previous.domain (some bdf'.routingId) middle.journal flushed)
    (offers : OffersRegisters flushed.log)
    (before : machine.controller.bindings.context bdf = .ok entry) (present : entry.present = true)
    (changed : middle.state.context bdf ≠ .ok entry) :
    machine.Forgets bdf entry.domain flushed.log := by
  obtain ⟨previous, held, known⟩ := bound.previous
  rw [bound.rebinds.context] at changed
  split at changed
  case isFalse => exact absurd before changed
  case isTrue here =>
    subst here
    cases held.symm.trans before
    cases outcome with
    | unchanged => exact absurd (congrArg Except.ok known.symm) changed
    | installed => cases known.symm.trans present
    | replaced found =>
      obtain ⟨rfl, _, _, wrote⟩ := known
      exact of_flushed (told _ rfl) offers wrote (covers_contextRequest_device ..)

theorem Forgets.of_unbound {outcome : UnbindOutcome}
    (unbound : Bindings.Unbound ⟨machine.controller.bindings, journal⟩ bdf' table outcome middle)
    (told : machine.controller.unit.Flushed domain none middle.journal flushed)
    (offers : OffersRegisters flushed.log) (own : ∀ found, outcome ≠ .foreign found)
    (named : entry.Names table → entry.domain = domain)
    (before : machine.controller.bindings.context bdf = .ok entry) (present : entry.present = true)
    (changed : middle.state.context bdf ≠ .ok entry) :
    machine.Forgets bdf entry.domain flushed.log := by
  obtain ⟨previous, held, known⟩ := unbound
  cases outcome with
  | absent => exact absurd (known.2 ▸ before) changed
  | foreign found => exact absurd rfl (own found)
  | removed =>
    obtain ⟨table, clears⟩ := known
    rw [clears.rebinds.context] at changed
    split at changed
    case isFalse => exact absurd before changed
    case isTrue here =>
      subst here
      cases held.symm.trans before
      rw [named ⟨present, table⟩]
      exact of_flushed told offers clears.wrote (covers_contextRequest_domain ..)

/-- Destroying a domain tells the unit of all entries that it clears. -/
theorem Forgets.of_destroys {contexts : Fin 256 → Option PhysicalAddress} {domain : Domain}
    {flushed last : Journaled (Machine ρ)} (wired : machine.controller.bindings.Wired contexts)
    (unbinding : Bindings.Unbinding ⟨machine.controller.bindings, journal⟩ middle contexts
      domain.table.root (List.finRange 256))
    (destroys : Destroys ⟨machine, journal⟩ domain middle flushed last)
    (offers : OffersRegisters last.journal.log)
    (named : entry.Names domain.table.root → entry.domain = domain.id)
    (before : machine.controller.bindings.context bdf = .ok entry)
    (changed : middle.state.context bdf ≠ .ok entry) :
    machine.Forgets bdf entry.domain last.journal.log := by
  obtain ⟨cleared, kept⟩ := unbinding.context_eq wired before
  by_cases names : entry.Names domain.table.root
  · obtain ⟨added, log, wipes⟩ := destroys.wipes
    rw [named names]
    rw [log] at offers ⊢
    have offered := offers.of_subset (List.subset_append_left ..)
    exact (of_flushed destroys.told offered (cleared names).2
      (covers_contextRequest_domain ..)).append wipes
  · exact absurd (kept names) changed

end Machine

namespace Platform

theorem Separate.domain_eq {platform : Platform ρ} (separate : platform.Separate) {place : Nat}
    {domain : Domain} (here : platform.domains[place]? = some domain) {bdf : Bdf}
    {entry : ContextEntry} (before : platform.machine.controller.bindings.context bdf = .ok entry)
    (names : entry.Names domain.table.root) : entry.domain = domain.id := by
  have member := List.mem_of_getElem? (getElem?_holdings here)
  rw [separate.entry_eq member before names, ContextEntry.domain_binding]
  rfl

variable [RegisterPage ρ] [QuietPage ρ] {platform : Platform ρ}

/-- Whenever a call takes a present entry away from a device, it tells the unit to forget that entry
afterwards, unless the call unbinds a device that is bound to the table of another domain. -/
theorem forgets_of_changed (reached : Reached Separates platform) {call : Call}
    (admitted : platform.Separates call) {threshold : Option Severity}
    (completed : ∀ reason,
      call.perform.outcome (platform.fresh threshold) ≠ .error (.abort reason))
    (offers : OffersRegisters (call.perform.finish (platform.fresh threshold)).journal.log)
    {bdf : Bdf} {entry : ContextEntry}
    (before : platform.machine.controller.bindings.context bdf = .ok entry)
    (present : entry.present = true)
    (changed : (call.perform.finish
      (platform.fresh threshold)).state.machine.controller.bindings.context bdf ≠ .ok entry)
    (own : ∀ found,
      call.perform.outcome (platform.fresh threshold) ≠ .ok (.unbound (.foreign found))) :
    platform.machine.Forgets bdf entry.domain
      (call.perform.finish (platform.fresh threshold)).journal.log := by
  obtain ⟨ordered, separate⟩ := reached.separate
  obtain ⟨reply, answered, does⟩ := Call.does_of_completed ordered completed
  generalize call.perform.finish (platform.fresh threshold) = last at *
  cases does with
  | idle same => exact absurd (same ▸ before) changed
  | created _ _ controller | edited _ _ controller | abandoned controller =>
    exact absurd (controller ▸ before) changed
  | uncreated wired uncreated =>
    have same := Call.Does.uncreated_context wired uncreated separate admitted bdf
    exact absurd (same.trans before) changed
  | bound _ bound _ told controller =>
    rw [controller] at changed
    exact .of_bound bound told offers before present changed
  | unbound here unbound _ told controller =>
    rw [controller] at changed
    exact .of_unbound unbound told offers (fun found foreign => own found (foreign ▸ answered))
      (separate.domain_eq here before) before present changed
  | destroyed here wired unbinding destroys =>
    rw [destroys.controller] at changed
    exact .of_destroys wired unbinding destroys offers (separate.domain_eq here before) before
      changed

theorem separate_pairSample : Reached Separates pairSample := by
  refine reached_pairSample ?_ ?_ trivial
  · exact nofun
  · unfold Separates
    decide +kernel

/-- The entry that binds the device of the sample to the first of the two domains. -/
def entrySample : ContextEntry := .binding poolSample.base (.ofNat 1)

theorem context_pairSample :
    pairSample.machine.controller.bindings.context deviceSample = .ok entrySample := by
  decide +kernel

/-- The device is bound to the second domain instead. -/
theorem forgets_of_changed_sample :
    pairSample.machine.Forgets deviceSample entrySample.domain
      ((Call.enable 0 deviceSample).perform.finish (pairSample.fresh none)).journal.log := by
  have admitted : pairSample.Separates (.enable 0 deviceSample) := trivial
  refine forgets_of_changed separate_pairSample admitted (not_aborted_of_isOk ?_) ?_
    context_pairSample ContextEntry.present_binding ?_ fun found foreign => ?_
  · decide +kernel
  · decide +kernel
  · decide +kernel
  · have bound : ((Call.enable 0 deviceSample).perform.outcome
        (pairSample.fresh none)).toOption.any (· matches .bound _) = true := by
      decide +kernel
    rw [foreign] at bound
    cases bound

/-- The device is unbound by way of the second domain. Its entry goes away, and the unit is told to
forget the second domain, not the first. -/
theorem foreign_not_forgotten :
    Reached Separates pairSample ∧ pairSample.Separates (.disable 0 deviceSample) ∧
      (∃ found, (Call.disable 0 deviceSample).perform.outcome (pairSample.fresh none) =
        .ok (.unbound (.foreign found))) ∧
      OffersRegisters
        ((Call.disable 0 deviceSample).perform.finish (pairSample.fresh none)).journal.log ∧
      pairSample.machine.controller.bindings.context deviceSample = .ok entrySample ∧
      entrySample.present = true ∧
      ((Call.disable 0 deviceSample).perform.finish
        (pairSample.fresh none)).state.machine.controller.bindings.context deviceSample ≠
          .ok entrySample ∧
      ¬pairSample.machine.Forgets deviceSample entrySample.domain
        ((Call.disable 0 deviceSample).perform.finish (pairSample.fresh none)).journal.log := by
  refine ⟨separate_pairSample, trivial, ?_, ?_, context_pairSample,
    ContextEntry.present_binding, ?_, ?_⟩
  · have foreign : ((Call.disable 0 deviceSample).perform.outcome
        (pairSample.fresh none)).toOption.any (· matches .unbound (.foreign _)) = true := by
      decide +kernel
    generalize (Call.disable 0 deviceSample).perform.outcome (pairSample.fresh none) = outcome
      at foreign
    match outcome, foreign with
    | .ok (.unbound (.foreign found)), _ => exact ⟨found, rfl⟩
  · decide +kernel
  · decide +kernel
  · rintro ⟨past, later, context, iotlb, log, _, _, covers, _, told⟩
    have submitted : context ∈ ((Call.disable 0 deviceSample).perform.finish
        (pairSample.fresh none)).journal.log.filterMap Effect.contextCommand? := by
      rw [log]
      have among := List.mem_append_right past (told.subset List.mem_cons_self)
      exact List.mem_filterMap.mpr ⟨_, among, context.contextCommand?_submission⟩
    have uncovered : ∀ context ∈ ((Call.disable 0 deviceSample).perform.finish
        (pairSample.fresh none)).journal.log.filterMap Effect.contextCommand?,
          ¬context.Covers deviceSample.routingId entrySample.domain := by
      decide +kernel
    exact uncovered context submitted covers

end Platform

end DmaRemap

import DmaRemap.Proofs.Creation
import DmaRemap.Proofs.Translations

namespace DmaRemap

variable {ρ : Type}

open RemappingUnit (iotlbRequest)

namespace Journal

theorem Issues.split {start last : Journal} {wanted : List Effect} {effect : Effect}
    (issues : start.Issues last wanted) (member : effect ∈ wanted) :
    ∃ before after, last.log = start.log ++ before ++ effect :: after ∧
      (∀ effect ∈ before, effect.IsAccess) ∧ ∀ effect ∈ after, effect.IsAccess := by
  obtain ⟨added, log, accesses, within⟩ := issues
  obtain ⟨before, after, rfl⟩ := List.append_of_mem (within.subset member)
  refine ⟨before, after, by rw [log, List.append_assoc], ?_, ?_⟩
  · exact fun other among => accesses other (List.mem_append_left _ among)
  · intro other among
    exact accesses other (List.mem_append_right _ (List.mem_cons_of_mem _ among))

end Journal

/-- Whether a log has an IOTLB command that selects a domain after its last change of a table. -/
def RemappingUnit.SelectsLast (unit : RemappingUnit) (domain : DomainId) (log : List Effect) :
    Prop :=
  ∃ (past later : List Effect) (command : IotlbCommand),
    log = past ++ unit.submission command :: later ∧ command.Selects domain ∧
      ∀ effect ∈ later, effect.IsAccess

namespace TranslationTable

variable {table : TranslationTable}

/-- Whatever translated before translates in the same way afterwards. -/
def Retains (table : TranslationTable) (before after : Pool) : Prop :=
  ∀ input answer, table.lookup before input = .ok (some answer) →
    table.lookup after input = .ok (some answer)

/-- An insertion retains what a table translates, whatever comes of it. -/
theorem retains_insert {pool : Pool} {branches : Branches} (held : table.Held pool branches)
    (fits : table.format.Fits pool) (journal : Journal) (start : VirtualAddress)
    (target : PhysicalAddress) (size : Nat) (flags : PageFlags) :
    (table.insert start target size flags).Ends ⟨pool, journal⟩
      (fun _ last => table.Retains pool last.state)
      (fun _ last => table.Retains pool last.state) := by
  have ends : (table.insert start target size flags).Ends ⟨pool, journal⟩ _ _ :=
    insert_ends held fits start target size flags
  apply ends.mono
  · intro _ last ended
    exact (maps_of_carried held ended.1 (Nat.le_refl _) ended.2).kept
  · intro cause last ended
    rcases ended with ⟨⟨same, _⟩, _⟩ | ⟨sited, done, most, _, carried, _⟩
    · rw [same]
      exact fun _ _ => id
    · exact (maps_of_carried held sited (Nat.le_of_lt most) carried).kept

end TranslationTable

namespace Attached

/-- Whether an edit of a domain's table is told to the unit if it changes a translation: one that
was there before, or any if the unit is in caching mode. -/
def Tells (start : Journaled (Attached ρ)) (edit : Action (Attached ρ) IommuError Unit) : Prop :=
  (∀ reason, edit.outcome start ≠ .error (.abort reason)) → ∀ input,
    (edit.finish start).state.domain.translate input ≠ start.state.domain.translate input →
    ((∃ answer, start.state.domain.translate input = .ok (some answer)) ∨
      start.state.machine.controller.unit.cachingMode = true) →
    start.state.machine.controller.unit.SelectsLast start.state.domain.id
      (edit.finish start).journal.log

/-- The relation between states with the same domain. -/
abbrev SameDomain (start last : Journaled (Attached ρ)) : Prop :=
  last.state.domain = start.state.domain

instance : IsPreorder (Journaled (Attached ρ)) SameDomain where
  refl _ := rfl
  trans _ _ _ first second := second.trans first

theorem sameDomain_machine {ε α : Type} (inner : Action (Machine ρ) ε α) :
    (discard (Action.on machinePart inner) : Action (Attached ρ) ε Unit).Keeps SameDomain := by
  constructor
  intro start
  rw [Action.ends_discard, Action.ends_on]
  exact Action.ends_true.mono (fun _ _ _ => rfl) fun _ _ _ => rfl

theorem sameDomain_record {ε : Type} (severity : Severity) (text : Unit → String) :
    (Action.record severity text : Action (Attached ρ) ε Unit).Keeps SameDomain :=
  ⟨fun _ => (Action.ends_record severity text).mpr rfl⟩

variable [RegisterPage ρ] {start : Journaled (Attached ρ)}

/-- What an insertion makes of the domain is left when a range was mapped, even if that aborts. -/
theorem addRange_domain {range : DmaRange} {target : PhysicalAddress} (holds : Domain → Prop)
    (inserts : (start.state.domain.table.insert range.start target range.size
      PageFlags.dmaBuffer).Ends ⟨start.state.domain.pool, start.journal⟩
        (fun _ last => holds { start.state.domain with pool := last.state })
        fun _ last => holds { start.state.domain with pool := last.state }) :
    (addRange range target).Ends start (fun _ last => holds last.state.domain)
      (fun _ last => holds last.state.domain) := by
  have still {rest : Action (Attached ρ) IommuError Unit} (keeps : rest.Keeps SameDomain)
      {now : Journaled (Attached ρ)} (held : holds now.state.domain) :
      rest.Ends now (fun _ last => holds last.state.domain)
        (fun _ last => holds last.state.domain) :=
    (keeps.ends now).mono (fun _ _ same => same ▸ held) fun _ _ same => same ▸ held
  unfold addRange
  simp only [Action.ends_bind, Action.ends_state, Action.ends_attempt, Action.ends_on]
  apply inserts.mono
  · intro _ middle held
    refine still (.ite _ (.bind (sameDomain_machine _) fun _ => ?_) ?_) held
    · exact sameDomain_record ..
    · exact sameDomain_record ..
  · intro cause middle held
    cases cause with
    | error cause =>
      exact still (.ite _ (.bind (sameDomain_machine _) fun _ => .fail _) (.fail _)) held
    | abort reason => exact held

omit [RegisterPage ρ] in
/-- If the unit was asked to forget the domain after an edit, it was told so by a command. -/
theorem Edits.selectsLast {middle : Journaled Pool} {last : Journaled (Attached ρ)}
    {wanted : List Effect} (edits : Edits start middle last wanted)
    (valid : start.state.domain.id.isValid = true)
    (member : start.state.machine.controller.unit.submission
      (iotlbRequest (some start.state.domain.id)) ∈ wanted) :
    start.state.machine.controller.unit.SelectsLast start.state.domain.id last.journal.log := by
  obtain ⟨before, after, log, _, accesses⟩ := edits.issues.split member
  exact ⟨_, after, _, log, RemappingUnit.selects_iotlbRequest valid, accesses⟩

variable [QuietPage ρ] {branches : Branches}

/-- Mapping a range is told to a unit in caching mode; others cannot have cached what it changes. -/
theorem tells_addRange (valid : start.state.domain.id.isValid = true)
    (held : start.state.domain.table.Held start.state.domain.pool branches)
    (fits : start.state.domain.table.format.Fits start.state.domain.pool) (range : DmaRange)
    (target : PhysicalAddress) : Tells start (addRange range target) := by
  intro completed input changed cached
  have told {middle : Journaled Pool}
      (retains : start.state.domain.table.Retains start.state.domain.pool middle.state)
      (edits : Edits start middle ((addRange range target).finish start) start.state.told) :
      start.state.machine.controller.unit.SelectsLast start.state.domain.id
        ((addRange range target).finish start).journal.log := by
    refine edits.selectsLast valid ?_
    rcases cached with ⟨answer, translated⟩ | caching
    · refine absurd ?_ changed
      rw [edits.domain, translated]
      exact retains input answer translated
    · rw [Attached.told, if_pos caching]
      exact List.mem_singleton_self _
  have inserts := TranslationTable.retains_insert held fits start.journal range.start target
    range.size PageFlags.dmaBuffer
  rcases (addRange_ends inserts).outcome_finish with ⟨_, _, ended⟩ | ⟨cause, failed, ended⟩
  · obtain ⟨middle, retains, edits⟩ := ended
    exact told retains edits
  · rcases ended with ⟨reason, rfl⟩ | ⟨error, middle, _, retains, edits⟩
    · exact absurd failed (completed reason)
    · exact told retains edits

/-- Unmapping a range is told to the unit. A range that is refused stays mapped. -/
theorem tells_removeRange (valid : start.state.domain.id.isValid = true)
    (held : start.state.domain.table.Held start.state.domain.pool branches) (range : DmaRange) :
    Tells start (removeRange range) := by
  intro completed input changed _
  have removes : (start.state.domain.table.remove range.start range.size).Ends
      ⟨start.state.domain.pool, start.journal⟩ _ _ :=
    TranslationTable.remove_ends held range.start range.size
  rcases (removeRange_ends removes).outcome_finish with ⟨_, _, ended⟩ | ⟨cause, failed, ended⟩
  · obtain ⟨middle, _, edits⟩ := ended
    exact edits.selectsLast valid (List.mem_singleton_self _)
  · rcases ended with ⟨reason, rfl⟩ | ⟨error, middle, _, ⟨same, _⟩, edits⟩
    · exact absurd failed (completed reason)
    · refine absurd ?_ changed
      rw [edits.domain, same]

end Attached

namespace Machine

/-- How a domain is retired. Once its devices are unbound, an IOTLB command that selects the domain
is submitted, and its tables are freed after that. -/
structure Retires (domain : Domain) (start last : Journaled (Machine ρ)) (past : List Effect)
    (command : IotlbCommand) (later : List Effect) : Prop where
  log : last.journal.log = past ++ start.state.controller.unit.submission command :: later
  selects : command.Selects domain.id
  unfreed : ∀ effect ∈ past, ¬effect.IsWipe
  settled : ∀ effect ∈ later, ¬effect.IsWrite
  cleared : ∀ {bdf entry}, start.state.controller.bindings.context bdf = .ok entry →
    entry.Names domain.table.root → start.state.controller.bindings.Wrote bdf past
  unbound : ∀ {bdf entry}, last.state.controller.bindings.context bdf = .ok entry →
    ¬entry.Names domain.table.root

variable {contexts : Fin 256 → Option PhysicalAddress} {domain : Domain}

theorem Destroys.retires {machine : Machine ρ} {threshold : Option Severity}
    {middle : Journaled Bindings} {flushed last : Journaled (Machine ρ)}
    (destroys : Destroys ⟨machine, { threshold }⟩ domain middle flushed last)
    (wired : machine.controller.bindings.Wired contexts)
    (unbinding : Bindings.Unbinding ⟨machine.controller.bindings, { threshold }⟩ middle contexts
      domain.table.root (List.finRange 256))
    (valid : domain.id.isValid = true) (offers : OffersRegisters last.journal.log) :
    ∃ past command later, Retires domain ⟨machine, { threshold }⟩ last past command later := by
  obtain ⟨added, log, wipes⟩ := destroys.wipes
  rw [log] at offers
  obtain ⟨before, after, told, accesses, accesses'⟩ :=
    (destroys.told (offers.of_subset (List.subset_append_left ..))).split
      (List.mem_cons_of_mem _ (List.mem_singleton_self _))
  refine ⟨middle.journal.log ++ before, iotlbRequest (some domain.id), after ++ added, ?_⟩
  constructor
  case log => rw [log, told, List.append_assoc, List.cons_append]
  case selects => exact RemappingUnit.selects_iotlbRequest valid
  case unfreed =>
    obtain ⟨writes, writes', words⟩ := unbinding.grows
    intro effect member wipe
    rcases List.mem_append.mp member with write | access
    · rw [writes', List.nil_append] at write
      exact wipe.not_isWrite (words effect write)
    · exact (accesses effect access).not_isWipe wipe
  case settled =>
    intro effect member
    rcases List.mem_append.mp member with access | wipe
    · exact (accesses' effect access).not_isWrite
    · exact (wipes effect wipe).not_isWrite
  case cleared =>
    intro bdf entry held names
    obtain ⟨context, word, linked, wrote⟩ := ((unbinding.context_eq wired held).1 names).2
    exact ⟨context, word, linked, List.mem_append_left _ wrote⟩
  case unbound =>
    intro bdf entry held names
    rw [destroys.controller] at held
    exact (unbinding.context_of_present wired held names.1).2 names

end Machine

namespace Platform

open Attached (addRange removeRange Tells)
open Machine (Retires destroyDomain)

/-- A unit is told of every translation that it must not go on with. Whoever changes a translation
tells the unit; mapping a range takes no translation away, so that only a unit in caching mode needs
to be told of it; and the unit is told to forget a domain before the tables are freed. -/
theorem selects_of_changed [RegisterPage ρ] [QuietPage ρ] {platform : Platform ρ}
    (reached : Reached (fun _ => Fits) platform) {domain : Domain}
    (member : domain ∈ platform.domains) (threshold : Option Severity) (ε : Type) :
    (∀ range target, Tells ⟨⟨platform.machine, domain⟩, { threshold }⟩ (addRange range target)) ∧
    (∀ range, Tells ⟨⟨platform.machine, domain⟩, { threshold }⟩ (removeRange range)) ∧
    (∀ range target input answer, domain.translate input = .ok (some answer) →
      ((addRange range target).finish
        ⟨⟨platform.machine, domain⟩, { threshold }⟩).state.domain.translate input =
          .ok (some answer)) ∧
    ∀ pool, (destroyDomain domain : Action _ ε Pool).outcome ⟨platform.machine, { threshold }⟩ =
        .ok pool →
      OffersRegisters ((destroyDomain domain : Action _ ε Pool).finish
        ⟨platform.machine, { threshold }⟩).journal.log →
      ∃ past command later, Retires domain ⟨platform.machine, { threshold }⟩
        ((destroyDomain domain : Action _ ε Pool).finish ⟨platform.machine, { threshold }⟩)
        past command later := by
  obtain ⟨ordered, translates⟩ := reached.translates
  obtain ⟨contexts, wired⟩ := ordered.wired
  obtain ⟨fits, branches, held⟩ := translates domain member
  have valid : domain.id.isValid = true := ordered.valid domain.holding (List.mem_map_of_mem member)
  refine ⟨?added, ?removed, ?kept, ?destroyed⟩
  case added => exact Attached.tells_addRange valid held fits
  case removed => exact Attached.tells_removeRange valid held
  case kept =>
    intro range target input answer translated
    have inserts := domain.table.retains_insert held fits { threshold } range.start target
      range.size PageFlags.dmaBuffer
    have ends : (addRange range target).Ends ⟨⟨platform.machine, domain⟩, { threshold }⟩
        (fun _ last => last.state.domain.translate input = .ok (some answer))
        (fun _ last => last.state.domain.translate input = .ok (some answer)) :=
      Attached.addRange_domain (fun domain => domain.translate input = .ok (some answer))
        (inserts.mono (fun _ _ retains => retains input answer translated)
          fun _ _ retains => retains input answer translated)
    exact ends.outcome_finish.elim (fun ⟨_, _, kept⟩ => kept) fun ⟨_, _, kept⟩ => kept
  case destroyed =>
    intro pool returned offers
    have ends : (destroyDomain domain : Action _ ε Pool).Ends
        ⟨platform.machine, { threshold }⟩ _ _ :=
      Machine.destroyDomain_ends (Bindings.unbindAll_ends wired domain.table.root) fun _ _ => id
    obtain ⟨_, middle, flushed, unbinding, destroys⟩ := ends.returned returned
    exact destroys.retires wired unbinding valid offers

theorem fits_pairSample : Reached (fun _ => Fits) pairSample :=
  reached_pairSample fits_samples.1 fits_samples.2 trivial

/-- The first of the two domains, which maps two pages. -/
def mappedDomain : Domain :=
  pairSample.domains[1]?.get (by decide +kernel)

theorem mappedDomain_mem : mappedDomain ∈ pairSample.domains :=
  List.mem_of_getElem? (Option.some_get _).symm

def attachedSample : Journaled (Attached EmulatedUnit) :=
  ⟨⟨pairSample.machine, mappedDomain⟩, { threshold := none }⟩

/-- The domain that has taken the device. -/
def boundDomain : Domain :=
  takenSample.domains[0]?.get (by decide +kernel)

theorem boundDomain_mem : boundDomain ∈ takenSample.domains :=
  List.mem_of_getElem? (Option.some_get _).symm

theorem completes_takenSample :
    takenSample.machine.controller.unit.Completes takenSample.machine.page := by
  apply EmulatedUnit.Prompt.completes
  refine ⟨?_, ?_, ⟨?_, fun _ => ?_⟩, ⟨?_, fun _ => ?_⟩⟩
  all_goals decide +kernel

def destroySample : Action (Machine EmulatedUnit) IommuError Pool := destroyDomain boundDomain

def boundMachine : Journaled (Machine EmulatedUnit) :=
  ⟨takenSample.machine, { threshold := none }⟩

/-- A third page is mapped, the first one is unmapped, and a domain is destroyed that has a device
bound to it. -/
theorem selects_of_changed_sample :
    pairSample.machine.controller.unit.SelectsLast mappedDomain.id
        ((addRange ⟨⟨0x4000, by decide⟩, 0x1000⟩ ⟨0x8000, by decide⟩).finish
          attachedSample).journal.log ∧
      pairSample.machine.controller.unit.SelectsLast mappedDomain.id
        ((removeRange ⟨⟨0x1000, by decide⟩, 0x1000⟩).finish attachedSample).journal.log ∧
      ((addRange ⟨⟨0x4000, by decide⟩, 0x1000⟩ ⟨0x8000, by decide⟩).finish
          attachedSample).state.domain.translate ⟨0x1000, by decide⟩ =
        .ok (some ⟨⟨0x5000, by decide⟩, 0x1000, .dmaBuffer⟩) ∧
      ∃ past command later,
        Retires boundDomain boundMachine (destroySample.finish boundMachine) past command later ∧
          takenSample.machine.controller.bindings.Wrote deviceSample past := by
  have translated : mappedDomain.translate ⟨0x1000, by decide⟩ =
      .ok (some ⟨⟨0x5000, by decide⟩, 0x1000, .dmaBuffer⟩) := by
    decide +kernel
  obtain ⟨added, removed, kept, _⟩ :=
    selects_of_changed fits_pairSample mappedDomain_mem none IommuError
  have taken : Reached (fun _ => Fits) takenSample :=
    fits_pairSample.next (show Fits (.enable 0 deviceSample) from trivial) (by decide +kernel)
  obtain ⟨_, _, _, destroyed⟩ := selects_of_changed taken boundDomain_mem none IommuError
  refine ⟨?added, ?removed, kept _ _ _ _ translated, ?destroyed⟩
  case added =>
    refine added _ _ (not_aborted_of_isOk ?_) ⟨0x4000, by decide⟩ ?_ (.inr ?_)
    · decide +kernel
    · decide +kernel
    · decide +kernel
  case removed =>
    refine removed _ (not_aborted_of_isOk ?_) ⟨0x1000, by decide⟩ ?_ (.inl ⟨_, translated⟩)
    · decide +kernel
    · decide +kernel
  case destroyed =>
    obtain ⟨ordered, readable⟩ := taken.readable
    have ready : takenSample.machine.Ready takenSample.machine.controller.unit :=
      ⟨rfl, completes_takenSample, ordered.wired, readable, ordered.ids⟩
    obtain ⟨pool, returned, offers⟩ :=
      (ready.destroyDomain_returns (by decide +kernel) boundDomain none).exists_outcome
    have bound : takenSample.machine.controller.bindings.context deviceSample =
        .ok (.binding boundDomain.table.root boundDomain.id) := by
      decide +kernel
    obtain ⟨past, command, later, retires⟩ := destroyed pool returned offers
    exact ⟨past, command, later, retires, retires.cleared bound
      ⟨ContextEntry.present_binding, ContextEntry.table_binding (by decide +kernel)⟩⟩

end Platform

end DmaRemap

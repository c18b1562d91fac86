import DmaRemap.Bus
import DmaRemap.Emulated
import DmaRemap.Register.Mapped
import DmaRemap.Proofs.Commands

namespace DmaRemap

variable {σ ρ ε α β : Type} {wanted wanted' : List Effect}

/-- One journal continues the other by register accesses alone, and these are among them in this
order. -/
def Journal.Issues (start last : Journal) (wanted : List Effect) : Prop :=
  ∃ added, last.log = start.log ++ added ∧ (∀ effect ∈ added, effect.IsAccess) ∧
    wanted.Sublist added

namespace Journal

variable {start middle last : Journal}

theorem Issues.of_log_eq (same : last.log = start.log) : start.Issues last [] :=
  ⟨[], by simp [same], by simp, .slnil⟩

theorem Issues.trans (first : start.Issues middle wanted) (second : middle.Issues last wanted') :
    start.Issues last (wanted ++ wanted') := by
  obtain ⟨added, same, accesses, within⟩ := first
  obtain ⟨more, same', accesses', within'⟩ := second
  refine ⟨added ++ more, by rw [same', same, List.append_assoc], fun effect member => ?_,
    within.append within'⟩
  exact (List.mem_append.mp member).elim (accesses effect) (accesses' effect)

theorem Issues.sublist (issues : start.Issues last wanted) (within : wanted'.Sublist wanted) :
    start.Issues last wanted' := by
  obtain ⟨added, same, accesses, sublist⟩ := issues
  exact ⟨added, same, accesses, within.trans sublist⟩

theorem Issues.subset (issues : start.Issues last wanted) : start.log ⊆ last.log := by
  obtain ⟨added, log, _⟩ := issues
  rw [log]
  exact List.subset_append_left ..

theorem Issues.still (issues : start.Issues middle wanted) (same : last.log = middle.log) :
    start.Issues last wanted := by
  obtain ⟨added, log, rest⟩ := issues
  exact ⟨added, same.trans log, rest⟩

end Journal

/-- The relation between journals with the same effects. -/
abbrev SameLog (start last : Journaled σ) : Prop := last.journal.log = start.journal.log

instance : IsPreorder (Journaled σ) SameLog where
  refl _ := rfl
  trans _ _ _ first second := second.trans first

open DmaRemap.Action (Keeps)

/-- Register pages that note no effects. It is for the software to note the accesses it makes. -/
class QuietPage (ρ : Type) [RegisterPage ρ] : Prop where
  read32 : ∀ offset, (RegisterPage.read32 offset : Action ρ Empty (BitVec 32)).Keeps SameLog
  read64 : ∀ offset, (RegisterPage.read64 offset : Action ρ Empty Word).Keeps SameLog
  write32 : ∀ offset value,
    (RegisterPage.write32 offset value : Action ρ Empty Unit).Keeps SameLog
  write64 : ∀ offset value,
    (RegisterPage.write64 offset value : Action ρ Empty Unit).Keeps SameLog

theorem sameLog_update (change : σ → σ) :
    (Action.update change : Action σ ε Unit).Keeps SameLog :=
  ⟨fun _ => (Action.ends_update change).mpr rfl⟩

theorem sameLog_record (severity : Severity) (text : Unit → String) :
    (Action.record severity text : Action σ ε Unit).Keeps SameLog :=
  ⟨fun _ => (Action.ends_record severity text).mpr (Journal.log_record ..)⟩

theorem sameLog_on {τ : Type} (part : Part σ τ) {inner : Action τ ε α}
    (quiet : inner.Keeps SameLog) : (Action.on part inner).Keeps SameLog := by
  constructor
  intro start
  rw [Action.ends_on]
  exact (quiet.ends _).mono (fun _ _ => id) fun _ _ => id

instance : QuietPage EmulatedUnit where
  read32 offset := by
    apply Keeps.bind .state
    intro unit
    split
    · exact .pure _
    · exact .bind (sameLog_record ..) fun _ => .pure _
  read64 offset := by
    apply Keeps.bind .state
    intro unit
    split
    · exact .bind (sameLog_update _) fun _ => .bind .state fun _ => .pure _
    · exact .bind (sameLog_record ..) fun _ => .pure _
  write32 offset value := by
    apply Keeps.bind .state
    intro unit
    split
    · exact sameLog_update _
    · exact sameLog_record ..
  write64 offset value := by
    apply Keeps.bind .state
    intro unit
    split
    · exact sameLog_update _
    · exact sameLog_record ..

namespace MappedPage

theorem sameLog_load (width offset : Nat) : (load width offset).Keeps SameLog :=
  .bind .state fun _ => .bind (.lift _) fun _ => .pure _

theorem sameLog_store (width offset value : Nat) : (store width offset value).Keeps SameLog :=
  .bind .state fun _ => .bind (.lift _) fun _ => sameLog_update _

instance : QuietPage MappedPage where
  read32 offset := .bind (sameLog_load 4 offset) fun _ => .pure _
  read64 offset := .bind (sameLog_load 8 offset) fun _ => .pure _
  write32 offset value := sameLog_store 4 offset value.toNat
  write64 offset value := sameLog_store 8 offset value.toNat

end MappedPage

namespace Bus

theorem sameLog_read {size : Nat} (width : AccessWidth) (offset : Nat)
    {ask : Action ρ Empty (BitVec size)} (quiet : ask.Keeps SameLog) :
    (read width offset ask).Keeps SameLog := by
  apply Keeps.bind .state
  intro bus
  split
  · exact .bind (sameLog_update _) fun _ => .pure _
  · exact sameLog_on _ quiet

instance [RegisterPage ρ] [QuietPage ρ] : QuietPage (Bus ρ) where
  read32 offset := sameLog_read _ _ (QuietPage.read32 offset)
  read64 offset := sameLog_read _ _ (QuietPage.read64 offset)
  write32 offset value := sameLog_on _ (QuietPage.write32 offset value)
  write64 offset value := sameLog_on _ (QuietPage.write64 offset value)

end Bus

/-- A read of the version register. -/
def Version.read (version : Version) : Effect :=
  .access ⟨.read, .word32, RegisterOffset.version, version.raw.toNat⟩

/-- The version that an effect shows, if it is a read of the version register. -/
def Effect.version? : Effect → Option Version
  | .access ⟨.read, .word32, offset, value⟩ =>
    if offset = RegisterOffset.version then some ⟨.ofNat 32 value⟩ else none
  | _ => none

@[simp] theorem Version.version?_read (version : Version) :
    version.read.version? = some version := by
  simp [read, Effect.version?]

/-- The submission of a context command. -/
def ContextCommand.submission (command : ContextCommand) : Effect :=
  .access ⟨.write, .word64, RegisterOffset.contextCommand, command.raw.toNat⟩

/-- The context command that an effect submits, if it does. -/
def Effect.contextCommand? : Effect → Option ContextCommand
  | .access ⟨.write, .word64, offset, value⟩ =>
    if offset = RegisterOffset.contextCommand then some ⟨.ofNat 64 value⟩ else none
  | _ => none

@[simp] theorem ContextCommand.contextCommand?_submission (command : ContextCommand) :
    command.submission.contextCommand? = some command := by
  simp [submission, Effect.contextCommand?]

namespace RemappingUnit

/-- The submission of an IOTLB command. -/
def submission (unit : RemappingUnit) (command : IotlbCommand) : Effect :=
  .access ⟨.write, .word64, unit.extended.iotlbOffset, command.raw.toNat⟩

end RemappingUnit

theorem Granularity.ofCode?_code (granularity : Granularity) :
    ofCode? granularity.code = some granularity := by
  cases granularity <;> rfl

theorem Granularity.code_lt (granularity : Granularity) : granularity.code < 4 := by
  cases granularity <;> decide

namespace ContextCommand

/-- Whether a command invalidates what the context cache holds of a device under a domain id. -/
def Covers (command : ContextCommand) (device : RoutingId) (domain : DomainId) : Prop :=
  command.inProgress = true ∧
    (command.requested = some .global ∨
      command.requested = some .device ∧ command.source = device ∨
      command.requested = some .domain ∧ command.domain = domain)

instance (command : ContextCommand) (device : RoutingId) (domain : DomainId) :
    Decidable (command.Covers device domain) :=
  inferInstanceAs (Decidable (_ ∧ _))

variable {granularity : Granularity} {source : RoutingId} {id : DomainId}

theorem inProgress_invalidate : (invalidate granularity source id).inProgress = true := by
  simp (disch := decide) only [invalidate, inProgress, Field.isSet, Field.put,
    Field.get_set_of_disjoint, Field.get_set]
  rfl

theorem requestCode_invalidate :
    (invalidate granularity source id).requestCode = granularity.code := by
  simp (disch := decide) only [invalidate, requestCode, Field.get_set_of_disjoint, Field.get_set]
  exact Nat.mod_eq_of_lt granularity.code_lt

theorem requested_invalidate :
    (invalidate granularity source id).requested = some granularity := by
  rw [requested, requestCode_invalidate]
  exact granularity.ofCode?_code

theorem source_invalidate : (invalidate granularity source id).source = source := by
  simp (disch := decide) only [invalidate, ContextCommand.source, Field.get_set_of_disjoint,
    Field.get_set]
  simp only [sourceField, Nat.reduceShiftLeft, Nat.mod_eq_of_lt source.val.isLt]
  exact source.ofNat_val

theorem domain_invalidate : (invalidate granularity source id).domain = id := by
  simp (disch := decide) only [invalidate, ContextCommand.domain, Field.get_set]
  simp only [domainField, Nat.reduceShiftLeft, Nat.mod_eq_of_lt id.val.isLt]
  exact id.ofNat_val

end ContextCommand

namespace IotlbCommand

/-- Whether a command invalidates the translations that the IOTLB holds under a domain id, and those
alone. -/
def Selects (command : IotlbCommand) (domain : DomainId) : Prop :=
  command.inProgress = true ∧ command.requested = some .domain ∧ command.domain = domain

/-- Whether a command invalidates the translations that the IOTLB holds under a domain id. -/
def Covers (command : IotlbCommand) (domain : DomainId) : Prop :=
  command.inProgress = true ∧ command.requested = some .global ∨ command.Selects domain

variable {granularity : Granularity} {id : DomainId}

theorem inProgress_invalidate : (invalidate granularity id).inProgress = true := by
  simp (disch := decide) only [invalidate, inProgress, Field.isSet, Field.put,
    Field.get_set_of_disjoint, Field.get_set]
  rfl

theorem requestCode_invalidate : (invalidate granularity id).requestCode = granularity.code := by
  simp (disch := decide) only [invalidate, requestCode, Field.put, Field.get_set_of_disjoint,
    Field.get_set]
  exact Nat.mod_eq_of_lt granularity.code_lt

theorem requested_invalidate : (invalidate granularity id).requested = some granularity := by
  rw [requested, requestCode_invalidate]
  exact granularity.ofCode?_code

theorem domain_invalidate : (invalidate granularity id).domain = id := by
  simp (disch := decide) only [invalidate, IotlbCommand.domain, Field.get_set]
  simp only [domainField, Nat.reduceShiftLeft, Nat.mod_eq_of_lt id.val.isLt]
  exact id.ofNat_val

end IotlbCommand

namespace RemappingUnit

theorem selects_iotlbRequest {domain : DomainId} (valid : domain.isValid = true) :
    (iotlbRequest (some domain)).Selects domain := by
  simp only [iotlbRequest, Option.filter_some, valid, if_true]
  exact ⟨IotlbCommand.inProgress_invalidate, IotlbCommand.requested_invalidate,
    IotlbCommand.domain_invalidate⟩

/-- An invalidation for a domain covers it, whether the id is a valid one or not. -/
theorem covers_iotlbRequest (domain : DomainId) : (iotlbRequest (some domain)).Covers domain := by
  by_cases valid : domain.isValid = true
  · exact .inr (selects_iotlbRequest valid)
  · simp only [iotlbRequest, Option.filter_some, valid, Bool.false_eq_true, if_false]
    exact .inl ⟨IotlbCommand.inProgress_invalidate, IotlbCommand.requested_invalidate⟩

theorem covers_contextRequest_device (domain : Option DomainId) (device : RoutingId)
    (id : DomainId) : (contextRequest domain (some device)).Covers device id :=
  ⟨ContextCommand.inProgress_invalidate,
    .inr (.inl ⟨ContextCommand.requested_invalidate, ContextCommand.source_invalidate⟩)⟩

theorem covers_contextRequest_domain (domain : DomainId) (device : RoutingId) :
    (contextRequest (some domain) none).Covers device domain := by
  refine ⟨ContextCommand.inProgress_invalidate, ?_⟩
  by_cases valid : domain.isValid = true
  · simp only [contextRequest, Option.filter_some, valid, if_true]
    exact .inr (.inr ⟨ContextCommand.requested_invalidate, ContextCommand.domain_invalidate⟩)
  · simp only [contextRequest, Option.filter_some, valid, Bool.false_eq_true, if_false]
    exact .inl ContextCommand.requested_invalidate

end RemappingUnit

end DmaRemap

import DmaRemap.Controller.Basic
import DmaRemap.Emulated
import DmaRemap.Proofs.Adoption
import DmaRemap.Proofs.Effects

namespace DmaRemap

open RegisterPage (get32 get64 put32 put64)
open DmaRemap.Action (Keeps)

namespace EmulatedUnit

variable {ε α : Type} {offset : Nat} {next : EmulatedUnit}

theorem get32_returns (offset : Nat) (start : Journaled EmulatedUnit) :
    (get32 offset : Action EmulatedUnit ε (BitVec 32)).Returns start fun value last =>
      last.state = start.state ∧ value = (start.state.answer32? offset).getD 0 := by
  unfold get32 RegisterPage.ask
  simp only [RegisterPage.read32, Action.ends_bind, Action.ends_mapError, Action.ends_state,
    Action.ends_observe, Action.ends_pure]
  cases start.state.answer32? offset with
  | some value => simp
  | none => exact (Action.ends_bind ..).mpr ((Action.ends_record ..).mpr (by simp))

theorem get64_returns (offset : Nat) (start : Journaled EmulatedUnit) :
    (get64 offset : Action EmulatedUnit ε Word).Returns start fun value last =>
      last.state = (start.state.register64? offset).elim start.state start.state.afterRead64 ∧
        value = (start.state.register64? offset).elim 0 last.state.value64 := by
  unfold get64 RegisterPage.ask
  simp only [RegisterPage.read64, Action.ends_bind, Action.ends_mapError, Action.ends_state,
    Action.ends_observe, Action.ends_pure]
  cases start.state.register64? offset with
  | some register => simp
  | none => exact (Action.ends_bind ..).mpr ((Action.ends_record ..).mpr (by simp))

theorem get64_capability (start : Journaled EmulatedUnit) :
    (get64 RegisterOffset.capability : Action EmulatedUnit ε Word).Returns start fun value last =>
      value = start.state.config.capability.raw ∧ last.state = start.state := by
  apply (get64_returns _ start).mono _ fun _ _ => id
  rintro _ last ⟨same, rfl⟩
  exact ⟨congrArg (fun page => page.config.capability.raw) same, same⟩

theorem get64_extendedCapability (start : Journaled EmulatedUnit) :
    (get64 RegisterOffset.extendedCapability : Action EmulatedUnit ε Word).Returns start
      fun value last =>
        value = start.state.config.extendedCapability.raw ∧ last.state = start.state := by
  apply (get64_returns _ start).mono _ fun _ _ => id
  rintro _ last ⟨same, rfl⟩
  exact ⟨congrArg (fun page => page.config.extendedCapability.raw) same, same⟩

theorem put32_returns (offset : Nat) (value : BitVec 32) (start : Journaled EmulatedUnit) :
    (put32 offset value : Action EmulatedUnit ε Unit).Returns start fun _ last =>
      last.state = (start.state.write32? offset value).getD start.state := by
  unfold put32 RegisterPage.ask
  simp only [RegisterPage.write32, Action.ends_bind, Action.ends_mapError, Action.ends_state,
    Action.ends_observe]
  cases start.state.write32? offset value with
  | some next => simp
  | none => exact (Action.ends_record ..).mpr rfl

theorem put64_returns (offset : Nat) (value : Word) (start : Journaled EmulatedUnit) :
    (put64 offset value : Action EmulatedUnit ε Unit).Returns start fun _ last =>
      last.state = (start.state.write64? offset value).getD start.state := by
  unfold put64 RegisterPage.ask
  simp only [RegisterPage.write64, Action.ends_bind, Action.ends_mapError, Action.ends_state,
    Action.ends_observe]
  cases start.state.write64? offset value with
  | some next => simp
  | none => exact (Action.ends_record ..).mpr rfl

/-- Two states of a unit that hold the same faults in the same order. -/
structure SameFaults (before after : EmulatedUnit) : Prop where
  config : after.config = before.config
  records : after.records = before.records
  first : after.firstRecord = before.firstRecord

theorem SameFaults.refl (unit : EmulatedUnit) : unit.SameFaults unit :=
  ⟨rfl, rfl, rfl⟩

theorem SameFaults.trans {first second third : EmulatedUnit} (early : first.SameFaults second)
    (late : second.SameFaults third) : first.SameFaults third :=
  ⟨late.config.trans early.config, late.records.trans early.records, late.first.trans early.first⟩

theorem sameFaults_afterRead64 (unit : EmulatedUnit) (register : Register64) :
    unit.SameFaults (unit.afterRead64 register) := by
  cases register <;> exact ⟨rfl, rfl, rfl⟩

theorem sameFaults_write32 {unit : EmulatedUnit} {value : BitVec 32}
    (writes : unit.write32? offset value = some next) : unit.SameFaults next := by
  unfold write32? at writes
  repeat' split at writes
  all_goals cases writes <;> exact ⟨rfl, rfl, rfl⟩

theorem sameFaults_put32 (offset : Nat) (value : BitVec 32) (start : Journaled EmulatedUnit) :
    (put32 offset value : Action EmulatedUnit ε Unit).Returns start fun _ last =>
      start.state.SameFaults last.state := by
  apply (put32_returns offset value start).mono _ fun _ _ => id
  intro _ last written
  rw [written]
  cases writes : start.state.write32? offset value with
  | some next => exact sameFaults_write32 writes
  | none => exact .refl start.state

/-- The 64-bit registers that software writes to command the unit. -/
def commandOffsets (extended : ExtendedCapability) : List Nat :=
  [RegisterOffset.rootTableAddress, RegisterOffset.contextCommand, extended.iotlbOffset]

theorem written64_command {unit : EmulatedUnit}
    (command : offset ∈ commandOffsets unit.config.extendedCapability) :
    unit.written64? offset = some .rootTableAddress ∨
      unit.written64? offset = some .contextCommand ∨
      unit.written64? offset = some .iotlbInvalidate := by
  unfold written64?
  split
  · exact .inl rfl
  split
  · exact .inr (.inl rfl)
  split
  · exact .inr (.inr rfl)
  · simp_all [commandOffsets]

theorem sameFaults_write64 {unit : EmulatedUnit} {value : Word}
    (command : offset ∈ commandOffsets unit.config.extendedCapability)
    (writes : unit.write64? offset value = some next) : unit.SameFaults next := by
  unfold write64? at writes
  rcases written64_command command with reached | reached | reached
  all_goals
    rw [reached] at writes
    cases writes
    exact ⟨rfl, rfl, rfl⟩

/-- If software knows the extended capabilities of the unit, the unit holds the same faults
afterwards. -/
def Undisturbed (extended : ExtendedCapability) (start last : Journaled EmulatedUnit) : Prop :=
  start.state.config.extendedCapability = extended → start.state.SameFaults last.state

instance (extended : ExtendedCapability) :
    IsPreorder (Journaled EmulatedUnit) (Undisturbed extended) where
  refl start _ := .refl start.state
  trans start middle last := by
    intro early late known
    have same := early known
    exact same.trans (late (same.config ▸ known))

section Undisturbed

variable (extended : ExtendedCapability)

theorem undisturbed_record (severity : Severity) (text : Unit → String) :
    (Action.record severity text : Action EmulatedUnit ε Unit).Keeps (Undisturbed extended) :=
  ⟨fun start => (Action.ends_record ..).mpr fun _ => .refl start.state⟩

theorem undisturbed_get32 (offset : Nat) :
    (get32 offset : Action EmulatedUnit ε (BitVec 32)).Keeps (Undisturbed extended) := by
  constructor
  intro start
  apply (get32_returns offset start).mono _ fun _ _ => False.elim
  intro _ last read _
  exact read.1 ▸ .refl start.state

theorem undisturbed_get64 (offset : Nat) :
    (get64 offset : Action EmulatedUnit ε Word).Keeps (Undisturbed extended) := by
  constructor
  intro start
  apply (get64_returns offset start).mono _ fun _ _ => False.elim
  intro _ last read _
  rw [read.1]
  cases start.state.register64? offset with
  | some register => exact sameFaults_afterRead64 ..
  | none => exact .refl start.state

theorem undisturbed_put32 (offset : Nat) (value : BitVec 32) :
    (put32 offset value : Action EmulatedUnit ε Unit).Keeps (Undisturbed extended) := by
  constructor
  intro start
  exact (sameFaults_put32 offset value start).mono (fun _ _ same _ => same) fun _ _ => False.elim

theorem undisturbed_put64 (value : Word) (command : offset ∈ commandOffsets extended) :
    (put64 offset value : Action EmulatedUnit ε Unit).Keeps (Undisturbed extended) := by
  constructor
  intro start
  apply (put64_returns offset value start).mono _ fun _ _ => False.elim
  intro _ last written known
  rw [written]
  cases writes : start.state.write64? offset value with
  | some next => exact sameFaults_write64 (known ▸ command) writes
  | none => exact .refl start.state

theorem undisturbed_tolerant : Tolerant ε (Undisturbed extended) where
  record := undisturbed_record extended
  get32 := undisturbed_get32 extended
  put32 := undisturbed_put32 extended
  get64 := undisturbed_get64 extended

end Undisturbed

end EmulatedUnit

namespace RemappingUnit

open EmulatedUnit

variable {ε : Type} (unit : RemappingUnit)

theorem undisturbed_handshake {offset : Nat} (command : Word)
    (reached : offset ∈ commandOffsets unit.extended) (name : String) :
    (unit.handshake name offset command : Action EmulatedUnit ε Word).Keeps
      (Undisturbed unit.extended) :=
  (undisturbed_tolerant _).handshake unit (undisturbed_put64 _ command reached) name

theorem undisturbed_invalidateAll (domain : Option DomainId) (device : Option RoutingId) :
    (unit.invalidateAll domain device : Action EmulatedUnit ε Invalidation).Keeps
      (Undisturbed unit.extended) := by
  have tolerates : Tolerant ε (Undisturbed unit.extended) := undisturbed_tolerant _
  apply tolerates.compositional.invalidateAll unit
  case flushes => exact unit.undisturbed_handshake _ (by simp [commandOffsets])
  case asks => exact tolerates.readVersion
  case shakes => exact unit.undisturbed_handshake _ (by simp [commandOffsets])

end RemappingUnit

namespace Controller

open EmulatedUnit

theorem undisturbed_adopt (driver : RemappingUnit) (pool : Pool)
    (interrupt : Option FaultInterrupt) :
    (adopt driver pool interrupt : Action EmulatedUnit IommuError Controller).Keeps
      (Undisturbed driver.extended) := by
  apply keeps_adopt (undisturbed_tolerant _)
  case links => exact fun value => undisturbed_put64 _ value (by simp [commandOffsets])
  case forgets => exact driver.undisturbed_invalidateAll none none
  case creates =>
    constructor
    intro now
    apply (Bindings.create_ends pool driver.coherency now).mono
    · exact fun _ last ended _ => ended.1 ▸ .refl now.state
    · exact fun _ last ended _ => ended ▸ .refl now.state

/-- Taking over an emulated unit reads what the unit is capable of, and disturbs no fault. -/
theorem takeOver_ends (name : String) (pool : Pool) (interrupt : Option FaultInterrupt)
    (config : Config) (start : Journaled EmulatedUnit) :
    (takeOver name pool interrupt config).Ends start
      (fun controller last => start.state.SameFaults last.state ∧
        controller.unit.capability = start.state.config.capability)
      (fun _ last => start.state.SameFaults last.state) := by
  rw [takeOver_eq, Action.ends_bind]
  apply (get64_capability start).mono _ fun _ _ => False.elim
  rintro capability first ⟨shown, early⟩
  rw [Action.ends_bind]
  apply (get64_extendedCapability first).mono _ fun _ _ => False.elim
  rintro extended second ⟨shown', late⟩
  have same : second.state = start.state := late.trans early
  have reported : second.state.config.extendedCapability = ⟨extended⟩ := by
    rw [shown', late]
  apply (((adopt_gives ..).ends second).and ((undisturbed_adopt ..).ends second)).mono
  · intro controller last ended
    exact ⟨same ▸ ended.2 reported, by rw [ended.1.1, shown]⟩
  · intro cause last ended
    exact same ▸ ended.2 reported

end Controller

end DmaRemap

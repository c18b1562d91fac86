import DmaRemap.Fault.Record
import DmaRemap.Register.Capability
import DmaRemap.Register.FaultStatus
import DmaRemap.Register.Flags
import DmaRemap.Register.Invalidation
import DmaRemap.Register.Page

/-!
A remapping unit in software: it answers register accesses as hardware does, completes invalidations
after a set number of reads, and keeps a ring of fault records. It translates nothing.
-/

namespace DmaRemap

/-- The properties of an emulated unit. -/
structure EmulatedConfig where
  /-- The code of the number of domain ids. -/
  domains : Nat := 2
  cachingMode : Bool := false
  coherent : Bool := true
  rootSetInvalidates : Bool := true
  writeBufferFlush : Bool := false
  fourLevel : Bool := true
  records : Nat := 4
  /-- The offset of the IOTLB registers in units of 16 bytes. -/
  iotlbOffset : Nat := 0x10
  /-- The offset of the fault records in units of 16 bytes. -/
  recordOffset : Nat := 0x20
  version : BitVec 32 := 0x10
  /-- The scope that context-cache invalidations report, unless it is the requested one. -/
  contextGranularity : Option Word := none
  /-- The scope that IOTLB invalidations report, unless it is the requested one. -/
  iotlbGranularity : Option Word := none
  /-- Reads of an invalidation register until its command completes. -/
  busyPolls : Nat := 0
  /-- Whether fault records ignore that software clears them. -/
  stickyFaults : Bool := false
  /-- Whether translation is enabled from the start. -/
  enabled : Bool := false
deriving DecidableEq, Repr

namespace EmulatedConfig

def capability (config : EmulatedConfig) : Capability :=
  let word := Capability.domainsField.set (0 : Word) config.domains
  let word := Capability.writeBufferField.put word config.writeBufferFlush
  let word := Capability.cachingModeField.put word config.cachingMode
  let word := Capability.fourLevelField.put word config.fourLevel
  let word := Capability.recordOffsetField.set word config.recordOffset
  let word := Capability.recordsField.set word (config.records - 1)
  ⟨Capability.rootSetInvalidatesField.put word config.rootSetInvalidates⟩

def extendedCapability (config : EmulatedConfig) : ExtendedCapability :=
  let word := ExtendedCapability.coherencyField.put (0 : Word) config.coherent
  ⟨ExtendedCapability.iotlbOffsetField.set word config.iotlbOffset⟩

/-- What becomes of a context command when it completes. -/
def completeContext (config : EmulatedConfig) (command : Word) : Word :=
  let actual := (config.contextGranularity.map BitVec.toNat).getD
    (ContextCommand.mk command).requestCode
  ((ContextCommand.mk command).complete actual).raw

/-- What becomes of an IOTLB command when it completes. -/
def completeIotlb (config : EmulatedConfig) (command : Word) : Word :=
  let actual := (config.iotlbGranularity.map BitVec.toNat).getD
    (IotlbCommand.mk command).requestCode
  ((IotlbCommand.mk command).complete actual).raw

end EmulatedConfig

/-- An invalidation register: the last command, and how many reads it takes until it completes. -/
structure InvalidationRegister where
  value : Word := 0
  busy : Nat := 0
deriving DecidableEq, Repr

namespace InvalidationRegister

/-- The register after a command that completes after `busy` reads, or at once. -/
def submit (complete : Word → Word) (command : Word) (busy : Nat) : InvalidationRegister :=
  ⟨if busy = 0 then complete command else command, busy⟩

/-- The register after a read, which shows its value. -/
def afterRead (complete : Word → Word) : InvalidationRegister → InvalidationRegister
  | ⟨value, 0⟩ => ⟨value, 0⟩
  | ⟨value, 1⟩ => ⟨complete value, 0⟩
  | ⟨value, busy + 2⟩ => ⟨value, busy + 1⟩

end InvalidationRegister

/-- The two words of a fault record. -/
structure RecordWords where
  low : Word := 0
  high : Word := 0
deriving DecidableEq, Repr

/-- An emulated unit. -/
structure EmulatedUnit where
  config : EmulatedConfig
  busyPolls : Nat
  enabled : Bool
  /-- The status bits that stay set once they are. -/
  latched : GlobalStatus
  rootPointer : Word
  context : InvalidationRegister
  iotlb : InvalidationRegister
  /-- The context commands that were written, in their order. -/
  contextCommands : Array ContextCommand
  /-- The IOTLB commands that were written, in their order. -/
  iotlbCommands : Array IotlbCommand
  overflow : Bool
  firstRecord : Nat
  records : Array RecordWords
  faultEventControl : FaultEventControl
  faultEventData : BitVec 32
  faultEventAddress : BitVec 32
deriving DecidableEq, Repr

namespace EmulatedUnit

/-- A unit after reset. -/
def create (config : EmulatedConfig) : EmulatedUnit where
  config
  busyPolls := config.busyPolls
  enabled := config.enabled
  latched := ⟨0⟩
  rootPointer := 0
  context := {}
  iotlb := {}
  contextCommands := #[]
  iotlbCommands := #[]
  overflow := false
  firstRecord := 0
  records := Array.replicate config.records {}
  faultEventControl := ⟨FaultEventControl.masked⟩
  faultEventData := 0
  faultEventAddress := 0

def globalStatus (unit : EmulatedUnit) : GlobalStatus :=
  unit.latched.set GlobalStatus.enabled unit.enabled

/-- Whether some record holds a fault. -/
def faultPending (unit : EmulatedUnit) : Bool :=
  unit.records.any fun words => FaultRecord.isFault words.high

def faultStatus (unit : EmulatedUnit) : FaultStatus :=
  .report unit.overflow unit.faultPending unit.firstRecord

/-- Changes how many reads later invalidations take. -/
def setBusyPolls (unit : EmulatedUnit) (polls : Nat) : EmulatedUnit :=
  { unit with busyPolls := polls }

/-- Signals that fault records were lost. -/
def setFaultOverflow (unit : EmulatedUnit) : EmulatedUnit :=
  { unit with overflow := true }

/-- Reports a fault in a record. If no other is pending, it is the first. -/
def raiseFault (unit : EmulatedUnit) (index : Nat) (record : FaultRecord) :
    Except Abort EmulatedUnit :=
  if index < unit.records.size then
    .ok { unit with
      firstRecord := if unit.faultPending then unit.firstRecord else index
      records := unit.records.setIfInBounds index ⟨record.encodeLow, record.encodeHigh⟩ }
  else
    .error (.indexOutOfBounds unit.records.size index)

/-- The record at a byte offset, and whether its high word is meant. -/
def recordAt? (unit : EmulatedUnit) (offset : Nat) : Option (Nat × Bool) :=
  let base := unit.config.capability.recordOffset
  let index := (offset - base) / 16
  if base ≤ offset ∧ index < unit.config.records then some (index, offset % 16 == 8) else none

/-- The 64-bit registers. -/
inductive Register64 where
  | capability
  | extendedCapability
  | rootTableAddress
  | contextCommand
  | iotlbInvalidate
  | record (index : Nat) (high : Bool)
deriving DecidableEq, Repr

/-- The 64-bit register that a write at a byte offset reaches. Fault records come last. -/
def written64? (unit : EmulatedUnit) (offset : Nat) : Option Register64 :=
  if offset = RegisterOffset.rootTableAddress then some .rootTableAddress
  else if offset = RegisterOffset.contextCommand then some .contextCommand
  else if offset = unit.config.extendedCapability.iotlbOffset then some .iotlbInvalidate
  else (unit.recordAt? offset).map fun place => .record place.1 place.2

/-- The 64-bit register that a read at a byte offset reaches. Only reads reach the capabilities. -/
def register64? (unit : EmulatedUnit) (offset : Nat) : Option Register64 :=
  if offset = RegisterOffset.capability then some .capability
  else if offset = RegisterOffset.extendedCapability then some .extendedCapability
  else unit.written64? offset

/-- What a 32-bit read answers. -/
def answer32? (unit : EmulatedUnit) (offset : Nat) : Option (BitVec 32) :=
  if offset = RegisterOffset.version then some unit.config.version
  else if offset = RegisterOffset.globalStatus then some unit.globalStatus.bits
  else if offset = RegisterOffset.faultStatus then some unit.faultStatus.raw
  else if offset = RegisterOffset.faultEventControl then some unit.faultEventControl.bits
  else if offset = RegisterOffset.faultEventData then some unit.faultEventData
  else if offset = RegisterOffset.faultEventAddress then some unit.faultEventAddress
  else none

/-- The unit after a 64-bit read of a register, which moves a command in progress towards its end.
-/
def afterRead64 (unit : EmulatedUnit) : Register64 → EmulatedUnit
  | .contextCommand =>
    { unit with context := unit.context.afterRead unit.config.completeContext }
  | .iotlbInvalidate => { unit with iotlb := unit.iotlb.afterRead unit.config.completeIotlb }
  | _ => unit

/-- What a 64-bit register shows. -/
def value64 (unit : EmulatedUnit) : Register64 → Word
  | .capability => unit.config.capability.raw
  | .extendedCapability => unit.config.extendedCapability.raw
  | .rootTableAddress => unit.rootPointer
  | .contextCommand => unit.context.value
  | .iotlbInvalidate => unit.iotlb.value
  | .record index high =>
    let words := unit.records[index]?.getD {}
    if high then words.high else words.low

/-- The unit after a 32-bit write, if it has such a register. -/
def write32? (unit : EmulatedUnit) (offset : Nat) (value : BitVec 32) : Option EmulatedUnit :=
  if offset = RegisterOffset.globalCommand then
    let command : GlobalCommand := ⟨value⟩
    let latched := if command.has GlobalCommand.setRootTable then
      unit.latched.set GlobalStatus.rootTableSet true else unit.latched
    let latched := if command.has GlobalCommand.setInterruptTable then
      latched.set GlobalStatus.interruptTableSet true else latched
    some { unit with enabled := command.has GlobalCommand.enable, latched }
  else if offset = RegisterOffset.faultStatus then
    some { unit with overflow := unit.overflow && !(FaultStatus.mk value).overflow }
  else if offset = RegisterOffset.faultEventControl then
    some { unit with faultEventControl := ⟨value⟩ }
  else if offset = RegisterOffset.faultEventData then some { unit with faultEventData := value }
  else if offset = RegisterOffset.faultEventAddress then
    some { unit with faultEventAddress := value }
  else none

/-- The unit after a 64-bit write, if it has such a register. The high word of a record clears the
record when its fault bit is written. -/
def write64? (unit : EmulatedUnit) (offset : Nat) (value : Word) : Option EmulatedUnit :=
  match unit.written64? offset with
  | some .rootTableAddress => some { unit with rootPointer := value }
  | some .contextCommand =>
    some { unit with
      contextCommands := unit.contextCommands.push ⟨value⟩
      context := .submit unit.config.completeContext value unit.busyPolls }
  | some .iotlbInvalidate =>
    some { unit with
      iotlbCommands := unit.iotlbCommands.push ⟨value⟩
      iotlb := .submit unit.config.completeIotlb value unit.busyPolls }
  | some (.record index true) =>
    if FaultRecord.isFault value && !unit.config.stickyFaults then
      some { unit with records := unit.records.setIfInBounds index {} }
    else
      some unit
  | _ => none

private def unknownRegister (access : String) (offset : Nat) : Action EmulatedUnit Empty PUnit :=
  Action.record .trace fun () => s!"emulated {access} of unknown register {Text.hex offset}"

instance : RegisterPage EmulatedUnit where
  read32 offset := do
    match (← Action.state).answer32? offset with
    | some value => return value
    | none =>
      unknownRegister "read32" offset
      return 0
  read64 offset := do
    match (← Action.state).register64? offset with
    | some register =>
      Action.update fun unit => unit.afterRead64 register
      return (← Action.state).value64 register
    | none =>
      unknownRegister "read64" offset
      return 0
  write32 offset value := do
    match (← Action.state).write32? offset value with
    | some unit => Action.update fun _ => unit
    | none => unknownRegister "write32" offset
  write64 offset value := do
    match (← Action.state).write64? offset value with
    | some unit => Action.update fun _ => unit
    | none => unknownRegister "write64" offset
  settling unit := unit.context.busy + unit.iotlb.busy

end EmulatedUnit

end DmaRemap

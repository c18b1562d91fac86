import DmaRemap.Context.Bindings
import DmaRemap.Controller.Unit
import DmaRemap.Register.FaultStatus
import DmaRemap.Register.RootPointer

namespace DmaRemap

open RegisterPage (get32 get64 put32 put64)

/-- Where and what a unit writes to signal an interrupt. -/
structure MsiMessage where
  address : BitVec 32
  data : BitVec 32
deriving DecidableEq, Repr

/-- The interrupt that signals faults: its message, if it has one, and how often it was
acknowledged. -/
structure FaultInterrupt where
  message : Option MsiMessage
  acknowledged : Nat := 0
deriving DecidableEq, Repr

namespace FaultInterrupt

def acknowledge (interrupt : FaultInterrupt) : FaultInterrupt :=
  { interrupt with acknowledged := interrupt.acknowledged + 1 }

end FaultInterrupt

/-- The software side of a remapping unit. -/
structure Controller where
  unit : RemappingUnit
  bindings : Bindings
  ids : DomainIds
  interrupt : Option FaultInterrupt

/-- A controller and the register page it drives. -/
structure Machine (ρ : Type) where
  controller : Controller
  page : ρ

namespace Machine

variable {ρ : Type}

def pagePart : Part (Machine ρ) ρ :=
  ⟨Machine.page, fun page machine => { machine with page }⟩

def bindingsPart : Part (Machine ρ) Bindings :=
  ⟨fun machine => machine.controller.bindings, fun bindings machine =>
    { machine with controller := { machine.controller with bindings } }⟩

def idsPart : Part (Machine ρ) DomainIds :=
  ⟨fun machine => machine.controller.ids, fun ids machine =>
    { machine with controller := { machine.controller with ids } }⟩

end Machine

namespace RemappingUnit

def cachingMode (unit : RemappingUnit) : Bool := unit.capability.cachingMode

/-- How tables that the unit walks have to be written. -/
def coherency (unit : RemappingUnit) : Coherency :=
  if unit.extended.coherentWalk then .coherent else .nonCoherent

variable {ρ ε : Type} [RegisterPage ρ]

/-- Routes fault events to an interrupt that sends messages. -/
def routeFaults (unit : RemappingUnit) (interrupt : FaultInterrupt) : Action ρ ε Unit := do
  match interrupt.message with
  | none =>
    Action.record .error fun () =>
      s!"unable to enable fault event interrupts for {unit.name}"
  | some message =>
    put32 RegisterOffset.faultEventAddress message.address
    put32 RegisterOffset.faultEventData message.data
    let control : FaultEventControl := ⟨← get32 RegisterOffset.faultEventControl⟩
    put32 RegisterOffset.faultEventControl control.unmasked.bits

end RemappingUnit

namespace Controller

variable {ρ ε : Type} [RegisterPage ρ]

/-- Takes over the unit behind a register page. Root and context tables are built in `pool`.
Translation stays as it is. -/
def takeOver (name : String) (pool : Pool) (interrupt : Option FaultInterrupt) (config : Config) :
    Action ρ IommuError Controller := do
  let capability : Capability := ⟨← get64 RegisterOffset.capability⟩
  let extended : ExtendedCapability := ⟨← get64 RegisterOffset.extendedCapability⟩
  let unit : RemappingUnit := { name, config, capability, extended }
  unless capability.fourLevel do
    Action.record .error fun () => s!"IOMMU {name} does not support 4-level page tables"
    Action.fail .unsupportedTableDepth
  let bindings ← Action.mapError .table (Bindings.create pool unit.coherency)
  if !capability.rootSetInvalidates then
    discard <| unit.invalidateAll none none
  else if (← RemappingUnit.readGlobalStatus).has GlobalStatus.enabled then
    Action.record .error fun () => s!"IOMMU {name} already enabled"
    Action.fail .alreadyEnabled
  if capability.writeBufferFlush && !capability.cachingMode then
    Action.record .warn fun () =>
      s!"IOMMU {name} requires explicit write-buffer flushing (not implemented)"
  interrupt.forM unit.routeFaults
  put64 RegisterOffset.rootTableAddress (RootPointer.legacy bindings.root.val).raw
  unit.globalCommand GlobalCommand.setRootTable true
  Action.recordM .debug do
    let version ← RemappingUnit.readVersion
    return s!"IOMMU {name}: version {version}, {capability.describe}, {extended.describe}, " ++
      s!"root table at {bindings.root}"
  return {
    unit
    bindings
    ids := .ofLimit capability.maxDomains
    interrupt := interrupt.map FaultInterrupt.acknowledge }

def describe (controller : Controller) : String :=
  Text.fields "IoMmu"
    [("name", Text.quoted controller.unit.name),
      ("capability", controller.unit.capability.describe),
      ("extended", controller.unit.extended.describe),
      ("root_table", controller.bindings.root.describe)]

end Controller

namespace Machine

variable {ρ ε : Type} [RegisterPage ρ]

def unit : Action (Machine ρ) ε RemappingUnit :=
  return (← Action.state).controller.unit

/-- Turns translation on or off. -/
def setEnabled (enabled : Bool) : Action (Machine ρ) ε Unit := do
  let unit ← unit
  Action.on pagePart (unit.globalCommand GlobalCommand.enable enabled)
  if unit.config.verbose then
    let verb := if enabled then "enabled" else "disabled"
    Action.record .info fun () => s!"{verb} IOMMU {unit.name}"

/-- Invalidates the IOTLB. -/
def invalidateIotlb (domain : Option DomainId) (start : VirtualAddress) (size : Nat) :
    Action (Machine ρ) ε Invalidation := do
  Action.on pagePart ((← unit).invalidateIotlb domain start size)

/-- Invalidates the context cache and the IOTLB. -/
def invalidateAll (domain : Option DomainId) (device : Option RoutingId) :
    Action (Machine ρ) ε Invalidation := do
  Action.on pagePart ((← unit).invalidateAll domain device)

/-- Writes the unit's registers and the bound devices to the journal. -/
def dumpState : Action (Machine ρ) ε Unit := do
  let machine ← Action.state
  let unit := machine.controller.unit
  let pointer? ← Action.on pagePart do
    Action.recordM .debug do
      return s!"IOMMU {unit.name} (version {← RemappingUnit.readVersion})"
    Action.record .debug fun () => s!"  {unit.capability.describe}"
    Action.record .debug fun () => s!"  {unit.extended.describe}"
    Action.recordM .debug do
      return "  " ++ (← RemappingUnit.readGlobalStatus).describe
    Action.recordM .debug do
      return "  " ++ (FaultStatus.mk (← get32 RegisterOffset.faultStatus)).describe
    let control : FaultEventControl := ⟨← get32 RegisterOffset.faultEventControl⟩
    Action.record .debug fun () => s!"  {control.describe}"
    if (← RemappingUnit.readGlobalStatus).has GlobalStatus.rootTableSet then
      return some (RootPointer.mk (← get64 RegisterOffset.rootTableAddress))
    else
      return none
  if let some pointer := pointer? then
    Action.record .debug fun () => s!"  root table at {Text.hex pointer.address}"
    if pointer.mode = RootPointer.legacyMode then
      (← machine.controller.bindings.toList).forM fun (bdf, entry) =>
        Action.recordM .debug do
          return s!"    {bdf}: {← entry.describe}"
    else
      Action.record .error fun () =>
        s!"IOMMU {unit.name}: only legacy translation mode is supported"

end Machine

end DmaRemap

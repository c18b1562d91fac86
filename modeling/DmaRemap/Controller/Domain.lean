import DmaRemap.Controller.Basic
import DmaRemap.Table.Insert
import DmaRemap.Table.Lookup
import DmaRemap.Table.Remove
import DmaRemap.Table.Walk

namespace DmaRemap

/-- A range of DMA addresses. -/
structure DmaRange where
  start : VirtualAddress
  size : Nat
deriving DecidableEq, Repr

/-- The range from its start to its end, exclusive. The end wraps at 64 bits. -/
instance : ToString DmaRange := ⟨fun range =>
  s!"[{range.start}, {Text.hex ((range.start.val + range.size) % (1 <<< 64))})"⟩

/-- A buffer that every device of a domain must reach. -/
structure DmaBuffer where
  start : VirtualAddress
  target : PhysicalAddress
  size : Nat
deriving DecidableEq, Repr

def DmaBuffer.range (buffer : DmaBuffer) : DmaRange := ⟨buffer.start, buffer.size⟩

/-- An isolation domain of one unit, with its devices in ascending order. -/
structure Domain where
  id : DomainId
  table : TranslationTable
  pool : Pool
  devices : List Bdf

namespace Domain

def poolPart : Part Domain Pool := ⟨Domain.pool, fun pool domain => { domain with pool }⟩

/-- Inserts a device into an ascending list, unless it is there. -/
def insertDevice (bdf : Bdf) : List Bdf → List Bdf
  | [] => [bdf]
  | other :: rest =>
    match compare bdf other with
    | .lt => bdf :: other :: rest
    | .eq => other :: rest
    | .gt => other :: insertDevice bdf rest

/-- Translates a DMA address as the unit does. -/
def translate (domain : Domain) (input : VirtualAddress) : Except Abort (Option Translation) :=
  domain.table.lookup domain.pool input

/-- Whether nothing is mapped. -/
def isEmpty (domain : Domain) : Bool :=
  domain.table.isEmpty domain.pool

/-- Frees the tables of a domain. -/
def release {ε : Type} (table : TranslationTable) : Action Pool ε Unit := do
  table.clear
  Pool.destruct table.root

/-- Reports a domain that is given up without being destroyed. Its tables stay taken. -/
def abandon {σ ε : Type} (domain : Domain) : Action σ ε Unit :=
  Action.record .error fun () =>
    s!"domain {domain.id} dropped without being destroyed, leaking its tables"

def describe (domain : Domain) : String :=
  Text.fields "Domain"
    [("id", domain.id.describe), ("table", domain.table.describe),
      ("devices", Text.set (domain.devices.map Bdf.describe))]

end Domain

/-- A machine and one of its domains. -/
structure Attached (ρ : Type) where
  machine : Machine ρ
  domain : Domain

namespace Attached

variable {ρ ε : Type}

def machinePart : Part (Attached ρ) (Machine ρ) :=
  ⟨Attached.machine, fun machine attached => { attached with machine }⟩

def poolPart : Part (Attached ρ) Pool :=
  ⟨fun attached => attached.domain.pool, fun pool attached =>
    { attached with domain := { attached.domain with pool } }⟩

def setDevices (change : List Bdf → List Bdf) : Action (Attached ρ) ε Unit :=
  Action.update fun attached =>
    { attached with domain := { attached.domain with devices := change attached.domain.devices } }

variable [RegisterPage ρ]

/-- Maps a range. A unit in caching mode may have cached that it was absent, so its IOTLB is
invalidated even if the range was mapped only in part. -/
def addRange (range : DmaRange) (target : PhysicalAddress) :
    Action (Attached ρ) IommuError Unit := do
  let ⟨machine, domain⟩ ← Action.state
  let outcome ← Action.attempt <| Action.on poolPart <|
    domain.table.insert range.start target range.size PageFlags.dmaBuffer
  if machine.controller.unit.cachingMode then
    discard <| Action.on machinePart <|
      Machine.invalidateIotlb (some domain.id) range.start range.size
  match outcome with
  | .error cause => Action.fail (.table cause)
  | .ok () =>
    Action.record .trace fun () => s!"domain {domain.id}: mapped {range} to {target}"

/-- Unmaps a range and invalidates the domain's IOTLB entries. -/
def removeRange (range : DmaRange) : Action (Attached ρ) IommuError Unit := do
  let domain := (← Action.state).domain
  Action.mapError .table <| Action.on poolPart <| domain.table.remove range.start range.size
  Action.record .trace fun () => s!"domain {domain.id}: unmapped {range}"
  discard <| Action.on machinePart <|
    Machine.invalidateIotlb (some domain.id) range.start range.size

/-- Binds a device to the domain. A binding to another domain is overwritten, and what the unit has
cached of it is invalidated. -/
def enableDevice (bdf : Bdf) : Action (Attached ρ) IommuError BindOutcome := do
  let ⟨machine, domain⟩ ← Action.state
  let outcome ← Action.mapError .table <| Action.on machinePart <|
    Action.on Machine.bindingsPart <| Bindings.bind bdf domain.table.root domain.id
  setDevices (Domain.insertDevice bdf)
  if let .replaced previous := outcome then
    discard <| Action.on machinePart <|
      Machine.invalidateAll (some previous.domain) (some bdf.routingId)
  if machine.controller.unit.cachingMode && outcome != .unchanged then
    discard <| Action.on machinePart <|
      Machine.invalidateAll (some domain.id) (some bdf.routingId)
  return outcome

/-- Unbinds a device and invalidates what the unit has cached of the domain. -/
def disableDevice (bdf : Bdf) : Action (Attached ρ) ε UnbindOutcome := do
  let domain := (← Action.state).domain
  let outcome ← Action.on machinePart <| Action.on Machine.bindingsPart <|
    Bindings.unbind bdf domain.table.root
  setDevices fun devices => devices.filter (· != bdf)
  discard <| Action.on machinePart <| Machine.invalidateAll (some domain.id) none
  return outcome

end Attached

namespace Machine

variable {ρ ε : Type} [RegisterPage ρ]

/-- Performs an action on a domain, which is returned beside the outcome. -/
def withDomain {ε' α : Type} (domain : Domain) (inner : Action (Attached ρ) ε α) :
    Action (Machine ρ) ε' (Except ε α × Domain) :=
  Action.beside domain <| Action.on
    ⟨fun pair => ⟨pair.1, pair.2⟩, fun attached _ => (attached.machine, attached.domain)⟩ inner

/-- Destroys a domain and returns its pool. Its devices are unbound, its cached translations
invalidated and its id released before its tables are freed. -/
def destroyDomain (domain : Domain) : Action (Machine ρ) ε Pool := do
  let removed ← Action.on bindingsPart (Bindings.unbindAll domain.table.root)
  discard <| invalidateAll (some domain.id) none
  Action.on idsPart (DomainIds.release domain.id)
  let unit ← unit
  Action.record .debug fun () =>
    s!"IOMMU {unit.name}: destroyed domain {domain.id} ({removed} context entries removed)"
  let released : Except Empty Unit × Pool ←
    Action.beside domain.pool (Action.on .second (Domain.release domain.table))
  return released.2

/-- Maps a buffer into a new domain. -/
def mapBuffer (unit : RemappingUnit) (buffer : DmaBuffer) :
    Action (Attached ρ) IommuError Unit := do
  match ← Action.attempt (Attached.addRange buffer.range buffer.target) with
  | .ok () => return
  | .error (cause : IommuError) =>
    let id := (← Action.state).domain.id
    Action.record .error fun () =>
      s!"IOMMU {unit.name}: unable to map DMA buffer {buffer.range} into domain {id}: " ++
        cause.message
    Action.fail cause

/-- Creates a domain with tables in `pool` and maps buffers into it. If a buffer cannot be mapped,
the domain is destroyed again. -/
def createDomain (pool : Pool) (buffers : List DmaBuffer) :
    Action (Machine ρ) IommuError Domain := do
  let unit ← unit
  let id ← Action.on idsPart DomainIds.acquire
  let build := TranslationTable.create .secondLevel unit.coherency
  match ← Action.beside pool (Action.on .second build) with
  | (.error cause, _) =>
    Action.on idsPart (DomainIds.release id)
    Action.fail (.table cause)
  | (.ok table, pool) =>
    match ← withDomain { id, table, pool, devices := [] } (buffers.forM (mapBuffer unit)) with
    | (.error cause, domain) =>
      discard <| destroyDomain domain
      Action.fail cause
    | (.ok (), domain) =>
      Action.record .debug fun () => s!"IOMMU {unit.name}: created domain {id}"
      return domain

end Machine

end DmaRemap

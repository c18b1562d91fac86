import DmaRemap.Register.Capability
import DmaRemap.Register.Flags
import DmaRemap.Register.Invalidation
import DmaRemap.Register.Page

namespace DmaRemap

/-- How long software waits for a unit. -/
inductive PollPolicy where
  /-- As long as it takes. -/
  | unbounded
  /-- Abort after so many polls in vain. -/
  | fatal (budget : Nat)
deriving DecidableEq, Repr

namespace PollPolicy

/-- The number of polls after which software gives up, if it does. -/
def budget? : PollPolicy → Option Nat
  | unbounded => none
  | fatal budget => some budget

end PollPolicy

/-- How a unit is driven. -/
structure Config where
  /-- Report state changes and invalidations that covered more than was asked. -/
  verbose : Bool := true
  poll : PollPolicy := .unbounded
deriving DecidableEq, Repr

namespace Config

/-- Silent, with a bounded number of polls. -/
def strict (budget : Nat) : Config := ⟨false, .fatal budget⟩

end Config

/-- What software knows of a unit. -/
structure RemappingUnit where
  name : String
  config : Config
  capability : Capability
  extended : ExtendedCapability
deriving DecidableEq, Repr

/-- The outcome of an invalidation. -/
inductive Invalidation where
  /-- The unit covered what was asked or less. -/
  | performed (granularity : Granularity)
  /-- The unit covered more than was asked. -/
  | coarser (requested performed : Granularity)
  /-- The unit reported that it invalidated nothing. -/
  | failed (requested : Granularity)
  /-- The unit has no registers to invalidate with. -/
  | unsupported
deriving DecidableEq, Repr

namespace Invalidation

/-- Whether stale entries count as gone. -/
def succeeded : Invalidation → Bool
  | performed _ | coarser .. => true
  | failed _ | unsupported => false

end Invalidation

namespace RemappingUnit

open RegisterPage (get32 get64 put32 put64)

variable {ρ ε : Type}

/-- Polls a limited number of times. -/
def pollUpTo (done : Action ρ ε Bool) (giveUp : Abort) : Nat → Action ρ ε Unit
  | 0 => Action.abort giveUp
  | polls + 1 => do
    if ← done then
      return
    else
      pollUpTo done giveUp polls

variable [RegisterPage ρ]

/-- Polls until `done` holds. Where software would wait for ever, it aborts once the page has
settled. -/
def poll (unit : RemappingUnit) (command : String) (done : Action ρ ε Bool) : Action ρ ε Unit := do
  match unit.config.poll with
  | .fatal budget =>
    let polls := max budget 1
    pollUpTo done (.pollBudgetSpent unit.name command polls) polls
  | .unbounded =>
    let polls := RegisterPage.settling (← Action.state) + 1
    pollUpTo done (.neverCompletes unit.name command) polls

def readVersion : Action ρ ε Version :=
  return ⟨← get32 RegisterOffset.version⟩

def readGlobalStatus : Action ρ ε GlobalStatus :=
  return ⟨← get32 RegisterOffset.globalStatus⟩

/-- Puts or takes away a bit through the global command register, and waits until the status shows
it. -/
def globalCommand (unit : RemappingUnit) (mask : BitVec 32) (present : Bool) :
    Action ρ ε Unit := do
  let status ← get32 RegisterOffset.globalStatus
  let command := (GlobalCommand.mk status).withoutOneShot.set mask present
  let expected := withFlag status mask present
  put32 RegisterOffset.globalCommand command.bits
  unit.poll "global command" do
    return (← get32 RegisterOffset.globalStatus) == expected

def readContextCommand : Action ρ ε ContextCommand :=
  return ⟨← get64 RegisterOffset.contextCommand⟩

def readIotlbCommand (unit : RemappingUnit) : Action ρ ε IotlbCommand :=
  return ⟨← get64 unit.extended.iotlbOffset⟩

/-- Compares the scope a unit covered with the one it was asked for. -/
def checkGranularity (unit : RemappingUnit) (cache : String) (requested : Granularity)
    (actual : Option Granularity) : Action ρ ε Invalidation := do
  match actual with
  | none =>
    Action.record .error fun () =>
      s!"IOMMU {unit.name}: {cache} invalidation failed (scope={requested})"
    return .failed requested
  | some performed =>
    if performed.isCoarserThan requested then
      if unit.config.verbose then
        Action.record .warn fun () =>
          s!"IOMMU {unit.name}: performed {cache} invalidation with different granularity " ++
          s!"(requested={requested}, actual={performed})"
      return .coarser requested performed
    else
      return .performed performed

/-- The scope of an IOTLB invalidation. -/
def iotlbScope (domain : Option DomainId) : Granularity :=
  if domain.isSome then .domain else .global

/-- The scope of a context-cache invalidation. -/
def contextScope (domain : Option DomainId) (device : Option RoutingId) : Granularity :=
  if device.isSome then .device else if domain.isSome then .domain else .global

/-- Invalidates the IOTLB for a domain or for all. The range of addresses does not narrow it. -/
def invalidateIotlb (unit : RemappingUnit) (domain : Option DomainId) (start : VirtualAddress)
    (size : Nat) : Action ρ ε Invalidation := do
  let domain := domain.filter DomainId.isValid
  let requested := iotlbScope domain
  Action.record .trace fun () =>
    s!"IOMMU {unit.name}: IOTLB invalidation ({requested}) for {size} bytes at {start}"
  let idle := do return !(← unit.readIotlbCommand).inProgress
  unit.poll "IOTLB invalidation" idle
  put64 unit.extended.iotlbOffset (IotlbCommand.invalidate requested (domain.getD .invalid)).raw
  unit.poll "IOTLB invalidation" idle
  unit.checkGranularity "IOTLB" requested (← unit.readIotlbCommand).actual

/-- The last architecture version whose units have registers to invalidate with. -/
def lastRegisterInvalidation : Nat := 5

/-- Invalidates the context cache for a device, else for a domain, else for all, and then the IOTLB.
The outcome is that of the context cache. -/
def invalidateAll (unit : RemappingUnit) (domain : Option DomainId) (device : Option RoutingId) :
    Action ρ ε Invalidation := do
  if lastRegisterInvalidation < (← readVersion).major then
    Action.record .error fun () =>
      s!"IOMMU {unit.name}: unable to invalidate caches, register-based invalidation only " ++
      s!"supported up to architecture version {lastRegisterInvalidation}"
    return .unsupported
  let domain := domain.filter DomainId.isValid
  let requested := contextScope domain device
  let idle := do return !(← readContextCommand).inProgress
  unit.poll "context-cache invalidation" idle
  put64 RegisterOffset.contextCommand
    (ContextCommand.invalidate requested (device.getD (.ofNat 0)) (domain.getD .invalid)).raw
  unit.poll "context-cache invalidation" idle
  let outcome ← unit.checkGranularity "context-cache" requested (← readContextCommand).actual
  discard <| unit.invalidateIotlb domain Address.zero 0
  return outcome

end RemappingUnit

end DmaRemap

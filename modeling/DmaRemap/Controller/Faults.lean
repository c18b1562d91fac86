import DmaRemap.Controller.Basic
import DmaRemap.Fault.Record

namespace DmaRemap

open RegisterPage (get32 get64 put32 put64)

/-- What serving a fault event found. -/
structure FaultReport where
  /-- Faults were lost because every record was taken. -/
  overflow : Bool := false
  queueError : Bool := false
  /-- The drained records in the order of the ring. -/
  records : List FaultRecord := []
deriving DecidableEq, Repr

namespace RemappingUnit

variable {ρ ε : Type} [RegisterPage ρ]

/-- The byte offset of a fault record. -/
def recordOffset (unit : RemappingUnit) (index : Nat) : Nat :=
  unit.capability.recordOffset + index * 16

/-- Drains at most `limit` records from `index` on, up to the first that holds no fault. -/
def drain (unit : RemappingUnit) : (limit index : Nat) → Action ρ ε (List FaultRecord)
  | 0, _ => return []
  | limit + 1, index => do
    let offset := unit.recordOffset index
    let high ← get64 (offset + 8)
    let low ← get64 offset
    match FaultRecord.decode? index low high with
    | none => return []
    | some record =>
      Action.record .error fun () => toString record
      put64 (offset + 8) FaultRecord.clearing
      return record :: (← unit.drain limit ((index + 1) % unit.capability.records))

/-- Acknowledges the fault status and drains the records, in at most one pass over the ring. -/
def serveFaults (unit : RemappingUnit) : Action ρ ε FaultReport := do
  let status : FaultStatus := ⟨← get32 RegisterOffset.faultStatus⟩
  if !status.pending then
    return {}
  if status.overflow then
    Action.record .error fun () => s!"IOMMU {unit.name}: fault recording overflow"
  if status.queueError then
    Action.record .error fun () => s!"IOMMU {unit.name}: invalidation queue error"
  put32 RegisterOffset.faultStatus FaultStatus.clearAll
  Action.record .error fun () => s!"fault records for {unit.name}"
  let count := unit.capability.records
  let records ← unit.drain count (status.first % count)
  return { overflow := status.overflow, queueError := status.queueError, records }

end RemappingUnit

namespace Machine

variable {ρ ε : Type} [RegisterPage ρ]

/-- Serves a fault event: acknowledges the interrupt, then the faults. -/
def handleFaults : Action (Machine ρ) ε FaultReport := do
  Action.update fun machine =>
    { machine with controller :=
      { machine.controller with
        interrupt := machine.controller.interrupt.map FaultInterrupt.acknowledge } }
  Action.on pagePart (← unit).serveFaults

end Machine

end DmaRemap

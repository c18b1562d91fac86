import DmaRemap.Register.Field
import DmaRemap.Text.Described

namespace DmaRemap

/-- The fault status register. -/
structure FaultStatus where
  raw : BitVec 32
deriving DecidableEq, Repr

namespace FaultStatus

def overflowField : Field := ⟨0, 1⟩
def pendingField : Field := ⟨1, 1⟩
def queueErrorField : Field := ⟨4, 1⟩
def recordIndexField : Field := ⟨8, 8⟩

/-- Written to the register, this clears every status bit that a write clears. -/
def clearAll : BitVec 32 := 0x7d

/-- A status as hardware reports it. -/
def report (overflow pending : Bool) (first : Nat) : FaultStatus :=
  ⟨recordIndexField.set (pendingField.put (overflowField.put 0 overflow) pending) first⟩

/-- Fault records were lost. -/
def overflow (status : FaultStatus) : Bool := overflowField.isSet status.raw

/-- Some fault record holds a fault. -/
def pending (status : FaultStatus) : Bool := pendingField.isSet status.raw

/-- The invalidation queue met an error. -/
def queueError (status : FaultStatus) : Bool := queueErrorField.isSet status.raw

/-- The index of the first record that holds a fault. -/
def first (status : FaultStatus) : Nat := recordIndexField.get status.raw

def describe (status : FaultStatus) : String :=
  Text.fields "FaultStatus"
    [("overflow", toString status.overflow), ("pending", toString status.pending),
      ("queue_error", toString status.queueError), ("first_record_index", toString status.first)]

end FaultStatus

end DmaRemap

import DmaRemap.Text.Hex

namespace DmaRemap

open Text (hex)

/-- Why a computation stopped for good. -/
inductive Abort where
  /-- A physical address needs more bits than descriptors hold. -/
  | addressTooWide
  | alignmentNotPowerOfTwo
  | deviceOutOfRange
  | functionOutOfRange
  /-- A register access is unaligned or leaves the mapped page. -/
  | registerOutsideMapping (offset : Nat)
  /-- A unit did not complete a command within the allowed number of polls. -/
  | pollBudgetSpent (unit command : String) (polls : Nat)
  /-- A unit will not complete a command however often it is polled. -/
  | neverCompletes (unit command : String)
  | additionOverflow
  | subtractionOverflow
  | multiplicationOverflow
  | shiftLeftOverflow
  | shiftRightOverflow
  | indexOutOfBounds (length index : Nat)
  /-- Part of a range lies behind the last entry of the table that should map it. -/
  | rangeOverran (depth : Nat)
deriving DecidableEq, Repr

/-- The text shown for an abort. -/
def Abort.message : Abort → String
  | addressTooWide => "physical address exceeds maximum width"
  | alignmentNotPowerOfTwo => "alignment must be a power of two"
  | deviceOutOfRange => "PCI device number out of range"
  | functionOutOfRange => "PCI function number out of range"
  | registerOutsideMapping offset => s!"register offset {hex offset} outside of mapping"
  | pollBudgetSpent unit command polls =>
    s!"IOMMU {unit}: {command} did not complete after {polls} polls"
  | neverCompletes unit command => s!"IOMMU {unit}: {command} never completes"
  | additionOverflow => "attempt to add with overflow"
  | subtractionOverflow => "attempt to subtract with overflow"
  | multiplicationOverflow => "attempt to multiply with overflow"
  | shiftLeftOverflow => "attempt to shift left with overflow"
  | shiftRightOverflow => "attempt to shift right with overflow"
  | indexOutOfBounds length index =>
    s!"index out of bounds: the len is {length} but the index is {index}"
  | rangeOverran depth => s!"range overran a table at level {depth}"

namespace Checked

/-- The sum, if it fits 64 bits. -/
def add (a b : Nat) : Except Abort Nat :=
  if a + b < 1 <<< 64 then .ok (a + b) else .error .additionOverflow

/-- The difference, if it is not negative. -/
def sub (a b : Nat) : Except Abort Nat :=
  if b ≤ a then .ok (a - b) else .error .subtractionOverflow

/-- The product, if it fits 64 bits. -/
def mul (a b : Nat) : Except Abort Nat :=
  if a * b < 1 <<< 64 then .ok (a * b) else .error .multiplicationOverflow

/-- The word `1 <<< amount`, if the amount is less than its width. -/
def powerOfTwo (amount : Nat) : Except Abort Nat :=
  if amount < 64 then .ok (1 <<< amount) else .error .shiftLeftOverflow

/-- The word `a >>> amount`, if the amount is less than its width. -/
def shiftRight (a amount : Nat) : Except Abort Nat :=
  if amount < 64 then .ok (a >>> amount) else .error .shiftRightOverflow

theorem add_eq_ok_iff {a b c : Nat} : add a b = .ok c ↔ a + b < 1 <<< 64 ∧ c = a + b := by
  unfold add
  split
  case isTrue fits =>
    exact ⟨fun same => ⟨fits, (Except.ok.inj same).symm⟩, fun found => by rw [found.2]⟩
  case isFalse large =>
    exact ⟨nofun, fun found => absurd found.1 large⟩

theorem sub_eq_ok_iff {a b c : Nat} : sub a b = .ok c ↔ b ≤ a ∧ c = a - b := by
  unfold sub
  split
  case isTrue fits =>
    exact ⟨fun same => ⟨fits, (Except.ok.inj same).symm⟩, fun found => by rw [found.2]⟩
  case isFalse negative =>
    exact ⟨nofun, fun found => absurd found.1 negative⟩

end Checked

end DmaRemap

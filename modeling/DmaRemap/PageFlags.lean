namespace DmaRemap

/-- An attribute a mapping may have. -/
inductive PageAttribute where
  | writable
  | user
  | noExecute
  | global
  | uncached
deriving DecidableEq, Repr

/-- The bit that stands for an attribute. -/
def PageAttribute.index : PageAttribute → Nat
  | writable => 0
  | user => 1
  | noExecute => 2
  | global => 3
  | uncached => 4

/-- A set of attributes. Bits that stand for no attribute are kept and mean nothing. -/
structure PageFlags where
  bits : BitVec 8
deriving DecidableEq, Repr

namespace PageFlags

/-- Read-only, supervisor, executable, not global, cached. -/
def empty : PageFlags := ⟨0⟩

def has (flags : PageFlags) (which : PageAttribute) : Bool :=
  flags.bits.getLsbD which.index

/-- Adds or removes an attribute. -/
def set (flags : PageFlags) (which : PageAttribute) (present : Bool) : PageFlags :=
  let bit := BitVec.twoPow 8 which.index
  ⟨if present then flags.bits ||| bit else flags.bits &&& ~~~bit⟩

/-- What a DMA buffer is mapped with: writable, for user mode, not executable. -/
def dmaBuffer : PageFlags :=
  ((empty.set .writable true).set .user true).set .noExecute true

theorem has_set (flags : PageFlags) (which other : PageAttribute) (present : Bool) :
    (flags.set which present).has other =
      if other = which then present else flags.has other := by
  cases present <;> cases which <;> cases other <;> simp [set, has, PageAttribute.index]

end PageFlags

end DmaRemap

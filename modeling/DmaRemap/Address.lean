import DmaRemap.Abort

namespace DmaRemap

open Text (hex)

/-- An address of `width` bits. -/
structure Address (width : Nat) where
  val : Nat
  isLt : val < 1 <<< width
deriving DecidableEq, Repr

/-- An address in memory. -/
abbrev PhysicalAddress := Address 52

/-- An input address of a translation table: a CPU's virtual address or a device's DMA address. -/
abbrev VirtualAddress := Address 64

/-- Whether `n` is a power of two. -/
def isPowerOfTwo (n : Nat) : Bool :=
  n != 0 && n == 1 <<< n.log2

namespace Address

variable {width : Nat}

theorem ext_val {a b : Address width} (same : a.val = b.val) : a = b := by
  cases a
  cases b
  simp_all

def zero : Address width := ⟨0, by rw [Nat.one_shiftLeft]; exact Nat.two_pow_pos width⟩

instance : Inhabited (Address width) := ⟨zero⟩

instance : Ord (Address width) := ⟨fun a b => compare a.val b.val⟩

/-- The address `n`, if it is narrow enough. -/
def ofNat? (n : Nat) : Option (Address width) :=
  if fits : n < 1 <<< width then some ⟨n, fits⟩ else none

/-- The address `n`; one that is too wide aborts. -/
def ofNat (n : Nat) : Except Abort (Address width) :=
  if fits : n < 1 <<< width then .ok ⟨n, fits⟩ else .error .addressTooWide

private def requirePowerOfTwo (alignment : Nat) : Except Abort Unit :=
  if isPowerOfTwo alignment then .ok () else .error .alignmentNotPowerOfTwo

/-- Whether the address is a multiple of `alignment`, which must be a power of two. -/
def isAligned (a : Address width) (alignment : Nat) : Except Abort Bool := do
  requirePowerOfTwo alignment
  return a.val % alignment == 0

/-- The multiple of `size` at or below the address. -/
def floor (a : Address width) (size : Nat) : Address width :=
  ⟨a.val - a.val % size, Nat.lt_of_le_of_lt (Nat.sub_le ..) a.isLt⟩

/-- The multiple of `alignment` at or below the address; `alignment` must be a power of two. -/
def alignDown (a : Address width) (alignment : Nat) : Except Abort (Address width) := do
  requirePowerOfTwo alignment
  return a.floor alignment

/-- The multiple of `alignment` at or above the address; `alignment` must be a power of two. -/
def alignUp (a : Address width) (alignment : Nat) : Except Abort (Address width) := do
  requirePowerOfTwo alignment
  let above ← Checked.sub (← Checked.add a.val alignment) 1
  ofNat (above - above % alignment)

/-- The address `offset` bytes on, if there is one. -/
def add? (a : Address width) (offset : Nat) : Option (Address width) :=
  if a.val + offset < 1 <<< 64 then ofNat? (a.val + offset) else none

/-- The address `offset` bytes on. -/
def add (a : Address width) (offset : Nat) : Except Abort (Address width) := do
  ofNat (← Checked.add a.val offset)

/-- The address `offset` bytes back. -/
def sub (a : Address width) (offset : Nat) : Except Abort (Address width) := do
  ofNat (← Checked.sub a.val offset)

/-- The distance from `b` up to `a`. -/
def diff (a b : Address width) : Except Abort Nat :=
  Checked.sub a.val b.val

instance : ToString (Address width) := ⟨fun a => hex a.val⟩

end Address

/-- The index of the entry that maps an address in a table of `entries` entries of `1 <<< pageBits`
bytes each. -/
def VirtualAddress.tableIndex (a : VirtualAddress) (pageBits entries : Nat) : Except Abort Nat := do
  let block ← Checked.shiftRight a.val pageBits
  return block &&& (← Checked.sub entries 1)

def PhysicalAddress.describe (a : PhysicalAddress) : String :=
  s!"PhysicalAddress({a})"

def VirtualAddress.describe (a : VirtualAddress) : String :=
  s!"VirtualAddress({a})"

end DmaRemap

import DmaRemap.Register.Page

namespace DmaRemap

/-- The bytes of a mapped page. -/
structure MappedPage where
  bytes : Array (BitVec 8)
deriving DecidableEq, Repr

namespace MappedPage

def zero (size : Nat) : MappedPage := ⟨Array.replicate size 0⟩

/-- Aborts unless the `width` bytes at an offset are aligned and lie in the mapping. -/
def check (page : MappedPage) (width offset : Nat) : Except Abort Unit := do
  if offset % width = 0 then
    if (← Checked.add offset width) ≤ page.bytes.size then
      return
  throw (.registerOutsideMapping offset)

/-- The little-endian number in the `width` bytes at an offset. -/
def number (page : MappedPage) : (width offset : Nat) → Nat
  | 0, _ => 0
  | width + 1, offset =>
    (page.bytes[offset]?.getD 0).toNat + 256 * page.number width (offset + 1)

/-- Puts a little-endian number into the `width` bytes at an offset. -/
def putNumber (page : MappedPage) : (width offset value : Nat) → MappedPage
  | 0, _, _ => page
  | width + 1, offset, value =>
    putNumber ⟨page.bytes.setIfInBounds offset (BitVec.ofNat 8 value)⟩ width (offset + 1)
      (value / 256)

/-- Reads the number in the `width` bytes at an offset. -/
def load (width offset : Nat) : Action MappedPage Empty Nat := do
  let page ← Action.state
  page.check width offset
  return page.number width offset

/-- Writes a number into the `width` bytes at an offset. -/
def store (width offset value : Nat) : Action MappedPage Empty Unit := do
  (← Action.state).check width offset
  Action.update fun page => page.putNumber width offset value

instance : RegisterPage MappedPage where
  read32 offset := return BitVec.ofNat 32 (← load 4 offset)
  read64 offset := return BitVec.ofNat 64 (← load 8 offset)
  write32 offset value := store 4 offset value.toNat
  write64 offset value := store 8 offset value.toNat
  settling _ := 0

end MappedPage

end DmaRemap

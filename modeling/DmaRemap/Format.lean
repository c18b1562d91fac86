import DmaRemap.Level
import DmaRemap.PageFlags
import DmaRemap.Register.Field

namespace DmaRemap

/-- A descriptor format. -/
inductive Format where
  /-- Second-level tables, which a remapping unit walks for a device. -/
  | secondLevel
  /-- Paging tables of an x86-64 CPU. -/
  | cpu
deriving DecidableEq, Repr

/-- A word with at most the given bit. -/
def bitIf (index : Nat) (present : Bool) : Word :=
  if present then BitVec.twoPow 64 index else 0

namespace Format

def name : Format → String
  | secondLevel => "VT-d second-level"
  | cpu => "x86-64 paging"

/-- The levels of a table from the root down; the last one is a leaf level. -/
def levels (_ : Format) : List Level := Level.four

/-- The bits of an input address that a table translates. -/
def inputBits (_ : Format) : Nat := 48

/-- The bits of a physical address that a descriptor holds. -/
def outputBits : Format → Nat
  | secondLevel => 48
  | cpu => 52

/-- The base-two logarithm of the smallest page. -/
def minPageBits (_ : Format) : Nat := 12

theorem outputBits_le (format : Format) : format.outputBits ≤ 52 := by
  cases format <;> decide

/-- The bits that hardware sets on its own: accessed and dirty. -/
def hardwareBits : Format → Word
  | secondLevel => bitIf 8 true ||| bitIf 9 true
  | cpu => bitIf 5 true ||| bitIf 6 true

/-- A descriptor without the bits that hardware sets on its own. -/
def strip (format : Format) (descriptor : Word) : Word :=
  descriptor &&& ~~~format.hardwareBits

/-- Whether a descriptor is valid. Second-level descriptors are valid if they grant any access. -/
def isPresent : Format → Word → Bool
  | secondLevel, descriptor => descriptor.getLsbD 0 || descriptor.getLsbD 1
  | cpu, descriptor => descriptor.getLsbD 0

/-- Whether a valid descriptor of a level maps a page rather than links a table. -/
def isPage (_ : Format) (level : Level) (descriptor : Word) : Bool :=
  match level.kind with
  | .directory => false
  | .largePages => descriptor.getLsbD 7
  | .leaf => true

/-- The address bits of a descriptor from `low` up, in place. -/
def addressBits (format : Format) (low : Nat) (value : Nat) : Nat :=
  (value % (1 <<< format.outputBits)) >>> low <<< low

theorem addressBits_lt (format : Format) (low value : Nat) :
    format.addressBits low value < 1 <<< 52 := by
  have floored : format.addressBits low value ≤ value % (1 <<< format.outputBits) := by
    rw [addressBits, Nat.shiftLeft_eq, Nat.shiftRight_eq_div_pow]
    exact Nat.div_mul_le_self ..
  have cut : value % (1 <<< format.outputBits) < 1 <<< format.outputBits := by
    rw [Nat.one_shiftLeft]
    exact Nat.mod_lt _ (Nat.two_pow_pos _)
  have narrow : 1 <<< format.outputBits ≤ 1 <<< 52 := by
    rw [Nat.one_shiftLeft, Nat.one_shiftLeft]
    exact Nat.pow_le_pow_right (by decide) format.outputBits_le
  exact Nat.lt_of_le_of_lt floored (Nat.lt_of_lt_of_le cut narrow)

/-- The lowest address bit of a page descriptor of a level. -/
def pageAddressLow (level : Level) : Nat :=
  max 12 level.pageBits

/-- The address a descriptor of a level points at. -/
def address (format : Format) (level : Level) (descriptor : Word) : PhysicalAddress :=
  let low := if format.isPage level descriptor then pageAddressLow level else 12
  ⟨format.addressBits low descriptor.toNat, format.addressBits_lt ..⟩

/-- The access bits of a page descriptor. -/
def encodeFlags : Format → PageFlags → Word
  | secondLevel, flags => bitIf 0 true ||| bitIf 1 (flags.has .writable)
  | cpu, flags =>
    bitIf 0 true ||| bitIf 1 (flags.has .writable) ||| bitIf 2 (flags.has .user) |||
      bitIf 3 (flags.has .uncached) ||| bitIf 4 (flags.has .uncached) |||
      bitIf 8 (flags.has .global) ||| bitIf 63 (flags.has .noExecute)

/-- The access bits of a link. They grant everything, so that access is decided at the page. -/
def linkFlags : Format → Word
  | secondLevel => bitIf 0 true ||| bitIf 1 true
  | cpu => bitIf 0 true ||| bitIf 1 true ||| bitIf 2 true

/-- The descriptor of a page of a level. -/
def pageDescriptor (format : Format) (target : PhysicalAddress) (flags : PageFlags)
    (level : Level) : Word :=
  format.encodeFlags flags ||| bitIf 7 (level.kind == .largePages) |||
    BitVec.ofNat 64 (format.addressBits (pageAddressLow level) target.val)

/-- The descriptor of a link. -/
def tableDescriptor (format : Format) (table : PhysicalAddress) : Word :=
  format.linkFlags ||| BitVec.ofNat 64 (format.addressBits 12 table.val)

/-- The attributes of a page descriptor. Second-level descriptors express write access alone. -/
def pageFlags : Format → Word → PageFlags
  | secondLevel, descriptor => PageFlags.dmaBuffer.set .writable (descriptor.getLsbD 1)
  | cpu, descriptor =>
    ((((PageFlags.empty.set .writable (descriptor.getLsbD 1)).set .user (descriptor.getLsbD 2)).set
      .noExecute (descriptor.getLsbD 63)).set .global (descriptor.getLsbD 8)).set
      .uncached (descriptor.getLsbD 4)

/-- The descriptor of a page of a level of any shape. -/
def checkedPageDescriptor (format : Format) (target : PhysicalAddress) (flags : PageFlags)
    (level : Level) : Except Abort Word := do
  let _ ← level.checkedPageSize
  return format.pageDescriptor target flags level

/-- The address a descriptor of a level of any shape points at. -/
def checkedAddress (format : Format) (level : Level) (descriptor : Word) :
    Except Abort PhysicalAddress := do
  if format.isPage level descriptor then
    let _ ← level.checkedPageSize
  return format.address level descriptor

end Format

end DmaRemap

namespace DmaRemap

/-- A 64-bit word of a register or a table. -/
abbrev Word := BitVec 64

/-- The bits of a word from `offset` on, `width` of them. -/
structure Field where
  offset : Nat
  width : Nat
deriving DecidableEq, Repr

namespace Field

variable {size : Nat}

/-- The bits of a field. -/
def mask (field : Field) (size : Nat) : BitVec size :=
  (BitVec.allOnes field.width).setWidth size <<< field.offset

/-- The number in a field. -/
def get (field : Field) (word : BitVec size) : Nat :=
  (word.extractLsb' field.offset field.width).toNat

/-- Whether a field holds anything but zero. -/
def isSet (field : Field) (word : BitVec size) : Bool :=
  field.get word != 0

/-- Replaces the number in a field. -/
def set (field : Field) (word : BitVec size) (value : Nat) : BitVec size :=
  (word &&& ~~~field.mask size) |||
    ((BitVec.ofNat field.width value).setWidth size <<< field.offset)

/-- Replaces a one-bit field. -/
def put (field : Field) (word : BitVec size) (value : Bool) : BitVec size :=
  field.set word value.toNat

theorem get_lt (field : Field) (word : BitVec size) : field.get word < 1 <<< field.width := by
  rw [Nat.one_shiftLeft]
  exact BitVec.isLt _

theorem testBit_get (field : Field) (word : BitVec size) (i : Nat) :
    (field.get word).testBit i = (decide (i < field.width) && word.getLsbD (field.offset + i)) := by
  rw [get, BitVec.testBit_toNat, BitVec.getLsbD_extractLsb']

theorem getLsbD_set (field : Field) (word : BitVec size) (value i : Nat) :
    (field.set word value).getLsbD i =
      if field.offset ≤ i ∧ i < field.offset + field.width then
        decide (i < size) && value.testBit (i - field.offset)
      else
        word.getLsbD i := by
  by_cases inside : i < size
  · by_cases below : i < field.offset
    · have outside : ¬(field.offset ≤ i ∧ i < field.offset + field.width) := by omega
      simp [set, mask, below, inside, outside]
    · by_cases within : i < field.offset + field.width
      · have place : i - field.offset < field.width := by omega
        simp only [set, mask, BitVec.getLsbD_or, BitVec.getLsbD_and, BitVec.getLsbD_not,
          BitVec.getLsbD_shiftLeft, BitVec.getLsbD_setWidth, BitVec.getLsbD_allOnes,
          BitVec.getLsbD_ofNat]
        simp [inside, below, within, place, Nat.le_of_not_lt below,
          show i - field.offset < size by omega]
      · have place : ¬i - field.offset < field.width := by omega
        simp only [set, mask, BitVec.getLsbD_or, BitVec.getLsbD_and, BitVec.getLsbD_not,
          BitVec.getLsbD_shiftLeft, BitVec.getLsbD_setWidth, BitVec.getLsbD_allOnes,
          BitVec.getLsbD_ofNat]
        simp [inside, below, within, place]
  · have wide : size ≤ i := Nat.le_of_not_lt inside
    simp [inside, BitVec.getLsbD_of_ge, wide]

/-- A number that is written reads back, cut to the width of the field. -/
theorem get_set (field : Field) (word : BitVec size) (value : Nat)
    (fits : field.offset + field.width ≤ size) :
    field.get (field.set word value) = value % (1 <<< field.width) := by
  apply Nat.eq_of_testBit_eq
  intro i
  rw [testBit_get, getLsbD_set, Nat.one_shiftLeft, Nat.testBit_mod_two_pow]
  by_cases inside : i < field.width
  · simp [inside, show field.offset + i < size by omega]
  · simp [inside]

/-- Writing one field leaves another alone if they do not overlap. -/
theorem get_set_of_disjoint (field other : Field) (word : BitVec size) (value : Nat)
    (apart : other.offset + other.width ≤ field.offset ∨
      field.offset + field.width ≤ other.offset) :
    other.get (field.set word value) = other.get word := by
  apply Nat.eq_of_testBit_eq
  intro i
  rw [testBit_get, testBit_get, getLsbD_set]
  by_cases inside : i < other.width
  · have outside :
        ¬(field.offset ≤ other.offset + i ∧ other.offset + i < field.offset + field.width) := by
      omega
    simp [outside]
  · simp [inside]

end Field

end DmaRemap

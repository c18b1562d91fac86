import DmaRemap.Register.Field

namespace DmaRemap

/-- One bit for each of `capacity` things. -/
structure Bitmap (capacity : Nat) where
  words : Vector Word ((capacity + 63) / 64)

namespace Bitmap

variable {capacity : Nat}

/-- A bitmap without a bit that is set. -/
def clear (capacity : Nat) : Bitmap capacity := ⟨Vector.replicate _ 0#64⟩

theorem word_lt (index : Fin capacity) : index.val / 64 < (capacity + 63) / 64 := by
  omega

/-- The word that holds the bit of an index. -/
def word (map : Bitmap capacity) (index : Fin capacity) : Word :=
  map.words.get ⟨index.val / 64, word_lt index⟩

/-- The bit of an index within its word. -/
def bit (index : Fin capacity) : Word := 1#64 <<< (index.val % 64)

def isUsed (map : Bitmap capacity) (index : Fin capacity) : Bool :=
  map.word index &&& bit index != 0#64

def setUsed (map : Bitmap capacity) (index : Fin capacity) (used : Bool) : Bitmap capacity :=
  let word := if used then map.word index ||| bit index else map.word index &&& ~~~bit index
  ⟨map.words.set (index.val / 64) word (word_lt index)⟩

/-- How many of the lowest bits of a word are set, up to the first that is not. -/
def trailingOnes (word : Word) : Nat :=
  (List.range 64).findIdx fun place => !word.getLsbD place

/-- A word all of whose bits are set. -/
def fullWord : Word := BitVec.allOnes 64

/-- The lowest index whose bit is not set: it is in the first word that has such a bit. -/
def lowestFree? (map : Bitmap capacity) : Option (Fin capacity) :=
  match map.words.findFinIdx? (· != fullWord) with
  | some word =>
    let index := word.val * 64 + trailingOnes map.words[word]
    if within : index < capacity then some ⟨index, within⟩ else none
  | none => none

end Bitmap

end DmaRemap

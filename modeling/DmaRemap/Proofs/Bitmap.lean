import Mathlib
import DmaRemap.Bitmap

namespace DmaRemap.Bitmap

variable {capacity place : Nat} {map map' : Bitmap capacity} {index : Fin capacity} {word : Word}

/-- The bit at a place, which may lie behind the last index. -/
def holds (map : Bitmap capacity) (place : Nat) : Bool :=
  (map.words[place / 64]?).any (·.getLsbD (place % 64))

theorem getLsbD_bit (within : place < 64) :
    (bit index).getLsbD place = decide (place = index.val % 64) := by
  rw [bit, BitVec.getLsbD_shiftLeft, BitVec.getLsbD_one, Bool.eq_iff_iff]
  simp only [Bool.and_eq_true, Bool.not_eq_true', decide_eq_true_eq, decide_eq_false_iff_not]
  omega

/-- Masking a word with one bit gives zero exactly if the bit is not set there. -/
private theorem and_bit_ne_zero : (word &&& bit index != 0#64) = word.getLsbD (index.val % 64) := by
  have within : index.val % 64 < 64 := Nat.mod_lt _ (by decide)
  rw [Bool.eq_iff_iff, bne_iff_ne]
  constructor
  · intro different
    by_contra unset
    apply different
    apply BitVec.eq_of_getLsbD_eq
    intro place inside
    rw [BitVec.getLsbD_and, getLsbD_bit inside, BitVec.getLsbD_zero]
    by_cases here : place = index.val % 64
    · simpa [here] using unset
    · simp [here]
  · intro set same
    have bits := congrArg (·.getLsbD (index.val % 64)) same
    simp [getLsbD_bit within, set] at bits

private theorem holds_of_word {number : Nat} (inside : number < (capacity + 63) / 64)
    (within : place < 64) :
    map.holds (number * 64 + place) = map.words[number].getLsbD place := by
  have quotient : (number * 64 + place) / 64 = number := by omega
  have rest : (number * 64 + place) % 64 = place := by omega
  rw [holds, quotient, rest, Vector.getElem?_eq_getElem inside, Option.any_some]

theorem isUsed_eq (map : Bitmap capacity) (index : Fin capacity) :
    map.isUsed index = map.holds index.val := by
  rw [isUsed, and_bit_ne_zero, holds, Vector.getElem?_eq_getElem (word_lt index), Option.any_some]
  rfl

private theorem getLsbD_changed (used : Bool) (within : place < 64) :
    (if used then word ||| bit index else word &&& ~~~bit index).getLsbD place =
      if place = index.val % 64 then used else word.getLsbD place := by
  cases used with
  | true =>
    rw [if_pos rfl, BitVec.getLsbD_or, getLsbD_bit within]
    split <;> simp_all
  | false =>
    rw [if_neg Bool.false_ne_true, BitVec.getLsbD_and, BitVec.getLsbD_not, getLsbD_bit within]
    split <;> simp_all

theorem holds_setUsed (map : Bitmap capacity) (index : Fin capacity) (used : Bool) (place : Nat) :
    (map.setUsed index used).holds place =
      if place = index.val then used else map.holds place := by
  unfold holds
  by_cases here : index.val / 64 = place / 64
  · have same : place % 64 = index.val % 64 ↔ place = index.val := by omega
    simp only [setUsed, ← here, Vector.getElem?_eq_getElem (word_lt index),
      Vector.getElem_set_self, Option.any_some, getLsbD_changed used (Nat.mod_lt _ (by decide)),
      same, Bitmap.word, Vector.get_eq_getElem]
  · have apart : place ≠ index.val := fun same => here (by rw [same])
    simp only [setUsed, if_neg apart, Vector.getElem?_set, if_neg here]

@[simp] theorem isUsed_setUsed (map : Bitmap capacity) (index : Fin capacity) (used : Bool)
    (other : Fin capacity) :
    (map.setUsed index used).isUsed other = if other = index then used else map.isUsed other := by
  simp only [isUsed_eq, holds_setUsed, Fin.ext_iff]

@[simp] theorem isUsed_clear (index : Fin capacity) : (clear capacity).isUsed index = false := by
  rw [isUsed, and_bit_ne_zero]
  simp [Bitmap.word, clear]

/-- A word that has a bit that is not set has a lowest one. -/
theorem trailingOnes_spec (notAll : word ≠ fullWord) :
    trailingOnes word < 64 ∧ word.getLsbD (trailingOnes word) = false ∧
      ∀ place < trailingOnes word, word.getLsbD place = true := by
  have before (place : Nat) (earlier : place < trailingOnes word) : word.getLsbD place = true := by
    have set := List.not_of_lt_findIdx earlier
    simpa using set
  have below : trailingOnes word < 64 := by
    by_contra all
    apply notAll
    apply BitVec.eq_of_getLsbD_eq
    intro place within
    rw [fullWord, BitVec.getLsbD_allOnes, decide_eq_true within]
    exact before place (by omega)
  have inside : (List.range 64).findIdx (fun place => !word.getLsbD place) <
      (List.range 64).length := by
    rwa [List.length_range]
  have unset := List.findIdx_getElem (w := inside)
  rw [List.getElem_range, Bool.not_eq_true'] at unset
  exact ⟨below, unset, before⟩

private theorem findFinIdx?_eq_some {α : Type} {size : Nat} {xs : Vector α size}
    {test : α → Bool} {number : Fin size} (found : xs.findFinIdx? test = some number) :
    test xs[number] = true ∧ ∀ earlier < number, test xs[earlier] = false := by
  obtain ⟨entries, rfl⟩ := xs
  simpa [Vector.findFinIdx?, Array.findFinIdx?_eq_some_iff] using found

private theorem holds_of_full {number : Nat} (inside : number < (capacity + 63) / 64)
    (full : map.words[number] = fullWord) (here : place / 64 = number) :
    map.holds place = true := by
  have split := Nat.div_add_mod' place 64
  have within : place % 64 < 64 := Nat.mod_lt _ (by decide)
  rw [here] at split
  rw [← split, holds_of_word inside within, full, fullWord, BitVec.getLsbD_allOnes,
    decide_eq_true within]

/-- The search ends at the lowest index that is not used, or finds that all are. -/
private theorem lowestFree?_cases (map : Bitmap capacity) :
    (map.lowestFree? = none ∧ ∀ index, map.isUsed index = true) ∨
      ∃ index, map.lowestFree? = some index ∧ map.isUsed index = false ∧
        ∀ earlier < index, map.isUsed earlier = true := by
  unfold lowestFree?
  cases found : map.words.findFinIdx? (· != fullWord) with
  | none =>
    rw [Vector.findFinIdx?_eq_none_iff] at found
    refine .inl ⟨rfl, fun index => ?_⟩
    have full := found _ (Vector.getElem_mem (word_lt index))
    rw [isUsed_eq]
    exact holds_of_full (word_lt index) (by simpa using full) rfl
  | some number =>
    obtain ⟨notAll, full⟩ := findFinIdx?_eq_some found
    obtain ⟨below, unset, set⟩ := trailingOnes_spec (bne_iff_ne.mp notAll)
    -- Every place before the bit is in a full word or among the lowest bits of this one.
    have before (place : Nat) (earlier : place < number.val * 64 + trailingOnes map.words[number]) :
        map.holds place = true := by
      by_cases same : place / 64 = number.val
      · have split := Nat.div_add_mod' place 64
        rw [same] at split
        rw [← split, holds_of_word number.isLt (Nat.mod_lt _ (by decide))]
        exact set _ (by omega)
      · have inside : place / 64 < number.val := by omega
        have whole := full ⟨place / 64, inside.trans number.isLt⟩ inside
        exact holds_of_full (inside.trans number.isLt) (by simpa using whole) rfl
    simp only [isUsed_eq]
    split
    case isTrue within =>
      refine .inr ⟨_, rfl, ?_, fun earlier below => before earlier.val below⟩
      rw [holds_of_word number.isLt below]
      exact unset
    case isFalse outside =>
      exact .inl ⟨rfl, fun index => before index.val (by omega)⟩

theorem lowestFree?_eq_some (found : map.lowestFree? = some index) :
    map.isUsed index = false ∧ ∀ earlier < index, map.isUsed earlier = true := by
  rcases map.lowestFree?_cases with ⟨none, _⟩ | ⟨index', same, lowest⟩
  · cases found.symm.trans none
  · cases found.symm.trans same
    exact lowest

theorem lowestFree?_eq_none (found : map.lowestFree? = none) (index : Fin capacity) :
    map.isUsed index = true := by
  rcases map.lowestFree?_cases with ⟨_, all⟩ | ⟨_, same, _⟩
  · exact all index
  · cases found.symm.trans same

/-- How many indices are not used. -/
def unused (map : Bitmap capacity) : Nat :=
  (Finset.univ.filter fun index => map.isUsed index = false).card

theorem unused_pos (free : map.isUsed index = false) : 0 < map.unused :=
  Finset.card_pos.mpr ⟨index, by simpa using free⟩

theorem unused_of_set (free : map.isUsed index = false) :
    (map.setUsed index true).unused + 1 = map.unused := by
  have fewer : (Finset.univ.filter fun other => (map.setUsed index true).isUsed other = false) =
      (Finset.univ.filter fun other => map.isUsed other = false).erase index := by
    ext other
    by_cases same : other = index <;> simp [same]
  rw [unused, fewer]
  exact Finset.card_erase_add_one (by simpa using free)

theorem unused_of_unset (used : map.isUsed index = true) :
    (map.setUsed index false).unused = map.unused + 1 := by
  have more : (Finset.univ.filter fun other => (map.setUsed index false).isUsed other = false) =
      insert index (Finset.univ.filter fun other => map.isUsed other = false) := by
    ext other
    by_cases same : other = index <;> simp [same]
  rw [unused, more]
  exact Finset.card_insert_of_notMem (by simpa using used)

theorem eq_of_holds (same : ∀ place, map'.holds place = map.holds place) : map' = map := by
  have words : map'.words = map.words := by
    apply Vector.ext
    intro number inside
    apply BitVec.eq_of_getLsbD_eq
    intro place within
    rw [← holds_of_word inside within, ← holds_of_word inside within, same]
  cases map
  cases map'
  cases words
  rfl

/-- Clearing a bit that was not set before it was set leaves nothing behind. -/
theorem setUsed_setUsed (free : map.isUsed index = false) :
    (map.setUsed index true).setUsed index false = map := by
  rw [isUsed_eq] at free
  apply eq_of_holds
  intro place
  rw [holds_setUsed, holds_setUsed]
  split
  case isTrue here => rw [here, free]
  case isFalse => rfl

/-- No bit behind the last index is set. -/
def Trimmed (map : Bitmap capacity) : Prop :=
  ∀ place, capacity ≤ place → map.holds place = false

theorem trimmed_clear : (clear capacity).Trimmed := by
  intro place _
  simp only [holds, clear, Vector.getElem?_replicate]
  split <;> simp

theorem Trimmed.setUsed (trimmed : map.Trimmed) (index : Fin capacity) (used : Bool) :
    (map.setUsed index used).Trimmed := by
  intro place behind
  have apart : place ≠ index.val := by omega
  rw [holds_setUsed, if_neg apart]
  exact trimmed place behind

/-- Bitmaps without bits behind the last index are told by the indices that are used. -/
theorem Trimmed.ext (trimmed : map.Trimmed) (trimmed' : map'.Trimmed)
    (same : ∀ index, map'.isUsed index = map.isUsed index) : map' = map := by
  have all (place : Nat) : map'.holds place = map.holds place := by
    by_cases inside : place < capacity
    · simpa only [isUsed_eq] using same ⟨place, inside⟩
    · rw [trimmed place (Nat.le_of_not_lt inside), trimmed' place (Nat.le_of_not_lt inside)]
  exact eq_of_holds all

end DmaRemap.Bitmap

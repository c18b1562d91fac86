import Mathlib
import DmaRemap.Address

/-! Alignment of addresses. Aligning down gives the greatest multiple at or below an address, and
aligning up the least one at or above it if that is an address too. The sum that aligning up begins
with has to fit a word, and of all addresses that can be aligned up it does not for one: the last
multiple of the alignment that there is. -/

namespace DmaRemap

theorem isPowerOfTwo_iff {n : Nat} : isPowerOfTwo n = true ↔ n.isPowerOfTwo := by
  simp only [isPowerOfTwo, Bool.and_eq_true, bne_iff_ne, beq_iff_eq, Nat.one_shiftLeft]
  constructor
  · intro holds
    exact ⟨n.log2, holds.2⟩
  · intro holds
    obtain ⟨exponent, rfl⟩ := holds
    exact ⟨(Nat.two_pow_pos exponent).ne', by rw [Nat.log2_two_pow]⟩

theorem dvd_words_of_isPowerOfTwo {n : Nat} (power : n.isPowerOfTwo) (fits : n < 1 <<< 64) :
    n ∣ 1 <<< 64 := by
  obtain ⟨exponent, rfl⟩ := power
  rw [Nat.one_shiftLeft] at fits ⊢
  exact Nat.pow_dvd_pow 2 ((Nat.pow_lt_pow_iff_right (by decide)).mp fits).le

namespace Address

variable {width alignment size : Nat} {a : Address width}

/-- The multiples of a size that are not above an address. -/
def multiplesBelow (a : Address width) (size : Nat) : Set Nat :=
  {n | size ∣ n ∧ n ≤ a.val}

/-- The multiples of a size that are not below an address. -/
def multiplesAbove (a : Address width) (size : Nat) : Set Nat :=
  {n | size ∣ n ∧ a.val ≤ n}

theorem isGreatest_floor (a : Address width) (size : Nat) :
    IsGreatest (a.multiplesBelow size) (a.floor size).val := by
  constructor
  · exact ⟨Nat.dvd_sub_mod a.val, Nat.sub_le ..⟩
  · intro n among
    obtain ⟨⟨factor, rfl⟩, below⟩ := among
    have rest := Nat.mod_add_div a.val size
    rcases Nat.eq_zero_or_pos size with rfl | positive
    · simp [floor]
    · have factors : size * factor ≤ size * (a.val / size) :=
        Nat.mul_le_mul_left size ((Nat.le_div_iff_mul_le positive).mpr (by rwa [Nat.mul_comm]))
      simp only [floor]
      omega

/-- The multiple of a size at or above an address, which may itself be too large for one. -/
def ceiling (a : Address width) (size : Nat) : Nat :=
  a.val + size - 1 - (a.val + size - 1) % size

theorem dvd_ceiling (a : Address width) (size : Nat) : size ∣ a.ceiling size :=
  Nat.dvd_sub_mod _

theorem le_ceiling (positive : 0 < size) : a.val ≤ a.ceiling size := by
  have rest := Nat.mod_lt (a.val + size - 1) positive
  unfold ceiling
  omega

theorem ceiling_lt (positive : 0 < size) : a.ceiling size < a.val + size := by
  unfold ceiling
  omega

theorem isLeast_ceiling (positive : 0 < size) :
    IsLeast (a.multiplesAbove size) (a.ceiling size) := by
  refine ⟨⟨a.dvd_ceiling size, le_ceiling positive⟩, fun n among => ?_⟩
  obtain ⟨divides, above⟩ := among
  by_contra less
  have gap := Nat.le_of_dvd (by omega) (Nat.dvd_sub (a.dvd_ceiling size) divides)
  have close := ceiling_lt (a := a) positive
  omega

theorem floor_eq_self_iff : a.floor size = a ↔ size ∣ a.val := by
  constructor
  · intro same
    exact same ▸ (a.isGreatest_floor size).1.1
  · intro divides
    exact ext_val ((a.isGreatest_floor size).unique ⟨⟨divides, le_rfl⟩, fun _ among => among.2⟩)

theorem ceiling_eq_self_iff (positive : 0 < size) : a.ceiling size = a.val ↔ size ∣ a.val := by
  constructor
  · intro same
    exact same ▸ a.dvd_ceiling size
  · intro divides
    exact (isLeast_ceiling positive).unique ⟨⟨divides, le_rfl⟩, fun _ among => among.2⟩

section PowerOfTwo

variable (power : alignment.isPowerOfTwo)
include power

theorem isAligned_eq : a.isAligned alignment = .ok (decide (alignment ∣ a.val)) := by
  change ((if isPowerOfTwo alignment then .ok () else .error .alignmentNotPowerOfTwo :
    Except Abort Unit) >>= fun _ => .ok (a.val % alignment == 0)) = _
  rw [if_pos (isPowerOfTwo_iff.mpr power), decide_eq_decide.mpr Nat.dvd_iff_mod_eq_zero]
  rfl

theorem alignDown_eq : a.alignDown alignment = .ok (a.floor alignment) := by
  change ((if isPowerOfTwo alignment then .ok () else .error .alignmentNotPowerOfTwo :
    Except Abort Unit) >>= fun _ => .ok (a.floor alignment)) = _
  rw [if_pos (isPowerOfTwo_iff.mpr power)]
  rfl

/-- Aligning up gives the next multiple, if the sum it begins with fits a word and the multiple is
an address. -/
theorem alignUp_eq : a.alignUp alignment =
    if a.val + alignment < 1 <<< 64 then ofNat (a.ceiling alignment)
    else .error .additionOverflow := by
  change ((if isPowerOfTwo alignment then .ok () else .error .alignmentNotPowerOfTwo :
    Except Abort Unit) >>= fun _ => Checked.add a.val alignment >>= fun sum =>
      Checked.sub sum 1 >>= fun above => ofNat (above - above % alignment)) = _
  rw [if_pos (isPowerOfTwo_iff.mpr power)]
  have positive : 1 ≤ a.val + alignment := by
    have := Nat.pos_of_isPowerOfTwo power
    omega
  by_cases fits : a.val + alignment < 1 <<< 64
  · rw [if_pos fits, Checked.add_eq_ok_iff.mpr ⟨fits, rfl⟩]
    change (Checked.sub (a.val + alignment) 1 >>= _) = _
    rw [Checked.sub_eq_ok_iff.mpr ⟨positive, rfl⟩]
    rfl
  · rw [if_neg fits, Checked.add, if_neg fits]
    rfl

/-- Aligning an address down gives the greatest multiple that is not above it, which is the address
itself exactly if it is aligned, that is, a multiple. -/
structure AlignsDown (a : Address width) (alignment : Nat) : Prop where
  aligned : a.isAligned alignment = .ok (decide (alignment ∣ a.val))
  greatest : ∃ down, a.alignDown alignment = .ok down ∧
    IsGreatest (a.multiplesBelow alignment) down.val
  unchanged_iff : a.alignDown alignment = .ok a ↔ a.isAligned alignment = .ok true

/-- Aligning an address up gives the least multiple that is not below it, or stops for the given
reason if that is no address, and it gives the address itself exactly if it is aligned. -/
structure AlignsUp (a : Address width) (alignment : Nat) (reason : Abort) : Prop where
  least : ∃ up, IsLeast (a.multiplesAbove alignment) up ∧
    a.alignUp alignment = if fits : up < 1 <<< width then .ok ⟨up, fits⟩ else .error reason
  unchanged_iff : a.alignUp alignment = .ok a ↔ a.isAligned alignment = .ok true

theorem alignsDown (a : Address width) : a.AlignsDown alignment where
  aligned := isAligned_eq power
  greatest := ⟨_, alignDown_eq power, a.isGreatest_floor alignment⟩
  unchanged_iff := by
    rw [alignDown_eq power, isAligned_eq power, Except.ok.injEq, Except.ok.injEq,
      decide_eq_true_iff, floor_eq_self_iff]

theorem alignsUp_of_alignUp {reason : Abort} (gives : a.alignUp alignment =
      if fits : a.ceiling alignment < 1 <<< width then .ok ⟨_, fits⟩ else .error reason) :
    a.AlignsUp alignment reason where
  least := ⟨_, isLeast_ceiling (Nat.pos_of_isPowerOfTwo power), gives⟩
  unchanged_iff := by
    rw [gives, isAligned_eq power, Except.ok.injEq, decide_eq_true_iff,
      ← ceiling_eq_self_iff (Nat.pos_of_isPowerOfTwo power)]
    split
    case isTrue fits => rw [Except.ok.injEq, Address.mk.injEq]
    case isFalse large =>
      constructor
      · intro same
        cases same
      · intro same
        exact absurd (same ▸ a.isLt) large

variable (word : alignment < 1 <<< 64)
include word

theorem alignment_le_sub : alignment ≤ 1 <<< 64 - alignment :=
  Nat.le_of_dvd (by omega) (Nat.dvd_sub (dvd_words_of_isPowerOfTwo power word) dvd_rfl)

/-- The multiple above an address of a word is one too, unless no whole multiple fits in between. -/
theorem ceiling_lt_iff (a : VirtualAddress) :
    a.ceiling alignment < 1 <<< 64 ↔ a.val + alignment ≤ 1 <<< 64 := by
  have positive := Nat.pos_of_isPowerOfTwo power
  have above := le_ceiling (a := a) positive
  have close := ceiling_lt (a := a) positive
  constructor
  · intro less
    have gap := Nat.le_of_dvd (by omega)
      (Nat.dvd_sub (dvd_words_of_isPowerOfTwo power word) (a.dvd_ceiling alignment))
    omega
  · intro fits
    omega

theorem physical_alignsUp (a : PhysicalAddress) : a.AlignsUp alignment .addressTooWide := by
  have half := alignment_le_sub power word
  have narrow := a.isLt
  apply alignsUp_of_alignUp power
  rw [alignUp_eq power, if_pos (by omega)]
  rfl

theorem virtual_alignsUp {a : VirtualAddress} (different : a.val + alignment ≠ 1 <<< 64) :
    a.AlignsUp alignment .additionOverflow := by
  have fits_iff := ceiling_lt_iff power word a
  apply alignsUp_of_alignUp power
  rw [alignUp_eq power]
  by_cases fits : a.val + alignment < 1 <<< 64
  · have inside : a.ceiling alignment < 1 <<< 64 := fits_iff.mpr fits.le
    rw [if_pos fits, dif_pos inside, ofNat, dif_pos inside]
  · have outside : ¬a.ceiling alignment < 1 <<< 64 := fun less =>
      fits (Nat.lt_of_le_of_ne (fits_iff.mp less) different)
    rw [if_neg fits, dif_neg outside]

/-- The last multiple of an alignment is aligned, but aligning it up stops all the same. -/
theorem alignUp_last {a : VirtualAddress} (last : a.val + alignment = 1 <<< 64) :
    a.isAligned alignment = .ok true ∧ a.alignUp alignment = .error .additionOverflow := by
  have divides : alignment ∣ a.val := by
    rw [← Nat.dvd_add_left dvd_rfl, last]
    exact dvd_words_of_isPowerOfTwo power word
  constructor
  · rw [isAligned_eq power, decide_eq_true divides]
  · rw [alignUp_eq power, if_neg last.not_lt]

end PowerOfTwo

/-- Alignment is exact up to the limits of the type, for every power of two that fits a word: of
every physical address both ways, of every address of a word downwards, and upwards of each but the
last multiple of the alignment. -/
theorem alignment_exact {alignment : Nat} (power : alignment.isPowerOfTwo)
    (word : alignment < 1 <<< 64) :
    (∀ a : PhysicalAddress, a.AlignsDown alignment ∧ a.AlignsUp alignment .addressTooWide) ∧
    ∀ a : VirtualAddress, a.AlignsDown alignment ∧
      (a.AlignsUp alignment .additionOverflow ↔ a.val + alignment ≠ 1 <<< 64) := by
  refine ⟨fun a => ⟨alignsDown power a, physical_alignsUp power word a⟩,
    fun a => ⟨alignsDown power a, fun exact last => ?_, virtual_alignsUp power word⟩⟩
  obtain ⟨aligned, stops⟩ := alignUp_last power word last
  have unchanged := exact.unchanged_iff.mpr aligned
  cases unchanged.symm.trans stops

theorem AlignsUp.alignUp_eq {reason : Abort} {up : Nat} (exact : a.AlignsUp alignment reason)
    (least : IsLeast (a.multiplesAbove alignment) up) :
    a.alignUp alignment = if fits : up < 1 <<< width then .ok ⟨up, fits⟩ else .error reason := by
  obtain ⟨found, least', gives⟩ := exact.least
  cases least'.unique least
  exact gives

/-- Around the last pages: above the last page of memory there is no multiple that is an address, an
address of a word is aligned up to the last page that there is, and from within that page there is
none. -/
theorem alignment_exact_lastPages :
    (0x1000).isPowerOfTwo ∧ 0x1000 < 1 <<< 64 ∧
      (⟨0xffffffffff001, by decide⟩ : PhysicalAddress).alignUp 0x1000 = .error .addressTooWide ∧
      (⟨0xffffffffffffe001, by decide⟩ : VirtualAddress).alignUp 0x1000 =
        .ok ⟨0xfffffffffffff000, by decide⟩ ∧
      (⟨0xfffffffffffff001, by decide⟩ : VirtualAddress).alignUp 0x1000 =
        .error .additionOverflow := by
  have power : (0x1000).isPowerOfTwo := ⟨12, rfl⟩
  obtain ⟨physical, virtual⟩ := alignment_exact power (by decide)
  have exact := (physical ⟨0xffffffffff001, by decide⟩).2
  have below := (virtual ⟨0xffffffffffffe001, by decide⟩).2.mpr (by decide)
  have within := (virtual ⟨0xfffffffffffff001, by decide⟩).2.mpr (by decide)
  refine ⟨power, by decide, ?_, ?_, ?_⟩
  · rw [exact.alignUp_eq (isLeast_ceiling (by decide)), dif_neg (by decide)]
  · rw [below.alignUp_eq (isLeast_ceiling (by decide)), dif_pos (by decide)]
    rfl
  · rw [within.alignUp_eq (isLeast_ceiling (by decide)), dif_neg (by decide)]

/-- The last page of all addresses is aligned and so the least multiple that is not below itself,
yet it cannot be aligned up: the sum of its address and the alignment does not fit a word. -/
theorem alignUp_stops_at_last_page :
    let last : VirtualAddress := ⟨0xfffffffffffff000, by decide⟩
    last.isAligned 0x1000 = .ok true ∧ IsLeast (last.multiplesAbove 0x1000) last.val ∧
      last.alignUp 0x1000 = .error .additionOverflow := by
  intro last
  obtain ⟨aligned, stops⟩ := alignUp_last (a := last) ⟨12, rfl⟩ (by decide) (by decide)
  have divides : 0x1000 ∣ last.val := by decide
  exact ⟨aligned, ⟨⟨divides, le_rfl⟩, fun _ among => among.2⟩, stops⟩

end Address

end DmaRemap

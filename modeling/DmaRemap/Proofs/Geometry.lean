import Mathlib
import DmaRemap.Level
import DmaRemap.PageFlags

namespace DmaRemap

namespace Extent

variable {range : Extent} {width inner block offset : Nat}

/-- Whether an offset lies in a range. -/
def Contains (range : Extent) (offset : Nat) : Prop :=
  range.start ≤ offset ∧ offset < range.stop

/-- The part of a range that lies in a block, as offsets into the block. -/
def within (range : Extent) (width block : Nat) : Extent :=
  ⟨max range.start (block * width) - block * width,
    min range.stop (block * width + width) - max range.start (block * width)⟩

theorem contains_within (positive : 0 < width) :
    (range.within width (offset / width)).Contains (offset % width) ↔ range.Contains offset := by
  have split := Nat.div_add_mod' offset width
  have below := Nat.mod_lt offset positive
  simp only [Contains, stop, within]
  omega

theorem contains_block (inside : offset < width) :
    (range.within width block).Contains offset ↔ range.Contains (block * width + offset) := by
  simp only [Contains, stop, within]
  omega

theorem within_size_pos_iff (positive : 0 < width) :
    0 < (range.within width block).size ↔
      ∃ offset, range.Contains offset ∧ offset / width = block := by
  constructor
  · intro some
    simp only [within, stop] at some
    refine ⟨max range.start (block * width), ?_, ?_⟩
    · simp only [Contains, stop]
      omega
    · apply Nat.div_eq_of_lt_le
      · exact Nat.le_max_right ..
      · rw [Nat.succ_mul]
        omega
  · intro holds
    obtain ⟨offset, inside, rfl⟩ := holds
    have part := (contains_within positive).mpr inside
    simp only [Contains, stop] at part
    omega

theorem within_stop_le (some : 0 < (range.within width block).size) :
    (range.within width block).stop ≤ width := by
  simp only [within, stop] at some ⊢
  omega

theorem lt_of_contains_within (inside : (range.within width block).Contains offset) :
    offset < width := by
  simp only [Contains, stop, within] at inside
  omega

/-- The offset where a block begins in a range is the first of its part. -/
theorem mul_add_within_start (range : Extent) (width block : Nat) :
    block * width + (range.within width block).start = max range.start (block * width) := by
  simp only [within]
  omega

/-- Whether two ranges have an offset in common. -/
def Meets (range other : Extent) : Prop :=
  ∃ offset, range.Contains offset ∧ other.Contains offset

/-- The block of the given width around an offset. -/
def around (width offset : Nat) : Extent :=
  ⟨offset / width * width, width⟩

theorem around_contains_iff (positive : 0 < width) {other : Nat} :
    (around width offset).Contains other ↔ other / width = offset / width := by
  rw [Nat.div_eq_iff positive]
  simp only [Contains, around, stop]
  omega

/-- An aligned range is the block of its width around each of its offsets. -/
theorem around_eq_iff {block : Extent} (positive : 0 < block.size) :
    around block.size offset = block ↔ block.size ∣ block.start ∧ block.Contains offset := by
  constructor
  · intro same
    have inside := (around_contains_iff positive).mpr (rfl : offset / block.size = _)
    rw [same] at inside
    exact ⟨congrArg Extent.start same ▸ Nat.dvd_mul_left .., inside⟩
  · rintro ⟨⟨index, start⟩, least, most⟩
    have place : offset / block.size = index := by
      rw [stop] at most
      rw [Nat.div_eq_iff positive, Nat.mul_comm index, ← start]
      omega
    rw [around, place, Nat.mul_comm index, ← start]

/-- Whether a range lies in another one. -/
structure Encloses (outer inner : Extent) : Prop where
  start : outer.start ≤ inner.start
  stop : inner.stop ≤ outer.stop

theorem Encloses.contains {outer inner : Extent} (encloses : outer.Encloses inner)
    (inside : inner.Contains offset) : outer.Contains offset :=
  ⟨Nat.le_trans encloses.start inside.1, Nat.lt_of_lt_of_le inside.2 encloses.stop⟩

theorem Encloses.size_le {outer inner : Extent} (encloses : outer.Encloses inner) :
    inner.size ≤ outer.size := by
  have start := encloses.start
  have stop := encloses.stop
  simp only [Extent.stop] at stop
  omega

theorem meets_around_iff (positive : 0 < width) :
    range.Meets (around width offset) ↔ 0 < (range.within width (offset / width)).size := by
  simp only [within_size_pos_iff positive, Meets, around_contains_iff positive]

theorem Meets.size_pos {other : Extent} (met : range.Meets other) : 0 < range.size := by
  obtain ⟨offset, ⟨least, most⟩, _⟩ := met
  unfold stop at most
  omega

/-- Offsets share a block of a narrower width if they share the wider one and the place in it. -/
theorem div_eq_div_iff (divides : inner ∣ width) (other offset : Nat) :
    other / inner = offset / inner ↔
      other / width = offset / width ∧ other % width / inner = offset % width / inner := by
  obtain ⟨count, rfl⟩ := divides
  simp only [← Nat.div_div_eq_div_mul, Nat.mod_mul_right_div_self]
  constructor
  · intro same
    rw [same]
    exact ⟨rfl, rfl⟩
  · intro holds
    obtain ⟨quotient, rest⟩ := holds
    rw [← Nat.div_add_mod' (other / inner) count, quotient, rest, Nat.div_add_mod']

/-- A part of a range meets the blocks of a narrower width that the range itself meets. -/
theorem meets_within (positive : 0 < width) (divides : inner ∣ width) :
    (range.within width (offset / width)).Meets (around inner (offset % width)) ↔
      range.Meets (around inner offset) := by
  have some := Nat.pos_of_dvd_of_pos divides positive
  simp only [Meets, around_contains_iff some, div_eq_div_iff divides _ offset]
  constructor
  · intro holds
    obtain ⟨place, inside, same⟩ := holds
    have below : place < width := by
      have least := inside.1
      have most := inside.2
      exact Nat.lt_of_lt_of_le most (within_stop_le (by unfold stop at most; omega))
    have quotient : (offset / width * width + place) / width = offset / width := by
      rw [Nat.mul_comm, Nat.mul_add_div positive, Nat.div_eq_of_lt below, Nat.add_zero]
    have rest : (offset / width * width + place) % width = place := by
      rw [Nat.mul_add_mod', Nat.mod_eq_of_lt below]
    refine ⟨offset / width * width + place, ?_, quotient, by rw [rest, same]⟩
    rw [← contains_within positive, quotient, rest]
    exact inside
  · intro holds
    obtain ⟨place, inside, block, same⟩ := holds
    refine ⟨place % width, ?_, same⟩
    rwa [← block, contains_within positive]

theorem dvd_within_start {unit : Nat} (aligned : unit ∣ range.start) (divides : unit ∣ width) :
    unit ∣ (range.within width block).start := by
  have multiple : unit ∣ block * width := divides.mul_left block
  simp only [within]
  apply Nat.dvd_sub _ multiple
  rcases le_total range.start (block * width) with before | behind
  · rwa [max_eq_right before]
  · rwa [max_eq_left behind]

theorem dvd_within_size {unit : Nat} (aligned : unit ∣ range.start) (whole : unit ∣ range.size)
    (divides : unit ∣ width) : unit ∣ (range.within width block).size := by
  have multiple : unit ∣ block * width := divides.mul_left block
  simp only [within]
  apply Nat.dvd_sub
  · rcases le_total range.stop (block * width + width) with before | behind
    · rw [min_eq_left before]
      exact aligned.add whole
    · rw [min_eq_right behind]
      exact multiple.add divides
  · rcases le_total range.start (block * width) with before | behind
    · rwa [max_eq_right before]
    · rwa [max_eq_left behind]

end Extent

/-- A request to map a range to memory from `target` on. -/
structure Request where
  range : Extent
  target : Nat
  flags : PageFlags

namespace Request

variable {request : Request} {width inner block offset : Nat}

/-- The part of a request that lies in a block, as offsets into the block. -/
def within (request : Request) (width block : Nat) : Request :=
  ⟨request.range.within width block, request.target + (block * width - request.range.start),
    request.flags⟩

/-- Whether a page of the given size may map an offset: its block lies in the range, and its target
is aligned to it. -/
def Covers (request : Request) (width offset : Nat) : Prop :=
  request.range.start ≤ offset / width * width ∧
    offset / width * width + width ≤ request.range.stop ∧
    request.target % width = request.range.start % width

instance (request : Request) (width offset : Nat) : Decidable (request.Covers width offset) :=
  inferInstanceAs (Decidable (_ ∧ _ ∧ _))

/-- Whether a request is made of whole pages of the smallest size. -/
structure Aligned (request : Request) : Prop where
  start : 4096 ∣ request.range.start
  size : 4096 ∣ request.range.size
  target : 4096 ∣ request.target

theorem Aligned.within (aligned : request.Aligned) (divides : 4096 ∣ width) :
    (request.within width block).Aligned where
  start := Extent.dvd_within_start aligned.start divides
  size := Extent.dvd_within_size aligned.start aligned.size divides
  target := aligned.target.add (Nat.dvd_sub (divides.mul_left block) aligned.start)

theorem mod_div_mul (divides : inner ∣ width) (offset : Nat) :
    offset / width * width + offset % width / inner * inner = offset / inner * inner := by
  obtain ⟨count, rfl⟩ := divides
  rcases Nat.eq_zero_or_pos inner with rfl | positive
  · simp
  have split := Nat.div_add_mod' offset (inner * count)
  have quotient : offset / inner =
      offset / (inner * count) * count + offset % (inner * count) / inner := by
    calc offset / inner
        = (inner * (offset / (inner * count) * count) + offset % (inner * count)) / inner := by
          congr 1
          rw [← Nat.mul_left_comm]
          exact split.symm
      _ = offset / (inner * count) * count + offset % (inner * count) / inner :=
          Nat.mul_add_div positive ..
  rw [quotient]
  ring

private theorem mod_div_mul_add_le (positive : 0 < width) (divides : inner ∣ width) (offset : Nat) :
    offset % width / inner * inner + inner ≤ width := by
  obtain ⟨count, rfl⟩ := divides
  have below := Nat.mod_lt offset positive
  have index : offset % (inner * count) / inner < count := by
    rw [Nat.div_lt_iff_lt_mul (Nat.pos_of_mul_pos_right positive)]
    rwa [Nat.mul_comm count]
  calc offset % (inner * count) / inner * inner + inner
      = (offset % (inner * count) / inner + 1) * inner := by ring
    _ ≤ count * inner := Nat.mul_le_mul_right inner index
    _ = inner * count := Nat.mul_comm ..

private theorem within_target_mod (divides : inner ∣ width) :
    (request.within width block).target % inner = (request.within width block).range.start % inner ↔
      request.target % inner = request.range.start % inner := by
  have multiple : inner ∣ block * width := divides.mul_left block
  simp only [within, Extent.within]
  rcases le_total request.range.start (block * width) with before | behind
  · rw [max_eq_right before, Nat.sub_self, Nat.zero_mod]
    have shifted : request.range.start + (block * width - request.range.start) ≡ 0 [MOD inner] := by
      rw [Nat.add_sub_of_le before]
      exact (Nat.modEq_zero_iff_dvd.mpr multiple)
    constructor
    · intro same
      exact Nat.ModEq.add_right_cancel' _ (Nat.ModEq.trans (show _ ≡ 0 [MOD inner] by
        simpa [Nat.ModEq] using same) shifted.symm)
    · intro same
      simpa [Nat.ModEq] using (Nat.ModEq.add_right _ same).trans shifted
  · rw [max_eq_left behind, Nat.sub_eq_zero_of_le behind, Nat.add_zero]
    have start : (request.range.start - block * width) % inner = request.range.start % inner := by
      have back := Nat.ModEq.add_left (request.range.start - block * width)
        (Nat.modEq_zero_iff_dvd.mpr multiple)
      rw [Nat.sub_add_cancel behind, Nat.add_zero] at back
      exact back.symm
    rw [start]

/-- A page of a deeper level covers an offset within a part exactly if it does in the whole. -/
theorem covers_within (positive : 0 < width) (divides : inner ∣ width) (offset : Nat) :
    (request.within width (offset / width)).Covers inner (offset % width) ↔
      request.Covers inner offset := by
  have start := mod_div_mul divides offset
  have stop := mod_div_mul_add_le positive divides offset
  unfold Covers
  rw [within_target_mod divides, ← start]
  simp only [within, Extent.within, Extent.stop]
  have some := Nat.pos_of_dvd_of_pos divides positive
  constructor
  · intro holds
    obtain ⟨least, most, same⟩ := holds
    exact ⟨by omega, by omega, same⟩
  · intro holds
    obtain ⟨least, most, same⟩ := holds
    exact ⟨by omega, by omega, same⟩

end Request

theorem Extent.around_encloses_around {width inner : Nat} (positive : 0 < width)
    (divides : inner ∣ width) (offset : Nat) :
    (around width offset).Encloses (around inner offset) := by
  have start := Request.mod_div_mul divides offset
  have stop := Request.mod_div_mul_add_le positive divides offset
  constructor
  · simp only [around]
    omega
  · simp only [around, Extent.stop]
    omega

theorem Address.add_eq_ok {width : Nat} {a : Address width} {offset : Nat}
    (fits : a.val + offset < 1 <<< width) (narrow : width ≤ 64) :
    a.add offset = .ok ⟨a.val + offset, fits⟩ := by
  have word : a.val + offset < 1 <<< 64 := by
    apply Nat.lt_of_lt_of_le fits
    rw [Nat.one_shiftLeft, Nat.one_shiftLeft]
    exact Nat.pow_le_pow_right (by decide) narrow
  rw [add, Checked.add_eq_ok_iff.mpr ⟨word, rfl⟩]
  simp [bind, Except.bind, ofNat, fits]

namespace Level

variable {level : Level} {deeper : List Level} {range : Extent} {block offset : Nat}

/-- The bytes that a table of the first level covers, or a page below the last one. -/
def span : List Level → Nat
  | [] => smallestPageSize
  | level :: _ => 512 * level.pageSize

/-- How a level stands above the deeper ones: a table of the next one divides one of its blocks. -/
structure Divided (level : Level) (deeper : List Level) : Prop where
  entries : level.entries = 512
  pageSize : level.pageSize = span deeper
  leaf : level.kind = .leaf ↔ deeper = []
  least : 12 ≤ level.pageBits
  most : level.pageBits ≤ 39

/-- Each level is divided by the next, and the last one is a leaf level. -/
def Nested : List Level → Prop
  | [] => True
  | level :: deeper => Divided level deeper ∧ Nested deeper

theorem nested_four : Nested four := by
  refine ⟨?_, ?_, ?_, ?_, trivial⟩ <;> constructor <;> decide

/-- The part of a range in a block is a range of the table that divides the block. -/
theorem Divided.within_stop_le (divided : Divided level deeper)
    (some : 0 < (range.within level.pageSize block).size) :
    (range.within level.pageSize block).stop ≤ span deeper :=
  divided.pageSize ▸ Extent.within_stop_le some

theorem Divided.mod_lt (divided : Divided level deeper) (offset : Nat) :
    offset % level.pageSize < span deeper :=
  divided.pageSize ▸ Nat.mod_lt offset level.pageSize_pos

theorem Divided.pageSize_le (divided : Divided level deeper) : level.pageSize ≤ 1 <<< 39 := by
  rw [Level.pageSize, Nat.one_shiftLeft, Nat.one_shiftLeft]
  exact Nat.pow_le_pow_right (by decide) divided.most

theorem Divided.dvd_pageSize (divided : Divided level deeper) : 4096 ∣ level.pageSize := by
  rw [Level.pageSize, Nat.one_shiftLeft]
  exact Nat.pow_dvd_pow 2 divided.least

theorem Nested.pageSize_dvd (nested : Nested (level :: deeper)) {inner : Level}
    (member : inner ∈ deeper) : inner.pageSize ∣ level.pageSize := by
  induction deeper generalizing level with
  | nil => cases member
  | cons next deeper ih =>
    have step : next.pageSize ∣ level.pageSize := by
      rw [nested.1.pageSize]
      exact Nat.dvd_mul_left ..
    rcases List.mem_cons.mp member with rfl | below
    · exact step
    · exact (ih nested.2 below).trans step

theorem Nested.pageSize_lt (nested : Nested (level :: deeper)) {inner : Level}
    (member : inner ∈ deeper) : inner.pageSize < level.pageSize := by
  cases deeper with
  | nil => cases member
  | cons next deeper =>
    have positive := next.pageSize_pos
    have least : inner.pageSize ≤ next.pageSize := by
      rcases List.mem_cons.mp member with rfl | below
      · exact Nat.le_refl _
      · exact Nat.le_of_dvd positive (nested.2.pageSize_dvd below)
    rw [nested.1.pageSize, span]
    omega

theorem Nested.divided_of_mem {levels : List Level} (nested : Nested levels)
    (member : level ∈ levels) : ∃ deeper, Divided level deeper := by
  induction levels with
  | nil => cases member
  | cons head deeper ih =>
    rcases List.mem_cons.mp member with rfl | below
    · exact ⟨deeper, nested.1⟩
    · exact ih nested.2 below

theorem mem_blocks_iff_within :
    block ∈ level.blocks range ↔ 0 < (range.within level.pageSize block).size := by
  rw [mem_blocks_iff, Extent.within_size_pos_iff level.pageSize_pos]
  simp only [Extent.Contains, and_assoc]

theorem nodup_blocks (level : Level) (range : Extent) : (level.blocks range).Nodup :=
  List.nodup_range'

theorem pairwise_blocks (level : Level) (range : Extent) :
    (level.blocks range).Pairwise (· < ·) :=
  List.pairwise_lt_range'

theorem lt_of_mem_blocks (touched : block ∈ level.blocks range)
    (ends : range.stop ≤ 512 * level.pageSize) : block < 512 := by
  obtain ⟨offset, _, below, rfl⟩ := (mem_blocks_iff ..).mp touched
  rw [Nat.div_lt_iff_lt_mul level.pageSize_pos]
  omega

theorem exists_slot (touched : block ∈ level.blocks range)
    (ends : range.stop ≤ 512 * level.pageSize) : ∃ slot : Slot, slot.val = block :=
  ⟨⟨block, lt_of_mem_blocks touched ends⟩, rfl⟩

theorem block_stop_le (below : block < 512) :
    block * level.pageSize + level.pageSize ≤ 512 * level.pageSize := by
  rw [← Nat.succ_mul]
  exact Nat.mul_le_mul_right _ below

/-- The table of a block has room below the bound that the table around it keeps. -/
theorem Divided.room {base bound : Nat} (divided : level.Divided deeper)
    (limit : base + 512 * level.pageSize ≤ bound) (slot : Slot) :
    base + slot.val * level.pageSize + span deeper ≤ bound := by
  have last := level.block_stop_le slot.isLt
  rw [← divided.pageSize]
  omega

theorem block_start_lt {base : Nat} (limit : base + 512 * level.pageSize ≤ 1 <<< 48)
    (slot : Slot) : base + slot.val * level.pageSize < 1 <<< 64 := by
  have last := level.block_stop_le slot.isLt
  have positive := level.pageSize_pos
  omega

theorem div_pageSize (below : offset < level.pageSize) (block : Nat) :
    (block * level.pageSize + offset) / level.pageSize = block := by
  rw [Nat.mul_comm, Nat.mul_add_div level.pageSize_pos, Nat.div_eq_of_lt below, Nat.add_zero]

/-- The block of a smaller size around an offset into a block. -/
theorem floor_pageSize {size : Nat} (below : offset < level.pageSize)
    (divides : size ∣ level.pageSize) (block : Nat) :
    (block * level.pageSize + offset) / size * size =
      block * level.pageSize + offset / size * size := by
  rw [← Request.mod_div_mul divides, div_pageSize below, Nat.mul_add_mod', Nat.mod_eq_of_lt below]

theorem contains_block_iff (level : Level) (block : Nat) {base input : Nat}
    (least : base ≤ input) :
    (Extent.mk (base + block * level.pageSize) level.pageSize).Contains input ↔
      (input - base) / level.pageSize = block := by
  have positive := level.pageSize_pos
  rw [Nat.div_eq_iff positive]
  simp only [Extent.Contains, Extent.stop]
  omega

theorem exists_offset_iff {holds : Nat → Prop} :
    (∃ offset < span (level :: deeper), holds offset) ↔
      ∃ slot : Slot, ∃ offset < level.pageSize, holds (slot.val * level.pageSize + offset) := by
  have positive := level.pageSize_pos
  constructor
  · rintro ⟨offset, inside, here⟩
    have index : offset / level.pageSize < 512 := (Nat.div_lt_iff_lt_mul positive).mpr inside
    refine ⟨⟨_, index⟩, offset % level.pageSize, Nat.mod_lt _ positive, ?_⟩
    rwa [Nat.div_add_mod']
  · rintro ⟨slot, offset, inside, here⟩
    have last := level.block_stop_le slot.isLt
    refine ⟨_, ?_, here⟩
    rw [span]
    omega

theorem div_pageSize_within (touched : block ∈ level.blocks range) :
    (block * level.pageSize + (range.within level.pageSize block).start) / level.pageSize =
      block := by
  have some := mem_blocks_iff_within.mp touched
  have inside := Extent.within_stop_le some
  unfold Extent.stop at inside
  exact div_pageSize (by omega) block

theorem mod_pageSize_within (touched : block ∈ level.blocks range) :
    (block * level.pageSize + (range.within level.pageSize block).start) % level.pageSize =
      (range.within level.pageSize block).start := by
  have split := Nat.div_add_mod'
    (block * level.pageSize + (range.within level.pageSize block).start) level.pageSize
  rw [div_pageSize_within touched] at split
  omega

theorem piece_eq (touched : block ∈ level.blocks range) (most : level.pageSize ≤ 1 <<< 39)
    (ends : range.stop ≤ 1 <<< 48) :
    level.piece range block =
      .ok ⟨block * level.pageSize + (range.within level.pageSize block).start,
        (range.within level.pageSize block).size⟩ := by
  have some := mem_blocks_iff_within.mp touched
  have place := div_pageSize_within touched
  rw [Extent.mul_add_within_start] at place ⊢
  have fits : max range.start (block * level.pageSize) + level.pageSize < 1 <<< 64 := by
    simp only [Extent.within] at some
    omega
  rw [piece, Checked.add_eq_ok_iff.mpr ⟨fits, rfl⟩]
  simp only [bind, Except.bind, pure, Except.pure]
  rw [Nat.add_div_right _ level.pageSize_pos, place, Nat.succ_mul]
  rfl

theorem floor_within {base : Nat} {address : VirtualAddress}
    (touched : block ∈ level.blocks range) (aligned : level.pageSize ∣ base)
    (place : address.val = base + (block * level.pageSize +
      (range.within level.pageSize block).start)) :
    (address.floor level.pageSize).val = base + block * level.pageSize := by
  have rest : address.val % level.pageSize = (range.within level.pageSize block).start := by
    rw [place, Nat.add_mod, Nat.mod_eq_zero_of_dvd aligned, Nat.zero_add, Nat.mod_mod,
      mod_pageSize_within touched]
  simp only [Address.floor, rest]
  omega

/-- The part of a block ends where the range ends, or where another block of the table begins. -/
theorem within_ends (touched : block ∈ level.blocks range)
    (ends : range.stop ≤ 512 * level.pageSize) :
    block * level.pageSize + (range.within level.pageSize block).start +
        (range.within level.pageSize block).size = range.stop ∨
      (block * level.pageSize + (range.within level.pageSize block).start +
        (range.within level.pageSize block).size) / level.pageSize < 512 := by
  have some := mem_blocks_iff_within.mp touched
  rw [Extent.mul_add_within_start, Nat.div_lt_iff_lt_mul level.pageSize_pos]
  simp only [Extent.within] at some ⊢
  omega

theorem slot_eq (inside : block < 512) (place : offset / level.pageSize = block) :
    level.slot offset = ⟨block, inside⟩ := by
  apply Fin.ext
  simp [slot, place, Nat.mod_eq_of_lt inside]

/-- An offset into the block of an entry leads to that entry. -/
theorem slot_mul_add (below : offset < level.pageSize) (index : Slot) :
    level.slot (index.val * level.pageSize + offset) = index :=
  slot_eq index.isLt (div_pageSize below index.val)

end Level

end DmaRemap

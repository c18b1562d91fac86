import DmaRemap.Address

namespace DmaRemap

/-- The number of entries in a table. -/
abbrev tableEntries : Nat := 512

/-- The number of bytes in a table. -/
abbrev tableBytes : Nat := 4096

/-- The base-two logarithm of the bytes in a table. -/
abbrev tableBits : Nat := 12

/-- The number of bytes in the smallest page of any format. -/
abbrev smallestPageSize : Nat := 1 <<< 12

/-- The index of an entry within a table. -/
abbrev Slot := Fin 512

/-- What the entries of a level may hold. -/
inductive LevelKind where
  /-- Links to tables of the next level. -/
  | directory
  /-- Links or large pages. -/
  | largePages
  /-- Pages; the last level of a table. -/
  | leaf
deriving DecidableEq, Repr

/-- The shape of one level. -/
structure Level where
  entries : Nat := tableEntries
  pageBits : Nat
  kind : LevelKind
deriving DecidableEq, Repr

namespace Level

/-- The bytes one entry covers. -/
def pageSize (level : Level) : Nat :=
  1 <<< level.pageBits

theorem pageSize_pos (level : Level) : 0 < level.pageSize := by
  rw [pageSize, Nat.one_shiftLeft]
  exact Nat.two_pow_pos _

/-- Whether an entry may map a page. -/
def mapsPages (level : Level) : Bool :=
  level.kind != .directory

/-- The bytes one entry covers, for a level of any shape. -/
def checkedPageSize (level : Level) : Except Abort Nat :=
  Checked.powerOfTwo level.pageBits

/-- The bytes a whole table covers, for a level of any shape. -/
def checkedSpan (level : Level) : Except Abort Nat := do
  Checked.mul (← level.checkedPageSize) level.entries

/-- The entry that covers an offset into a table of the level. -/
def slot (level : Level) (offset : Nat) : Slot :=
  Fin.ofNat 512 (offset / level.pageSize)

/-- The levels of a four-level table from the root down. -/
def four : List Level :=
  [{ pageBits := 39, kind := .directory },
   { pageBits := 30, kind := .largePages },
   { pageBits := 21, kind := .largePages },
   { pageBits := 12, kind := .leaf }]

end Level

/-- A contiguous range of offsets. -/
structure Extent where
  start : Nat
  size : Nat
deriving DecidableEq, Repr

namespace Extent

/-- The end of the range, exclusive. -/
def stop (range : Extent) : Nat :=
  range.start + range.size

end Extent

namespace Level

/-- The numbers of the blocks of a level that a range touches, in ascending order. -/
def blocks (level : Level) (range : Extent) : List Nat :=
  let first := range.start / level.pageSize
  List.range' first
    (if range.size = 0 then 0 else (range.stop - 1) / level.pageSize + 1 - first)

/-- The part of a range that lies in a block it touches. -/
def piece (level : Level) (range : Extent) (block : Nat) : Except Abort Extent := do
  let first := max range.start (block * level.pageSize)
  let behind ← Checked.add first level.pageSize
  return ⟨first, min range.stop (behind / level.pageSize * level.pageSize) - first⟩

theorem mem_blocks_iff (level : Level) (range : Extent) (block : Nat) :
    block ∈ level.blocks range ↔
      ∃ offset, range.start ≤ offset ∧ offset < range.stop ∧ offset / level.pageSize = block := by
  have positive := level.pageSize_pos
  simp only [blocks, List.mem_range'_1]
  constructor
  · intro ⟨least, most⟩
    by_cases none : range.size = 0
    · simp [none] at most
      omega
    · refine ⟨max range.start (block * level.pageSize), Nat.le_max_left .., ?_, ?_⟩
      · have reached : block ≤ (range.stop - 1) / level.pageSize := by
          simp only [none, if_false] at most
          omega
        have below : block * level.pageSize ≤ range.stop - 1 :=
          (Nat.le_div_iff_mul_le positive).mp reached
        have ends : range.start < range.stop := by
          unfold Extent.stop
          omega
        omega
      · apply Nat.div_eq_of_lt_le
        · exact Nat.le_max_right ..
        · have within : range.start < (block + 1) * level.pageSize :=
            (Nat.div_lt_iff_lt_mul positive).mp (by omega)
          have larger : block * level.pageSize < (block + 1) * level.pageSize :=
            (Nat.mul_lt_mul_right positive).mpr (Nat.lt_succ_self block)
          omega
  · rintro ⟨offset, starts, ends, rfl⟩
    have some : range.size ≠ 0 := by
      unfold Extent.stop at ends
      omega
    have first : range.start / level.pageSize ≤ offset / level.pageSize :=
      Nat.div_le_div_right starts
    have last : offset / level.pageSize ≤ (range.stop - 1) / level.pageSize :=
      Nat.div_le_div_right (by omega)
    simp only [some, if_false]
    omega

end Level

end DmaRemap

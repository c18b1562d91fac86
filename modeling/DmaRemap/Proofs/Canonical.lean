import DmaRemap.Proofs.Insertion
import DmaRemap.Proofs.Removal

/-! Canonical trees: every table below a link holds a valid descriptor, and a descriptor that is not
valid is zero. Only a pool that runs out of nodes makes a tree lose this form. In a canonical tree
whatever is in the way of a request leads to a page, and unmapping what a request has mapped gives
back the tree as it was. -/

namespace DmaRemap.Format

variable {format : Format} {level : Level} {deeper levels : List Level} {request : Request}
  {branches branches' below : Branches} {tree : Tree} {range : Extent} {slot : Slot} {word : Word}
  {offset done : Nat} {short : Prop}

/-- Whether every table below a link holds a valid descriptor, and every other descriptor that is
not valid is zero. -/
def Canonical (format : Format) : Tree → Prop
  | .word descriptor => format.isPresent descriptor = false → descriptor = 0
  | .link _ below =>
    format.isEmptyNode (Node.of below) = false ∧ ∀ slot, format.Canonical (below slot)

theorem canonical_blank (slot : Slot) : format.Canonical (blank slot) :=
  fun _ => rfl

/-- What an offset into a block finds is told by the branch of the block. -/
theorem find_block (inside : offset < level.pageSize) (slot : Slot) :
    format.find (level :: deeper) branches (slot.val * level.pageSize + offset) =
      match branches slot with
      | .word descriptor => if format.isPresent descriptor then some (level, descriptor) else none
      | .link _ below => format.find deeper below offset := by
  have here := Level.slot_mul_add inside slot
  cases branch : branches slot with
  | word descriptor => simp only [find, here, branch]
  | link descriptor below =>
    simp only [find, here, branch, Nat.mul_add_mod', Nat.mod_eq_of_lt inside]

theorem isEmptyNode_of_find {page : Level × Word}
    (shaped : ∀ slot, format.Shaped levels (branches slot))
    (found : format.find levels branches offset = some page) :
    format.isEmptyNode (Node.of branches) = false := by
  by_contra filled
  rw [find_of_isEmptyNode shaped (by simpa using filled)] at found
  cases found

theorem exists_find (nested : Level.Nested levels)
    (shaped : ∀ slot, format.Shaped levels (branches slot))
    (canonical : ∀ slot, format.Canonical (branches slot))
    (filled : format.isEmptyNode (Node.of branches) = false) :
    ∃ offset < Level.span levels, ∃ page, format.find levels branches offset = some page := by
  induction levels generalizing branches with
  | nil => exact (shaped 0).elim
  | cons level deeper ih =>
    have positive := level.pageSize_pos
    obtain ⟨slot, present⟩ : ∃ slot, format.isPresent (branches slot).descriptor = true := by
      by_contra absent
      rw [isEmptyNode_of.mpr (by simpa using absent)] at filled
      cases filled
    have last := level.block_stop_le slot.isLt
    have shape := shaped slot
    have canon := canonical slot
    cases branch : branches slot with
    | word descriptor =>
      rw [branch] at present
      refine ⟨slot.val * level.pageSize + 0, ?_, (level, descriptor), ?_⟩
      · rw [Level.span]
        omega
      · rw [find_block positive, branch]
        exact if_pos present
    | link descriptor below =>
      rw [branch] at shape canon
      obtain ⟨offset, inside, page, found⟩ := ih nested.2 shape.2.2 canon.2 canon.1
      rw [← nested.1.pageSize] at inside
      refine ⟨slot.val * level.pageSize + offset, ?_, page, ?_⟩
      · rw [Level.span]
        omega
      · rw [find_block inside, branch]
        exact found

/-- Whatever is in the way of a request in a canonical tree leads to a page, which is there or
further on in the range. -/
theorem Blocked.exists_find (nested : Level.Nested levels)
    (shaped : ∀ slot, format.Shaped levels (branches slot))
    (canonical : ∀ slot, format.Canonical (branches slot)) (most : done < request.range.size)
    (blocked : format.Blocked levels request done branches) :
    ∃ offset, request.range.start + done ≤ offset ∧ offset < request.range.stop ∧
      ∃ page, format.find levels branches offset = some page := by
  induction levels generalizing request done branches with
  | nil => exact blocked.elim
  | cons level deeper ih =>
    have positive := level.pageSize_pos
    obtain ⟨slot, place, inTheWay⟩ := blocked
    have split := Nat.div_add_mod' (request.range.start + done) level.pageSize
    have rest := Nat.mod_lt (request.range.start + done) positive
    rw [place] at split
    have shape := shaped slot
    have canon := canonical slot
    generalize branch : branches slot = tree at inTheWay
    rw [branch] at shape canon
    cases inTheWay with
    | page present =>
      rename_i descriptor
      refine ⟨request.range.start + done, Nat.le_refl _, Nat.add_lt_add_left most _,
        (level, descriptor), ?_⟩
      rw [find, Level.slot_eq slot.isLt place, branch]
      exact if_pos present
    | table fills none =>
      obtain ⟨offset, inside, page, found⟩ :=
        Format.exists_find nested.2 shape.2.2 canon.2 canon.1
      rw [← nested.1.pageSize] at inside
      refine ⟨slot.val * level.pageSize + offset, ?_, ?_, page, ?_⟩
      · have start := fills.2.1
        simp only [Request.progress, Request.within, Extent.within, Extent.stop, Nat.zero_div,
          Nat.zero_mul] at none start
        omega
      · have stop := fills.2.2.1
        simp only [Request.within, Extent.within, Extent.stop, Nat.zero_div, Nat.zero_mul] at stop ⊢
        omega
      · rw [find_block inside, branch]
        exact found
    | below inside =>
      have room : request.progress level.pageSize slot.val done <
          (request.within level.pageSize slot.val).range.size := by
        simp only [Request.progress, Request.within, Extent.within, Extent.stop]
        omega
      obtain ⟨offset, least, stop, page, found⟩ := ih nested.2 shape.2.2 canon.2 room inside
      simp only [Request.progress, Request.within, Extent.within, Extent.stop] at least stop room
      refine ⟨slot.val * level.pageSize + offset, ?_, ?_, page, ?_⟩
      · omega
      · simp only [Extent.stop]
        omega
      · rw [find_block (by omega), branch]
        exact found

theorem Grown.filled (nested : Level.Nested levels)
    (shaped : ∀ slot, format.Shaped levels (branches' slot)) (some : 0 < done)
    (most : done ≤ request.range.size) (inside : request.range.stop ≤ Level.span levels)
    (grown : format.Grown levels request done short branches branches') :
    format.isEmptyNode (Node.of branches') = false := by
  have first : request.range.start < Level.span levels := by
    unfold Extent.stop at inside
    omega
  obtain ⟨_, _, found, _⟩ :=
    (find_grown nested most grown first).1 ⟨Nat.le_refl _, Nat.lt_add_of_pos_right some⟩
  exact isEmptyNode_of_find shaped found

/-- A canonical tree stays canonical as it grows, unless the pool runs short of nodes. -/
theorem canonical_grown (nested : Level.Nested levels)
    (shaped : ∀ slot, format.Shaped levels (branches slot))
    (shaped' : ∀ slot, format.Shaped levels (branches' slot))
    (canonical : ∀ slot, format.Canonical (branches slot))
    (grown : format.Grown levels request done False branches branches') :
    ∀ slot, format.Canonical (branches' slot) := by
  induction levels generalizing request done branches branches' with
  | nil => exact fun slot => (shaped slot).elim
  | cons level deeper ih =>
    intro slot
    have shape := shaped slot
    have shape' := shaped' slot
    have canon := canonical slot
    have branch := grown slot
    generalize branches slot = tree at shape canon branch
    generalize branches' slot = tree' at shape' branch ⊢
    cases branch with
    | untouched none tree => exact canon
    | mapped fills complete vacant =>
      intro absent
      rw [isPresent_pageWord] at absent
      cases absent
    | kept fills complete present same => exact canon
    | linked partly touched barren vacant table inside =>
      have below : (request.within level.pageSize slot.val).range.stop ≤ Level.span deeper :=
        nested.1.within_stop_le touched
      refine ⟨?_, ?_⟩
      · exact inside.filled nested.2 shape'.2.2 (Nat.pos_of_ne_zero barren) Request.progress_le
          below
      · exact ih nested.2 (shaped_blank fun last => (last ▸ shape'.2.2 0 : Shaped _ [] _).elim)
          shape'.2.2 canonical_blank inside
    | descended partly touched inside =>
      obtain ⟨offset, _, page, found⟩ := exists_find nested.2 shape.2.2 canon.2 canon.1
      refine ⟨?_, ih nested.2 shape.2.2 shape'.2.2 canon.2 inside⟩
      exact isEmptyNode_of_find shape'.2.2 (find_grown_of_some inside found)

/-- A canonical tree stays canonical when a range is unmapped. -/
theorem canonical_pruned (range : Extent) (canonical : ∀ slot, format.Canonical (branches slot)) :
    ∀ slot, format.Canonical (format.pruned levels range branches slot) := by
  induction levels generalizing range branches with
  | nil => exact canonical
  | cons level deeper ih =>
    intro slot
    have canon := canonical slot
    simp only [pruned]
    split
    case isFalse => exact canon
    case isTrue =>
      cases branch : branches slot with
      | word descriptor =>
        rw [branch] at canon
        rw [prunedTree]
        split
        · exact fun _ => rfl
        · exact canon
      | link descriptor below =>
        rw [branch] at canon
        rw [prunedTree]
        cases empty : format.isEmptyNode
            (Node.of (format.pruned deeper (range.within level.pageSize slot.val) below)) with
        | true => exact fun _ => rfl
        | false => exact ⟨empty, ih _ canon.2⟩

/-- A block that a range touches has an offset in the range; what it finds there is told by the
branch of the block. -/
private theorem missed_within
    (missed : ∀ offset, range.Contains offset →
      format.find (level :: deeper) branches offset = none)
    (branch : branches slot = .link word below) :
    ∀ offset, (range.within level.pageSize slot.val).Contains offset →
      format.find deeper below offset = none := by
  intro offset within
  have inside := Extent.lt_of_contains_within within
  have nothing := missed _ ((Extent.contains_block inside).mp within)
  rwa [find_block inside, branch] at nothing

private theorem isPresent_of_missed
    (missed : ∀ offset, range.Contains offset →
      format.find (level :: deeper) branches offset = none)
    (touched : 0 < (range.within level.pageSize slot.val).size)
    (branch : branches slot = .word word) : format.isPresent word = false := by
  have inside := Extent.within_stop_le touched
  unfold Extent.stop at inside
  have first : (range.within level.pageSize slot.val).start < level.pageSize := by omega
  have nothing := missed _ ((Extent.contains_block first).mp
    ⟨Nat.le_refl _, Nat.lt_add_of_pos_right touched⟩)
  rw [find_block first, branch] at nothing
  by_contra present
  simp [present] at nothing

/-- Unmapping a range where nothing is mapped changes nothing in a canonical tree. -/
theorem pruned_of_missed (canonical : ∀ slot, format.Canonical (branches slot))
    (missed : ∀ offset, range.Contains offset → format.find levels branches offset = none) :
    format.pruned levels range branches = branches := by
  induction levels generalizing range branches with
  | nil => rfl
  | cons level deeper ih =>
    funext slot
    have canon := canonical slot
    simp only [pruned]
    split
    case isFalse => rfl
    case isTrue touched =>
      cases branch : branches slot with
      | word descriptor =>
        have absent := isPresent_of_missed missed touched branch
        simp [prunedTree, absent]
      | link descriptor below =>
        rw [branch] at canon
        rw [prunedTree, ih canon.2 (missed_within missed branch), canon.1]
        exact if_neg Bool.false_ne_true

/-- Unmapping the range of a request gives back the tree that has grown by its first bytes, if
nothing was mapped there: new tables are given up again, and those that were there still hold what
lies outside the range. -/
theorem pruned_grown (canonical : ∀ slot, format.Canonical (branches slot))
    (missed : ∀ offset, request.range.Contains offset → format.find levels branches offset = none)
    (grown : format.Grown levels request done short branches branches') :
    format.pruned levels request.range branches' = branches := by
  induction levels generalizing request done branches branches' with
  | nil => exact grown.elim
  | cons level deeper ih =>
    funext slot
    have canon := canonical slot
    have branch := grown slot
    have whole := congrFun (pruned_of_missed canonical missed) slot
    simp only [pruned] at whole ⊢
    by_cases touched : 0 < (request.range.within level.pageSize slot.val).size
    · rw [if_pos touched] at whole ⊢
      generalize before : branches slot = tree at canon branch whole ⊢
      generalize branches' slot = tree' at branch ⊢
      cases branch with
      | untouched none tree => exact whole
      | mapped fills complete vacant =>
        rw [canon vacant, prunedTree, if_pos isPresent_pageWord]
      | kept fills complete present same => exact whole
      | linked partly some barren vacant table inside =>
        have blanked : format.pruned deeper (request.range.within level.pageSize slot.val) _ =
            blank :=
          ih canonical_blank (fun _ _ => find_blank ..) inside
        rw [prunedTree, blanked, canon vacant]
        exact if_pos (isEmptyNode_of.mpr fun _ => isPresent_zero)
      | descended partly some inside =>
        have rest : format.pruned deeper (request.range.within level.pageSize slot.val) _ = _ :=
          ih canon.2 (missed_within missed before) inside
        rw [prunedTree, rest, canon.1]
        exact if_neg Bool.false_ne_true
    · rw [if_neg touched]
      generalize branches slot = tree at branch ⊢
      generalize branches' slot = tree' at branch ⊢
      cases branch with
      | untouched none tree => rfl
      | mapped fills complete vacant => exact absurd fills.size_pos touched
      | kept fills complete present same => rfl
      | linked partly some barren vacant table inside => exact absurd some touched
      | descended partly some inside => exact absurd some touched

end DmaRemap.Format

import DmaRemap.Table.Remove
import DmaRemap.Proofs.Lookup

namespace DmaRemap

namespace Format

variable {format : Format} {pool : Pool} {level : Level} {deeper levels : List Level}
  {table : PhysicalAddress} {branches below : Branches} {range : Extent} {slot : Slot} {word : Word}
  {offset : Nat}

/-- What remains of a branch when the part of a range in its block is unmapped. `rest` is what
remains of the table below it. -/
def prunedTree (format : Format) (rest : Branches → Branches) : Tree → Tree
  | .word descriptor => if format.isPresent descriptor then .word 0 else .word descriptor
  | .link descriptor below =>
    if format.isEmptyNode (Node.of (rest below)) then .word 0 else .link descriptor (rest below)

/-- What remains of a table when a range is unmapped. -/
def pruned (format : Format) : List Level → Extent → Branches → Branches
  | [], _, branches => branches
  | level :: deeper, range, branches => fun slot =>
    if 0 < (range.within level.pageSize slot.val).size then
      format.prunedTree (format.pruned deeper (range.within level.pageSize slot.val))
        (branches slot)
    else
      branches slot

theorem isEmptyNode_of :
    format.isEmptyNode (Node.of branches) = true ↔
      ∀ slot, format.isPresent (branches slot).descriptor = false := by
  simp only [isEmptyNode, List.all_eq_true, List.mem_finRange, true_imp_iff, Bool.not_eq_true']
  apply forall_congr'
  intro slot
  rw [← Node.get_of]
  rfl

/-- A table without valid descriptors has no links. -/
theorem Shaped.word_of_isEmptyNode (shaped : ∀ slot, format.Shaped levels (branches slot))
    (empty : format.isEmptyNode (Node.of branches) = true) (slot : Slot) :
    ∃ word, branches slot = .word word ∧ format.isPresent word = false := by
  have absent := isEmptyNode_of.mp empty slot
  have here := shaped slot
  cases branch : branches slot with
  | word word =>
    rw [branch] at absent
    exact ⟨word, rfl, absent⟩
  | link word below =>
    rw [branch] at absent here
    cases levels with
    | nil => exact here.elim
    | cons => exact absurd absent (by simp [Tree.descriptor, here.1])

theorem find_of_isEmptyNode (shaped : ∀ slot, format.Shaped levels (branches slot))
    (empty : format.isEmptyNode (Node.of branches) = true) (offset : Nat) :
    format.find levels branches offset = none := by
  cases levels with
  | nil => rfl
  | cons level deeper =>
    obtain ⟨word, branch, absent⟩ := Shaped.word_of_isEmptyNode shaped empty (level.slot offset)
    simp [find, branch, absent]

theorem tablesFrom_of_isEmptyNode (table : PhysicalAddress)
    (shaped : ∀ slot, format.Shaped levels (branches slot))
    (empty : format.isEmptyNode (Node.of branches) = true) :
    format.tablesFrom table branches = [table] := by
  have none (slot : Slot) : format.nodes (branches slot) = [] := by
    obtain ⟨word, branch, _⟩ := Shaped.word_of_isEmptyNode shaped empty slot
    rw [branch, nodes]
  simp [tablesFrom, none]

theorem shaped_pruned (range : Extent) (shaped : ∀ slot, format.Shaped levels (branches slot)) :
    ∀ slot, format.Shaped levels (format.pruned levels range branches slot) := by
  induction levels generalizing range branches with
  | nil => exact fun slot => (shaped slot).elim
  | cons level deeper ih =>
    intro slot
    have here := shaped slot
    simp only [pruned]
    split
    case isFalse => exact here
    case isTrue =>
      cases branch : branches slot with
      | word descriptor =>
        rw [branch] at here
        rw [prunedTree]
        split
        · simp [Shaped]
        · exact here
      | link descriptor below =>
        rw [branch] at here
        rw [prunedTree]
        cases empty : format.isEmptyNode
            (Node.of (format.pruned deeper (range.within level.pageSize slot.val) below)) with
        | true => simp [Shaped]
        | false => exact ⟨here.1, here.2.1, ih _ here.2.2⟩

theorem tablesFrom_pruned_subset (range : Extent) :
    format.tablesFrom table (format.pruned levels range branches) ⊆
      format.tablesFrom table branches := by
  induction levels generalizing range table branches with
  | nil => exact List.Subset.refl _
  | cons level deeper ih =>
    intro address member
    rw [mem_tablesFrom_iff] at member ⊢
    refine member.imp id (Exists.imp fun slot within => ?_)
    simp only [pruned] at within
    split at within
    case isFalse => exact within
    case isTrue =>
      cases branch : branches slot with
      | word descriptor =>
        rw [branch, prunedTree] at within
        split at within <;> simp [nodes] at within
      | link descriptor below =>
        rw [branch, prunedTree] at within
        cases empty : format.isEmptyNode
            (Node.of (format.pruned deeper (range.within level.pageSize slot.val) below)) with
        | true => simp [empty, nodes] at within
        | false =>
          rw [empty, if_neg Bool.false_ne_true, nodes_link] at within
          rw [nodes_link]
          exact ih _ within

/-- After unmapping a range an offset finds the page that it found before, unless the range meets
the page. -/
theorem find_pruned {inner : Level} (nested : Level.Nested levels)
    (shaped : ∀ slot, format.Shaped levels (branches slot)) (inside : offset < Level.span levels)
    (range : Extent) :
    format.find levels (format.pruned levels range branches) offset = some (inner, word) ↔
      format.find levels branches offset = some (inner, word) ∧
        ¬range.Meets (.around inner.pageSize offset) := by
  induction levels generalizing range branches offset with
  | nil => simp [find]
  | cons level deeper ih =>
    have positive := level.pageSize_pos
    have index : offset / level.pageSize < 512 := (Nat.div_lt_iff_lt_mul positive).mpr inside
    have below := nested.1.mod_lt offset
    have here := shaped ⟨offset / level.pageSize, index⟩
    simp only [find, pruned, Level.slot_eq index rfl]
    cases branch : branches ⟨offset / level.pageSize, index⟩ with
    | word descriptor =>
      simp only [prunedTree]
      by_cases touched : 0 < (range.within level.pageSize (offset / level.pageSize)).size
      · have met := (Extent.meets_around_iff positive).mpr touched
        rw [if_pos touched]
        by_cases present : format.isPresent descriptor = true
        · simp only [present, if_true, Option.some.injEq, Prod.mk.injEq]
          refine iff_of_false (by simp) ?_
          intro holds
          obtain ⟨⟨rfl, rfl⟩, missed⟩ := holds
          exact missed met
        · simp [present]
      · have missed := mt (Extent.meets_around_iff positive).mp touched
        rw [if_neg touched, iff_self_and]
        by_cases present : format.isPresent descriptor = true
        · simp only [present, if_true, Option.some.injEq, Prod.mk.injEq]
          intro holds
          obtain ⟨rfl, rfl⟩ := holds
          exact missed
        · simp [present]
    | link descriptor lower =>
      rw [branch] at here
      -- A page below the link meets the range where it meets the part in this block.
      have part (found : format.find deeper lower (offset % level.pageSize) = some (inner, word)) :
          (range.within level.pageSize (offset / level.pageSize)).Meets
              (.around inner.pageSize (offset % level.pageSize)) ↔
            range.Meets (.around inner.pageSize offset) :=
        Extent.meets_within positive (nested.pageSize_dvd (find_eq_some here.2.2 found).1)
      have kept := (ih nested.2 here.2.2 below
        (range.within level.pageSize (offset / level.pageSize))).trans
          (and_congr_right fun found => not_congr (part found))
      simp only [prunedTree]
      by_cases touched : 0 < (range.within level.pageSize (offset / level.pageSize)).size
      · rw [if_pos touched]
        cases empty : format.isEmptyNode (Node.of (format.pruned deeper
            (range.within level.pageSize (offset / level.pageSize)) lower)) with
        | true =>
          rw [find_of_isEmptyNode (shaped_pruned _ here.2.2) empty] at kept
          simpa using kept
        | false => exact kept
      · rw [if_neg touched, iff_self_and]
        intro found met
        exact touched ((part found).mpr met).size_pos

theorem Held.unlink {start : Journaled Pool}
    (held : format.Held start.state (level :: deeper) table branches)
    (linked : branches slot = .link word below)
    (empty : format.isEmptyNode (Node.of below) = true) :
    (do
      format.store table slot 0
      Pool.destruct (format.linkTarget word) : Action Pool TableError Unit).Returns start
        fun _ last => format.Edited start.state last.state (level :: deeper) table branches
          (Function.update branches slot (.word 0)) := by
  have child := held.child linked
  have alone := tablesFrom_of_isEmptyNode (format.linkTarget word) child.shaped empty
  have nodes : format.nodes (branches slot) = [format.linkTarget word] := by
    rw [linked, nodes_link, alone]
  have apart : format.linkTarget word ≠ table := by
    have single := (nodup_tablesFrom_iff.mp held.nodup).1 slot
    rw [nodes] at single
    simpa [eq_comm] using single
  simp only [Action.ends_bind]
  apply (store_ends slot (.word 0) held.node).mono _ fun _ _ => False.elim
  intro _ middle ended
  obtain ⟨written, node⟩ := ended
  obtain ⟨_, present⟩ := written.kept child.node (by simpa using apart)
  apply (Pool.destruct_ends present).mono _ fun _ _ => False.elim
  intro _ last released
  obtain ⟨_, node⟩ := released.kept node (by simpa using apart.symm)
  apply held.replace _ node trivial (by simp [Shaped]) (List.nodup_singleton _)
  rw [nodes]
  exact (written.widen (by simp) (by simp) (fun _ _ => id) (fun _ _ => id)).trans
    (released.keep table)

/-- The blocks in `past` are pruned, and the others are as they were. -/
def BlocksPruned (format : Format) (level : Level) (deeper : List Level) (range : Extent)
    (branches : Branches) (past : List Nat) (branches' : Branches) : Prop :=
  ∀ slot : Slot, branches' slot =
    if slot.val ∈ past then format.pruned (level :: deeper) range branches slot else branches slot

theorem BlocksPruned.pruned {branches' : Branches}
    (reached : format.BlocksPruned level deeper range branches (level.blocks range) branches') :
    branches' = format.pruned (level :: deeper) range branches := by
  funext slot
  rw [reached slot]
  split
  case isTrue => rfl
  case isFalse untouched =>
    rw [Level.mem_blocks_iff_within] at untouched
    simp [Format.pruned, untouched]

theorem BlocksPruned.next {branches' : Branches} {past later : List Nat}
    (split : level.blocks range = past ++ slot.val :: later)
    (reached : format.BlocksPruned level deeper range branches past branches') :
    format.BlocksPruned level deeper range branches (past ++ [slot.val])
      (Function.update branches' slot (format.prunedTree
        (format.pruned deeper (range.within level.pageSize slot.val)) (branches' slot))) := by
  have touched : slot.val ∈ level.blocks range := by simp [split]
  have fresh := Action.not_mem_past (level.nodup_blocks range) split
  intro other
  by_cases same : other = slot
  · rw [same, Function.update_self, reached slot, if_neg fresh, if_pos (by simp)]
    simp [Format.pruned, Level.mem_blocks_iff_within.mp touched]
  · rw [Function.update_of_ne same, reached other]
    simp [Fin.val_inj, same]

/-- Unmapping a range keeps a table, and leaves of it what is not pruned. -/
theorem removeAt_ends {start : Journaled Pool} (nested : Level.Nested levels)
    (held : format.Held start.state levels table branches)
    (inside : range.stop ≤ Level.span levels) :
    (format.removeAt levels table range).Returns start fun _ last =>
      format.Edited start.state last.state levels table branches
        (format.pruned levels range branches) := by
  induction levels generalizing start table branches range with
  | nil => exact absurd (held.shaped 0) (by simp [Shaped])
  | cons level deeper ih =>
    have narrow := nested.1.pageSize_le
    rw [Level.span] at inside
    rw [removeAt]
    apply Action.ends_forM fun past now => ∃ branches',
      format.Edited start.state now.state (level :: deeper) table branches branches' ∧
        format.BlocksPruned level deeper range branches past branches'
    case initial => exact ⟨branches, held.unedited, fun slot => by simp⟩
    case final =>
      intro last kept
      obtain ⟨branches', edited, reached⟩ := kept
      exact reached.pruned ▸ edited
    case turn =>
      intro past next later now split kept
      obtain ⟨branches', edited, reached⟩ := kept
      have touched : next ∈ level.blocks range := by simp [split]
      have some := Level.mem_blocks_iff_within.mp touched
      obtain ⟨slot, rfl⟩ := Level.exists_slot touched inside
      have place := Level.slot_eq slot.isLt (Level.div_pageSize_within touched)
      have turned := reached.next split
      have shaped := edited.held.shaped slot
      simp only [Level.piece_eq touched narrow (by omega), Action.ends_bind, Action.ends_lift_ok,
        Level.mod_pageSize_within touched, place, ends_load edited.held]
      cases branch : branches' slot with
      | word descriptor =>
        rw [branch] at shaped turned
        by_cases present : format.isPresent descriptor = true
        · simp only [Tree.descriptor, present, shaped present, if_true]
          apply (edited.held.store_word branch (by simp)).mono _ fun _ _ => False.elim
          intro _ last stored
          refine ⟨_, edited.trans stored, ?_⟩
          simpa [prunedTree, present] using turned
        · simp only [Tree.descriptor, present, Bool.false_eq_true, if_false, Action.ends_pure]
          refine ⟨branches', edited, ?_⟩
          rw [prunedTree, if_neg present, ← branch, Function.update_eq_self] at turned
          exact turned
      | link descriptor below =>
        rw [branch] at shaped turned
        obtain ⟨present, link, _⟩ := shaped
        simp only [Tree.descriptor, present, link, if_true, Bool.false_eq_true, if_false,
          address_of_not_isPage link, Action.ends_bind, Action.ends_state]
        have child := edited.held.child branch
        apply (ih nested.2 child (nested.1.within_stop_le some)).mono _ fun _ _ => False.elim
        intro _ middle inner
        have outer := edited.held.replaceBelow branch inner
        simp only [inner.held.node, Option.any_some]
        rw [prunedTree] at turned
        cases empty : format.isEmptyNode (Node.of (format.pruned deeper
            (range.within level.pageSize slot.val) below)) with
        | true =>
          rw [if_pos rfl]
          apply (outer.held.unlink (Function.update_self ..) empty).mono _ fun _ _ => False.elim
          intro _ last unlinked
          refine ⟨_, edited.trans (outer.trans unlinked), ?_⟩
          rw [Function.update_idem]
          rwa [empty, if_pos rfl] at turned
        | false =>
          rw [if_neg Bool.false_ne_true, Action.ends_pure]
          refine ⟨_, edited.trans outer, ?_⟩
          rwa [empty, if_neg Bool.false_ne_true] at turned

end Format

namespace TranslationTable

variable {table : TranslationTable} {branches : Branches} {now : Journaled Pool}

/-- A range that passes the check is unmapped. -/
theorem remove_ends
    (held : table.format.Held now.state table.format.levels table.root branches)
    (start : VirtualAddress) (size : Nat) :
    (table.remove start size).Ends now
      (fun _ last => table.format.Accepts start size ∧
        table.format.Edited now.state last.state table.format.levels table.root branches
          (table.format.pruned table.format.levels ⟨start.val, size⟩ branches))
      (fun cause last => last.state = now.state ∧ cause = .error (.invalidRange start size) ∧
        ¬table.format.Accepts start size) := by
  simp only [remove, Action.ends_bind]
  apply (Format.checkRange_ends now start size).mono _ fun _ _ => id
  intro _ checked ended
  obtain ⟨same, accepts⟩ := ended
  rw [← same] at held ⊢
  have inside : Extent.stop ⟨start.val, size⟩ ≤ Level.span table.format.levels := accepts.inside
  apply (Format.removeAt_ends table.format.nested_levels held inside).mono _ fun _ _ => False.elim
  exact fun _ _ edited => ⟨accepts, edited⟩

end TranslationTable

end DmaRemap

import DmaRemap.Proofs.Conflict
import DmaRemap.Proofs.Ownership

/-! Emptying a table. Unmapping the whole input space gives up tables on the way up, as they become
empty; clearing gives up every table without a look at its pages. Both come to the same pool, since
every descriptor that is not valid is zero. -/

namespace DmaRemap

open Forest (sampleTable silent)

namespace Format

variable {format : Format} {level : Level} {deeper levels : List Level} {request : Request}
  {branches branches' : Branches} {range : Extent} {done : Nat} {short : Prop}

/-- Whether every descriptor of a tree that is not valid is zero. -/
def Clean (format : Format) : Tree → Prop
  | .word descriptor => format.isPresent descriptor = false → descriptor = 0
  | .link _ below => ∀ slot, format.Clean (below slot)

theorem clean_blank (slot : Slot) : format.Clean (blank slot) :=
  fun _ => rfl

/-- A clean tree stays clean as it grows, even if the pool runs short of nodes. -/
theorem clean_grown (clean : ∀ slot, format.Clean (branches slot))
    (grown : format.Grown levels request done short branches branches') :
    ∀ slot, format.Clean (branches' slot) := by
  induction levels generalizing request done branches branches' with
  | nil => exact grown.elim
  | cons level deeper ih =>
    intro slot
    have before := clean slot
    have branch := grown slot
    generalize branches slot = tree at before branch
    generalize branches' slot = tree' at branch ⊢
    cases branch with
    | untouched none tree => exact before
    | mapped fills complete vacant =>
      intro absent
      rw [isPresent_pageWord] at absent
      cases absent
    | kept fills complete present same => exact before
    | linked partly touched barren vacant table inside => exact ih clean_blank inside
    | descended partly touched inside => exact ih before inside

theorem clean_pruned (range : Extent) (clean : ∀ slot, format.Clean (branches slot)) :
    ∀ slot, format.Clean (format.pruned levels range branches slot) := by
  induction levels generalizing range branches with
  | nil => exact clean
  | cons level deeper ih =>
    intro slot
    have before := clean slot
    simp only [pruned]
    split
    case isFalse => exact before
    case isTrue =>
      generalize branches slot = tree at before ⊢
      cases tree with
      | word descriptor =>
        rw [prunedTree]
        split
        · exact fun _ => rfl
        · exact before
      | link descriptor below =>
        rw [prunedTree]
        cases format.isEmptyNode
            (Node.of (format.pruned deeper (range.within level.pageSize slot.val) below)) with
        | true => exact fun _ => rfl
        | false => exact ih _ before

/-- Unmapping all that a clean table covers leaves nothing. -/
theorem pruned_whole (nested : Level.Nested levels)
    (shaped : ∀ slot, format.Shaped levels (branches slot))
    (clean : ∀ slot, format.Clean (branches slot)) (first : range.start = 0)
    (last : Level.span levels ≤ range.stop) : format.pruned levels range branches = blank := by
  induction levels generalizing range branches with
  | nil => exact (shaped 0).elim
  | cons level deeper ih =>
    funext slot
    have positive := level.pageSize_pos
    have ends := level.block_stop_le slot.isLt
    have here := shaped slot
    have before := clean slot
    rw [Level.span] at last
    have start : (range.within level.pageSize slot.val).start = 0 := by
      simp only [Extent.within]
      omega
    have stop : (range.within level.pageSize slot.val).stop = level.pageSize := by
      simp only [Extent.stop, Extent.within] at last ⊢
      omega
    have touched : 0 < (range.within level.pageSize slot.val).size := by
      simp only [Extent.stop] at stop
      omega
    simp only [pruned, if_pos touched, blank]
    generalize branches slot = tree at here before ⊢
    cases tree with
    | word descriptor =>
      by_cases present : format.isPresent descriptor = true
      · rw [prunedTree, if_pos present]
      · rw [prunedTree, if_neg present, before (by simpa using present)]
    | link descriptor below =>
      have rest : format.pruned deeper (range.within level.pageSize slot.val) below = blank :=
        ih nested.2 here.2.2 before start (by rw [stop, nested.1.pageSize])
      rw [prunedTree, rest]
      exact if_pos (isEmptyNode_of.mpr fun _ => isPresent_zero)

end Format

namespace Forest

variable {forest : Forest} {operation : Operation} {trees trees' : TranslationTable → Branches}
  {table : TranslationTable} {short : Prop}

/-- Whether the trees of all tables of a forest are clean. -/
def Clean (forest : Forest) (trees : TranslationTable → Branches) : Prop :=
  ∀ table ∈ forest.tables, ∀ slot, table.format.Clean (trees table slot)

theorem Follows.clean {after : Forest}
    (follows : forest.Follows after operation short trees trees') (clean : forest.Clean trees) :
    after.Clean trees' := by
  intro table kept
  by_cases member : table ∈ forest.tables
  · have before := clean table member
    have reshaped := follows.reshaped table kept member
    generalize trees' table = branches at reshaped ⊢
    cases reshaped with
    | kept => exact before
    | inserted grown => exact Format.clean_grown before grown
    | removed accepts => exact Format.clean_pruned _ before
    | cleared => exact Format.clean_blank
  · rw [follows.added table kept member]
    exact Format.clean_blank

theorem Run.clean {first last : Forest}
    {trace : List (Operation × Except (Failure TableError) Unit)} (run : Run first trace last)
    (planted : Planted first.pool first.tables trees []) (clean : first.Clean trees) :
    ∃ trees', Planted last.pool last.tables trees' [] ∧ last.Clean trees' := by
  induction run with
  | start => exact ⟨trees, planted, clean⟩
  | step run admitted journal ih =>
    obtain ⟨_, reached, before⟩ := ih
    obtain ⟨trees', follows⟩ := follows_finish reached admitted journal
    exact ⟨trees', follows.planted, follows.clean before⟩

theorem Reached.clean (reached : forest.Reached) :
    ∃ trees, Planted forest.pool forest.tables trees [] ∧ forest.Clean trees := by
  obtain ⟨base, nodes, pool, trace, made, run⟩ := reached
  exact run.clean (planted_nil made) nofun

/-- What is left of the pool of a forest when one of its tables is emptied: of its nodes the root,
which is all zero. -/
structure Emptied (forest : Forest) (table : TranslationTable) (after : Pool) : Prop where
  root : after.node? table.root = some Node.zero
  below : ∀ address ∈ table.links forest.pool, after.node? address = none
  others : ∀ other ∈ forest.tables, other ≠ table →
    ∀ address ∈ other.root :: other.links forest.pool,
      after.node? address = forest.pool.node? address
  elsewhere : ∀ address ∉ table.root :: table.links forest.pool,
    after.node? address = forest.pool.node? address

theorem emptied_of_edited {after : Pool} (planted : Planted forest.pool forest.tables trees [])
    (member : table ∈ forest.tables)
    (edited : table.format.Edited forest.pool after table.format.levels table.root (trees table)
      Format.blank) : forest.Emptied table after := by
  have held := planted.held table member
  have nodes := TranslationTable.root_links held
  have unique := held.nodup
  rw [TranslationTable.nodes] at nodes
  rw [← nodes, List.nodup_cons] at unique
  have node := edited.held.node
  have exchange := edited.exchange
  rw [Format.of_blank] at node
  rw [← nodes, Format.tablesFrom_blank] at exchange
  refine ⟨node, fun address below => ?_, fun other also different address within => ?_,
    fun address outside => ?_⟩
  · apply exchange.released address (List.mem_cons_of_mem _ below)
    rw [List.mem_singleton]
    rintro rfl
    exact unique.1 below
  · rw [TranslationTable.root_links (planted.held other also)] at within
    exact ((planted.uproot member).undisturbed edited.exchange
      (planted.mem_erase also fun same => different (Option.some.inj same).symm) within).2
  · apply exchange.elsewhere address outside
    rw [List.mem_singleton]
    rintro rfl
    exact outside List.mem_cons_self

/-- Removing the whole input space from a table and clearing the table lead to the same pool, to the
last word: the root of the table is all zero, its other nodes are free, and nothing else changes.
Destroying the table leads to that pool with the root freed, too. -/
theorem emptied_alike (reached : forest.Reached) (member : table ∈ forest.tables) :
    ∃ emptied, forest.Emptied table emptied ∧ ∀ journal,
      (table.remove Address.zero (1 <<< 48)).Returns ⟨forest.pool, journal⟩
        (fun _ last => last.state = emptied) ∧
      (table.clear : Action Pool TableError Unit).Returns ⟨forest.pool, journal⟩
        (fun _ last => last.state = emptied) ∧
      (table.destroy : Action Pool TableError Unit).Returns ⟨forest.pool, journal⟩
        (fun _ last => last.state = (emptied.giveBack table.root).2 ∧
          last.state.node? table.root = none ∧
          ∀ address, address ≠ table.root →
            last.state.node? address = emptied.node? address) := by
  obtain ⟨trees, planted, clean⟩ := reached.clean
  have held := planted.held table member
  have sound := planted.sound
  have clears (journal : Journal) :
      (table.clear : Action Pool TableError Unit).Returns ⟨forest.pool, journal⟩ _ :=
    TranslationTable.clear_ends held
  obtain ⟨_, _, edited⟩ := (clears silent).exists_outcome
  refine ⟨_, emptied_of_edited planted member edited, fun journal => ⟨?_, ?_, ?_⟩⟩
  · apply (TranslationTable.remove_ends held Address.zero (1 <<< 48)).mono
    · intro _ last ended
      obtain ⟨_, pruned⟩ := ended
      rw [Format.pruned_whole table.format.nested_levels held.shaped (clean table member) rfl
        (Nat.le_refl _)] at pruned
      exact edited.eq_of_same pruned sound
    · intro _ _ ended
      exact ended.2.2 ⟨Nat.dvd_zero _, by decide, Nat.le_refl _⟩
  · apply (clears journal).mono _ fun _ _ => False.elim
    exact fun _ last cleared => edited.eq_of_same cleared sound
  · apply (TranslationTable.destroy_ends held).mono _ fun _ _ => False.elim
    intro _ last exchange
    obtain ⟨_, freed⟩ := Pool.giveBack_exchanges edited.held.node
    have both := edited.exchange
    rw [Format.tablesFrom_blank] at both
    have same := (both.trans freed).eq_of_agree exchange sound nofun
    refine ⟨same, ?_, fun address different => ?_⟩
    · rw [same]
      exact freed.released _ List.mem_cons_self List.not_mem_nil
    · rw [same]
      exact freed.elsewhere address (by simpa using different) List.not_mem_nil

/-- The starved sample has a page and an empty table that was left behind; emptying its table gives
back every node but the root. -/
theorem emptied_alike_sample :
    TranslationTable.starvedSample.pool.free = 0 ∧
      ∃ emptied, TranslationTable.starvedSample.Emptied sampleTable emptied ∧
        ∀ journal, (sampleTable.remove Address.zero (1 <<< 48)).Returns
          ⟨TranslationTable.starvedSample.pool, journal⟩ fun _ last => last.state = emptied := by
  obtain ⟨emptied, left, alike⟩ := emptied_alike TranslationTable.reached_starvedSample
    (by decide +kernel : sampleTable ∈ TranslationTable.starvedSample.tables)
  exact ⟨by decide +kernel, emptied, left, fun journal => (alike journal).1⟩

end Forest

end DmaRemap

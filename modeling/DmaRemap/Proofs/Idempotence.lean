import DmaRemap.Proofs.Translations

namespace DmaRemap

open TranslationTable (sampleInput sampleTarget)

variable {format : Format} {level : Level} {deeper levels : List Level} {request part : Request}
  {branches branches' below : Branches} {tree : Tree} {range : Extent} {slot : Slot}
  {done offset : Nat} {short : Prop}

namespace Format

/-- Whether a branch has what the part of a request in its block asks for. `inside` says so of the
table below it. -/
inductive BranchFulfilled (format : Format) (level : Level) (part : Request)
    (inside : Branches → Prop) : Tree → Prop where
  | untouched (none : part.range.size = 0) (tree : Tree) :
      BranchFulfilled format level part inside tree
  | page {word : Word} (fills : part.Fills level) (present : format.isPresent word = true)
      (same : format.strip word = format.pageWord part.target part.flags level) :
      BranchFulfilled format level part inside (.word word)
  | table {word : Word} {below : Branches} (partly : ¬part.Fills level)
      (fulfilled : inside below) : BranchFulfilled format level part inside (.link word below)

/-- Whether a table has a page wherever a request asks for one. -/
def Fulfilled (format : Format) : List Level → Request → Branches → Prop
  | [], _, _ => False
  | level :: deeper, request, branches => ∀ slot : Slot,
    format.BranchFulfilled level (request.within level.pageSize slot.val)
      (Fulfilled format deeper (request.within level.pageSize slot.val)) (branches slot)

theorem Grown.fulfilled
    (grown : format.Grown levels request request.range.size short branches branches') :
    format.Fulfilled levels request branches' := by
  induction levels generalizing request branches branches' with
  | nil => exact grown.elim
  | cons level deeper ih =>
    intro slot
    have branch := grown slot
    rw [Request.progress_whole] at branch
    generalize branches slot = tree at branch
    generalize branches' slot = tree' at branch ⊢
    cases branch with
    | untouched none tree => exact .untouched none tree
    | mapped fills complete vacant => exact .page fills isPresent_pageWord (strip_pageWord ..)
    | kept fills complete present same => exact .page fills present same
    | linked partly touched barren vacant child inside => exact .table partly (ih inside)
    | descended partly touched inside => exact .table partly (ih inside)

/-- No other request takes away a page: a fulfilled request stays fulfilled as the table grows. -/
theorem Fulfilled.grown {other : Request} (fulfilled : format.Fulfilled levels request branches)
    (grown : format.Grown levels other done short branches branches') :
    format.Fulfilled levels request branches' := by
  induction levels generalizing request other done branches branches' with
  | nil => exact fulfilled.elim
  | cons level deeper ih =>
    intro slot
    have asked := fulfilled slot
    have branch := grown slot
    generalize branches slot = tree at asked branch
    generalize branches' slot = tree' at branch ⊢
    cases asked with
    | untouched none => exact .untouched none tree'
    | page fills present same =>
      cases branch with
      | untouched | kept => exact .page fills present same
      | mapped _ _ vacant | linked _ _ _ vacant => simp [vacant] at present
    | table partly inside =>
      cases branch with
      | untouched => exact .table partly inside
      | descended _ _ grown => exact .table partly (ih inside grown)

theorem Fulfilled.filled (shaped : ∀ slot, format.Shaped levels (branches slot))
    (some : 0 < request.range.size) (inside : request.range.stop ≤ Level.span levels)
    (fulfilled : format.Fulfilled levels request branches) :
    format.isEmptyNode (Node.of branches) = false := by
  cases levels with
  | nil => exact fulfilled.elim
  | cons level deeper =>
    have first : request.range.start / level.pageSize ∈ level.blocks request.range :=
      (Level.mem_blocks_iff ..).mpr ⟨_, Nat.le_refl _, Nat.lt_add_of_pos_right some, rfl⟩
    obtain ⟨slot, place⟩ := Level.exists_slot first inside
    rw [← place, Level.mem_blocks_iff_within] at first
    by_contra empty
    have absent := isEmptyNode_of.mp (by simpa using empty) slot
    have here := shaped slot
    have asked := fulfilled slot
    generalize branches slot = tree at absent here asked
    cases asked with
    | untouched none => exact first.ne' none
    | page fills present same => cases present.symm.trans absent
    | table partly below => cases here.1.symm.trans absent

private theorem apart_within (level : Level) (slot : Slot)
    (apart : ∀ offset, range.Contains offset → ¬request.range.Contains offset) :
    ∀ offset, (range.within level.pageSize slot.val).Contains offset →
      ¬(request.within level.pageSize slot.val).range.Contains offset := by
  intro offset within inside
  have below := Extent.lt_of_contains_within within
  exact apart _ ((Extent.contains_block below).mp within) ((Extent.contains_block below).mp inside)

/-- Unmapping a range takes away no page of a request for other offsets. -/
theorem Fulfilled.pruned (nested : Level.Nested levels)
    (shaped : ∀ slot, format.Shaped levels (branches slot))
    (apart : ∀ offset, range.Contains offset → ¬request.range.Contains offset)
    (fulfilled : format.Fulfilled levels request branches) :
    format.Fulfilled levels request (format.pruned levels range branches) := by
  induction levels generalizing request range branches with
  | nil => exact fulfilled.elim
  | cons level deeper ih =>
    intro slot
    have here := shaped slot
    have asked := fulfilled slot
    have beside : ∀ offset, _ → _ := apart_within level slot apart
    simp only [Format.pruned]
    split
    case isFalse => exact asked
    case isTrue touched =>
      generalize branches slot = tree at here asked ⊢
      cases asked with
      | untouched none => exact .untouched none _
      | page fills present same =>
        -- The page fills its block, so the range cannot touch the block.
        have within := Extent.within_stop_le touched
        have start := fills.2.1
        have stop := fills.2.2.1
        simp only [Nat.zero_div, Nat.zero_mul] at start stop
        unfold Extent.stop at within
        refine absurd ⟨Nat.le_trans start (Nat.zero_le _), ?_⟩
          (beside _ ⟨Nat.le_refl _, Nat.lt_add_of_pos_right touched⟩)
        omega
      | table partly inside =>
        rename_i word below
        by_cases some : 0 < (request.within level.pageSize slot.val).range.size
        · have rest := ih nested.2 here.2.2 beside inside
          have room : (request.within level.pageSize slot.val).range.stop ≤ Level.span deeper :=
            nested.1.within_stop_le some
          rw [prunedTree, rest.filled (shaped_pruned _ here.2.2) some room,
            if_neg Bool.false_ne_true]
          exact .table partly rest
        · exact .untouched (Nat.eq_zero_of_not_pos some) _

variable {table : PhysicalAddress} {start : Journaled Pool}

/-- A piece that is fulfilled is there already, or below a link that is there already. -/
theorem BranchFulfilled.insertPiece_ends
    (held : format.Held start.state (level :: deeper) table branches)
    (some : 0 < part.range.size) (inside : part.range.stop ≤ level.pageSize)
    {target : PhysicalAddress} (same : target.val = part.target)
    (fulfilled : format.BranchFulfilled level part (format.Fulfilled deeper part) (branches slot))
    {input : VirtualAddress} {descend : PhysicalAddress → Action Pool TableError Unit}
    (descends : ∀ child below, format.Held start.state deeper child below →
      format.Fulfilled deeper part below →
        (descend child).Returns start fun _ last => last = start) :
    (format.insertPiece level part.flags table input
        ⟨slot.val * level.pageSize + part.range.start, part.range.size⟩ target descend).Returns
      start fun _ last => last = start := by
  have here : level.slot (slot.val * level.pageSize + part.range.start) = slot := by
    unfold Extent.stop at inside
    exact Level.slot_mul_add (by omega) slot
  have shaped := held.shaped slot
  unfold insertPiece
  simp only [here, Action.ends_bind, ends_load held, same, pageDescriptor_eq]
  rw [Action.ends_ite, Request.fills_iff some inside]
  cases branch : branches slot with
  | word word =>
    rw [branch] at fulfilled
    cases fulfilled with
    | untouched none => exact absurd none some.ne'
    | page fills present encoded =>
      refine ⟨fun _ => ?_, fun partly => absurd fills partly⟩
      simp [Tree.descriptor, present, encoded]
  | link word below =>
    rw [branch] at fulfilled shaped
    obtain ⟨present, link, _⟩ := shaped
    cases fulfilled with
    | untouched none => exact absurd none some.ne'
    | table partly fulfilled =>
      refine ⟨fun fills => absurd fills partly, fun _ => ?_⟩
      simp only [nextTable, Tree.descriptor, present, link, Bool.not_true, Bool.false_eq_true,
        if_false, Action.ends_bind, Action.ends_pure, address_of_not_isPage link]
      exact descends _ below (held.child branch) fulfilled

/-- Carrying out a fulfilled request reads the table and leaves everything as it is. -/
theorem Fulfilled.insertAt_ends {base : VirtualAddress} {target : PhysicalAddress}
    (nested : Level.Nested levels) (held : format.Held start.state levels table branches)
    (sited : request.Sited format levels base.val) (same : target.val = request.target)
    (fulfilled : format.Fulfilled levels request branches) (depth : Nat) :
    (format.insertAt request.flags levels depth table base request.range target).Returns start
      fun _ last => last = start := by
  induction levels generalizing table branches base request target depth with
  | nil => exact fulfilled.elim
  | cons level deeper ih =>
    have divided := nested.1
    have inside := sited.stop_le
    rw [insertAt]
    apply Action.ends_forM fun _ now => now = start
    case initial => rfl
    case final => exact fun _ => id
    case turn =>
      rintro past next later _ split rfl
      have touched : next ∈ level.blocks request.range := by simp [split]
      have part := sited.within divided touched
      have some : 0 < (request.within level.pageSize next).range.size :=
        Level.mem_blocks_iff_within.mp touched
      obtain ⟨slot, rfl⟩ := Level.exists_slot touched sited.inside
      obtain ⟨address, pieceTarget, added, advanced, _, moved, floored⟩ :=
        sited.addresses divided same touched
      simp only [Level.piece_eq touched divided.pageSize_le inside, added, advanced,
        Action.ends_bind, Action.ends_lift_ok, Level.mod_pageSize_within touched]
      apply ((fulfilled slot).insertPiece_ends held some (Extent.within_stop_le some) moved
        fun child below held fulfilled => ?_).mono _ fun _ _ => False.elim
      · rintro _ last rfl
        have ends := Level.within_ends touched sited.inside
        rw [if_pos, Action.ends_pure]
        rw [Bool.or_eq_true, decide_eq_true_eq, decide_eq_true_eq, divided.entries]
        exact ends
      · apply ih nested.2 held _ moved fulfilled
        rw [floored]
        exact part

end Format

namespace TranslationTable

variable {table : TranslationTable} {start : VirtualAddress} {target : PhysicalAddress} {size : Nat}
  {flags : PageFlags}

theorem admits_of_sited
    (sited : (Request.mapping start target size flags).Sited table.format table.format.levels 0) :
    table.format.Admits start target size :=
  ⟨⟨sited.aligned.start, sited.aligned.size, sited.inside⟩, sited.aligned.target, sited.target⟩

/-- An insertion of a valid request that is fulfilled changes nothing. A request for no bytes asks
nothing of the table. -/
theorem insert_fulfilled_ends {now : Journaled Pool}
    (admitted : table.format.Admits start target size)
    (fulfilled : 0 < size → ∃ branches, table.Held now.state branches ∧
      table.format.Fulfilled table.format.levels (.mapping start target size flags) branches) :
    (table.insert start target size flags).Returns now fun _ last => last.state = now.state := by
  simp only [insert, Action.ends_bind]
  apply (Format.checkRange_ends now start size).mono
  · intro _ checked ended
    rw [← ended.1] at fulfilled ⊢
    have smallest : 1 <<< table.format.minPageBits = 4096 := rfl
    have aligned := admitted.aligned
    have output := admitted.output
    rw [if_neg (by simp only [smallest, Bool.or_eq_true, bne_iff_ne, decide_eq_true_eq]; omega)]
    by_cases some : 0 < size
    · obtain ⟨branches, held, fulfilled⟩ := fulfilled some
      apply (fulfilled.insertAt_ends table.format.nested_levels held (admitted.sited flags) rfl
        0).mono
        _ fun _ _ => False.elim
      exact fun _ _ same => congrArg _ same
    · obtain ⟨level, deeper, levels⟩ := List.exists_cons_of_ne_nil table.format.levels_ne_nil
      have none : level.blocks ⟨start.val, size⟩ = [] := by
        simp [Level.blocks, Nat.eq_zero_of_not_pos some]
      rw [levels, Format.insertAt, none]
      exact (Action.ends_pure ()).mpr rfl
  · intro cause last ended
    exact ended.2.2 admitted.input

end TranslationTable

/-- Whether an operation takes away the page of a table at an offset. All pages that an insertion
asks for lie in its range, so a removal takes away one of them exactly if it meets the range. -/
def Operation.Takes (table : TranslationTable) (offset : Nat) : Operation → Prop
  | .create .. | .insert .. => False
  | .remove other start size =>
    other = table ∧ table.format.Accepts start size ∧ Extent.Contains ⟨start.val, size⟩ offset
  | .clear other | .destroy other => other = table

namespace Forest

variable {forest after : Forest} {operation : Operation} {table : TranslationTable}
  {trees trees' : TranslationTable → Branches}

/-- An operation that takes away no page of a fulfilled request keeps it fulfilled. -/
theorem Follows.fulfilled (planted : Planted forest.pool forest.tables trees [])
    (follows : forest.Follows after operation short trees trees') (some : 0 < request.range.size)
    (spared : ∀ offset, request.range.Contains offset → ¬operation.Takes table offset)
    (fulfilled : table ∈ forest.tables ∧
      table.format.Fulfilled table.format.levels request (trees table)) :
    table ∈ after.tables ∧ table.format.Fulfilled table.format.levels request (trees' table) := by
  obtain ⟨member, before⟩ := fulfilled
  have first : request.range.Contains request.range.start :=
    ⟨Nat.le_refl _, Nat.lt_add_of_pos_right some⟩
  have kept : table ∈ after.tables := by
    apply follows.survives table member
    rintro rfl
    exact spared _ first rfl
  have shaped := (planted.held table member).shaped
  have reshaped := follows.reshaped table kept member
  refine ⟨kept, ?_⟩
  generalize trees' table = branches at reshaped ⊢
  cases reshaped with
  | kept => exact before
  | inserted grown => exact before.grown grown
  | removed accepts =>
    apply before.pruned table.format.nested_levels shaped
    exact fun offset within inside => spared offset inside ⟨rfl, accepts, within⟩
  | cleared => exact absurd rfl (spared _ first)

/-- A request that is fulfilled stays so in a run that takes away none of its pages. -/
theorem Run.fulfilled {first last : Forest}
    {trace : List (Operation × Except (Failure TableError) Unit)} (run : Run first trace last)
    (planted : Planted first.pool first.tables trees []) (some : 0 < request.range.size)
    (spared : ∀ entry ∈ trace, ∀ offset, request.range.Contains offset →
      ¬entry.1.Takes table offset)
    (fulfilled : table ∈ first.tables ∧
      table.format.Fulfilled table.format.levels request (trees table)) :
    ∃ trees', Planted last.pool last.tables trees' [] ∧ table ∈ last.tables ∧
      table.format.Fulfilled table.format.levels request (trees' table) := by
  induction run with
  | start => exact ⟨trees, planted, fulfilled⟩
  | step run admitted journal ih =>
    obtain ⟨_, reached, before⟩ := ih fun entry member =>
      spared entry (List.mem_append_left _ member)
    obtain ⟨trees', follows⟩ := follows_finish reached admitted journal
    refine ⟨trees', follows.planted, follows.fulfilled reached some ?_ before⟩
    exact spared _ (List.mem_append_right _ List.mem_cons_self)

/-- Once an insertion has returned, the same insertion returns again and leaves the pool as it is,
to the last word. Whatever was done to the tables of the pool in between, and however full it is
now, it is enough that no page of the range was taken away. -/
theorem insert_idempotent (reached : forest.Reached) (member : table ∈ forest.tables)
    {start : VirtualAddress} {target : PhysicalAddress} {size : Nat} {flags : PageFlags}
    {journal : Journal}
    (returned : (table.insert start target size flags).outcome ⟨forest.pool, journal⟩ = .ok ())
    {trace : List (Operation × Except (Failure TableError) Unit)} {last : Forest}
    (run : Run ⟨((table.insert start target size flags).finish ⟨forest.pool, journal⟩).state,
      forest.tables⟩ trace last)
    (spared : ∀ entry ∈ trace, ∀ offset, Extent.Contains ⟨start.val, size⟩ offset →
      ¬entry.1.Takes table offset)
    (journal' : Journal) :
    (table.insert start target size flags).outcome ⟨last.pool, journal'⟩ = .ok () ∧
      ((table.insert start target size flags).finish ⟨last.pool, journal'⟩).state = last.pool := by
  obtain ⟨trees, planted⟩ := reached.planted
  have held := planted.held table member
  obtain ⟨sited, branches, edited, grown, _⟩ :=
    (TranslationTable.insert_ends held (planted.fits table member) start target size flags).returned
      returned
  have kept : 0 < size → ∃ branches, table.Held last.pool branches ∧ table.format.Fulfilled
      table.format.levels (.mapping start target size flags) branches := by
    intro some
    have fulfilled := Function.update_self table branches trees ▸ grown.fulfilled
    obtain ⟨trees', planted', still, fulfilled'⟩ :=
      run.fulfilled (planted.edit member edited) some spared ⟨member, fulfilled⟩
    exact ⟨trees' table, planted'.held table still, fulfilled'⟩
  have again : (table.insert start target size flags).Returns ⟨last.pool, journal'⟩ _ :=
    TranslationTable.insert_fulfilled_ends (TranslationTable.admits_of_sited sited) kept
  obtain ⟨_, repeated, same⟩ := again.exists_outcome
  exact ⟨repeated, same⟩

/-- What an insertion of one page leaves of the sample: its tables take the last nodes. -/
def fullSample : Forest :=
  ⟨((sampleTable.insert sampleInput sampleTarget 0x1000 .empty).finish ⟨sample.pool, silent⟩).state,
    sample.tables⟩

/-- A request far from the page, for which there is no node, and the removal of the page beside. -/
def distantInsert : Operation :=
  .insert sampleTable ⟨1 <<< 30, by decide⟩ sampleTarget 0x1000 .empty

def besideRemoval : Operation := .remove sampleTable ⟨0x2000, by decide⟩ 0x1000

/-- The full sample after an insertion that ran short and a removal. -/
def busySample : Forest :=
  (besideRemoval.perform.finish ⟨(distantInsert.perform.finish ⟨fullSample, silent⟩).state,
    silent⟩).state

/-- The page that the sample table holds is mapped again though the pool is exhausted. -/
theorem insert_idempotent_sample :
    distantInsert.perform.outcome ⟨fullSample, silent⟩ = .error (.error .outOfMemory) ∧
      busySample.pool.free = 0 ∧
      (sampleTable.insert sampleInput sampleTarget 0x1000 .empty).outcome
        ⟨busySample.pool, silent⟩ = .ok () ∧
      ((sampleTable.insert sampleInput sampleTarget 0x1000 .empty).finish
        ⟨busySample.pool, silent⟩).state = busySample.pool := by
  have returned : (sampleTable.insert sampleInput sampleTarget 0x1000 .empty).outcome
      ⟨sample.pool, silent⟩ = .ok () := by
    decide +kernel
  have inserts : fullSample.Admits distantInsert := sampleTable_mem
  have removes :
      (distantInsert.perform.finish ⟨fullSample, silent⟩).state.Admits besideRemoval := by
    show sampleTable ∈ _
    decide +kernel
  have run : Run fullSample _ busySample := (Run.start.step inserts silent).step removes silent
  refine ⟨by decide +kernel, by decide +kernel,
    insert_idempotent reached_sample sampleTable_mem returned run ?_ silent⟩
  intro entry member offset inside takes
  simp only [List.nil_append, List.cons_append, List.mem_cons, List.not_mem_nil, or_false] at member
  have stop := inside.2
  rcases member with rfl | rfl
  · exact takes
  · have start := takes.2.2.1
    simp only [Extent.stop, sampleInput] at stop start
    omega

end Forest

end DmaRemap

import DmaRemap.Proofs.Reclamation

/-! What an insertion takes from the pool. The blocks that need a table of their own for a request
are told by the request, the tables that are there and the alignment of both ranges; an insertion
into a vacant range takes one node for each, or fails because there are too few. -/

namespace DmaRemap

open Forest (sample sampleTable silent)

/-- The table behind a descriptor. Where there is none, it is blank. -/
def Tree.tables : Tree → Branches
  | word _ => Format.blank
  | link _ below => below

namespace Request

open Format (Divides DividesBlock divides_block)
open TranslationTable (dividedSizes pos_of_mem_dividedSizes)

variable {request part : Request} {format : Format} {level : Level} {deeper levels : List Level}
  {branches : Branches} {tree : Tree} {slot : Slot} {block : Extent} {base size offset : Nat}

/-- The blocks for whose tables the part of a request in a block needs nodes: that block, unless it
has its table, and those that `below` names below that table. -/
def branchLacking (level : Level) (part : Request) (block : Extent)
    (below : Branches → List Extent) : Tree → List Extent
  | .word _ => if part.Descends level then block :: below Format.blank else []
  | .link _ tables => if part.Descends level then below tables else []

/-- The blocks for whose tables a request needs nodes below a table whose first entry covers `base`.
-/
def lacking : List Level → Request → (base : Nat) → Branches → List Extent
  | [], _, _, _ => []
  | level :: deeper, request, base, branches => (List.finRange 512).flatMap fun slot =>
    branchLacking level (request.within level.pageSize slot.val)
      ⟨base + slot.val * level.pageSize, level.pageSize⟩
      (lacking deeper (request.within level.pageSize slot.val) (base + slot.val * level.pageSize))
      (branches slot)

theorem length_lacking :
    (lacking levels request base branches).length = need levels request branches := by
  induction levels generalizing request base branches with
  | nil => rfl
  | cons level deeper ih =>
    rw [lacking, need, List.length_flatMap, Fin.sum_univ_def]
    refine congrArg List.sum (congrArg (List.map · _) (funext fun slot => ?_))
    cases branches slot with
    | word =>
      rw [branchLacking, branchNeed, apply_ite List.length, List.length_cons, ih, Nat.add_comm,
        List.length_nil]
    | link => rw [branchLacking, branchNeed, apply_ite List.length, ih, List.length_nil]

theorem mem_branchLacking_iff {here : Extent} {below : Branches → List Extent} :
    block ∈ branchLacking level part here below tree ↔ part.Descends level ∧
      (block = here ∧ (∃ word, tree = .word word) ∨ block ∈ below tree.tables) := by
  cases tree with
  | word =>
    rw [branchLacking, List.mem_ite_nil_right, List.mem_cons]
    simp [Tree.tables]
  | link =>
    rw [branchLacking, List.mem_ite_nil_right]
    simp [Tree.tables]

theorem within_of_mem_branchLacking (nested : Level.Nested (level :: deeper))
    (below : ∀ {tables}, block ∈ lacking deeper part (base + slot.val * level.pageSize) tables →
      block.size ∈ deeper.map Level.pageSize ∧
        (Extent.mk (base + slot.val * level.pageSize) (Level.span deeper)).Contains block.start)
    (member : block ∈ branchLacking level part ⟨base + slot.val * level.pageSize, level.pageSize⟩
      (lacking deeper part (base + slot.val * level.pageSize)) tree) :
    block.size ∈ (level :: deeper).map Level.pageSize ∧
      (Extent.mk (base + slot.val * level.pageSize) level.pageSize).Contains block.start := by
  rcases (mem_branchLacking_iff.mp member).2 with ⟨rfl, _⟩ | within
  · refine ⟨List.mem_cons_self, Nat.le_refl _, ?_⟩
    exact Nat.lt_add_of_pos_right level.pageSize_pos
  · obtain ⟨size, inside⟩ := below within
    rw [← nested.1.pageSize] at inside
    exact ⟨List.mem_cons_of_mem _ size, inside⟩

theorem within_of_mem_lacking (nested : Level.Nested levels)
    (member : block ∈ lacking levels request base branches) :
    block.size ∈ levels.map Level.pageSize ∧
      (Extent.mk base (Level.span levels)).Contains block.start := by
  induction levels generalizing request base branches with
  | nil => cases member
  | cons level deeper ih =>
    obtain ⟨slot, _, within⟩ := List.mem_flatMap.mp member
    obtain ⟨size, least, most⟩ := within_of_mem_branchLacking nested (ih nested.2) within
    have last := level.block_stop_le slot.isLt
    refine ⟨size, ?_, ?_⟩
    · exact Nat.le_of_add_right_le least
    · simp only [Extent.stop, Level.span] at most ⊢
      omega

theorem nodup_lacking (nested : Level.Nested levels) :
    (lacking levels request base branches).Nodup := by
  induction levels generalizing request base branches with
  | nil => exact List.nodup_nil
  | cons level deeper ih =>
    rw [lacking, List.nodup_flatMap]
    refine ⟨fun slot _ => ?_, ?_⟩
    · cases branches slot with
      | word =>
        rw [branchLacking]
        split
        case isTrue =>
          refine List.nodup_cons.mpr ⟨fun within => ?_, ih nested.2⟩
          obtain ⟨inner, member, same⟩ :=
            List.mem_map.mp (within_of_mem_lacking nested.2 within).1
          exact absurd same (nested.pageSize_lt member).ne
        case isFalse => exact List.nodup_nil
      | link =>
        rw [branchLacking]
        split
        case isTrue => exact ih nested.2
        case isFalse => exact List.nodup_nil
    · apply (List.nodup_finRange 512).pairwise_of_forall_ne
      intro first _ second _ different block member member'
      have here := (within_of_mem_branchLacking nested (within_of_mem_lacking nested.2) member).2
      have there := (within_of_mem_branchLacking nested (within_of_mem_lacking nested.2) member').2
      have least : base ≤ block.start := Nat.le_of_add_right_le here.1
      rw [Level.contains_block_iff level _ least] at here there
      exact different (Fin.ext (here.symm.trans there))

/-- Whether a request needs a table for the block of a size around an offset: it meets the block, no
table divides the block yet, and no page that may map the offset is as large as the block. -/
structure Lacks (request : Request) (levels : List Level) (branches : Branches)
    (size offset : Nat) : Prop where
  among : size ∈ levels.dropLast.map Level.pageSize
  meets : request.range.Meets (.around size offset)
  undivided : ¬Divides levels branches size offset
  uncovered : ∀ level ∈ levels, level.mapsPages = true → size ≤ level.pageSize →
    ¬request.Covers level.pageSize offset

/-- The blocks of deeper levels divide those of a level above, and are smaller. -/
private theorem size_of_mem_map (nested : Level.Nested (level :: deeper))
    (among : size ∈ deeper.dropLast.map Level.pageSize) :
    size ∣ level.pageSize ∧ size ≠ level.pageSize := by
  obtain ⟨inner, member, rfl⟩ := List.mem_map.mp among
  have deep := List.mem_of_mem_dropLast member
  exact ⟨nested.pageSize_dvd deep, (nested.pageSize_lt deep).ne⟩

private theorem fills_block_iff (inside : offset < level.pageSize) :
    (request.within level.pageSize slot.val).Fills level ↔ level.mapsPages = true ∧
      request.Covers level.pageSize (slot.val * level.pageSize + offset) := by
  rw [← fills_within_iff, Level.div_pageSize inside]

/-- A table for the block of a descriptor is needed exactly if the part in the block descends, and
the descriptor has none. -/
theorem lacks_pageSize_iff (nested : Level.Nested (level :: deeper)) (inner : deeper ≠ [])
    (inside : offset < level.pageSize) :
    request.Lacks (level :: deeper) branches level.pageSize (slot.val * level.pageSize + offset) ↔
      (request.within level.pageSize slot.val).Descends level ∧
        ∃ word, branches slot = .word word := by
  have meets : request.range.Meets (.around level.pageSize (slot.val * level.pageSize + offset)) ↔
      0 < (request.within level.pageSize slot.val).range.size := by
    rw [Extent.meets_around_iff level.pageSize_pos, Level.div_pageSize inside]
    rfl
  have plain : ¬Divides (level :: deeper) branches level.pageSize
      (slot.val * level.pageSize + offset) ↔ ∃ word, branches slot = .word word := by
    rw [divides_block inside]
    cases branches slot with
    | word word => simp
    | link => simp
  constructor
  · intro lacks
    refine ⟨⟨meets.mp lacks.meets, fun filled => ?_⟩, plain.mp lacks.undivided⟩
    obtain ⟨maps, covers⟩ := (fills_block_iff inside).mp filled
    exact lacks.uncovered level List.mem_cons_self maps (Nat.le_refl _) covers
  · rintro ⟨⟨touched, partly⟩, word⟩
    refine ⟨?_, meets.mpr touched, plain.mpr word, fun other member maps least covers => ?_⟩
    · rw [List.dropLast_cons_of_ne_nil inner]
      exact List.mem_cons_self
    · rcases List.mem_cons.mp member with rfl | deep
      · exact partly ((fills_block_iff inside).mpr ⟨maps, covers⟩)
      · exact absurd (nested.pageSize_lt deep) (Nat.not_lt.mpr least)

/-- Tables for smaller blocks are needed as the part in the block of a descriptor needs them. -/
theorem lacks_iff_of_ne (nested : Level.Nested (level :: deeper))
    (inside : offset < level.pageSize) (smaller : size ≠ level.pageSize) :
    request.Lacks (level :: deeper) branches size (slot.val * level.pageSize + offset) ↔
      (request.within level.pageSize slot.val).Descends level ∧
        (request.within level.pageSize slot.val).Lacks deeper (branches slot).tables size
          offset := by
  have positive := level.pageSize_pos
  have index := Level.div_pageSize inside slot.val
  have rest : (slot.val * level.pageSize + offset) % level.pageSize = offset := by
    rw [Nat.mul_add_mod', Nat.mod_eq_of_lt inside]
  have among : size ∈ (level :: deeper).dropLast.map Level.pageSize ↔
      size ∈ deeper.dropLast.map Level.pageSize := by
    cases deeper with
    | nil => rfl
    | cons next deeper =>
      rw [List.dropLast_cons_of_ne_nil (List.cons_ne_nil next deeper), List.map_cons,
        List.mem_cons, or_iff_right smaller]
  have undivided : ¬Divides (level :: deeper) branches size (slot.val * level.pageSize + offset) ↔
      ¬Divides deeper (branches slot).tables size offset := by
    rw [divides_block inside]
    cases branches slot with
    | word => exact iff_of_true id Format.not_divides_blank
    | link => exact not_congr (or_iff_right smaller)
  have meets (divides : size ∣ level.pageSize) :
      (request.within level.pageSize slot.val).range.Meets (.around size offset) ↔
        request.range.Meets (.around size (slot.val * level.pageSize + offset)) := by
    have whole : _ ↔ request.range.Meets (.around size (slot.val * level.pageSize + offset)) :=
      Extent.meets_within positive divides
    rwa [index, rest] at whole
  have covers {inner : Level} (deep : inner ∈ deeper) :
      (request.within level.pageSize slot.val).Covers inner.pageSize offset ↔
        request.Covers inner.pageSize (slot.val * level.pageSize + offset) := by
    have whole : _ ↔ request.Covers inner.pageSize (slot.val * level.pageSize + offset) :=
      covers_within positive (nested.pageSize_dvd deep) _
    rwa [index, rest] at whole
  constructor
  · intro lacks
    have deep := among.mp lacks.among
    have divides := (size_of_mem_map nested deep).1
    have met := (meets divides).mpr lacks.meets
    refine ⟨⟨met.size_pos, fun filled => ?_⟩, deep, met, undivided.mp lacks.undivided,
      fun inner member maps least covered => ?_⟩
    · obtain ⟨maps, covered⟩ := (fills_block_iff inside).mp filled
      exact lacks.uncovered level List.mem_cons_self maps (Nat.le_of_dvd positive divides) covered
    · exact lacks.uncovered inner (List.mem_cons_of_mem _ member) maps least
        ((covers member).mp covered)
  · rintro ⟨⟨_, partly⟩, lacks⟩
    have divides := (size_of_mem_map nested lacks.among).1
    refine ⟨among.mpr lacks.among, (meets divides).mp lacks.meets,
      undivided.mpr lacks.undivided, fun inner member maps least covered => ?_⟩
    rcases List.mem_cons.mp member with rfl | deep
    · exact partly ((fills_block_iff inside).mpr ⟨maps, covered⟩)
    · exact lacks.uncovered inner deep maps least ((covers deep).mpr covered)

theorem Aligned.not_descends (aligned : part.Aligned) (divided : Level.Divided level [])
    (within : 0 < part.range.size → part.range.stop ≤ level.pageSize) : ¬part.Descends level :=
  fun descends => descends.2
    (aligned.fills divided (divided.leaf.mpr rfl) descends.1 (within descends.1))

/-- The blocks that are named are those for which a table is needed. -/
theorem mem_lacking_iff (nested : Level.Nested levels) (aligned : request.Aligned) :
    block ∈ lacking levels request base branches ↔ ∃ offset < Level.span levels,
      block.start = base + offset / block.size * block.size ∧
        request.Lacks levels branches block.size offset := by
  induction levels generalizing request base branches with
  | nil =>
    refine iff_of_false List.not_mem_nil ?_
    rintro ⟨_, _, _, lacks⟩
    exact absurd lacks.among List.not_mem_nil
  | cons level deeper ih =>
    rw [lacking, List.mem_flatMap, Level.exists_offset_iff]
    simp only [List.mem_finRange, true_and]
    refine exists_congr fun slot => ?_
    have positive := level.pageSize_pos
    have part : (request.within level.pageSize slot.val).Aligned :=
      aligned.within nested.1.dvd_pageSize
    rw [mem_branchLacking_iff, ih nested.2 part, ← nested.1.pageSize]
    by_cases whole : block.size = level.pageSize
    · constructor
      · rintro ⟨descends, ⟨rfl, word⟩ | ⟨offset, inside, start, lacks⟩⟩
        · have inner : deeper ≠ [] := by
            rintro rfl
            exact part.not_descends nested.1 Extent.within_stop_le descends
          refine ⟨0, positive, ?_,
            (lacks_pageSize_iff nested inner positive).mpr ⟨descends, word⟩⟩
          rw [Level.div_pageSize positive]
        · exact absurd whole (size_of_mem_map nested lacks.among).2
      · rintro ⟨offset, inside, start, lacks⟩
        rw [whole] at start lacks
        have inner : deeper ≠ [] := by
          rintro rfl
          exact absurd lacks.among List.not_mem_nil
        obtain ⟨descends, word⟩ := (lacks_pageSize_iff nested inner inside).mp lacks
        rw [Level.div_pageSize inside] at start
        exact ⟨descends, .inl ⟨by rw [← start, ← whole], word⟩⟩
    · constructor
      · rintro ⟨descends, ⟨rfl, _⟩ | ⟨offset, inside, start, lacks⟩⟩
        · exact absurd rfl whole
        · have divides := (size_of_mem_map nested lacks.among).1
          refine ⟨offset, inside, ?_, (lacks_iff_of_ne nested inside whole).mpr ⟨descends, lacks⟩⟩
          rw [start, Level.floor_pageSize inside divides, Nat.add_assoc]
      · rintro ⟨offset, inside, start, lacks⟩
        obtain ⟨descends, lacks⟩ := (lacks_iff_of_ne nested inside whole).mp lacks
        have divides := (size_of_mem_map nested lacks.among).1
        rw [Level.floor_pageSize inside divides, ← Nat.add_assoc] at start
        exact ⟨descends, .inr ⟨offset, inside, start, lacks⟩⟩

/-- Whether a page of 1 GiB or 2 MiB suits a request: its block lies in the range, and the distance
from the range to its target is a multiple of the size. -/
structure Suits (request : Request) (page : Extent) : Prop where
  large : page.size = 1 <<< 30 ∨ page.size = 1 <<< 21
  aligned : page.size ∣ page.start
  inside : request.range.Encloses page
  target : (page.size : Int) ∣ (request.target : Int) - request.range.start

theorem suits_around_iff :
    request.Suits (.around size offset) ↔
      (size = 1 <<< 30 ∨ size = 1 <<< 21) ∧ request.Covers size offset := by
  constructor
  · intro suits
    exact ⟨suits.large, suits.inside.start, suits.inside.stop,
      dvd_target_sub_start_iff.mp suits.target⟩
  · rintro ⟨large, least, most, same⟩
    exact ⟨large, Nat.dvd_mul_left .., ⟨least, most⟩, dvd_target_sub_start_iff.mpr same⟩

/-- No page that may map an offset is as large as the block around it exactly if no large page that
suits the request encloses the block. -/
theorem uncovered_iff (among : size ∈ dividedSizes) :
    (∀ level ∈ Level.four, level.mapsPages = true → size ≤ level.pageSize →
      ¬request.Covers level.pageSize offset) ↔
      ∀ page, request.Suits page → ¬page.Encloses (.around size offset) := by
  have positive := pos_of_mem_dividedSizes size among
  constructor
  · intro uncovered page suits encloses
    have here : (Extent.around size offset).Contains offset :=
      (Extent.around_contains_iff positive).mpr rfl
    have around : .around page.size offset = page := by
      refine (Extent.around_eq_iff ?_).mpr ⟨suits.aligned, encloses.contains here⟩
      rcases suits.large with large | large <;> simp [large]
    rw [← around] at suits
    obtain ⟨large, covers⟩ := suits_around_iff.mp suits
    obtain ⟨level, member, maps, same⟩ := (Level.exists_mapsPages_iff page.size).mp
      (large.imp_right .inl)
    rw [← same] at covers
    exact uncovered level member maps (same ▸ encloses.size_le) covers
  · intro unsuited level member maps least covers
    have larger : ∀ size ∈ dividedSizes, 1 <<< 12 < size := by decide
    have divides : ∀ size ∈ dividedSizes, ∀ level ∈ Level.four, size ≤ level.pageSize →
        size ∣ level.pageSize := by
      decide
    have large := (Level.exists_mapsPages_iff level.pageSize).mpr ⟨level, member, maps, rfl⟩
    refine unsuited (.around level.pageSize offset) (suits_around_iff.mpr ⟨?_, covers⟩) ?_
    · rcases large with large | large | small
      · exact .inl large
      · exact .inr large
      · exact absurd (small ▸ least) (Nat.not_le.mpr (larger size among))
    · apply Extent.around_encloses_around level.pageSize_pos
      exact divides size among level member least

end Request

namespace TranslationTable

open Request (Lacks lacking)

variable {table : TranslationTable} {pool after : Pool} {branches : Branches} {request : Request}
  {block : Extent} {done : Nat} {short : Prop}

/-- The blocks that need a table of their own before a request can be carried out: the request meets
them, they have no table yet, and no large page that suits the request encloses them. -/
def newTables (table : TranslationTable) (pool : Pool) (request : Request) : Set Extent :=
  {block | block.size ∈ dividedSizes ∧ block.size ∣ block.start ∧ request.range.Meets block ∧
    block ∉ table.divided pool ∧ ∀ page, request.Suits page → ¬page.Encloses block}

theorem mem_newTables_iff (held : table.Held pool branches) (canonical : table.Canonical branches)
    (sited : request.Sited table.format table.format.levels 0) :
    block ∈ table.newTables pool request ↔
      block ∈ lacking table.format.levels request 0 branches := by
  rw [Request.mem_lacking_iff table.format.nested_levels sited.aligned]
  simp only [Nat.zero_add]
  constructor
  · rintro ⟨among, aligned, met, absent, unsuited⟩
    have positive := pos_of_mem_dividedSizes _ among
    have first : block.Contains block.start :=
      ⟨Nat.le_refl _, Nat.lt_add_of_pos_right positive⟩
    have around := (Extent.around_eq_iff positive).mpr ⟨aligned, first⟩
    have inside : block.start < Level.span table.format.levels := by
      obtain ⟨place, within, here⟩ := met
      exact Nat.lt_of_le_of_lt here.1 (Nat.lt_of_lt_of_le within.2 sited.inside)
    have start := (congrArg Extent.start around).symm
    refine ⟨block.start, inside, start, among, around.symm ▸ met, fun divides => ?_, ?_⟩
    · rw [mem_divided_iff_dividesBlock held] at absent
      exact absent ⟨block.start, inside, by rwa [Nat.zero_add], divides⟩
    · refine (Request.uncovered_iff among).mpr ?_
      rwa [around]
  · rintro ⟨offset, inside, start, lacks⟩
    have around : .around block.size offset = block := by
      rw [Extent.around, ← start]
    have among : block.size ∈ dividedSizes := lacks.among
    have positive := pos_of_mem_dividedSizes _ among
    refine ⟨among, start ▸ Nat.dvd_mul_left .., around ▸ lacks.meets, fun divided => ?_, ?_⟩
    · obtain ⟨other, inside', start', divides⟩ := (mem_divided_iff_dividesBlock held).mp divided
      rw [Nat.zero_add, start] at start'
      have same := Nat.eq_of_mul_eq_mul_right positive start'
      exact lacks.undivided ((Format.divides_congr table.format.nested_levels held.shaped canonical
        inside inside' (divides.size_mem held.shaped) same).mpr divides)
    · have unsuited := (Request.uncovered_iff among).mp lacks.uncovered
      rwa [around] at unsuited

/-- The tables that a request needs are as many as its nodes. -/
theorem ncard_newTables (held : table.Held pool branches) (canonical : table.Canonical branches)
    (sited : request.Sited table.format table.format.levels 0) :
    (table.newTables pool request).Finite ∧
      (table.newTables pool request).ncard = request.need table.format.levels branches := by
  have same : table.newTables pool request =
      (lacking table.format.levels request 0 branches).toFinset := by
    ext block
    rw [mem_newTables_iff held canonical sited, List.coe_toFinset, Set.mem_ofPred_eq]
  have nodup : (lacking table.format.levels request 0 branches).Nodup :=
    Request.nodup_lacking table.format.nested_levels
  rw [same, Set.ncard_coe_finset, List.toFinset_card_of_nodup nodup, Request.length_lacking]
  exact ⟨Finset.finite_toSet _, rfl⟩

/-- The nodes that the pool gives while a request is carried out are those that the request needs,
but for a rest that is still needed. -/
theorem used_of_carried (held : table.Held pool branches) (sound : pool.Sound)
    (carried : table.format.Carried table.format.levels table.root request branches done short pool
      after) :
    after.used + after.free = pool.used + pool.free ∧
      ∃ rest, after.used + rest = pool.used + request.need table.format.levels branches ∧
        (done = request.range.size → rest = 0) ∧ (short → 0 < rest) := by
  obtain ⟨branches', edited, grown, lacks⟩ := carried
  refine ⟨edited.exchange.used_add_free sound, request.need table.format.levels branches', ?_, ?_,
    lacks⟩
  · have taken := edited.used_add_length held sound
    have needed : (table.format.tablesFrom table.root branches').length + _ = _ :=
      grown.length_add_need
    omega
  · rintro rfl
    exact grown.need_eq_zero

/-- A valid request for a vacant range is carried out exactly if the pool has a free node for each
table that it needs, and it then takes these nodes and no more. Otherwise the pool runs out. -/
theorem insert_takes {forest : Forest} (reached : forest.ReachedSufficed)
    (member : table ∈ forest.tables) {start : VirtualAddress} {target : PhysicalAddress}
    {size : Nat} (valid : table.format.Admits start target size)
    (vacant : ∀ input : VirtualAddress, Extent.Contains ⟨start.val, size⟩ input.val →
      table.lookup forest.pool input = .ok none) (flags : PageFlags) (journal : Journal) :
    (table.newTables forest.pool (.mapping start target size flags)).Finite ∧
    ((table.insert start target size flags).outcome ⟨forest.pool, journal⟩ = .ok () ↔
      (table.newTables forest.pool (.mapping start target size flags)).ncard ≤
        forest.pool.free) ∧
    ((table.newTables forest.pool (.mapping start target size flags)).ncard ≤ forest.pool.free →
      ((table.insert start target size flags).finish ⟨forest.pool, journal⟩).state.used =
        forest.pool.used +
          (table.newTables forest.pool (.mapping start target size flags)).ncard) ∧
    (forest.pool.free < (table.newTables forest.pool (.mapping start target size flags)).ncard →
      (table.insert start target size flags).outcome ⟨forest.pool, journal⟩ =
        .error (.error .outOfMemory)) := by
  obtain ⟨trees, planted, canonical⟩ := reached.canonical
  have held := planted.held table member
  have canon := canonical table member
  obtain ⟨finite, count⟩ := ncard_newTables held canon (valid.sited flags)
  rw [count]
  refine ⟨finite, ?_⟩
  have inserts : (table.insert start target size flags).Ends ⟨forest.pool, journal⟩ _ _ :=
    insert_ends held (planted.fits table member) start target size flags
  rcases inserts.outcome_finish with ⟨_, returned, _, carried⟩ |
    ⟨_, failed, ⟨⟨_, refused⟩, _⟩ | ⟨sited, done, most, _, carried, stopped⟩⟩
  · obtain ⟨room, rest, taken, whole, _⟩ := used_of_carried held planted.sound carried
    rw [whole rfl, Nat.add_zero] at taken
    have enough : (Request.mapping start target size flags).need table.format.levels (trees table) ≤
        forest.pool.free := by
      omega
    exact ⟨iff_of_true returned enough, fun _ => taken, fun less =>
      absurd enough (Nat.not_le.mpr less)⟩
  · exact absurd valid refused
  · cases stopped with
    | conflict here inTheWay =>
      obtain ⟨input, least, below, answer, translated⟩ :=
        exists_lookup_of_blocked held canon sited most inTheWay
      have nothing := vacant input ⟨Nat.le_of_add_right_le least, below⟩
      cases nothing.symm.trans translated
    | exhausted full =>
      obtain ⟨room, rest, taken, _, lacks⟩ := used_of_carried held planted.sound carried
      obtain ⟨_, edited, _⟩ := carried
      have nothing := (edited.exchange.sound planted.sound).free_eq_zero full
      have more := lacks rfl
      have less : forest.pool.free <
          (Request.mapping start target size flags).need table.format.levels (trees table) := by
        omega
      refine ⟨iff_of_false (fun returned => ?_) (Nat.not_le.mpr less), fun enough =>
        absurd enough (Nat.not_le.mpr less), fun _ => failed⟩
      cases failed.symm.trans returned

/-- A page takes the three free nodes of the sample. Two pages on both sides of a block of 512 GiB
need more. -/
theorem insert_takes_sample :
    (sampleTable.insert sampleInput sampleTarget 0x1000 .empty).outcome ⟨sample.pool, silent⟩ =
        .ok () ∧
      (sampleTable.newTables sample.pool (.mapping sampleInput sampleTarget 0x1000 .empty)).ncard =
        3 ∧
      (sampleTable.insert sampleEdge sampleTarget 0x2000 .empty).outcome ⟨sample.pool, silent⟩ =
        .error (.error .outOfMemory) ∧
      3 < (sampleTable.newTables sample.pool
        (.mapping sampleEdge sampleTarget 0x2000 .empty)).ncard := by
  have carried : (sampleTable.insert sampleInput sampleTarget 0x1000 .empty).outcome
      ⟨sample.pool, silent⟩ = .ok () := by
    decide +kernel
  have failed : (sampleTable.insert sampleEdge sampleTarget 0x2000 .empty).outcome
      ⟨sample.pool, silent⟩ = .error (.error .outOfMemory) := by
    decide +kernel
  have page : sampleTable.format.Admits sampleInput sampleTarget 0x1000 :=
    ⟨⟨by decide, by decide, by decide⟩, by decide, by decide⟩
  have pages : sampleTable.format.Admits sampleEdge sampleTarget 0x2000 :=
    ⟨⟨by decide, by decide, by decide⟩, by decide, by decide⟩
  obtain ⟨_, enough, takes, _⟩ := insert_takes Forest.reachedSufficed_sample
    Forest.sampleTable_mem page (fun input _ => lookup_blank held_sample input) .empty silent
  obtain ⟨_, less, _⟩ := insert_takes Forest.reachedSufficed_sample
    Forest.sampleTable_mem pages (fun input _ => lookup_blank held_sample input) .empty silent
  have before : sample.pool.used = 1 ∧ sample.pool.free = 3 := by decide +kernel
  have after : ((sampleTable.insert sampleInput sampleTarget 0x1000 .empty).finish
      ⟨sample.pool, silent⟩).state.used = 4 := by
    decide +kernel
  refine ⟨carried, ?_, failed, ?_⟩
  · have taken := takes (enough.mp carried)
    rw [after, before.1] at taken
    omega
  · rw [failed, before.2] at less
    exact Nat.not_le.mp fun fits => nomatch less.mpr fits

end TranslationTable

end DmaRemap

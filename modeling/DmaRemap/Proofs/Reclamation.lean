import DmaRemap.Proofs.Conflict
import DmaRemap.Proofs.Ownership

namespace DmaRemap

open Forest (sampleTable mappedSample)

/-- The block that the table behind a link divides. -/
def WalkEntry.divided? (levels : List Level) (entry : WalkEntry) : Option Extent :=
  match entry.target with
  | .table _ => levels[entry.depth]?.map fun level => ⟨entry.start.val, level.pageSize⟩
  | .page .. => none

def Visit.divided? (levels : List Level) (visit : Visit) : Option Extent :=
  visit.entry?.bind (WalkEntry.divided? levels)

namespace Format

variable {format : Format} {pool : Pool} {level : Level} {deeper levels : List Level}
  {table : PhysicalAddress} {branches below : Branches} {slot : Slot} {size offset : Nat}

theorem Canonical.descriptor_eq_zero {tree : Tree} (canonical : format.Canonical tree)
    (shaped : format.Shaped levels tree) (absent : format.isPresent tree.descriptor = false) :
    tree.descriptor = 0 := by
  cases tree with
  | word descriptor => exact canonical absent
  | link descriptor below =>
    cases levels with
    | nil => exact shaped.elim
    | cons => cases absent.symm.trans shaped.1

theorem Stored.exists_node {tree : Tree} {address : PhysicalAddress}
    (stored : format.Stored pool tree) (canonical : format.Canonical tree)
    (shaped : format.Shaped levels tree) (member : address ∈ format.nodes tree) :
    ∃ inner below, pool.node? address = some (Node.of below) ∧
      format.isEmptyNode (Node.of below) = false ∧ ∀ slot,
        format.Canonical (below slot) ∧ format.Shaped inner (below slot) := by
  induction tree generalizing levels with
  | word => cases member
  | link descriptor below ih =>
    cases levels with
    | nil => exact shaped.elim
    | cons level deeper =>
      rw [nodes_link] at member
      rcases mem_tablesFrom_iff.mp member with rfl | ⟨slot, within⟩
      · exact ⟨deeper, below, stored.1, canonical.1, fun slot =>
          ⟨canonical.2 slot, shaped.2.2 slot⟩⟩
      · exact ih slot (stored.2 slot) (canonical.2 slot) (shaped.2.2 slot) within

/-- Whether a table below a tree divides the block of a size around an offset. -/
def Divides : List Level → Branches → (size offset : Nat) → Prop
  | [], _, _, _ => False
  | level :: deeper, branches, size, offset =>
    match branches (level.slot offset) with
    | .word _ => False
    | .link _ below => size = level.pageSize ∨ Divides deeper below size (offset % level.pageSize)

theorem divides_block (inside : offset < level.pageSize) (slot : Slot) :
    Divides (level :: deeper) branches size (slot.val * level.pageSize + offset) ↔
      match branches slot with
      | .word _ => False
      | .link _ below => size = level.pageSize ∨ Divides deeper below size offset := by
  have here := Level.slot_mul_add inside slot
  rw [Divides, here, Nat.mul_add_mod', Nat.mod_eq_of_lt inside]

theorem not_divides_blank : ¬Divides levels blank size offset := by
  cases levels with
  | nil => exact id
  | cons => exact id

theorem Divides.size_mem (shaped : ∀ slot, format.Shaped levels (branches slot))
    (divides : Divides levels branches size offset) :
    size ∈ levels.dropLast.map Level.pageSize := by
  induction levels generalizing branches offset with
  | nil => exact divides.elim
  | cons level deeper ih =>
    have shape := shaped (level.slot offset)
    rw [Divides] at divides
    cases branch : branches (level.slot offset) with
    | word => simp [branch] at divides
    | link descriptor below =>
      rw [branch] at divides shape
      have inner : deeper ≠ [] := fun last => (last ▸ shape.2.2 0 : Shaped _ [] _)
      rw [List.dropLast_cons_of_ne_nil inner, List.map_cons, List.mem_cons]
      exact divides.imp_right (ih shape.2.2)

theorem Divides.size_dvd (nested : Level.Nested (level :: deeper))
    (shaped : ∀ slot, format.Shaped deeper (branches slot))
    (divides : Divides deeper branches size offset) : size ∣ level.pageSize := by
  obtain ⟨inner, member, rfl⟩ := List.mem_map.mp (divides.size_mem shaped)
  exact nested.pageSize_dvd (List.mem_of_mem_dropLast member)

/-- Whether a table below a tree whose first entry covers `base` divides a block. -/
def DividesBlock (base : Nat) (levels : List Level) (branches : Branches) (block : Extent) : Prop :=
  ∃ offset < Level.span levels, block.start = base + offset / block.size * block.size ∧
    Divides levels branches block.size offset

theorem dividesBlock_iff_exists_slot {base : Nat} {block : Extent} :
    DividesBlock base (level :: deeper) branches block ↔ ∃ slot : Slot, ∃ offset < level.pageSize,
      block.start = base + (slot.val * level.pageSize + offset) / block.size * block.size ∧
        Divides (level :: deeper) branches block.size (slot.val * level.pageSize + offset) :=
  Level.exists_offset_iff

/-- Below a link that is the block of the link, or one that is divided by the table behind it. -/
theorem exists_offset_iff_of_link (nested : Level.Nested (level :: deeper)) {base : Nat}
    {word : Word} (shaped : ∀ slot, format.Shaped deeper (below slot))
    (branch : branches slot = .link word below) {block : Extent} :
    (∃ offset < level.pageSize,
      block.start = base + (slot.val * level.pageSize + offset) / block.size * block.size ∧
        Divides (level :: deeper) branches block.size (slot.val * level.pageSize + offset)) ↔
      block = ⟨base + slot.val * level.pageSize, level.pageSize⟩ ∨
        DividesBlock (base + slot.val * level.pageSize) deeper below block := by
  have positive := level.pageSize_pos
  constructor
  · rintro ⟨offset, inside, start, divides⟩
    simp only [divides_block inside, branch] at divides
    rcases divides with whole | divides
    · rw [whole, Level.div_pageSize inside] at start
      exact .inl (by rw [← start, ← whole])
    · rw [Level.floor_pageSize inside (divides.size_dvd nested shaped), ← Nat.add_assoc] at start
      exact .inr ⟨offset, nested.1.pageSize ▸ inside, start, divides⟩
  · rintro (rfl | ⟨offset, inside, start, divides⟩)
    · refine ⟨0, positive, ?_, (divides_block positive slot).mpr ?_⟩
      · rw [Level.div_pageSize positive]
      · rw [branch]
        exact .inl rfl
    · rw [← nested.1.pageSize] at inside
      refine ⟨offset, inside, ?_, (divides_block inside slot).mpr ?_⟩
      · rw [Level.floor_pageSize inside (divides.size_dvd nested shaped), ← Nat.add_assoc]
        exact start
      · rw [branch]
        exact .inr divides

/-- The walk of a table shows the blocks that are divided. -/
theorem Held.walkAt_divided {base : VirtualAddress}
    (held : format.Held pool levels table branches) (nested : Level.Nested levels)
    (limit : base.val + Level.span levels ≤ 1 <<< 48) (depth : Nat)
    (here : format.levels.drop depth = levels) :
    ∃ visits, format.walkAt pool levels depth table base = .ok visits ∧
      ∀ block : Extent, block ∈ visits.filterMap (Visit.divided? format.levels) ↔
        DividesBlock base.val levels branches block := by
  induction levels generalizing table branches base depth with
  | nil => exact (held.shaped 0).elim
  | cons level deeper ih =>
    have found : format.levels[depth]? = some level := by
      rw [← List.head?_drop, here]
      rfl
    have next : format.levels.drop (depth + 1) = deeper := by
      rw [← List.tail_drop, here]
      rfl
    rw [Level.span] at limit
    simp only [walkAt_eq, held.node, dividesBlock_iff_exists_slot]
    apply exists_flatMapM fun slot visits =>
      ∀ block : Extent, block ∈ visits.filterMap (Visit.divided? format.levels) ↔
        ∃ offset < level.pageSize, block.start = base.val +
            (slot.val * level.pageSize + offset) / block.size * block.size ∧
          Divides (level :: deeper) branches block.size (slot.val * level.pageSize + offset)
    case gather =>
      intro walked holds block
      simp only [List.filterMap_flatMap, List.mem_flatMap, List.mem_finRange, true_and, holds]
    case each =>
      intro slot
      have shaped := held.shaped slot
      have address := Level.block_start_lt limit slot
      rw [Node.get_of]
      cases branch : branches slot with
      | word descriptor =>
        rw [branch] at shaped
        have undivided {block : Extent} : ¬∃ offset < level.pageSize, block.start = base.val +
            (slot.val * level.pageSize + offset) / block.size * block.size ∧
              Divides (level :: deeper) branches block.size
                (slot.val * level.pageSize + offset) := by
          rintro ⟨offset, inside, _, divides⟩
          simp [divides_block inside, branch] at divides
        by_cases present : format.isPresent descriptor = true
        · refine ⟨_, walkFrom_page depth address present (shaped present),
            fun block => iff_of_false ?_ undivided⟩
          simp [Visit.divided?, Visit.entry?, WalkEntry.divided?]
        · exact ⟨[], walkFrom_absent present depth base,
            fun block => iff_of_false (by simp) undivided⟩
      | link descriptor below =>
        rw [branch] at shaped
        obtain ⟨present, link, shape⟩ := shaped
        have child := held.child branch
        rw [← address_of_not_isPage link] at child
        have room : (⟨_, address⟩ : VirtualAddress).val + Level.span deeper ≤ 1 <<< 48 :=
          nested.1.room limit slot
        obtain ⟨visits, walked, blocks⟩ := ih child nested.2 room _ next
        refine ⟨_, walkFrom_link depth address present link walked, fun block => ?_⟩
        have first : Visit.divided? format.levels (.entry ⟨depth, table, slot, ⟨_, address⟩,
            descriptor, .table (format.address level descriptor)⟩) =
              some ⟨base.val + slot.val * level.pageSize, level.pageSize⟩ := by
          simp [Visit.divided?, Visit.entry?, WalkEntry.divided?, found]
        rw [Tree.descriptor, List.filterMap_cons_some first, List.mem_cons, blocks,
          exists_offset_iff_of_link nested shape branch]

/-- Whether the block of a size around an offset has a page that is smaller than the block. -/
def HoldsSmaller (format : Format) (levels : List Level) (branches : Branches)
    (size offset : Nat) : Prop :=
  ∃ other < Level.span levels, other / size = offset / size ∧ ∃ level word,
    format.find levels branches other = some (level, word) ∧ level.pageSize < size

theorem holdsSmaller_block (divides : size ∣ level.pageSize) (inside : offset < level.pageSize)
    (slot : Slot) :
    format.HoldsSmaller (level :: deeper) branches size (slot.val * level.pageSize + offset) ↔
      ∃ other < level.pageSize, other / size = offset / size ∧ ∃ found word,
        format.find (level :: deeper) branches (slot.val * level.pageSize + other) =
          some (found, word) ∧ found.pageSize < size := by
  have positive := level.pageSize_pos
  have last := level.block_stop_le slot.isLt
  constructor
  · rintro ⟨other, _, same, found⟩
    rw [Extent.div_eq_div_iff divides, Level.div_pageSize inside, Nat.mul_add_mod',
      Nat.mod_eq_of_lt inside] at same
    obtain ⟨place, same⟩ := same
    have rest := Nat.mod_lt other positive
    rw [← Nat.div_add_mod' other level.pageSize, place] at found
    exact ⟨_, rest, same, found⟩
  · rintro ⟨other, below, same, found⟩
    refine ⟨slot.val * level.pageSize + other, ?_, ?_, found⟩
    · rw [Level.span]
      omega
    · rw [Extent.div_eq_div_iff divides, Level.div_pageSize inside, Level.div_pageSize below,
        Nat.mul_add_mod', Nat.mul_add_mod', Nat.mod_eq_of_lt inside, Nat.mod_eq_of_lt below]
      exact ⟨rfl, same⟩

/-- In a canonical tree the block around an offset is divided exactly if it has a smaller page. -/
theorem divides_iff (nested : Level.Nested levels)
    (shaped : ∀ slot, format.Shaped levels (branches slot))
    (canonical : ∀ slot, format.Canonical (branches slot)) (inside : offset < Level.span levels)
    (among : size ∈ levels.map Level.pageSize) :
    Divides levels branches size offset ↔ format.HoldsSmaller levels branches size offset := by
  induction levels generalizing branches offset with
  | nil => exact (shaped 0).elim
  | cons level deeper ih =>
    have positive := level.pageSize_pos
    obtain ⟨slot, rest, below, rfl⟩ : ∃ slot : Slot, ∃ rest < level.pageSize,
        offset = slot.val * level.pageSize + rest :=
      ⟨⟨offset / level.pageSize, (Nat.div_lt_iff_lt_mul positive).mpr inside⟩, _,
        Nat.mod_lt offset positive, (Nat.div_add_mod' ..).symm⟩
    have divides : size ∣ level.pageSize := by
      rcases List.mem_cons.mp among with rfl | deep
      · exact Nat.dvd_refl _
      · obtain ⟨inner, member, rfl⟩ := List.mem_map.mp deep
        exact nested.pageSize_dvd member
    have shape := shaped slot
    have canon := canonical slot
    rw [divides_block below, holdsSmaller_block divides below]
    cases branch : branches slot with
    | word descriptor =>
      refine iff_of_false id ?_
      rintro ⟨other, inner, _, found, word, page, smaller⟩
      rw [find_block inner, branch] at page
      obtain ⟨_, same⟩ := Option.ite_none_right_eq_some.mp page
      cases same
      exact absurd (Nat.le_of_dvd positive divides) (Nat.not_le.mpr smaller)
    | link descriptor tables =>
      rw [branch] at shape canon
      have span := nested.1.pageSize
      by_cases whole : size = level.pageSize
      · refine iff_of_true (.inl whole) ?_
        obtain ⟨other, inner, ⟨found, word⟩, page⟩ :=
          exists_find nested.2 shape.2.2 canon.2 canon.1
        rw [← span] at inner
        refine ⟨other, inner, ?_, found, word, ?_, ?_⟩
        · rw [whole, Nat.div_eq_of_lt inner, Nat.div_eq_of_lt below]
        · rw [find_block inner, branch]
          exact page
        · rw [whole]
          exact nested.pageSize_lt (find_eq_some shape.2.2 page).1
      · have deep := (List.mem_cons.mp among).resolve_left whole
        have holds := ih nested.2 shape.2.2 canon.2 (span ▸ below) deep
        refine (or_iff_right whole).trans (holds.trans ?_)
        rw [HoldsSmaller, ← span]
        refine exists_congr fun other => and_congr_right fun inner => ?_
        rw [find_block inner, branch]

/-- In a canonical tree a block is divided around all of its offsets or around none. -/
theorem divides_congr (nested : Level.Nested levels)
    (shaped : ∀ slot, format.Shaped levels (branches slot))
    (canonical : ∀ slot, format.Canonical (branches slot)) {other : Nat}
    (inside : offset < Level.span levels) (inside' : other < Level.span levels)
    (among : size ∈ levels.dropLast.map Level.pageSize) (same : offset / size = other / size) :
    Divides levels branches size offset ↔ Divides levels branches size other := by
  have sizes := ((List.dropLast_sublist levels).map Level.pageSize).subset among
  rw [divides_iff nested shaped canonical inside sizes,
    divides_iff nested shaped canonical inside' sizes, HoldsSmaller, same, HoldsSmaller]

end Format

namespace TranslationTable

variable {table : TranslationTable} {pool : Pool} {branches : Branches}

/-- The blocks that the tables below the root divide, in the order of a walk. -/
def divided (table : TranslationTable) (pool : Pool) : List Extent :=
  match table.visits pool with
  | .ok visits => visits.filterMap (Visit.divided? table.format.levels)
  | .error _ => []

/-- The sizes of the blocks that a table below the root can divide: 512 GiB, 1 GiB and 2 MiB. These
are the pages of all levels but the last. -/
def dividedSizes : List Nat := [1 <<< 39, 1 <<< 30, 1 <<< 21]

theorem pos_of_mem_dividedSizes : ∀ size ∈ dividedSizes, 0 < size := by
  decide

theorem mem_divided_iff_dividesBlock (held : table.Held pool branches) {block : Extent} :
    block ∈ table.divided pool ↔
      Format.DividesBlock 0 table.format.levels branches block := by
  have limit : (Address.zero : VirtualAddress).val + Level.span table.format.levels ≤ 1 <<< 48 := by
    rw [Format.span_levels]
    exact Nat.le_of_eq (Nat.zero_add _)
  obtain ⟨found, walked, blocks⟩ := held.walkAt_divided table.format.nested_levels limit 0 rfl
  rw [divided, visits, walked]
  exact blocks block

/-- An address translates by pages of some size exactly if a page of that size is found there. -/
theorem exists_lookup_iff_exists_find (held : table.Held pool branches) (input : VirtualAddress)
    (sized : Nat → Prop) :
    (∃ answer, table.lookup pool input = .ok (some answer) ∧ sized answer.pageSize) ↔
      input.val < 1 <<< table.format.inputBits ∧ ∃ level word,
        table.format.find table.format.levels branches input.val = some (level, word) ∧
          sized level.pageSize := by
  constructor
  · rintro ⟨answer, translated, size⟩
    obtain ⟨inside, ⟨level, word⟩, found, read⟩ := (lookup_eq_some_iff held).mp translated
    obtain ⟨_, read', same⟩ := exists_reading held found
    cases read.symm.trans read'
    exact ⟨inside, level, word, found, same ▸ size⟩
  · rintro ⟨inside, level, word, found, size⟩
    obtain ⟨answer, read, same⟩ := exists_reading held found
    exact ⟨answer, (lookup_eq_some_iff held).mpr ⟨inside, _, found, read⟩, same ▸ size⟩

/-- In a canonical table the blocks that have a table are those that have a smaller page. -/
theorem mem_divided_iff (held : table.Held pool branches) (canonical : table.Canonical branches)
    {block : Extent} :
    block ∈ table.divided pool ↔ block.size ∈ dividedSizes ∧ block.size ∣ block.start ∧
      ∃ input : VirtualAddress, block.Contains input.val ∧
        ∃ answer, table.lookup pool input = .ok (some answer) ∧ answer.pageSize < block.size := by
  have divides_iff (offset : Nat) (inside : offset < Level.span table.format.levels)
      (among : block.size ∈ dividedSizes) :=
    Format.divides_iff table.format.nested_levels held.shaped canonical inside
      (((List.dropLast_sublist _).map Level.pageSize).subset among)
  simp only [mem_divided_iff_dividesBlock held,
    exists_lookup_iff_exists_find held _ (· < block.size)]
  constructor
  · rintro ⟨offset, inside, start, divides⟩
    have among : block.size ∈ dividedSizes := divides.size_mem held.shaped
    obtain ⟨other, below, same, found⟩ := (divides_iff offset inside among).mp divides
    rw [Nat.zero_add] at start
    rw [Format.span_levels] at below
    have room : other < 1 <<< 64 := Nat.lt_trans below (show 1 <<< 48 < 1 <<< 64 by decide)
    have positive := pos_of_mem_dividedSizes _ among
    have around : .around block.size other = block := by
      rw [Extent.around, same, ← start]
    obtain ⟨aligned, contains⟩ := (Extent.around_eq_iff positive).mp around
    exact ⟨among, aligned, ⟨other, room⟩, contains, below, found⟩
  · rintro ⟨among, aligned, input, contains, below, found⟩
    have positive := pos_of_mem_dividedSizes _ among
    have around := (Extent.around_eq_iff positive).mpr ⟨aligned, contains⟩
    rw [← Format.span_levels] at below
    refine ⟨input.val, below, ?_, (divides_iff _ below among).mpr ⟨input.val, below, rfl, found⟩⟩
    rw [Nat.zero_add]
    exact congrArg Extent.start around.symm

/-- Nothing is in a canonical table exactly if it is empty. -/
theorem isEmpty_iff (held : table.Held pool branches) (canonical : table.Canonical branches) :
    table.isEmpty pool = true ↔ ∀ input, table.lookup pool input = .ok none := by
  rw [isEmpty, held.node, Option.all_some]
  constructor
  · intro empty input
    rw [lookup_eq held, Format.find_of_isEmptyNode held.shaped empty]
    exact ite_self _
  · intro nothing
    by_contra filled
    obtain ⟨offset, inside, page, found⟩ := Format.exists_find table.format.nested_levels
      held.shaped canonical (by simpa using filled)
    obtain ⟨input, _, answer, translated⟩ := exists_lookup_of_find held inside found
    cases (nothing input).symm.trans translated

theorem exists_slot_of_mem_links (held : table.Held pool branches) {address : PhysicalAddress}
    (member : address ∈ table.links pool) :
    ∃ slot, address ∈ table.format.nodes (branches slot) := by
  obtain ⟨_, links⟩ := List.cons.inj (root_links held)
  rw [links] at member
  obtain ⟨slot, _, within⟩ := List.mem_flatMap.mp member
  exact ⟨slot, within⟩

/-- While the pool of a forest suffices, every table below a root holds a valid descriptor, and
every descriptor that is not valid is zero. So the blocks that have a table are those that have a
smaller page, and a table is empty exactly if nothing translates. -/
theorem reclaimed {forest : Forest} (reached : forest.ReachedSufficed)
    (member : table ∈ forest.tables) :
    (∀ address ∈ table.links forest.pool, ∃ node, forest.pool.node? address = some node ∧
      ∃ slot, table.format.isPresent (node.get slot) = true) ∧
    (∀ address ∈ table.root :: table.links forest.pool,
      ∃ node, forest.pool.node? address = some node ∧
        ∀ slot, table.format.isPresent (node.get slot) = false → node.get slot = 0) ∧
    (∀ block : Extent, block ∈ table.divided forest.pool ↔
      block.size ∈ dividedSizes ∧ block.size ∣ block.start ∧
        ∃ input : VirtualAddress, block.Contains input.val ∧ ∃ answer,
          table.lookup forest.pool input = .ok (some answer) ∧ answer.pageSize < block.size) ∧
    (table.isEmpty forest.pool = true ↔
      ∀ input, table.lookup forest.pool input = .ok none) := by
  obtain ⟨trees, planted, canonical⟩ := reached.canonical
  have held := planted.held table member
  have canon := canonical table member
  refine ⟨fun address linked => ?_, fun address among => ?_,
    fun block => mem_divided_iff held canon, isEmpty_iff held canon⟩
  · obtain ⟨slot, within⟩ := exists_slot_of_mem_links held linked
    obtain ⟨_, below, node, filled, _⟩ :=
      (held.stored slot).exists_node (canon slot) (held.shaped slot) within
    refine ⟨_, node, ?_⟩
    by_contra absent
    rw [Format.isEmptyNode_of.mpr (by simpa using absent)] at filled
    cases filled
  · rcases List.mem_cons.mp among with rfl | linked
    · refine ⟨_, held.node, fun slot absent => ?_⟩
      rw [Node.get_of] at absent ⊢
      exact (canon slot).descriptor_eq_zero (held.shaped slot) absent
    · obtain ⟨slot, within⟩ := exists_slot_of_mem_links held linked
      obtain ⟨_, below, node, _, tables⟩ :=
        (held.stored slot).exists_node (canon slot) (held.shaped slot) within
      refine ⟨_, node, fun slot absent => ?_⟩
      rw [Node.get_of] at absent ⊢
      exact (tables slot).1.descriptor_eq_zero (tables slot).2 absent

/-- The page of 2 MiB of the sample keeps a table for the 1 GiB around it. -/
theorem reclaimed_sample :
    sampleTable ∈ mappedSample.tables ∧
      (⟨0, 1 <<< 30⟩ : Extent) ∈ sampleTable.divided mappedSample.pool ∧
      ¬sampleTable.isEmpty mappedSample.pool = true := by
  have member : sampleTable ∈ mappedSample.tables := by decide +kernel
  have translated : sampleTable.lookup mappedSample.pool sampleStart =
      .ok (some ⟨⟨0x400000, by decide⟩, 0x200000, Format.secondLevel.expressed .empty⟩) := by
    decide +kernel
  obtain ⟨_, _, divided, empty⟩ := reclaimed Forest.reachedSufficed_mappedSample member
  refine ⟨member, (divided _).mpr ⟨by decide, by decide, sampleStart, ?_, _, translated, ?_⟩,
    fun vacant => ?_⟩
  · exact ⟨by decide, by decide⟩
  · decide
  · cases (empty.mp vacant sampleStart).symm.trans translated

end TranslationTable

end DmaRemap

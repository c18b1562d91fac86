import DmaRemap.Proofs.Forest

namespace DmaRemap

open Forest (sample sampleTable mappedSample silent)

variable {format : Format} {before after : Pool} {level : Level} {request : Request}
  {branches : Branches} {table : TranslationTable} {done offset : Nat} {short : Prop}

/-- The sizes of the pages that may map an offset of a request: the aligned block around the offset
lies in the range, and the distance from the range to its target is a multiple of the size. -/
def Request.pageSizes (request : Request) (offset : Nat) : Set Nat :=
  {size | (size = 1 <<< 30 ∨ size = 1 <<< 21 ∨ size = 1 <<< 12) ∧
    request.range.start ≤ offset / size * size ∧
    offset / size * size + size ≤ request.range.stop ∧
    (size : Int) ∣ (request.target : Int) - request.range.start}

/-- Whether an answer is what a request asks for at an input address. -/
structure Request.AnsweredBy (request : Request) (format : Format) (input : VirtualAddress)
    (answer : Translation) : Prop where
  address : answer.address.val = request.target + (input.val - request.range.start)
  flags : answer.flags = format.expressed request.flags
  pageSize : IsGreatest (request.pageSizes input.val) answer.pageSize

/-- The distance from the range of a request to its target is a multiple of a size exactly if both
lie alike in their blocks. -/
theorem Request.dvd_target_sub_start_iff {size : Nat} :
    (size : Int) ∣ (request.target : Int) - request.range.start ↔
      request.target % size = request.range.start % size := by
  rw [← Nat.modEq_iff_dvd]
  exact eq_comm

theorem Request.mem_pageSizes_iff {size : Nat} :
    size ∈ request.pageSizes offset ↔
      (size = 1 <<< 30 ∨ size = 1 <<< 21 ∨ size = 1 <<< 12) ∧ request.Covers size offset := by
  simp only [pageSizes, Covers, Set.mem_ofPred_eq, dvd_target_sub_start_iff]

theorem Level.exists_mapsPages_iff (size : Nat) :
    (size = 1 <<< 30 ∨ size = 1 <<< 21 ∨ size = 1 <<< 12) ↔
      ∃ level ∈ Level.four, level.mapsPages = true ∧ level.pageSize = size := by
  constructor
  · intro size
    rcases size with rfl | rfl | rfl
    · exact ⟨{ pageBits := 30, kind := .largePages }, by simp [Level.four], rfl, rfl⟩
    · exact ⟨{ pageBits := 21, kind := .largePages }, by simp [Level.four], rfl, rfl⟩
    · exact ⟨{ pageBits := 12, kind := .leaf }, by simp [Level.four], rfl, rfl⟩
  · intro holds
    obtain ⟨level, member, maps, rfl⟩ := holds
    simp only [Level.four, List.mem_cons, List.not_mem_nil, or_false] at member
    rcases member with rfl | rfl | rfl | rfl
    · cases maps
    · exact .inl rfl
    · exact .inr (.inl rfl)
    · exact .inr (.inr rfl)

/-- The level chosen for an offset has the largest of the pages that may map it. -/
theorem Request.pageLevel_greatest (chosen : request.pageLevel Level.four offset = some level) :
    IsGreatest (request.pageSizes offset) level.pageSize := by
  obtain ⟨allowed, larger, smaller, split, refused⟩ := List.find?_eq_some_iff_append.mp chosen
  have member : level ∈ Level.four := List.mem_of_find?_eq_some chosen
  have descending : Level.four.Pairwise fun level inner => inner.pageSize ≤ level.pageSize := by
    decide
  rw [split, List.pairwise_append] at descending
  simp only [Bool.and_eq_true, decide_eq_true_eq] at allowed
  constructor
  · have among := (Level.exists_mapsPages_iff _).mpr ⟨level, member, allowed.1, rfl⟩
    exact mem_pageSizes_iff.mpr ⟨among, allowed.2⟩
  · intro size among
    obtain ⟨bits, covers⟩ := mem_pageSizes_iff.mp among
    obtain ⟨inner, within, maps, rfl⟩ := (Level.exists_mapsPages_iff _).mp bits
    rw [split] at within
    rcases List.mem_append.mp within with above | rest
    · have unfit := refused inner above
      simp [maps, covers] at unfit
    · rcases List.mem_cons.mp rest with rfl | below
      · exact Nat.le_refl _
      · exact (List.pairwise_cons.mp descending.2.1).1 inner below

namespace TranslationTable

theorem lookup_eq (held : table.Held before branches) (input : VirtualAddress) :
    table.lookup before input =
      if input.val < 1 <<< table.format.inputBits then
        table.format.reading input (table.format.find table.format.levels branches input.val)
      else .ok none := by
  unfold lookup
  by_cases inside : input.val < 1 <<< table.format.inputBits
  · rw [if_pos inside, if_pos inside, held.lookupAt_eq table.format.nested_levels,
      Format.span_levels, Nat.mod_eq_of_lt inside]
  · rw [if_neg inside, if_neg inside]
    rfl

/-- An address translates exactly if a page is found there, and then by that page. -/
theorem lookup_eq_some_iff (held : table.Held before branches) {input : VirtualAddress}
    {answer : Translation} :
    table.lookup before input = .ok (some answer) ↔
      input.val < 1 <<< table.format.inputBits ∧ ∃ page,
        table.format.find table.format.levels branches input.val = some page ∧
          table.format.reading input (some page) = .ok (some answer) := by
  rw [lookup_eq held]
  split
  case isTrue inside =>
    cases found : table.format.find table.format.levels branches input.val with
    | none => simp [inside, Format.reading, pure, Except.pure]
    | some page => simp [inside]
  case isFalse outside => simp [outside]

theorem exists_reading (held : table.Held before branches) {input : VirtualAddress} {word : Word}
    (found : table.format.find table.format.levels branches input.val = some (level, word)) :
    ∃ answer, table.format.reading input (some (level, word)) = .ok (some answer) ∧
      answer.pageSize = level.pageSize := by
  obtain ⟨member, _, page⟩ := Format.find_eq_some held.shaped found
  obtain ⟨_, divided⟩ := table.format.nested_levels.divided_of_mem member
  obtain ⟨_, _, read⟩ := Format.reading_some divided page input
  exact ⟨_, read, rfl⟩

theorem exists_lookup_of_find (held : table.Held before branches)
    (inside : offset < 1 <<< table.format.inputBits) {page : Level × Word}
    (found : table.format.find table.format.levels branches offset = some page) :
    ∃ input : VirtualAddress, input.val = offset ∧
      ∃ answer, table.lookup before input = .ok (some answer) := by
  have room : offset < 1 <<< 64 := by
    simp only [Format.inputBits] at inside
    omega
  let input : VirtualAddress := ⟨offset, room⟩
  have found' : table.format.find table.format.levels branches input.val = some page := found
  obtain ⟨answer, read, _⟩ := exists_reading held found'
  exact ⟨input, rfl, answer, (lookup_eq_some_iff held).mpr ⟨inside, page, found, read⟩⟩

/-- What a table translates to once the first `done` bytes of a request are carried out. -/
structure Maps (table : TranslationTable) (request : Request) (done : Nat) (before after : Pool) :
    Prop where
  inside : ∀ input : VirtualAddress, request.Reaches done input.val →
    ∃ answer, table.lookup after input = .ok (some answer) ∧
      request.AnsweredBy table.format input answer
  outside : ∀ input : VirtualAddress, ¬request.Reaches done input.val →
    table.lookup after input = table.lookup before input
  kept : ∀ (input : VirtualAddress) (answer : Translation),
    table.lookup before input = .ok (some answer) → table.lookup after input = .ok (some answer)

private theorem target_mod_pageSize (covers : request.Covers level.pageSize offset) :
    (request.target + (offset / level.pageSize * level.pageSize - request.range.start)) %
      level.pageSize = 0 := by
  obtain ⟨least, _, same⟩ := covers
  have shifted : Nat.ModEq level.pageSize _ _ :=
    .add_right (offset / level.pageSize * level.pageSize - request.range.start) same
  rw [Nat.add_sub_of_le least, Nat.ModEq, Nat.mul_mod_left] at shifted
  exact shifted

/-- A page that answers a request gives the translation that it asks for. -/
theorem reading_answers {word : Word} {input : VirtualAddress}
    (sited : request.Sited format format.levels 0)
    (answers : format.Answers format.levels request input.val level word)
    (page : format.isPage level word = true) :
    ∃ answer, format.reading input (some (level, word)) = .ok (some answer) ∧
      request.AnsweredBy format input answer := by
  have member := List.mem_of_find?_eq_some answers.chosen
  obtain ⟨deeper, divided⟩ := format.nested_levels.divided_of_mem member
  have allowed := List.find?_some answers.chosen
  simp only [Bool.and_eq_true, decide_eq_true_eq] at allowed
  obtain ⟨maps, covers⟩ := allowed
  have aligned := target_mod_pageSize covers
  have room := sited.target
  have positive := level.pageSize_pos
  have split := Nat.div_add_mod' input.val level.pageSize
  have least := covers.1
  have most := covers.2.1
  unfold Extent.stop at most
  have target : (format.address level word).val =
      request.target + (input.val / level.pageSize * level.pageSize - request.range.start) := by
    rw [← Format.address_strip, answers.encoded]
    exact Format.address_pageWord maps divided.least aligned (by omega)
  obtain ⟨address, place, read⟩ := Format.reading_some divided page input
  refine ⟨_, read, ?_, ?_, Request.pageLevel_greatest answers.chosen⟩
  · rw [place, target]
    omega
  · rw [← Format.pageFlags_strip, answers.encoded, Format.pageFlags_pageWord]

/-- Carrying out the first bytes of a request makes the table translate them as it asks. -/
theorem maps_of_carried (held : table.Held before branches)
    (sited : request.Sited table.format table.format.levels 0) (most : done ≤ request.range.size)
    (carried : table.format.Carried table.format.levels table.root request branches done short
      before after) : table.Maps request done before after := by
  obtain ⟨branches', edited, grown, _⟩ := carried
  have nested := table.format.nested_levels
  have span := table.format.span_levels
  constructor
  · intro input reaches
    have inside : input.val < 1 <<< table.format.inputBits := by
      have stop := sited.inside
      have below := reaches.2
      unfold Extent.stop at stop
      omega
    rw [← span] at inside
    obtain ⟨level, word, found, answers⟩ := (Format.find_grown nested most grown inside).1 reaches
    have page := (Format.find_eq_some edited.held.shaped found).2.2
    obtain ⟨answer, read, asked⟩ := reading_answers sited answers page
    refine ⟨answer, ?_, asked⟩
    rw [lookup_eq edited.held, if_pos (span ▸ inside), found, read]
  · intro input outside
    rw [lookup_eq edited.held, lookup_eq held]
    split
    case isTrue inside =>
      rw [← span] at inside
      rw [(Format.find_grown nested most grown inside).2 outside]
    case isFalse => rfl
  · intro input answer
    rw [lookup_eq edited.held, lookup_eq held]
    split
    case isTrue inside =>
      intro translated
      cases found : table.format.find table.format.levels branches input.val with
      | none =>
        rw [found] at translated
        cases translated
      | some page =>
        rw [found] at translated
        rw [Format.find_grown_of_some grown found, translated]
    case isFalse => exact id

/-- An insertion that returns makes the whole range translate as the request asks, and leaves every
other address and every earlier translation as it was. What translated in the range before is what
the request asks for. -/
theorem maps_of_insert_ok {forest : Forest} (reached : forest.Reached)
    (member : table ∈ forest.tables) {start : VirtualAddress} {target : PhysicalAddress}
    {size : Nat} {flags : PageFlags} {journal : Journal}
    (returned : (table.insert start target size flags).outcome ⟨forest.pool, journal⟩ = .ok ()) :
    table.Maps (.mapping start target size flags) size forest.pool
        ((table.insert start target size flags).finish ⟨forest.pool, journal⟩).state ∧
      ∀ (input : VirtualAddress) (answer : Translation),
        start.val ≤ input.val → input.val < start.val + size →
          table.lookup forest.pool input = .ok (some answer) →
            (Request.mapping start target size flags).AnsweredBy table.format input answer := by
  obtain ⟨trees, planted⟩ := reached.planted
  have held := planted.held table member
  obtain ⟨sited, carried⟩ :=
    (insert_ends held (planted.fits table member) start target size flags).returned returned
  have maps := maps_of_carried held sited (Nat.le_refl _) carried
  refine ⟨maps, fun input answer least most before => ?_⟩
  obtain ⟨asked, after, answers⟩ := maps.inside input ⟨least, most⟩
  cases (maps.kept input answer before).symm.trans after
  exact answers

/-- Where the sample requests are mapped to. -/
def sampleTarget : PhysicalAddress := ⟨0x5000, by decide⟩

def sampleInput : VirtualAddress := ⟨0x1000, by decide⟩

/-- Two pages are mapped by the sample table. -/
theorem maps_of_insert_ok_sample :
    (sampleTable.insert sampleInput sampleTarget 0x2000 .empty).outcome ⟨sample.pool, silent⟩ =
        .ok () ∧
      sampleTable.Maps (.mapping sampleInput sampleTarget 0x2000 .empty) 0x2000 sample.pool
        ((sampleTable.insert sampleInput sampleTarget 0x2000 .empty).finish
          ⟨sample.pool, silent⟩).state := by
  have returned : (sampleTable.insert sampleInput sampleTarget 0x2000 .empty).outcome
      ⟨sample.pool, silent⟩ = .ok () := by
    decide +kernel
  exact ⟨returned, (maps_of_insert_ok Forest.reached_sample Forest.sampleTable_mem returned).1⟩

/-- An insertion of a valid request that fails has come to a conflict or to the end of the pool. It
has carried out the pages before that place as the whole request asks, and nothing else. -/
theorem maps_of_insert_error {forest : Forest} (reached : forest.Reached)
    (member : table ∈ forest.tables) {start : VirtualAddress} {target : PhysicalAddress}
    {size : Nat} {flags : PageFlags} {journal : Journal} {cause : Failure TableError}
    (failed : (table.insert start target size flags).outcome ⟨forest.pool, journal⟩ = .error cause)
    (valid : ∀ start size, cause ≠ .error (.invalidRange start size)) :
    ∃ cut, start.val ≤ cut ∧ cut < start.val + size ∧ 4096 ∣ cut ∧
      table.Maps (.mapping start target size flags) (cut - start.val) forest.pool
        ((table.insert start target size flags).finish ⟨forest.pool, journal⟩).state ∧
      ((∃ address, cause = .error (.doubleInsertion address) ∧ address.val = cut) ∨
        cause = .error .outOfMemory ∧
          ((table.insert start target size flags).finish ⟨forest.pool, journal⟩).state.free = 0 ∧
          ((table.insert start target size flags).finish
            ⟨forest.pool, journal⟩).state.Exhausted) := by
  obtain ⟨trees, planted⟩ := reached.planted
  have held := planted.held table member
  rcases (insert_ends held (planted.fits table member) start target size flags).failed failed with
    ⟨_, start', size', refused⟩ | ⟨sited, done, most, whole, carried, stopped⟩
  · exact absurd refused (valid start' size')
  · refine ⟨start.val + done, Nat.le_add_right .., Nat.add_lt_add_left most _,
      sited.aligned.start.add whole, ?_, ?_⟩
    · rw [Nat.add_sub_cancel_left]
      exact maps_of_carried held sited (Nat.le_of_lt most) carried
    · cases stopped with
      | conflict here => exact .inl ⟨_, rfl, here⟩
      | exhausted full =>
        obtain ⟨_, edited, _⟩ := carried
        exact .inr ⟨rfl, (edited.exchange.sound planted.sound).free_eq_zero full, full⟩

/-- The last page in the first block of the root. -/
def sampleEdge : VirtualAddress := ⟨0x7ffffff000, by decide⟩

/-- The pool of the sample table has nodes for the first page of this range only, since the second
page is the first one of another block of the root. -/
theorem maps_of_insert_error_sample :
    (sampleTable.insert sampleEdge sampleTarget 0x2000 .empty).outcome ⟨sample.pool, silent⟩ =
        .error (.error .outOfMemory) ∧
      ∃ cut, sampleEdge.val ≤ cut ∧ cut < sampleEdge.val + 0x2000 ∧ 4096 ∣ cut ∧
        sampleTable.Maps (.mapping sampleEdge sampleTarget 0x2000 .empty) (cut - sampleEdge.val)
          sample.pool
          ((sampleTable.insert sampleEdge sampleTarget 0x2000 .empty).finish
            ⟨sample.pool, silent⟩).state := by
  have failed : (sampleTable.insert sampleEdge sampleTarget 0x2000 .empty).outcome
      ⟨sample.pool, silent⟩ = .error (.error .outOfMemory) := by
    decide +kernel
  obtain ⟨cut, least, most, whole, maps, _⟩ :=
    maps_of_insert_error Forest.reached_sample Forest.sampleTable_mem failed (by simp)
  exact ⟨failed, cut, least, most, whole, maps⟩

/-- After unmapping a range the pages that meet it translate nothing any more. -/
theorem lookup_pruned_of_met {range : Extent} (held : table.Held before branches)
    (pruned : table.Held after (table.format.pruned table.format.levels range branches))
    {input : VirtualAddress} {answer : Translation}
    (translated : table.lookup before input = .ok (some answer))
    (met : range.Meets (.around answer.pageSize input.val)) :
    table.lookup after input = .ok none := by
  have nested := table.format.nested_levels
  have span := table.format.span_levels
  obtain ⟨inside, ⟨level, word⟩, found, read⟩ := (lookup_eq_some_iff held).mp translated
  obtain ⟨_, read', size⟩ := exists_reading held found
  cases read.symm.trans read'
  rw [size] at met
  rw [lookup_eq pruned, if_pos inside]
  rw [← span] at inside
  cases left : table.format.find table.format.levels
      (table.format.pruned table.format.levels range branches) input.val with
  | none => rfl
  | some page =>
    obtain ⟨same, missed⟩ := (Format.find_pruned nested held.shaped inside _).mp left
    cases found.symm.trans same
    exact absurd met missed

/-- After unmapping a range everything else translates as before. -/
theorem lookup_pruned_of_missed {range : Extent} (held : table.Held before branches)
    (pruned : table.Held after (table.format.pruned table.format.levels range branches))
    {input : VirtualAddress}
    (missed : ∀ answer, table.lookup before input = .ok (some answer) →
      ¬range.Meets (.around answer.pageSize input.val)) :
    table.lookup after input = table.lookup before input := by
  have nested := table.format.nested_levels
  have span := table.format.span_levels
  rw [lookup_eq pruned, lookup_eq held]
  split
  case isFalse => rfl
  case isTrue inside =>
    have placed := inside
    rw [← span] at placed
    congr 1
    apply Option.ext
    intro page
    obtain ⟨level, word⟩ := page
    rw [Format.find_pruned nested held.shaped placed, and_iff_left_iff_imp]
    intro found
    obtain ⟨answer, read, size⟩ := exists_reading held found
    rw [← size]
    exact missed answer ((lookup_eq_some_iff held).mpr ⟨inside, _, found, read⟩)

/-- A removal of a valid range returns. It takes away every page that meets the range as a whole,
leaves every other translation as it was, and hands out no node. -/
theorem lookup_of_remove {forest : Forest} (reached : forest.Reached)
    (member : table ∈ forest.tables) {start : VirtualAddress} {size : Nat} {journal : Journal}
    (accepted : (table.format.checkRange start size : Action Pool TableError Unit).outcome
      ⟨forest.pool, journal⟩ = .ok ()) :
    (table.remove start size).outcome ⟨forest.pool, journal⟩ = .ok () ∧
      (∀ (input : VirtualAddress) (answer : Translation),
        table.lookup forest.pool input = .ok (some answer) →
          Extent.Meets ⟨start.val, size⟩ (.around answer.pageSize input.val) →
            table.lookup ((table.remove start size).finish ⟨forest.pool, journal⟩).state input =
              .ok none) ∧
      (∀ input : VirtualAddress,
        (∀ answer, table.lookup forest.pool input = .ok (some answer) →
          ¬Extent.Meets ⟨start.val, size⟩ (.around answer.pageSize input.val)) →
            table.lookup ((table.remove start size).finish ⟨forest.pool, journal⟩).state input =
              table.lookup forest.pool input) ∧
      ((table.remove start size).finish ⟨forest.pool, journal⟩).state.used ≤ forest.pool.used := by
  obtain ⟨trees, planted⟩ := reached.planted
  have held := planted.held table member
  have accepts := ((Format.checkRange_ends _ start size).returned accepted).2
  have ends : (table.remove start size).Ends ⟨forest.pool, journal⟩ _ _ :=
    remove_ends held start size
  rcases ends.outcome_finish with ⟨_, returned, _, edited⟩ | ⟨_, _, _, _, refused⟩
  · refine ⟨returned, ?_, ?_, ?_⟩
    · exact fun input answer translated met =>
        lookup_pruned_of_met held edited.held translated met
    · exact fun input missed => lookup_pruned_of_missed held edited.held missed
    · exact edited.used_le held planted.sound (Format.tablesFrom_pruned_subset _)
  · exact absurd accepts refused

/-- An address in the page of 2 MiB that the mapped sample has, and the last 4 KiB of that page. -/
def sampleMiddle : VirtualAddress := ⟨0x280000, by decide⟩

def sampleLast : VirtualAddress := ⟨0x3ff000, by decide⟩

/-- Removing 4 KiB in the middle of a page of 2 MiB takes the last of it away, too. -/
theorem lookup_of_remove_sample :
    (∃ answer, sampleTable.lookup mappedSample.pool sampleLast = .ok (some answer)) ∧
      sampleTable.lookup
        ((sampleTable.remove sampleMiddle 0x1000).finish ⟨mappedSample.pool, silent⟩).state
        sampleLast = .ok none := by
  have translated : sampleTable.lookup mappedSample.pool sampleLast =
      .ok (some ⟨⟨0x5ff000, by decide⟩, 0x200000, Format.secondLevel.expressed .empty⟩) := by
    decide +kernel
  have accepted : (sampleTable.format.checkRange sampleMiddle 0x1000 :
      Action Pool TableError Unit).outcome ⟨mappedSample.pool, silent⟩ = .ok () := by
    decide +kernel
  have met : Extent.Meets ⟨sampleMiddle.val, 0x1000⟩ (.around 0x200000 sampleLast.val) :=
    ⟨0x280000, by unfold Extent.Contains; decide, by unfold Extent.Contains; decide⟩
  obtain ⟨_, removed, _⟩ :=
    lookup_of_remove Forest.reached_mappedSample (by decide +kernel) accepted
  exact ⟨⟨_, translated⟩, removed _ _ translated met⟩

end TranslationTable

end DmaRemap

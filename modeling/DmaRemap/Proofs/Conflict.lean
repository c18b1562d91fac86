import DmaRemap.Proofs.Translations

/-! Conflicts. While the pool of a forest suffices, an insertion comes to a conflict only where
something is mapped, and removing the range of an insertion into a vacant range gives back the pool
as it was. A pool that runs short leaves empty tables behind, and these are in the way, too. -/

namespace DmaRemap

open Forest (sample sampleTable mappedSample silent)

namespace TranslationTable

variable {table : TranslationTable} {pool after : Pool} {branches : Branches} {request : Request}
  {done : Nat} {short : Prop}

/-- Whatever is in the way of a request in a canonical table translates an address. -/
theorem exists_lookup_of_blocked (held : table.Held pool branches)
    (canonical : table.Canonical branches)
    (sited : request.Sited table.format table.format.levels 0) (most : done < request.range.size)
    (blocked : table.format.Blocked table.format.levels request done branches) :
    ∃ input : VirtualAddress, request.range.start + done ≤ input.val ∧
      input.val < request.range.stop ∧ ∃ answer, table.lookup pool input = .ok (some answer) := by
  obtain ⟨offset, least, below, page, found⟩ :=
    blocked.exists_find table.format.nested_levels held.shaped canonical most
  have inside : offset < 1 <<< table.format.inputBits := by
    rw [← Format.span_levels]
    exact Nat.lt_of_lt_of_le below sited.inside
  obtain ⟨input, rfl, translated⟩ := exists_lookup_of_find held inside found
  exact ⟨input, least, below, translated⟩

theorem find_of_vacant (held : table.Held pool branches)
    (sited : request.Sited table.format table.format.levels 0)
    (vacant : ∀ input : VirtualAddress, request.range.Contains input.val →
      table.lookup pool input = .ok none) (offset : Nat) (inside : request.range.Contains offset) :
    table.format.find table.format.levels branches offset = none := by
  rw [Option.eq_none_iff_forall_ne_some]
  intro page found
  have below : offset < 1 <<< table.format.inputBits := by
    rw [← Format.span_levels]
    exact Nat.lt_of_lt_of_le inside.2 sited.inside
  obtain ⟨input, rfl, answer, translated⟩ := exists_lookup_of_find held below found
  cases (vacant input inside).symm.trans translated

/-- Removing the range of a request that has been carried out, or its first bytes, gives back the
pool as it was, if the range was vacant. -/
theorem remove_of_carried (held : table.Held pool branches) (sound : pool.Sound)
    (canonical : table.Canonical branches) {start : VirtualAddress} {target : PhysicalAddress}
    {size : Nat} {flags : PageFlags} (accepts : table.format.Accepts start size)
    (sited : (Request.mapping start target size flags).Sited table.format table.format.levels 0)
    (vacant : ∀ input : VirtualAddress, Extent.Contains ⟨start.val, size⟩ input.val →
      table.lookup pool input = .ok none)
    (carried : table.format.Carried table.format.levels table.root
      (.mapping start target size flags) branches done short pool after) (journal : Journal) :
    (table.remove start size).outcome ⟨after, journal⟩ = .ok () ∧
      ((table.remove start size).finish ⟨after, journal⟩).state = pool := by
  obtain ⟨branches', edited, grown, _⟩ := carried
  have removes : (table.remove start size).Ends ⟨after, journal⟩ _ _ :=
    remove_ends edited.held start size
  rcases removes.outcome_finish with ⟨_, returned, _, pruned⟩ | ⟨_, _, _, _, refused⟩
  · rw [Format.pruned_grown canonical (find_of_vacant held sited vacant) grown] at pruned
    exact ⟨returned, (edited.trans pruned).restored held sound⟩
  · exact absurd accepts refused

/-- A valid request for a vacant range is carried out unless the pool runs out of nodes. Either way
removing the range again returns, and the pool is then what it was before. -/
theorem remove_of_insert {forest : Forest} (reached : forest.ReachedSufficed)
    (member : table ∈ forest.tables) {start : VirtualAddress} {target : PhysicalAddress}
    {size : Nat} (valid : table.format.Admits start target size)
    (vacant : ∀ input : VirtualAddress, Extent.Contains ⟨start.val, size⟩ input.val →
      table.lookup forest.pool input = .ok none) (flags : PageFlags) (journal journal' : Journal) :
    ((table.insert start target size flags).outcome ⟨forest.pool, journal⟩ = .ok () ∨
      (table.insert start target size flags).outcome ⟨forest.pool, journal⟩ =
        .error (.error .outOfMemory)) ∧
    (table.remove start size).outcome
      ⟨((table.insert start target size flags).finish ⟨forest.pool, journal⟩).state, journal'⟩ =
        .ok () ∧
    ((table.remove start size).finish
      ⟨((table.insert start target size flags).finish ⟨forest.pool, journal⟩).state,
        journal'⟩).state = forest.pool := by
  obtain ⟨trees, planted, canonical⟩ := reached.canonical
  have held := planted.held table member
  have canon := canonical table member
  have inserts : (table.insert start target size flags).Ends ⟨forest.pool, journal⟩ _ _ :=
    insert_ends held (planted.fits table member) start target size flags
  rcases inserts.outcome_finish with ⟨_, returned, sited, carried⟩ |
    ⟨_, failed, ⟨⟨_, refused⟩, _⟩ | ⟨sited, done, most, _, carried, stopped⟩⟩
  · exact ⟨.inl returned,
      remove_of_carried held planted.sound canon valid.input sited vacant carried journal'⟩
  · exact absurd valid refused
  · cases stopped with
    | conflict here inTheWay =>
      obtain ⟨input, least, below, answer, translated⟩ :=
        exists_lookup_of_blocked held canon sited most inTheWay
      have nothing := vacant input ⟨Nat.le_of_add_right_le least, below⟩
      cases nothing.symm.trans translated
    | exhausted full =>
      exact ⟨.inr failed,
        remove_of_carried held planted.sound canon valid.input sited vacant carried journal'⟩

theorem lookup_blank (held : table.Held pool Format.blank) (input : VirtualAddress) :
    table.lookup pool input = .ok none := by
  rw [lookup_eq held, Format.find_blank]
  exact ite_self _

/-- A node of zeros is told by its words; they can be compared faster than the nodes. -/
private theorem held_blank_of_words {format : Format} {levels : List Level}
    {address : PhysicalAddress}
    (words : (pool.node? address).map Vector.toList = some (List.replicate 512 0))
    (inner : levels ≠ []) : format.Held pool levels address Format.blank := by
  apply Format.held_blank _ inner
  obtain ⟨node, held, same⟩ := Option.map_eq_some_iff.mp words
  rw [held, Vector.toList_inj.mp (same.trans Vector.toList_replicate.symm)]
  rfl

theorem held_sample : sampleTable.Held sample.pool Format.blank :=
  held_blank_of_words (by decide +kernel) (Format.levels_ne_nil _)

/-- A request of two pages for which the sample has the nodes of the first only is taken back. -/
theorem remove_of_insert_sample :
    (sampleTable.insert sampleEdge sampleTarget 0x2000 .empty).outcome ⟨sample.pool, silent⟩ =
        .error (.error .outOfMemory) ∧
      sample.pool.used = 1 ∧
      ((sampleTable.insert sampleEdge sampleTarget 0x2000 .empty).finish
        ⟨sample.pool, silent⟩).state.used = 4 ∧
      (sampleTable.remove sampleEdge 0x2000).outcome
        ⟨((sampleTable.insert sampleEdge sampleTarget 0x2000 .empty).finish
          ⟨sample.pool, silent⟩).state, silent⟩ = .ok () ∧
      ((sampleTable.remove sampleEdge 0x2000).finish
        ⟨((sampleTable.insert sampleEdge sampleTarget 0x2000 .empty).finish
          ⟨sample.pool, silent⟩).state, silent⟩).state = sample.pool := by
  have failed : (sampleTable.insert sampleEdge sampleTarget 0x2000 .empty).outcome
      ⟨sample.pool, silent⟩ = .error (.error .outOfMemory) := by
    decide +kernel
  have valid : sampleTable.format.Admits sampleEdge sampleTarget 0x2000 :=
    ⟨⟨by decide, by decide, by decide⟩, by decide, by decide⟩
  obtain ⟨_, removed⟩ := remove_of_insert Forest.reachedSufficed_sample Forest.sampleTable_mem valid
    (fun input _ => lookup_blank held_sample input) .empty silent silent
  exact ⟨failed, by decide +kernel, by decide +kernel, removed⟩

/-- An insertion that comes to a conflict finds something mapped there or further on in the range,
if the pool has sufficed so far. -/
theorem exists_lookup_of_conflict {forest : Forest} (reached : forest.ReachedSufficed)
    (member : table ∈ forest.tables) {start address : VirtualAddress} {target : PhysicalAddress}
    {size : Nat} {flags : PageFlags} {journal : Journal}
    (failed : (table.insert start target size flags).outcome ⟨forest.pool, journal⟩ =
      .error (.error (.doubleInsertion address))) :
    ∃ input : VirtualAddress, address.val ≤ input.val ∧ input.val < start.val + size ∧
      ∃ answer, table.lookup forest.pool input = .ok (some answer) := by
  obtain ⟨trees, planted, canonical⟩ := reached.canonical
  have held := planted.held table member
  rcases (insert_ends held (planted.fits table member) start target size flags).failed failed with
    ⟨_, _, _, refused⟩ | ⟨sited, done, most, _, _, stopped⟩
  · cases refused
  · cases stopped with
    | conflict here inTheWay =>
      rw [here]
      exact exists_lookup_of_blocked held (canonical table member) sited most inTheWay

/-- The last 4 KiB before the page of 2 MiB that the mapped sample has, and the start of that page.
-/
def sampleBefore : VirtualAddress := ⟨0x1ff000, by decide⟩

def sampleStart : VirtualAddress := ⟨1 <<< 21, by decide⟩

/-- The second page of this request is in the way of a page of 2 MiB. -/
theorem exists_lookup_of_conflict_sample :
    (sampleTable.insert sampleBefore sampleTarget 0x2000 .empty).outcome
        ⟨mappedSample.pool, silent⟩ = .error (.error (.doubleInsertion sampleStart)) ∧
      ∃ input : VirtualAddress, sampleStart.val ≤ input.val ∧
        input.val < sampleBefore.val + 0x2000 ∧
        ∃ answer, sampleTable.lookup mappedSample.pool input = .ok (some answer) := by
  have failed : (sampleTable.insert sampleBefore sampleTarget 0x2000 .empty).outcome
      ⟨mappedSample.pool, silent⟩ = .error (.error (.doubleInsertion sampleStart)) := by
    decide +kernel
  exact ⟨failed, exists_lookup_of_conflict Forest.reachedSufficed_mappedSample
    (by decide +kernel) failed⟩

/-- The first address above 1 GiB. -/
def sampleVacancy : VirtualAddress := ⟨0x40000000, by decide⟩

/-- The mapped sample after an insertion for which its pool had one of two nodes. -/
def starvedSample : Forest :=
  ((Operation.insert sampleTable sampleVacancy sampleTarget 0x1000 .empty).perform.finish
    ⟨mappedSample, silent⟩).state

theorem reached_starvedSample : starvedSample.Reached :=
  Forest.reached_mappedSample.step
    (show mappedSample.Admits (.insert sampleTable _ _ _ _) from
      (by decide +kernel : sampleTable ∈ mappedSample.tables)) _

private theorem lookupAt_of_link {format : Format} {level : Level} {deeper : List Level}
    {root next : PhysicalAddress} {input : VirtualAddress} {slot : Slot} (word : Word)
    (place : level.slot input.val = slot) (read : pool.read? root slot = some word)
    (present : format.isPresent word = true) (link : format.isPage level word = false)
    (leads : format.address level word = next) :
    format.lookupAt pool input (level :: deeper) root = format.lookupAt pool input deeper next := by
  rw [Format.lookupAt, place, read]
  simp only [present, link, leads, if_true]
  exact if_neg Bool.false_ne_true

/-- After the pool has run short an insertion comes to a conflict where nothing is mapped: the empty
table that was left there is in the way of a page of 1 GiB. -/
theorem conflict_without_mapping :
    starvedSample.Reached ∧ sampleTable ∈ starvedSample.tables ∧
      (sampleTable.insert sampleVacancy Address.zero 0x40000000 .empty).outcome
        ⟨starvedSample.pool, silent⟩ = .error (.error (.doubleInsertion sampleVacancy)) ∧
      ∀ input : VirtualAddress, sampleVacancy.val ≤ input.val →
        input.val < sampleVacancy.val + 0x40000000 →
          sampleTable.lookup starvedSample.pool input = .ok none := by
  refine ⟨reached_starvedSample, by decide +kernel, by decide +kernel, ?_⟩
  intro input least below
  have inside : input.val < 1 <<< 48 := Nat.lt_trans below (by decide)
  have first : Level.slot { pageBits := 39, kind := .directory } input.val = 0 := by
    apply Level.slot_eq
    simp only [Level.pageSize, Nat.reduceShiftLeft, sampleVacancy] at least below ⊢
    omega
  have second : Level.slot { pageBits := 30, kind := .largePages } input.val = 1 := by
    apply Level.slot_eq
    simp only [Level.pageSize, Nat.reduceShiftLeft, sampleVacancy] at least below ⊢
    omega
  have empty : sampleTable.format.Held starvedSample.pool (Level.four.drop 2)
      ⟨0x103000, by decide⟩ Format.blank :=
    held_blank_of_words (by decide +kernel) (by decide)
  calc sampleTable.lookup starvedSample.pool input
      = sampleTable.format.lookupAt starvedSample.pool input Level.four sampleTable.root :=
        if_pos inside
    _ = sampleTable.format.lookupAt starvedSample.pool input (Level.four.drop 1)
          ⟨0x101000, by decide⟩ :=
        lookupAt_of_link 0x101003 first (by decide +kernel) (by decide) (by decide)
          (by decide +kernel)
    _ = sampleTable.format.lookupAt starvedSample.pool input (Level.four.drop 2)
          ⟨0x103000, by decide⟩ :=
        lookupAt_of_link 0x103003 second (by decide +kernel) (by decide) (by decide)
          (by decide +kernel)
    _ = .ok none := by
        rw [empty.lookupAt_eq Level.nested_four.2.2, Format.find_blank]
        rfl

end TranslationTable

end DmaRemap

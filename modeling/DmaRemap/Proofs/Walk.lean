import DmaRemap.Table.Walk
import DmaRemap.Proofs.Tree

namespace DmaRemap

/-- The table that a visited descriptor links. -/
def Visit.link? : Visit → Option PhysicalAddress
  | entry found =>
    match found.target with
    | .table next => some next
    | .page .. => none
  | unresolved _ => none

namespace Format

variable {format : Format} {pool before after : Pool} {level : Level} {deeper levels : List Level}
  {table : PhysicalAddress} {branches below : Branches} {slot : Slot} {word : Word}

/-- The visits from one descriptor of a table. -/
def walkFrom (format : Format) (pool : Pool) (level : Level) (deeper : List Level) (depth : Nat)
    (table : PhysicalAddress) (base : VirtualAddress) (slot : Slot) (descriptor : Word) :
    Except Abort (List Visit) :=
  if format.isPresent descriptor then do
    let start ← base.add (slot.val * level.pageSize)
    let target := format.target level descriptor
    let below ← match target with
      | .table next => format.walkAt pool deeper (depth + 1) next start
      | .page .. => pure []
    return .entry { depth, table, slot, start, descriptor, target } :: below
  else
    return []

theorem walkFrom_absent (absent : ¬format.isPresent word = true) (depth : Nat)
    (base : VirtualAddress) :
    format.walkFrom pool level deeper depth table base slot word = .ok [] := by
  rw [walkFrom, if_neg absent]
  rfl

section

variable {base : VirtualAddress} {visits : List Visit} (depth : Nat)
  (address : base.val + slot.val * level.pageSize < 1 <<< 64)

theorem walkFrom_page (present : format.isPresent word = true)
    (page : format.isPage level word = true) :
    format.walkFrom pool level deeper depth table base slot word =
      .ok [.entry ⟨depth, table, slot, ⟨_, address⟩, word,
        .page (format.address level word) level.pageSize (format.pageFlags word)⟩] := by
  rw [walkFrom, if_pos present, Address.add_eq_ok address (Nat.le_refl 64), target, if_pos page]
  rfl

/-- A link is visited before what its table holds. -/
theorem walkFrom_link (present : format.isPresent word = true)
    (link : format.isPage level word = false)
    (walked : format.walkAt pool deeper (depth + 1) (format.address level word) ⟨_, address⟩ =
      .ok visits) :
    format.walkFrom pool level deeper depth table base slot word =
      .ok (.entry ⟨depth, table, slot, ⟨_, address⟩, word,
        .table (format.address level word)⟩ :: visits) := by
  rw [walkFrom, if_pos present, Address.add_eq_ok address (Nat.le_refl 64), target, link]
  simp only [bind, Except.bind, Bool.false_eq_true, if_false, walked]
  rfl

end

theorem walkAt_eq (format : Format) (pool : Pool) (level : Level) (deeper : List Level)
    (depth : Nat) (table : PhysicalAddress) (base : VirtualAddress) :
    format.walkAt pool (level :: deeper) depth table base =
      match pool.node? table with
      | none => return [.unresolved table]
      | some node => do
        return (← (List.finRange 512).mapM fun slot =>
          format.walkFrom pool level deeper depth table base slot (node.get slot)).flatten :=
  rfl

/-- The walk of a table visits every link of its tree once, and no other. -/
theorem Held.walkAt_ok {base : VirtualAddress} (held : format.Held pool levels table branches)
    (nested : Level.Nested levels) (limit : base.val + Level.span levels ≤ 1 <<< 48) (depth : Nat) :
    ∃ visits, format.walkAt pool levels depth table base = .ok visits ∧
      (∀ visit ∈ visits, ∃ found, visit = .entry found) ∧
      table :: visits.filterMap Visit.link? = format.tablesFrom table branches := by
  induction levels generalizing table branches base depth with
  | nil => exact absurd (held.shaped 0) (by simp [Shaped])
  | cons level deeper ih =>
    rw [Level.span] at limit
    rw [walkAt_eq, held.node]
    apply exists_flatMapM fun slot visits =>
      (∀ visit ∈ visits, ∃ found, visit = .entry found) ∧
        visits.filterMap Visit.link? = format.nodes (branches slot)
    case gather =>
      intro walked holds
      refine ⟨fun visit member => ?_, ?_⟩
      · obtain ⟨slot, _, within⟩ := List.mem_flatMap.mp member
        exact (holds slot).1 visit within
      · rw [tablesFrom, List.filterMap_flatMap]
        simp only [(holds _).2]
    case each =>
      intro slot
      have shaped := held.shaped slot
      have address := Level.block_start_lt limit slot
      rw [Node.get_of]
      cases branch : branches slot with
      | word descriptor =>
        rw [branch] at shaped
        by_cases present : format.isPresent descriptor = true
        · refine ⟨_, walkFrom_page depth address present (shaped present), ?_, ?_⟩
          · simp
          · simp [Visit.link?, nodes]
        · exact ⟨[], walkFrom_absent present depth base, by simp, by simp [nodes]⟩
      | link descriptor below =>
        rw [branch] at shaped
        obtain ⟨present, link, _⟩ := shaped
        have child := held.child branch
        rw [← address_of_not_isPage link] at child
        have room : (⟨_, address⟩ : VirtualAddress).val + Level.span deeper ≤ 1 <<< 48 :=
          nested.1.room limit slot
        obtain ⟨visits, walked, entries, links⟩ := ih child nested.2 room (depth + 1)
        refine ⟨_, walkFrom_link depth address present link walked, ?_, ?_⟩
        · simpa using entries
        · rw [nodes_link, ← address_of_not_isPage link, ← links]
          simp [Visit.link?, Tree.descriptor]

theorem Held.walkAt_congr (held : format.Held before levels table branches)
    (agree : ∀ address ∈ format.tablesFrom table branches,
      after.node? address = before.node? address) (depth : Nat) (base : VirtualAddress) :
    format.walkAt after levels depth table base = format.walkAt before levels depth table base := by
  induction levels generalizing table branches depth base with
  | nil => rfl
  | cons level deeper ih =>
    have node := (held.transport agree).node
    rw [walkAt_eq, walkAt_eq, node, held.node]
    simp only
    congr 2
    funext slot
    have shaped := held.shaped slot
    simp only [walkFrom, Node.get_of]
    cases branch : branches slot with
    | word descriptor =>
      rw [branch] at shaped
      by_cases present : format.isPresent descriptor = true
      · simp [Tree.descriptor, present, target, shaped present]
      · simp [Tree.descriptor, present]
    | link descriptor below =>
      rw [branch] at shaped
      obtain ⟨present, link, _⟩ := shaped
      have inside (address : PhysicalAddress)
          (member : address ∈ format.tablesFrom (format.linkTarget descriptor) below) :
          after.node? address = before.node? address := by
        apply agree address (mem_tablesFrom_iff.mpr (.inr ⟨slot, ?_⟩))
        rwa [branch, nodes_link]
      simp only [Tree.descriptor, present, link, if_true, Bool.false_eq_true, if_false, target,
        address_of_not_isPage link, ih (held.child branch) inside]

end Format

namespace TranslationTable

variable {table : TranslationTable} {pool before after : Pool} {branches : Branches} {ε : Type}

theorem visits_ok (held : table.format.Held pool table.format.levels table.root branches) :
    ∃ entries : List WalkEntry, table.visits pool = .ok (entries.map .entry) ∧
      table.root :: (entries.map Visit.entry).filterMap Visit.link? =
        table.format.tablesFrom table.root branches := by
  have limit : (Address.zero : VirtualAddress).val + Level.span table.format.levels ≤ 1 <<< 48 := by
    rw [Format.span_levels]
    exact Nat.le_of_eq (Nat.zero_add _)
  obtain ⟨visits, walked, followed, links⟩ :=
    held.walkAt_ok table.format.nested_levels limit 0
  obtain ⟨entries, rfl⟩ : visits ∈ Set.range (List.map Visit.entry) := by
    rw [Set.range_list_map]
    intro visit member
    obtain ⟨found, rfl⟩ := followed visit member
    exact ⟨found, rfl⟩
  exact ⟨entries, walked, links⟩

/-- A walk returns the entries it visits, and changes nothing. -/
theorem walk_ends {start : Journaled Pool} {visits : List Visit}
    (visited : table.visits start.state = .ok visits) :
    (table.walk : Action Pool ε (List WalkEntry)).Returns start fun found last =>
      found = visits.filterMap Visit.entry? ∧ last.state = start.state := by
  simp only [walk, Action.ends_bind, Action.ends_state, visited, Action.ends_lift_ok,
    Action.ends_pure]
  apply Action.ends_forM fun _ now => now.state = start.state
  case initial => rfl
  case turn =>
    intro _ visit _ _ _ same
    cases visit
    case entry => rwa [Action.ends_pure]
    case unresolved => rwa [Action.ends_record]
  case final => exact fun _ same => ⟨trivial, same⟩

theorem walk_outcome_of_visits {start : Journaled Pool} {visits : List Visit}
    (visited : table.visits start.state = .ok visits) :
    (table.walk : Action Pool ε (List WalkEntry)).outcome start =
      .ok (visits.filterMap Visit.entry?) := by
  obtain ⟨found, returned, rfl, _⟩ := (walk_ends visited).exists_outcome
  exact returned

theorem walk_outcome {start : Journaled Pool} {entries : List WalkEntry}
    (visited : table.visits start.state = .ok (entries.map .entry)) :
    (table.walk : Action Pool ε (List WalkEntry)).outcome start = .ok entries := by
  rw [walk_outcome_of_visits visited, List.filterMap_map]
  exact congrArg Except.ok List.filterMap_some

theorem visits_congr (held : table.format.Held before table.format.levels table.root branches)
    (agree : ∀ address ∈ table.format.tablesFrom table.root branches,
      after.node? address = before.node? address) :
    table.visits after = table.visits before :=
  held.walkAt_congr agree 0 Address.zero

end TranslationTable

end DmaRemap

import DmaRemap.Proofs.Lookup
import DmaRemap.Proofs.Walk

/-! Walks and lookups of whatever a pool holds. The levels alone bound the recursion, so links may
dangle, meet or lead back: a walk still visits its entries in ascending order, and a lookup finds
the one page of the walk that covers its input address. -/

namespace DmaRemap

namespace WalkEntry

variable {entry parent child first second third : WalkEntry}

/-- Whether an entry maps an input address to a page. -/
def Covers (entry : WalkEntry) (input : Nat) : Prop :=
  ∃ address size flags, entry.target = .page address size flags ∧
    entry.start.val ≤ input ∧ input < entry.start.val + size

/-- The order of a walk: by input addresses, at the same address from the root down. -/
def Precedes (first second : WalkEntry) : Prop :=
  first.start.val < second.start.val ∨
    first.start.val = second.start.val ∧ first.depth < second.depth

/-- Whether one entry links the table that holds another. -/
def Links (parent child : WalkEntry) : Prop :=
  parent.target = .table child.table ∧ parent.depth + 1 = child.depth

/-- Whether a translation is what the page of an entry makes of an input address. -/
def Translates (entry : WalkEntry) (input : Nat) (translation : Translation) : Prop :=
  ∃ address : PhysicalAddress,
    entry.target = .page address translation.pageSize translation.flags ∧
    translation.address.val = address.val + (input - entry.start.val)

/-- Whether an entry comes first, and whatever it maps lies below the other. -/
def Leads (first second : WalkEntry) : Prop :=
  first.Precedes second ∧ ∀ input, first.Covers input → input < second.start.val

theorem Precedes.trans (early : first.Precedes second) (late : second.Precedes third) :
    first.Precedes third := by
  unfold Precedes at *
  omega

theorem Precedes.irrefl (entry : WalkEntry) : ¬entry.Precedes entry := by
  simp [Precedes]

theorem Covers.start_le {input : Nat} (covers : entry.Covers input) : entry.start.val ≤ input := by
  obtain ⟨_, _, _, _, least, _⟩ := covers
  exact least

theorem covers_page {address : PhysicalAddress} {size : Nat} {flags : PageFlags} {input : Nat}
    (page : entry.target = .page address size flags) :
    entry.Covers input ↔ (Extent.mk entry.start.val size).Contains input := by
  simp [Covers, page, Extent.Contains, Extent.stop]

theorem not_covers_table {next : PhysicalAddress} (link : entry.target = .table next)
    (input : Nat) : ¬entry.Covers input := by
  simp [Covers, link]

end WalkEntry

theorem WalkEntry.Precedes.sublist {entries : List WalkEntry} {parent child : WalkEntry}
    (precedes : parent.Precedes child) (ordered : entries.Pairwise Precedes)
    (member : parent ∈ entries) (member' : child ∈ entries) : [parent, child].Sublist entries := by
  obtain ⟨past, later, rfl⟩ := List.append_of_mem member
  apply List.sublist_append_of_sublist_right
  rcases List.mem_append.mp member' with earlier | here
  · have back := (List.pairwise_append.mp ordered).2.2 child earlier parent List.mem_cons_self
    exact absurd (precedes.trans back) (Precedes.irrefl parent)
  · rcases List.mem_cons.mp here with rfl | behind
    · exact absurd precedes (Precedes.irrefl child)
    · exact (List.singleton_sublist.mpr behind).cons_cons parent

/-- Whether an answer is what the pages among some entries make of an input address. -/
def Agrees (entries : List WalkEntry) (input : Nat) (answer : Option Translation) : Prop :=
  (answer.isSome ↔ ∃ entry ∈ entries, entry.Covers input) ∧
    ∀ entry ∈ entries, entry.Covers input →
      ∃ translation ∈ answer, entry.Translates input translation

/-- The entries of a walk over a range, as a lookup sees them. Each stands in the given table or is
linked by another. -/
structure Survey (look : VirtualAddress → Except Abort (Option Translation)) (depth : Nat)
    (table : PhysicalAddress) (range : Extent) (entries : List WalkEntry) : Prop where
  inside : ∀ entry ∈ entries, range.Contains entry.start.val
  covered : ∀ entry ∈ entries, ∀ input, entry.Covers input → range.Contains input
  deep : ∀ entry ∈ entries, depth ≤ entry.depth
  ordered : entries.Pairwise WalkEntry.Leads
  rooted : ∀ child ∈ entries, child.depth = depth ∧ child.table = table ∨
    ∃ parent ∈ entries, parent.Links child ∧ parent.Precedes child
  found : ∀ input : VirtualAddress, range.Contains input.val →
    ∃ answer, look input = .ok answer ∧ Agrees entries input.val answer

namespace Survey

variable {look look' : VirtualAddress → Except Abort (Option Translation)} {depth : Nat}
  {table : PhysicalAddress} {range : Extent} {entries : List WalkEntry} {entry : WalkEntry}
  {level : Level}

theorem nil (absent : ∀ input, range.Contains input.val → look input = .ok none) :
    Survey look depth table range [] where
  inside := by simp
  covered := by simp
  deep := by simp
  ordered := .nil
  rooted := by simp
  found input within := ⟨none, absent input within, by simp [Agrees]⟩

theorem page {address : PhysicalAddress} {flags : PageFlags} (positive : 0 < range.size)
    (start : entry.start.val = range.start) (page : entry.target = .page address range.size flags)
    (here : entry.depth = depth ∧ entry.table = table)
    (found : ∀ input, range.Contains input.val → ∃ translation,
      look input = .ok (some translation) ∧ entry.Translates input.val translation) :
    Survey look depth table range [entry] where
  inside := by
    simp only [List.mem_singleton, forall_eq, start, Extent.Contains, Extent.stop]
    omega
  covered := by
    simp [WalkEntry.covers_page page, start]
  deep := by simp [here.1]
  ordered := List.pairwise_singleton _ _
  rooted := by simp [here]
  found input within := by
    obtain ⟨translation, looked, translates⟩ := found input within
    refine ⟨_, looked, ?_⟩
    simp [Agrees, WalkEntry.covers_page page, start, within, translates]

theorem link {next : PhysicalAddress} (positive : 0 < range.size)
    (start : entry.start.val = range.start) (link : entry.target = .table next)
    (here : entry.depth = depth ∧ entry.table = table)
    (below : Survey look (depth + 1) next range entries) :
    Survey look depth table range (entry :: entries) where
  inside := by
    refine List.forall_mem_cons.mpr ⟨?_, below.inside⟩
    simp only [start, Extent.Contains, Extent.stop]
    omega
  covered := by
    refine List.forall_mem_cons.mpr ⟨fun input covers => ?_, below.covered⟩
    exact absurd covers (WalkEntry.not_covers_table link input)
  deep := by
    refine List.forall_mem_cons.mpr ⟨here.1.ge, fun child member => ?_⟩
    exact Nat.le_of_succ_le (below.deep child member)
  ordered := by
    refine List.pairwise_cons.mpr ⟨fun child member => ⟨?_, fun input covers => ?_⟩, below.ordered⟩
    · have deeper := below.deep child member
      have least := (below.inside child member).1
      unfold WalkEntry.Precedes
      omega
    · exact absurd covers (WalkEntry.not_covers_table link input)
  rooted := by
    refine List.forall_mem_cons.mpr ⟨.inl here, fun child member => .inr ?_⟩
    rcases below.rooted child member with ⟨level, rfl⟩ | ⟨parent, within, links⟩
    · refine ⟨entry, List.mem_cons_self, ⟨link, ?_⟩, ?_⟩
      · rw [here.1, level]
      · have least := (below.inside child member).1
        unfold WalkEntry.Precedes
        omega
    · exact ⟨parent, List.mem_cons_of_mem _ within, links⟩
  found input within := by
    obtain ⟨answer, looked, agrees⟩ := below.found input within
    refine ⟨answer, looked, ?_⟩
    simpa [Agrees, WalkEntry.not_covers_table link] using agrees

theorem congr (survey : Survey look depth table range entries)
    (same : ∀ input, range.Contains input.val → look' input = look input) :
    Survey look' depth table range entries :=
  { survey with found := fun input within => same input within ▸ survey.found input within }

/-- The entries of consecutive blocks, block by block. -/
theorem blocks {base : Nat} {parts : Slot → List WalkEntry}
    (each : ∀ slot : Slot, Survey look depth table
      ⟨base + slot.val * level.pageSize, level.pageSize⟩ (parts slot)) :
    Survey look depth table ⟨base, 512 * level.pageSize⟩ ((List.finRange 512).flatMap parts) := by
  have contains (slot : Slot) (input : Nat)
      (inner : (Extent.mk (base + slot.val * level.pageSize) level.pageSize).Contains input) :
      (Extent.mk base (512 * level.pageSize)).Contains input := by
    have stop := level.block_stop_le slot.isLt
    simp only [Extent.Contains, Extent.stop] at inner ⊢
    omega
  have next {first second : Slot} (before : first < second) :
      base + first.val * level.pageSize + level.pageSize ≤ base + second.val * level.pageSize := by
    have := Nat.mul_le_mul_right level.pageSize (show first.val + 1 ≤ second.val from before)
    rw [Nat.succ_mul] at this
    omega
  constructor
  case inside =>
    intro entry member
    obtain ⟨slot, _, within⟩ := List.mem_flatMap.mp member
    exact contains slot _ ((each slot).inside entry within)
  case covered =>
    intro entry member input covers
    obtain ⟨slot, _, within⟩ := List.mem_flatMap.mp member
    exact contains slot _ ((each slot).covered entry within input covers)
  case deep =>
    intro entry member
    obtain ⟨slot, _, within⟩ := List.mem_flatMap.mp member
    exact (each slot).deep entry within
  case ordered =>
    rw [List.pairwise_flatMap]
    refine ⟨fun slot _ => (each slot).ordered, ?_⟩
    apply (List.pairwise_lt_finRange 512).imp
    intro first second before early member late member'
    have here := ((each first).inside early member).2
    have there := ((each second).inside late member').1
    have apart := next before
    simp only [Extent.stop] at here there
    refine ⟨.inl (by omega), fun input covers => ?_⟩
    have last := ((each first).covered early member input covers).2
    simp only [Extent.stop] at last
    omega
  case rooted =>
    intro child member
    obtain ⟨slot, _, within⟩ := List.mem_flatMap.mp member
    apply ((each slot).rooted child within).imp_right
    rintro ⟨parent, inner, links⟩
    exact ⟨parent, List.mem_flatMap.mpr ⟨slot, List.mem_finRange slot, inner⟩, links⟩
  case found =>
    intro input inside
    have below : (input.val - base) / level.pageSize < 512 := by
      rw [Nat.div_lt_iff_lt_mul level.pageSize_pos]
      simp only [Extent.Contains, Extent.stop] at inside
      omega
    have here (slot : Slot) :=
      level.contains_block_iff slot.val inside.1
    obtain ⟨answer, looked, some, agrees⟩ :=
      (each ⟨_, below⟩).found input ((here ⟨_, below⟩).mpr rfl)
    -- Another block has no page for this input address.
    have only (entry : WalkEntry) (covers : entry.Covers input.val) :
        entry ∈ (List.finRange 512).flatMap parts ↔ entry ∈ parts ⟨_, below⟩ := by
      constructor
      · intro member
        obtain ⟨slot, _, within⟩ := List.mem_flatMap.mp member
        have same := (here slot).mp ((each slot).covered entry within _ covers)
        rwa [show slot = ⟨_, below⟩ from Fin.ext same.symm] at within
      · exact fun within => List.mem_flatMap.mpr ⟨_, List.mem_finRange _, within⟩
    refine ⟨answer, looked, ?_, fun entry member covers => ?_⟩
    · rw [some]
      exact exists_congr fun entry => and_congr_left fun covers => (only entry covers).symm
    · exact agrees entry ((only entry covers).mp member) covers

end Survey

namespace Format

variable {format : Format} {pool : Pool} {level : Level} {deeper levels : List Level} {node : Node}
  {base input : VirtualAddress} {table : PhysicalAddress} {slot : Slot}

theorem slot_of_contains (aligned : 512 * level.pageSize ∣ base.val)
    (within : (Extent.mk (base.val + slot.val * level.pageSize) level.pageSize).Contains
      input.val) :
    level.slot input.val = slot := by
  obtain ⟨count, start⟩ := aligned
  have least : base.val ≤ input.val := Nat.le_trans (Nat.le_add_right ..) within.1
  have block := (level.contains_block_iff slot.val least).mp within
  have place : input.val / level.pageSize = 512 * count + slot.val := by
    have split : input.val = level.pageSize * (512 * count) + (input.val - base.val) := by
      rw [← Nat.mul_left_comm, ← Nat.mul_assoc, ← start]
      omega
    rw [split, Nat.mul_add_div level.pageSize_pos, block]
  apply Fin.ext
  rw [Level.slot, Fin.val_ofNat, place, Nat.mul_add_mod, Nat.mod_eq_of_lt slot.isLt]

theorem mod_of_contains {start : Nat} (whole : level.pageSize ∣ start)
    (within : (Extent.mk start level.pageSize).Contains input.val) :
    input.val % level.pageSize = input.val - start := by
  obtain ⟨least, most⟩ := within
  simp only [Extent.stop] at least most
  have split : input.val = start + (input.val - start) := by omega
  rw [split, Nat.add_mod, Nat.mod_eq_zero_of_dvd whole, Nat.zero_add, Nat.mod_mod, ← split,
    Nat.mod_eq_of_lt (by omega)]

/-- How a lookup goes on at a descriptor of a node. -/
theorem lookupAt_of_node (found : pool.node? table = some node)
    (here : level.slot input.val = slot) :
    format.lookupAt pool input (level :: deeper) table =
      if format.isPresent (node.get slot) then
        if format.isPage level (node.get slot) then
          format.reading input (some (level, node.get slot))
        else
          format.lookupAt pool input deeper (format.address level (node.get slot))
      else
        .ok none := by
  rw [lookupAt, here, Pool.read?_of_node? found]
  rfl

/-- What a walk visits from one descriptor is what lookups find in its block. -/
theorem survey_walkFrom (divided : Level.Divided level deeper)
    (aligned : 512 * level.pageSize ∣ base.val)
    (limit : base.val + 512 * level.pageSize ≤ 1 <<< 48) (found : pool.node? table = some node)
    (depth : Nat) (slot : Slot)
    (ih : ∀ start : VirtualAddress, deeper ≠ [] → start.val + Level.span deeper ≤ 1 <<< 48 →
      Level.span deeper ∣ start.val → ∀ next,
      ∃ visits, format.walkAt pool deeper (depth + 1) next start = .ok visits ∧
        Survey (format.lookupAt pool · deeper next) (depth + 1) next
          ⟨start.val, Level.span deeper⟩ (visits.filterMap Visit.entry?)) :
    ∃ visits,
      format.walkFrom pool level deeper depth table base slot (node.get slot) = .ok visits ∧
      Survey (format.lookupAt pool · (level :: deeper) table) depth table
        ⟨base.val + slot.val * level.pageSize, level.pageSize⟩ (visits.filterMap Visit.entry?) := by
  have positive := level.pageSize_pos
  have address := Level.block_start_lt limit slot
  have whole : level.pageSize ∣ base.val + slot.val * level.pageSize :=
    ((Nat.dvd_mul_left ..).trans aligned).add (Nat.dvd_mul_left ..)
  by_cases present : format.isPresent (node.get slot) = true
  case neg =>
    refine ⟨[], walkFrom_absent present depth base, .nil fun input within => ?_⟩
    rw [lookupAt_of_node found (slot_of_contains aligned within), if_neg present]
  case pos =>
    by_cases page : format.isPage level (node.get slot) = true
    case pos =>
      refine ⟨_, walkFrom_page depth address present page,
        .page positive rfl rfl ⟨rfl, rfl⟩ fun input within => ?_⟩
      obtain ⟨result, value, read⟩ := reading_some divided page input
      refine ⟨⟨result, level.pageSize, format.pageFlags (node.get slot)⟩, ?_, _, rfl, ?_⟩
      · rw [lookupAt_of_node found (slot_of_contains aligned within), if_pos present, if_pos page,
          read]
      · rw [value, mod_of_contains whole within]
    case neg =>
      have link := Bool.eq_false_iff.mpr page
      have inner : deeper ≠ [] := by
        intro last
        simp [isPage, divided.leaf.mpr last] at link
      have start : Level.span deeper ∣ base.val + slot.val * level.pageSize :=
        divided.pageSize ▸ whole
      obtain ⟨below, walked, survey⟩ :=
        ih ⟨_, address⟩ inner (divided.room limit slot) start (format.address level (node.get slot))
      rw [← divided.pageSize] at survey
      refine ⟨_, walkFrom_link depth address present link walked,
        .link positive rfl rfl ⟨rfl, rfl⟩ (survey.congr fun input within => ?_)⟩
      rw [lookupAt_of_node found (slot_of_contains aligned within), if_pos present, if_neg page]

theorem survey_walkAt (nested : Level.Nested levels) (inner : levels ≠ [])
    (limit : base.val + Level.span levels ≤ 1 <<< 48) (aligned : Level.span levels ∣ base.val)
    (depth : Nat) (table : PhysicalAddress) :
    ∃ visits, format.walkAt pool levels depth table base = .ok visits ∧
      Survey (format.lookupAt pool · levels table) depth table ⟨base.val, Level.span levels⟩
        (visits.filterMap Visit.entry?) := by
  induction levels generalizing base depth table with
  | nil => exact absurd rfl inner
  | cons level deeper ih =>
    rw [walkAt_eq]
    cases found : pool.node? table with
    | none =>
      refine ⟨_, rfl, .nil fun input _ => ?_⟩
      rw [lookupAt, Pool.read?_of_absent found]
      rfl
    | some node =>
      apply exists_flatMapM fun slot visits =>
        Survey (format.lookupAt pool · (level :: deeper) table) depth table
          ⟨base.val + slot.val * level.pageSize, level.pageSize⟩ (visits.filterMap Visit.entry?)
      case each =>
        intro slot
        apply survey_walkFrom nested.1 aligned limit found depth slot
        exact fun _ further room whole next => ih nested.2 further room whole (depth + 1) next
      case gather =>
        intro parts each
        rw [List.filterMap_flatMap]
        exact .blocks each

end Format

namespace TranslationTable

/-- A walk returns what lookups find in the input space. -/
theorem survey_walk (table : TranslationTable) (pool : Pool) :
    ∃ entries : List WalkEntry,
      (∀ journal, (table.walk : Action Pool TableError _).outcome ⟨pool, journal⟩ = .ok entries) ∧
      Survey (table.format.lookupAt pool · table.format.levels table.root) 0 table.root
        ⟨0, 1 <<< 48⟩ entries := by
  have limit : (Address.zero : VirtualAddress).val + Level.span table.format.levels ≤ 1 <<< 48 :=
    Nat.le_of_eq (Nat.zero_add _)
  obtain ⟨visits, walked, survey⟩ := table.format.survey_walkAt table.format.nested_levels
    table.format.levels_ne_nil limit (Nat.dvd_zero _) 0 table.root
  exact ⟨_, fun _ => walk_outcome_of_visits walked, survey⟩

/-- Whatever a pool holds, the entries of a walk ascend strictly by address and depth, their pages
are apart, and each one below the root comes after the link to its table. An input address
translates exactly if a page of the walk covers it, and that page is the only one and says where it
leads. -/
theorem lookup_of_walk (table : TranslationTable) (pool : Pool) :
    ∃ entries : List WalkEntry,
      (∀ journal, (table.walk : Action Pool TableError _).outcome ⟨pool, journal⟩ = .ok entries) ∧
      entries.Pairwise WalkEntry.Precedes ∧
      (entries.Pairwise fun first second => ∀ input,
        ¬(first.Covers input ∧ second.Covers input)) ∧
      (∀ child ∈ entries, child.depth = 0 ∧ child.table = table.root ∨
        ∃ parent : WalkEntry, parent.Links child ∧ [parent, child].Sublist entries) ∧
      ∀ input : VirtualAddress, ∃ answer, table.lookup pool input = .ok answer ∧
        (answer.isSome ↔
          input.val < 1 <<< 48 ∧ ∃ entry ∈ entries, entry.Covers input.val) ∧
        ∀ entry ∈ entries, entry.Covers input.val →
          (∀ other ∈ entries, other.Covers input.val → other = entry) ∧
          ∃ translation, answer = some translation ∧ entry.Translates input.val translation := by
  obtain ⟨entries, walked, survey⟩ := table.survey_walk pool
  have ordered : entries.Pairwise WalkEntry.Precedes := survey.ordered.imp And.left
  have apart : entries.Pairwise fun first second => ∀ input,
      ¬(first.Covers input ∧ second.Covers input) :=
    survey.ordered.imp fun leads input both => Nat.not_lt.mpr both.2.start_le (leads.2 input both.1)
  refine ⟨entries, walked, ordered, apart, ?_, fun input => ?_⟩
  · intro child member
    apply (survey.rooted child member).imp_right
    rintro ⟨parent, within, links, precedes⟩
    exact ⟨parent, links, precedes.sublist ordered within member⟩
  · have inside_iff : (Extent.mk 0 (1 <<< 48)).Contains input.val ↔ input.val < 1 <<< 48 := by
      simp [Extent.Contains, Extent.stop]
    by_cases inside : input.val < 1 <<< 48
    case neg =>
      refine ⟨none, if_neg inside, ⟨fun some => ?_, fun both => absurd both.1 inside⟩, ?_⟩
      · cases some
      intro entry member covers
      exact absurd (inside_iff.mp (survey.covered entry member _ covers)) inside
    case pos =>
      obtain ⟨answer, looked, some, agrees⟩ := survey.found input (inside_iff.mpr inside)
      refine ⟨answer, (if_pos inside).trans looked, some.trans (and_iff_right inside).symm, ?_⟩
      intro entry member covers
      refine ⟨fun other member' covers' => ?_, agrees entry member covers⟩
      have symmetric : Std.Symm fun first second : WalkEntry => ∀ input,
          ¬(first.Covers input ∧ second.Covers input) :=
        ⟨fun _ _ none input both => none input both.symm⟩
      by_contra different
      exact apart.forall member' member different input.val ⟨covers', covers⟩

end TranslationTable

end DmaRemap

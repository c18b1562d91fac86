import DmaRemap.Proofs.Translations
import DmaRemap.Proofs.Walk

namespace DmaRemap

variable {pool before after : Pool} {forest : Forest} {table : TranslationTable}
  {trees : TranslationTable → Branches} {branches : Branches}

/-- The tables that the links of a table lead to, in the order of a walk. -/
def TranslationTable.links (table : TranslationTable) (pool : Pool) : List PhysicalAddress :=
  match table.visits pool with
  | .ok visits => visits.filterMap Visit.link?
  | .error _ => []

theorem TranslationTable.root_links (held : table.Held pool branches) :
    table.root :: table.links pool = table.nodes branches := by
  obtain ⟨entries, visited, links⟩ := visits_ok held
  rw [TranslationTable.links, visited]
  exact links

/-- The nodes that the tables of a forest reach, table by table. -/
def Forest.nodes (forest : Forest) : List PhysicalAddress :=
  forest.tables.flatMap fun table => table.root :: table.links forest.pool

namespace Planted

theorem nodes_eq (planted : Planted forest.pool forest.tables trees []) :
    forest.nodes = forest.tables.flatMap fun table => table.nodes (trees table) := by
  apply List.flatMap_congr
  exact fun table member => TranslationTable.root_links (planted.held table member)

theorem nodup_nodes (planted : Planted forest.pool forest.tables trees []) :
    forest.nodes.Nodup := by
  rw [planted.nodes_eq, List.nodup_flatMap]
  refine ⟨fun table member => (planted.held table member).nodup, ?_⟩
  exact planted.distinct.pairwise_of_forall_ne planted.apart

theorem contains_iff_mem_nodes (planted : Planted forest.pool forest.tables trees [])
    (address : PhysicalAddress) : forest.pool.contains address ↔ address ∈ forest.nodes := by
  rw [planted.nodes_eq, List.mem_flatMap]
  constructor
  · intro contained
    exact (planted.owned address contained).resolve_left List.not_mem_nil
  · intro holds
    obtain ⟨table, member, within⟩ := holds
    exact Pool.contains_iff.mpr ((planted.held table member).live within)

theorem links_contained (planted : Planted forest.pool forest.tables trees [])
    (member : table ∈ forest.tables) :
    ∃ entries : List WalkEntry, table.visits forest.pool = .ok (entries.map .entry) ∧
      ∀ entry ∈ entries, ∀ next, entry.target = .table next → forest.pool.contains next := by
  obtain ⟨entries, visited, links⟩ := TranslationTable.visits_ok (planted.held table member)
  refine ⟨entries, visited, fun entry walked next linked => ?_⟩
  apply Pool.contains_iff.mpr
  apply (planted.held table member).live
  rw [← links]
  apply List.mem_cons_of_mem
  apply List.mem_filterMap.mpr
  exact ⟨.entry entry, List.mem_map_of_mem walked, by simp [Visit.link?, linked]⟩

end Planted

namespace Forest

/-- An operation on one table of a forest is invisible in the others. -/
theorem Follows.unchanged {after : Forest} {operation : Operation} {short : Prop}
    {trees' : TranslationTable → Branches}
    (planted : Planted forest.pool forest.tables trees [])
    (follows : forest.Follows after operation short trees trees') (member : table ∈ forest.tables)
    (different : operation.table? ≠ some table) :
    (∀ input, table.lookup after.pool input = table.lookup forest.pool input) ∧
      ∃ entries : List WalkEntry, table.visits forest.pool = .ok (entries.map .entry) ∧
        table.visits after.pool = .ok (entries.map .entry) := by
  have held := planted.held table member
  have agree := follows.node table member different
  constructor
  · intro input
    rw [TranslationTable.lookup_eq held, TranslationTable.lookup_eq (held.transport agree)]
  · obtain ⟨entries, visited, _⟩ := TranslationTable.visits_ok held
    exact ⟨entries, visited, (TranslationTable.visits_congr held agree).trans visited⟩

/-- In every forest that operations reach, each link leads to a node of the pool, no node is reached
twice, and the nodes handed out are those that are reached. An operation on one table changes
neither a translation nor the walk of another. -/
theorem ownership (reached : forest.Reached) :
    (∀ table ∈ forest.tables, ∃ entries : List WalkEntry,
      table.visits forest.pool = .ok (entries.map .entry) ∧
        ∀ entry ∈ entries, ∀ next, entry.target = .table next → forest.pool.contains next) ∧
    forest.nodes.Nodup ∧
    (∀ address, forest.pool.contains address ↔ address ∈ forest.nodes) ∧
    forest.pool.used =
      (forest.tables.map fun table => 1 + (table.links forest.pool).length).sum ∧
    ∀ (operation : Operation) (journal : Journal), forest.Admits operation →
      ∀ other ∈ forest.tables, operation.table? ≠ some other →
        other ∈ (operation.perform.finish ⟨forest, journal⟩).state.tables ∧
        (∀ input, other.lookup (operation.perform.finish ⟨forest, journal⟩).state.pool input =
          other.lookup forest.pool input) ∧
        ∃ entries : List WalkEntry, ∀ journal' : Journal,
          (other.walk : Action Pool TableError _).outcome ⟨forest.pool, journal'⟩ = .ok entries ∧
          (other.walk : Action Pool TableError _).outcome
            ⟨(operation.perform.finish ⟨forest, journal⟩).state.pool, journal'⟩ = .ok entries := by
  obtain ⟨trees, planted⟩ := reached.planted
  refine ⟨fun table => planted.links_contained, planted.nodup_nodes,
    planted.contains_iff_mem_nodes, ?_,
    fun operation journal admitted other member different => ?_⟩
  · rw [planted.sound.used_eq_length planted.nodup_nodes planted.contains_iff_mem_nodes, nodes,
      List.length_flatMap]
    simp only [List.length_cons, Nat.add_comm]
  · obtain ⟨trees', follows⟩ := follows_finish planted admitted journal
    obtain ⟨lookups, entries, before, after⟩ := follows.unchanged planted member different
    refine ⟨follows.member other member different, lookups, entries, fun journal' => ⟨?_, ?_⟩⟩
    · exact TranslationTable.walk_outcome before
    · exact TranslationTable.walk_outcome after

/-- The mapped sample with a second, empty table of the other format. -/
def pairSample : Forest :=
  ((Operation.create .cpu .coherent).perform.finish ⟨mappedSample, silent⟩).state

theorem reached_pairSample : pairSample.Reached :=
  reached_mappedSample.step
    (show mappedSample.Admits (.create .cpu .coherent) from
      fun index => (mappedSample.pool.addressOf index).isLt) _

/-- The two tables of the sample share the four nodes of their pool. -/
theorem ownership_sample :
    pairSample.tables.length = 2 ∧ pairSample.pool.used = 4 ∧ pairSample.nodes.Nodup ∧
      pairSample.pool.used =
        (pairSample.tables.map fun table => 1 + (table.links pairSample.pool).length).sum := by
  obtain ⟨_, nodup, _, used, _⟩ := ownership reached_pairSample
  exact ⟨by decide +kernel, by decide +kernel, nodup, used⟩

end Forest

end DmaRemap

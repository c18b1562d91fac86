import DmaRemap.Proofs.Canonical
import DmaRemap.Proofs.Release

namespace DmaRemap

namespace TranslationTable

/-- A pool holds a table with these branches. -/
abbrev Held (table : TranslationTable) (pool : Pool) (branches : Branches) : Prop :=
  table.format.Held pool table.format.levels table.root branches

/-- Whether the branches of a table are canonical. -/
abbrev Canonical (table : TranslationTable) (branches : Branches) : Prop :=
  ∀ slot, table.format.Canonical (branches slot)

/-- The nodes of a table with these branches. -/
abbrev nodes (table : TranslationTable) (branches : Branches) : List PhysicalAddress :=
  table.format.tablesFrom table.root branches

theorem create_ends (format : Format) (coherency : Coherency) (start : Journaled Pool) :
    (create format coherency).Ends start
      (fun table last => table.format = format ∧ table.Held last.state Format.blank ∧
        start.state.Exchanges last.state [] (table.nodes Format.blank))
      (fun _ last => last.state = start.state) := by
  simp only [create, Action.ends_bind]
  apply (Pool.construct_ends start).mono
  · intro root middle ended
    obtain ⟨taken, zero⟩ := ended
    simp only [Action.ends_record, Action.ends_pure, Format.tablesFrom_blank]
    exact ⟨trivial, Format.held_blank zero format.levels_ne_nil, taken⟩
  · exact fun _ _ stopped => stopped.2.1

end TranslationTable

variable {pool before after : Pool} {tables : List TranslationTable}
  {table other : TranslationTable} {trees : TranslationTable → Branches} {branches : Branches}
  {spare old new : List PhysicalAddress} {short : Prop}

/-- A pool holds tables, each with nodes of its own. Every node that was handed out is one of theirs
or among the spare ones. -/
structure Planted (pool : Pool) (tables : List TranslationTable)
    (trees : TranslationTable → Branches) (spare : List PhysicalAddress) : Prop where
  held : ∀ table ∈ tables, table.Held pool (trees table)
  fits : ∀ table ∈ tables, table.format.Fits pool
  distinct : tables.Nodup
  apart : ∀ table ∈ tables, ∀ other ∈ tables, table ≠ other →
    (table.nodes (trees table)).Disjoint (other.nodes (trees other))
  clear : ∀ table ∈ tables, (table.nodes (trees table)).Disjoint spare
  owned : ∀ address, pool.contains address →
    address ∈ spare ∨ ∃ table ∈ tables, address ∈ table.nodes (trees table)
  sound : pool.Sound

namespace Planted

theorem perm {tables' : List TranslationTable} (planted : Planted pool tables trees spare)
    (same : tables.Perm tables') : Planted pool tables' trees spare where
  held table member := planted.held table (same.mem_iff.mpr member)
  fits table member := planted.fits table (same.mem_iff.mpr member)
  distinct := same.nodup_iff.mp planted.distinct
  apart table member other also :=
    planted.apart table (same.mem_iff.mpr member) other (same.mem_iff.mpr also)
  clear table member := planted.clear table (same.mem_iff.mpr member)
  owned address contained := by
    simpa only [← same.mem_iff] using planted.owned address contained
  sound := planted.sound

theorem mem_erase (planted : Planted pool tables trees spare) (member : other ∈ tables)
    (different : some table ≠ some other) : other ∈ tables.erase table :=
  planted.distinct.mem_erase_iff.mpr
    ⟨fun same : other = table => different (congrArg some same.symm), member⟩

theorem uproot (planted : Planted pool tables trees []) (member : table ∈ tables) :
    Planted pool (tables.erase table) trees (table.nodes (trees table)) where
  held other kept := planted.held other (List.mem_of_mem_erase kept)
  fits other kept := planted.fits other (List.mem_of_mem_erase kept)
  distinct := planted.distinct.erase table
  apart other kept another also :=
    planted.apart other (List.mem_of_mem_erase kept) another (List.mem_of_mem_erase also)
  clear other kept := by
    obtain ⟨different, kept⟩ := planted.distinct.mem_erase_iff.mp kept
    exact planted.apart other kept table member different
  owned address contained := by
    obtain none | ⟨other, kept, within⟩ := planted.owned address contained
    · cases none
    · by_cases same : other = table
      · exact .inl (same ▸ within)
      · exact .inr ⟨other, planted.distinct.mem_erase_iff.mpr ⟨same, kept⟩, within⟩
  sound := planted.sound

/-- An exchange of spare nodes disturbs no table. -/
theorem undisturbed (planted : Planted before tables trees old)
    (exchange : before.Exchanges after old new) (member : table ∈ tables)
    {address : PhysicalAddress} (within : address ∈ table.nodes (trees table)) :
    address ∉ new ∧ after.node? address = before.node? address := by
  obtain ⟨node, live⟩ := (planted.held table member).live within
  obtain ⟨absent, same⟩ := exchange.kept live (planted.clear table member within)
  exact ⟨absent, same.trans live.symm⟩

theorem exchange (planted : Planted before tables trees old)
    (exchange : before.Exchanges after old new) : Planted after tables trees new where
  held table member := (planted.held table member).transport fun _ within =>
    (planted.undisturbed exchange member within).2
  fits table member := (planted.fits table member).exchange exchange
  distinct := planted.distinct
  apart := planted.apart
  clear table member _ within := (planted.undisturbed exchange member within).1
  owned address contained := by
    by_cases added : address ∈ new
    · exact .inl added
    · obtain ⟨node, live⟩ := Pool.contains_iff.mp contained
      by_cases spared : address ∈ old
      · rw [exchange.released address spared added] at live
        cases live
      · rw [exchange.elsewhere address spared added] at live
        have owned := planted.owned address (Pool.contains_iff.mpr ⟨node, live⟩)
        exact .inr (owned.resolve_left spared)
  sound := exchange.sound planted.sound

theorem plant (planted : Planted pool tables trees (table.nodes branches))
    (held : table.Held pool branches) (fits : table.format.Fits pool) :
    Planted pool (table :: tables) (Function.update trees table branches) [] := by
  have absent : table ∉ tables := fun member =>
    planted.clear table member (Format.mem_tablesFrom_iff.mpr (.inl rfl))
      (Format.mem_tablesFrom_iff.mpr (.inl rfl))
  have elsewhere (other : TranslationTable) (member : other ∈ tables) :
      Function.update trees table branches other = trees other :=
    Function.update_of_ne (fun same : other = table => absent (same ▸ member)) ..
  have here : Function.update trees table branches table = branches := Function.update_self ..
  refine ⟨?_, ?_, List.nodup_cons.mpr ⟨absent, planted.distinct⟩, ?_, fun _ _ => by simp, ?_,
    planted.sound⟩
  · intro other member
    rcases List.mem_cons.mp member with rfl | kept
    · rwa [here]
    · rw [elsewhere other kept]
      exact planted.held other kept
  · intro other member
    rcases List.mem_cons.mp member with rfl | kept
    · exact fits
    · exact planted.fits other kept
  · intro first member second also different
    rcases List.mem_cons.mp member with rfl | kept
    · rcases List.mem_cons.mp also with rfl | kept
      · exact absurd rfl different
      · rw [here, elsewhere second kept]
        exact (planted.clear second kept).symm
    · rw [elsewhere first kept]
      rcases List.mem_cons.mp also with rfl | kept'
      · rw [here]
        exact planted.clear first kept
      · rw [elsewhere second kept']
        exact planted.apart first kept second kept' different
  · intro address contained
    rcases planted.owned address contained with spared | ⟨other, kept, within⟩
    · exact .inr ⟨table, List.mem_cons_self, by rwa [here]⟩
    · exact .inr ⟨other, List.mem_cons_of_mem _ kept, by rwa [elsewhere other kept]⟩

theorem edit (planted : Planted before tables trees []) (member : table ∈ tables)
    (edited : table.format.Edited before after table.format.levels table.root (trees table)
      branches) :
    Planted after tables (Function.update trees table branches) [] := by
  have fits := (planted.fits table member).exchange edited.exchange
  have replanted := ((planted.uproot member).exchange edited.exchange).plant edited.held fits
  exact replanted.perm (List.perm_cons_erase member).symm

end Planted

/-- Tables that draw their nodes from one pool. -/
structure Forest where
  pool : Pool
  tables : List TranslationTable

/-- What is done to a forest: a table is added, or one of its tables is changed or destroyed. -/
inductive Operation where
  | create (format : Format) (coherency : Coherency)
  | insert (table : TranslationTable) (start : VirtualAddress) (target : PhysicalAddress)
      (size : Nat) (flags : PageFlags)
  | remove (table : TranslationTable) (start : VirtualAddress) (size : Nat)
  | clear (table : TranslationTable)
  | destroy (table : TranslationTable)

namespace Operation

/-- The table that an operation is about. -/
def table? : Operation → Option TranslationTable
  | create .. => none
  | insert table .. | remove table .. | clear table | destroy table => some table

/-- Whether an operation is an insertion for which the pool had too few nodes. -/
def RanShort : Operation → Except (Failure TableError) Unit → Prop
  | insert .., .error (.error .outOfMemory) => True
  | _, _ => False

/-- What an operation does. -/
def perform : Operation → Action Forest TableError Unit
  | create format coherency => do
    let table ← onPool (TranslationTable.create format coherency)
    Action.update fun forest => { forest with tables := table :: forest.tables }
  | insert table start target size flags => onPool (table.insert start target size flags)
  | remove table start size => onPool (table.remove start size)
  | clear table => onPool table.clear
  | destroy table => do
    onPool table.destroy
    Action.update fun forest => { forest with tables := forest.tables.erase table }
where
  onPool {α : Type} (action : Action Pool TableError α) : Action Forest TableError α :=
    Action.on ⟨Forest.pool, fun pool forest => { forest with pool }⟩ action

end Operation

/-- What an operation makes of the branches of a table: an insertion lets them grow, a removal
prunes them, and clearing leaves none. A refused operation, or one on another table, keeps them. -/
inductive Operation.Reshapes (short : Prop) (table : TranslationTable) (branches : Branches) :
    Operation → Branches → Prop where
  | kept (operation : Operation) : Reshapes short table branches operation branches
  | inserted {start : VirtualAddress} {target : PhysicalAddress} {size done : Nat}
      {flags : PageFlags} {branches' : Branches}
      (grown : table.format.Grown table.format.levels (.mapping start target size flags) done short
        branches branches') :
      Reshapes short table branches (.insert table start target size flags) branches'
  | removed {start : VirtualAddress} {size : Nat} (accepts : table.format.Accepts start size) :
      Reshapes short table branches (.remove table start size)
        (table.format.pruned table.format.levels ⟨start.val, size⟩ branches)
  | cleared : Reshapes short table branches (.clear table) Format.blank

theorem Operation.Reshapes.imp {operation : Operation} {branches' : Branches} {short' : Prop}
    (weaken : short → short') (reshapes : operation.Reshapes short table branches branches') :
    operation.Reshapes short' table branches branches' := by
  cases reshapes with
  | kept => exact .kept operation
  | inserted grown => exact .inserted (grown.imp weaken)
  | removed accepts => exact .removed accepts
  | cleared => exact .cleared

namespace Forest

variable {forest : Forest} {operation : Operation} {trees' : TranslationTable → Branches}

/-- What an operation leaves behind: the forest is planted with new trees. The operation has
reshaped the tree of its table, and the other tables are what they were. -/
structure Follows (before after : Forest) (operation : Operation) (short : Prop)
    (trees trees' : TranslationTable → Branches) : Prop where
  planted : Planted after.pool after.tables trees' []
  survives : ∀ table ∈ before.tables, operation ≠ .destroy table → table ∈ after.tables
  tree : ∀ table ∈ before.tables, operation.table? ≠ some table → trees' table = trees table
  node : ∀ table ∈ before.tables, operation.table? ≠ some table →
    ∀ address ∈ table.nodes (trees table), after.pool.node? address = before.pool.node? address
  reshaped : ∀ table ∈ after.tables, table ∈ before.tables →
    operation.Reshapes short table (trees table) (trees' table)
  added : ∀ table ∈ after.tables, table ∉ before.tables → trees' table = Format.blank

theorem Follows.member {after : Forest}
    (follows : forest.Follows after operation short trees trees') (table : TranslationTable)
    (member : table ∈ forest.tables) (different : operation.table? ≠ some table) :
    table ∈ after.tables := by
  apply follows.survives table member
  rintro rfl
  exact different rfl

theorem Follows.refl (planted : Planted forest.pool forest.tables trees [])
    (operation : Operation) : forest.Follows forest operation short trees trees :=
  ⟨planted, fun _ member _ => member, fun _ _ _ => rfl, fun _ _ _ _ _ => rfl,
    fun _ _ _ => .kept operation, fun _ member absent => absurd member absent⟩

theorem Follows.edit (planted : Planted forest.pool forest.tables trees [])
    (member : table ∈ forest.tables) (same : operation.table? = some table)
    (edited : table.format.Edited forest.pool after table.format.levels table.root (trees table)
      branches)
    (reshapes : operation.Reshapes short table (trees table) branches) :
    forest.Follows ⟨after, forest.tables⟩ operation short trees
      (Function.update trees table branches) where
  planted := planted.edit member edited
  survives _ kept _ := kept
  tree other _ different :=
    Function.update_of_ne (fun here : other = table => different (here ▸ same)) ..
  node _ kept different _ within :=
    ((planted.uproot member).undisturbed edited.exchange
      (planted.mem_erase kept (same ▸ different)) within).2
  reshaped other _ _ := by
    by_cases here : other = table
    · rw [here, Function.update_self]
      exact reshapes
    · rw [Function.update_of_ne here]
      exact .kept operation
  added _ kept absent := absurd kept absent

theorem Follows.plant {format : Format} {coherency : Coherency}
    (planted : Planted forest.pool forest.tables trees [])
    (fits : table.format.Fits forest.pool) (held : table.Held after Format.blank)
    (exchange : forest.pool.Exchanges after [] (table.nodes Format.blank)) :
    forest.Follows ⟨after, table :: forest.tables⟩ (.create format coherency) short trees
      (Function.update trees table Format.blank) := by
  have replanted := (planted.exchange exchange).plant held (fits.exchange exchange)
  have elsewhere (other : TranslationTable) (member : other ∈ forest.tables) :
      Function.update trees table Format.blank other = trees other := by
    have absent := (List.nodup_cons.mp replanted.distinct).1
    exact Function.update_of_ne (fun same : other = table => absent (same ▸ member)) ..
  constructor
  case planted => exact replanted
  case survives => exact fun other member _ => List.mem_cons_of_mem _ member
  case tree => exact fun other member _ => elsewhere other member
  case node => exact fun other member _ _ within => (planted.undisturbed exchange member within).2
  case reshaped =>
    intro other _ member
    rw [elsewhere other member]
    exact .kept _
  case added =>
    intro other kept absent
    obtain rfl := (List.mem_cons.mp kept).resolve_right absent
    exact Function.update_self ..

theorem Follows.uproot (planted : Planted forest.pool forest.tables trees [])
    (member : table ∈ forest.tables)
    (exchange : forest.pool.Exchanges after (table.nodes (trees table)) []) :
    forest.Follows ⟨after, forest.tables.erase table⟩ (.destroy table) short trees trees := by
  have uprooted := planted.uproot member
  constructor
  case planted => exact uprooted.exchange exchange
  case survives =>
    intro other kept different
    exact planted.mem_erase kept fun same => different (by rw [Option.some.inj same])
  case tree => exact fun _ _ _ => rfl
  case node =>
    intro other kept different _ within
    exact (uprooted.undisturbed exchange (planted.mem_erase kept different) within).2
  case reshaped => exact fun _ _ _ => .kept _
  case added => exact fun other kept absent => absurd (List.mem_of_mem_erase kept) absent

/-- Canonical trees stay canonical unless the pool ran short. -/
theorem Follows.canonical {after : Forest} (planted : Planted forest.pool forest.tables trees [])
    (follows : forest.Follows after operation short trees trees') (enough : ¬short)
    (canonical : ∀ table ∈ forest.tables, table.Canonical (trees table)) :
    ∀ table ∈ after.tables, table.Canonical (trees' table) := by
  intro table kept
  by_cases member : table ∈ forest.tables
  · have before := canonical table member
    have shaped := (planted.held table member).shaped
    have shaped' := (follows.planted.held table kept).shaped
    have reshaped := (follows.reshaped table kept member).imp enough
    generalize trees' table = branches at reshaped shaped' ⊢
    cases reshaped with
    | kept => exact before
    | inserted grown =>
      exact Format.canonical_grown table.format.nested_levels shaped shaped' before grown
    | removed accepts => exact Format.canonical_pruned _ before
    | cleared => exact Format.canonical_blank
  · rw [follows.added table kept member]
    exact Format.canonical_blank

/-- The operations that a forest admits: those on its tables, and new tables of a format whose links
can name every node of the pool. -/
def Admits (forest : Forest) : Operation → Prop
  | .create format _ => format.Fits forest.pool
  | .insert table .. | .remove table .. | .clear table | .destroy table => table ∈ forest.tables

/-- Every operation keeps a forest planted, whatever its outcome is. -/
theorem perform_ends (planted : Planted forest.pool forest.tables trees []) {operation : Operation}
    (admitted : forest.Admits operation) (journal : Journal) :
    operation.perform.Ends ⟨forest, journal⟩
      (fun _ last => ∃ trees', forest.Follows last.state operation False trees trees')
      (fun cause last => ∃ trees', forest.Follows last.state operation
        (operation.RanShort (.error cause)) trees trees') := by
  cases operation with
  | create format coherency =>
    simp only [Operation.perform, Operation.perform.onPool, Action.ends_bind, Action.ends_on,
      Action.ends_update]
    apply (TranslationTable.create_ends format coherency _).mono
    · intro table last ended
      obtain ⟨rfl, held, exchange⟩ := ended
      exact ⟨_, .plant planted admitted held exchange⟩
    · intro cause last same
      rw [same]
      exact ⟨trees, .refl planted _⟩
  | insert table start target size flags =>
    simp only [Operation.perform, Operation.perform.onPool, Action.ends_on]
    apply (TranslationTable.insert_ends (planted.held table admitted) (planted.fits table admitted)
      start target size flags).mono
    · intro _ last ended
      obtain ⟨_, branches, edited, grown, _⟩ := ended
      exact ⟨_, .edit planted admitted rfl edited (.inserted grown)⟩
    · intro cause last ended
      rcases ended with ⟨⟨same, _⟩, _⟩ | ⟨_, done, _, _, ⟨branches, edited, grown, _⟩, _⟩
      · rw [same]
        exact ⟨trees, .refl planted _⟩
      · refine ⟨_, .edit planted admitted rfl edited (.inserted (grown.imp fun ended => ?_))⟩
        rw [ended]
        trivial
  | remove table start size =>
    simp only [Operation.perform, Operation.perform.onPool, Action.ends_on]
    apply (TranslationTable.remove_ends (planted.held table admitted) start size).mono
    · intro _ last ended
      obtain ⟨accepts, edited⟩ := ended
      exact ⟨_, .edit planted admitted rfl edited (.removed accepts)⟩
    · intro cause last ended
      obtain ⟨same, _⟩ := ended
      rw [same]
      exact ⟨trees, .refl planted _⟩
  | clear table =>
    simp only [Operation.perform, Operation.perform.onPool, Action.ends_on]
    apply (TranslationTable.clear_ends (planted.held table admitted)).mono _
      fun _ _ => False.elim
    exact fun _ last edited => ⟨_, .edit planted admitted rfl edited .cleared⟩
  | destroy table =>
    simp only [Operation.perform, Operation.perform.onPool, Action.ends_bind, Action.ends_on,
      Action.ends_update]
    apply (TranslationTable.destroy_ends (planted.held table admitted)).mono _
      fun _ _ => False.elim
    exact fun _ _ exchange => ⟨trees, .uproot planted admitted exchange⟩

/-- A run of operations, with the operations and their outcomes in order. Whatever the outcome of an
operation is, the run goes on from what it left behind. -/
inductive Run (first : Forest) :
    List (Operation × Except (Failure TableError) Unit) → Forest → Prop where
  | start : Run first [] first
  | step {trace : List (Operation × Except (Failure TableError) Unit)} {forest : Forest}
      (run : Run first trace forest) {operation : Operation} (admitted : forest.Admits operation)
      (journal : Journal) :
      Run first (trace ++ [(operation, operation.perform.outcome ⟨forest, journal⟩)])
        (operation.perform.finish ⟨forest, journal⟩).state

/-- Every operation that is admitted leaves a planted forest. -/
theorem follows_finish (planted : Planted forest.pool forest.tables trees [])
    {operation : Operation} (admitted : forest.Admits operation) (journal : Journal) :
    ∃ trees', forest.Follows (operation.perform.finish ⟨forest, journal⟩).state operation
      (operation.RanShort (operation.perform.outcome ⟨forest, journal⟩)) trees trees' := by
  rcases (perform_ends planted admitted journal).outcome_finish with
    ⟨_, returned, trees', follows⟩ | ⟨_, failed, trees', follows⟩
  · exact ⟨trees', { follows with
      reshaped := fun table kept member => (follows.reshaped table kept member).imp False.elim }⟩
  · exact ⟨trees', failed ▸ follows⟩

/-- Whether the pool had enough nodes for every insertion of a run. -/
def Sufficed (trace : List (Operation × Except (Failure TableError) Unit)) : Prop :=
  ∀ entry ∈ trace, ¬entry.1.RanShort entry.2

/-- A run keeps a forest planted, and keeps its trees canonical if the pool sufficed. -/
theorem Run.planted {first last : Forest}
    {trace : List (Operation × Except (Failure TableError) Unit)} (run : Run first trace last)
    (planted : Planted first.pool first.tables trees [])
    (canonical : ∀ table ∈ first.tables, table.Canonical (trees table)) :
    ∃ trees', Planted last.pool last.tables trees' [] ∧
      (Sufficed trace → ∀ table ∈ last.tables, table.Canonical (trees' table)) := by
  induction run with
  | start => exact ⟨trees, planted, fun _ => canonical⟩
  | step run admitted journal ih =>
    obtain ⟨_, reached, before⟩ := ih
    obtain ⟨trees', follows⟩ := follows_finish reached admitted journal
    refine ⟨trees', follows.planted, fun sufficed => ?_⟩
    apply follows.canonical reached
    · exact sufficed _ (List.mem_append_right _ List.mem_cons_self)
    · exact before fun entry member => sufficed entry (List.mem_append_left _ member)

/-- The forests that runs from a new pool reach. -/
def Reached (forest : Forest) : Prop :=
  ∃ base nodes pool trace, Pool.over? base nodes = some pool ∧ Run ⟨pool, []⟩ trace forest

/-- The forests that such runs reach without an insertion for which the pool had too few nodes. -/
def ReachedSufficed (forest : Forest) : Prop :=
  ∃ base nodes pool trace,
    Pool.over? base nodes = some pool ∧ Run ⟨pool, []⟩ trace forest ∧ Sufficed trace

theorem ReachedSufficed.reached (reached : forest.ReachedSufficed) : forest.Reached := by
  obtain ⟨base, nodes, pool, trace, made, run, _⟩ := reached
  exact ⟨base, nodes, pool, trace, made, run⟩

theorem planted_nil {base : PhysicalAddress} {nodes : Array Node}
    (made : Pool.over? base nodes = some pool) :
    Planted pool [] (fun _ => Format.blank) [] := by
  refine ⟨nofun, nofun, List.nodup_nil, nofun, nofun, fun address contained => ?_,
    Pool.sound_of_over? made⟩
  obtain ⟨node, held⟩ := Pool.contains_iff.mp contained
  rw [Pool.node?_of_over? made] at held
  cases held

theorem Reached.planted (reached : forest.Reached) :
    ∃ trees, Planted forest.pool forest.tables trees [] := by
  obtain ⟨base, nodes, pool, trace, made, run⟩ := reached
  obtain ⟨trees, planted, _⟩ := run.planted (planted_nil made) nofun
  exact ⟨trees, planted⟩

theorem ReachedSufficed.canonical (reached : forest.ReachedSufficed) :
    ∃ trees, Planted forest.pool forest.tables trees [] ∧
      ∀ table ∈ forest.tables, table.Canonical (trees table) := by
  obtain ⟨base, nodes, pool, trace, made, run, sufficed⟩ := reached
  obtain ⟨trees, planted, canonical⟩ := run.planted (planted_nil made) nofun
  exact ⟨trees, planted, canonical sufficed⟩

theorem Reached.step (reached : forest.Reached) {operation : Operation}
    (admitted : forest.Admits operation) (journal : Journal) :
    (operation.perform.finish ⟨forest, journal⟩).state.Reached := by
  obtain ⟨base, nodes, pool, trace, made, run⟩ := reached
  exact ⟨base, nodes, pool, _, made, run.step admitted journal⟩

theorem ReachedSufficed.step (reached : forest.ReachedSufficed) {operation : Operation}
    (admitted : forest.Admits operation) (journal : Journal)
    (enough : ¬operation.RanShort (operation.perform.outcome ⟨forest, journal⟩)) :
    (operation.perform.finish ⟨forest, journal⟩).state.ReachedSufficed := by
  obtain ⟨base, nodes, pool, trace, made, run, sufficed⟩ := reached
  refine ⟨base, nodes, pool, _, made, run.step admitted journal, fun entry member => ?_⟩
  rcases List.mem_append.mp member with before | last
  · exact sufficed entry before
  · rwa [List.mem_singleton.mp last]

/-- A pool of four nodes. -/
def samplePool : Pool :=
  .fresh ⟨0x100 <<< 12, by decide⟩ 4 (by decide) (by decide)

/-- A journal that keeps no message. -/
def silent : Journal := { threshold := none }

/-- A second-level table whose root is the first node of the pool. -/
def sampleTable : TranslationTable := ⟨.secondLevel, samplePool.base, .coherent⟩

/-- The forest with this table alone. -/
def sample : Forest :=
  ((Operation.create .secondLevel .coherent).perform.finish ⟨⟨samplePool, []⟩, silent⟩).state

theorem reachedSufficed_sample : sample.ReachedSufficed := by
  have made : Pool.over? samplePool.base (Array.replicate 4 Node.zero) = some samplePool :=
    Pool.over?_eq_fresh Array.size_replicate _ _
  have bare : ReachedSufficed ⟨samplePool, []⟩ := ⟨_, _, _, _, made, .start, List.forall_mem_nil _⟩
  have admitted : Admits ⟨samplePool, []⟩ (.create .secondLevel .coherent) := by
    intro index
    have last : index.val < 4 := index.isLt
    simp only [Pool.addressOf, samplePool, Pool.fresh, Format.outputBits]
    omega
  exact bare.step admitted silent id

theorem reached_sample : sample.Reached :=
  reachedSufficed_sample.reached

theorem sampleTable_mem : sampleTable ∈ sample.tables := by
  decide +kernel

/-- The sample with a page of 2 MiB in its table. -/
def mappedSample : Forest :=
  ((Operation.insert sampleTable ⟨0x200000, by decide⟩ ⟨0x400000, by decide⟩ 0x200000
    .empty).perform.finish ⟨sample, silent⟩).state

theorem reachedSufficed_mappedSample : mappedSample.ReachedSufficed := by
  have returned : (Operation.insert sampleTable ⟨0x200000, by decide⟩ ⟨0x400000, by decide⟩ 0x200000
      .empty).perform.outcome ⟨sample, silent⟩ = .ok () := by
    decide +kernel
  exact reachedSufficed_sample.step (show sample.Admits (.insert sampleTable _ _ _ _) from
    sampleTable_mem) silent (by rw [returned]; exact id)

theorem reached_mappedSample : mappedSample.Reached :=
  reachedSufficed_mappedSample.reached

end Forest

end DmaRemap

import DmaRemap.Proofs.Forest
import DmaRemap.Proofs.Matching
import DmaRemap.Proofs.Total

/-! The accessed and dirty bits. Hardware sets them in the descriptors of a pool at any time, and no
operation lets what it does depend on them: two pools that differ in those bits alone are told apart
by no outcome, no lookup and no walk but for the raw words, and stay so alike. -/

namespace DmaRemap

open DmaRemap.Action (Matches Blind)

namespace Format

variable {format : Format} {level : Level} {word word' : Word}

/-- A word without the bits that hardware sets on its own. It sets them in valid descriptors. -/
def settled (format : Format) (word : Word) : Word :=
  if format.isPresent word then format.strip word else word

@[simp] theorem isPresent_settled :
    format.isPresent (format.settled word) = format.isPresent word := by
  unfold settled
  split <;> simp

@[simp] theorem isPage_settled :
    format.isPage level (format.settled word) = format.isPage level word := by
  unfold settled
  split <;> simp

@[simp] theorem address_settled :
    format.address level (format.settled word) = format.address level word := by
  unfold settled
  split <;> simp

@[simp] theorem pageFlags_settled :
    format.pageFlags (format.settled word) = format.pageFlags word := by
  unfold settled
  split <;> simp

@[simp] theorem target_settled :
    format.target level (format.settled word) = format.target level word := by
  simp [target]

theorem strip_settled : format.strip (format.settled word) = format.strip word := by
  unfold settled
  split
  · exact (BitVec.and_assoc ..).trans (congrArg _ (BitVec.and_self ..))
  · rfl

@[simp] theorem settled_zero : format.settled 0#64 = 0#64 := by
  simp [settled]

end Format

namespace Node

variable {format : Format} {node : Node}

/-- A node without the bits that hardware sets. -/
def settled (format : Format) (node : Node) : Node :=
  node.map format.settled

@[simp] theorem getElem_settled (index : Nat) (within : index < 512) :
    (node.settled format)[index] = format.settled node[index] := by
  simp [settled]

@[simp] theorem get_settled (slot : Slot) :
    (node.settled format).get slot = format.settled (node.get slot) := by
  simp [Vector.get_eq_getElem]

@[simp] theorem settled_zero : zero.settled format = zero := by
  simp [settled, zero]

@[simp] theorem isEmptyNode_settled :
    format.isEmptyNode (node.settled format) = format.isEmptyNode node := by
  simp [Format.isEmptyNode]

end Node

namespace Pool

variable {format : Format} {pool pool' : Pool} {address : PhysicalAddress} {slot : Slot}

/-- A pool without the bits that hardware sets. -/
def settled (format : Format) (pool : Pool) : Pool :=
  { pool with nodes := pool.nodes.map (Node.settled format) }

/-- Two pools that differ at most in the bits that hardware sets in valid descriptors. -/
def Alike (format : Format) (pool pool' : Pool) : Prop :=
  pool.settled format = pool'.settled format

theorem indexOf?_settled :
    (pool.settled format).indexOf? address = pool.indexOf? address :=
  rfl

theorem node?_settled :
    (pool.settled format).node? address = (pool.node? address).map (Node.settled format) := by
  simp only [node?, indexOf?_settled, Option.map_map]
  congr 1
  funext index
  exact Vector.getElem_map ..

theorem read?_settled :
    (pool.settled format).read? address slot =
      (pool.read? address slot).map format.settled := by
  simp [read?_eq, node?_settled, Function.comp_def, Vector.get_eq_getElem]

theorem contains_settled : (pool.settled format).contains address = pool.contains address := by
  rw [Bool.eq_iff_iff, contains_iff, contains_iff, node?_settled]
  simp

theorem take_settled :
    (pool.settled format).take = (pool.take.1, pool.take.2.settled format) := by
  unfold take
  cases found : pool.handedOut.lowestFree? with
  | none => simp [settled, found]
  | some index => simp [settled, found, addressOf, Vector.map_set]

theorem giveBack_settled : (pool.settled format).giveBack address =
    ((pool.giveBack address).1, (pool.giveBack address).2.settled format) := by
  unfold giveBack
  rw [indexOf?_settled]
  cases pool.indexOf? address with
  | none => rfl
  | some index => simp [settled, Vector.map_set]

theorem modifyNode_settled {change change' : Node → Node}
    (commutes : ∀ node : Node, change' (node.settled format) = (change node).settled format) :
    (pool.settled format).modifyNode address change' =
      (pool.modifyNode address change).settled format := by
  unfold modifyNode
  rw [indexOf?_settled]
  cases pool.indexOf? address with
  | none => rfl
  | some index =>
    have changed : (pool.nodes.map (Node.settled format)).set index
          (change' ((pool.nodes.map (Node.settled format)).get index)) =
        (pool.nodes.set index (change (pool.nodes.get index))).map (Node.settled format) := by
      simp [commutes, Vector.map_set, Vector.get_eq_getElem]
    exact congrArg (fun nodes => { pool with nodes }) changed

theorem Alike.node? (alike : pool.Alike format pool') (address : PhysicalAddress) :
    (pool.node? address).map (Node.settled format) =
      (pool'.node? address).map (Node.settled format) := by
  rw [← node?_settled, ← node?_settled, alike]

theorem Alike.read? (alike : pool.Alike format pool') (address : PhysicalAddress) (slot : Slot) :
    (pool.read? address slot).map format.settled =
      (pool'.read? address slot).map format.settled := by
  rw [← read?_settled, ← read?_settled, alike]

theorem Alike.read?_cases (alike : pool.Alike format pool') (address : PhysicalAddress)
    (slot : Slot) :
    (pool.read? address slot = none ∧ pool'.read? address slot = none) ∨
      ∃ word word', pool.read? address slot = some word ∧ pool'.read? address slot = some word' ∧
        format.settled word = format.settled word' := by
  have same := alike.read? address slot
  cases held : pool.read? address slot <;> cases held' : pool'.read? address slot <;>
    simp_all

theorem Alike.contains (alike : pool.Alike format pool') (address : PhysicalAddress) :
    pool.contains address = pool'.contains address :=
  contains_settled.symm.trans ((congrArg (·.contains address) alike).trans contains_settled)

theorem Alike.take (alike : pool.Alike format pool') :
    pool.take.1 = pool'.take.1 ∧ pool.take.2.Alike format pool'.take.2 := by
  have same := congrArg Pool.take alike
  rw [take_settled, take_settled] at same
  exact Prod.mk.inj same

theorem Alike.giveBack (alike : pool.Alike format pool') (address : PhysicalAddress) :
    (pool.giveBack address).1 = (pool'.giveBack address).1 ∧
      (pool.giveBack address).2.Alike format (pool'.giveBack address).2 := by
  have same := congrArg (Pool.giveBack · address) alike
  simp only [giveBack_settled] at same
  exact Prod.mk.inj same

theorem Alike.modifyNode (alike : pool.Alike format pool') (address : PhysicalAddress)
    {change : Node → Node} (change' : Node → Node)
    (commutes : ∀ node : Node, change' (node.settled format) = (change node).settled format) :
    (pool.modifyNode address change).Alike format (pool'.modifyNode address change) := by
  have same := congrArg (Pool.modifyNode · address change') alike
  exact (modifyNode_settled commutes).symm.trans (same.trans (modifyNode_settled commutes))

theorem Alike.isEmptyNode (alike : pool.Alike format pool') (address : PhysicalAddress) :
    (pool.node? address).any format.isEmptyNode = (pool'.node? address).any format.isEmptyNode := by
  have same := congrArg (Option.any format.isEmptyNode) (alike.node? address)
  simpa [Option.any_map, Function.comp_def] using same

theorem blind_construct : Blind (Alike format) construct := by
  unfold construct
  apply Matches.andThen (.step fun _ _ alike => alike.take)
  intro taken
  cases taken with
  | none => exact .fail _
  | some address =>
    apply Matches.andThen (.observe _)
    intro _
    apply Matches.bind .state
    intro _ _ _
    exact .andThen (.record ..) fun _ => .pure rfl

theorem blind_destruct {ε : Type} (address : PhysicalAddress) :
    Blind (Alike format) (destruct address : Action Pool ε Unit) := by
  unfold destruct
  apply Matches.andThen (.step fun _ _ alike => alike.giveBack address)
  intro found
  apply Matches.ite Iff.rfl
  · apply Matches.andThen (.observe _)
    intro _
    exact .bind .state fun _ _ _ => .record ..
  · exact .record ..

theorem blind_put {ε : Type} (address : PhysicalAddress) (words : List (Slot × Word)) :
    Blind (Alike format) (put address words : Action Pool ε Unit) := by
  unfold put
  apply Matches.forM
  rintro ⟨slot, word⟩
  apply Matches.andThen
  · apply Matches.update
    intro pool pool' alike
    apply alike.modifyNode address fun node => node.set slot.val (format.settled word)
    exact fun _ => (Vector.map_set ..).symm
  · exact fun _ => .observe _

theorem blind_wipe {ε : Type} (address : PhysicalAddress) :
    Blind (Alike format) (wipe address : Action Pool ε Unit) := by
  unfold wipe
  apply Matches.bind .state
  intro pool pool' alike
  apply Matches.ite (by rw [alike.contains])
  · apply Matches.andThen
    · apply Matches.update
      intro pool pool' alike
      exact alike.modifyNode address (fun _ => Node.zero) fun _ => Node.settled_zero.symm
    · exact fun _ => .observe _
  · exact .pure rfl

theorem write_self {word : Word} (held : pool.read? address slot = some word) :
    pool.write address slot word = pool := by
  obtain ⟨index, found, rfl⟩ := Option.map_eq_some_iff.mp held
  have unchanged : pool.nodes.set index
        ((pool.nodes.get index).set slot.val (pool.nodes.get index)[slot]) = pool.nodes := by
    simp [Vector.get_eq_getElem]
  simp only [write, modifyNode, found, unchanged]

/-- Whatever hardware does to its bits in a valid descriptor, the pool stays alike. -/
theorem alike_write {word word' : Word} (held : pool.read? address slot = some word)
    (same : format.settled word' = format.settled word) :
    pool.Alike format (pool.write address slot word') := by
  have commutes (node : Node) : (node.settled format).set slot.val (format.settled word') =
      Node.settled format (node.set slot.val word') :=
    (Vector.map_set ..).symm
  have unchanged : (pool.settled format).write address slot (format.settled word') =
      pool.settled format :=
    write_self (by rw [read?_settled, held, same, Option.map_some])
  exact unchanged.symm.trans (modifyNode_settled commutes)

end Pool

namespace Format

open Pool (Alike)

variable {format : Format} {level : Level} {word word' : Word} {pool pool' : Pool}

theorem isPresent_congr (same : format.settled word = format.settled word') :
    format.isPresent word = format.isPresent word' := by
  rw [← isPresent_settled, same, isPresent_settled]

theorem isPage_congr (same : format.settled word = format.settled word') :
    format.isPage level word = format.isPage level word' :=
  isPage_settled.symm.trans ((congrArg (format.isPage level) same).trans isPage_settled)

theorem address_congr (same : format.settled word = format.settled word') :
    format.address level word = format.address level word' := by
  rw [← address_settled, same, address_settled]

theorem strip_congr (same : format.settled word = format.settled word') :
    format.strip word = format.strip word' := by
  rw [← strip_settled, same, strip_settled]

theorem matches_failUnknown {α : Type} {results : α → α → Prop} (table : PhysicalAddress) :
    Matches (Alike format) results (format.failUnknown table) (format.failUnknown table) :=
  .andThen (.record ..) fun _ => .fail _

theorem matches_load (table : PhysicalAddress) (slot : Slot) :
    Matches (Alike format) (fun word word' => format.settled word = format.settled word')
      (format.load table slot) (format.load table slot) := by
  unfold load
  apply Matches.bind .state
  intro pool pool' alike
  rcases alike.read?_cases table slot with ⟨absent, absent'⟩ | ⟨word, word', held, held', same⟩
  · rw [absent, absent']
    exact format.matches_failUnknown table
  · rw [held, held']
    exact .pure same

theorem blind_store (table : PhysicalAddress) (slot : Slot) (descriptor : Word) :
    Blind (Alike format) (format.store table slot descriptor) := by
  unfold store
  apply Matches.bind .state
  intro pool pool' alike
  exact .ite (by rw [alike.contains]) (Pool.blind_put ..) (format.matches_failUnknown table)

theorem blind_checkRange (start : VirtualAddress) (size : Nat) :
    Blind (Alike format) (format.checkRange start size : Action Pool TableError Unit) := by
  unfold checkRange
  exact .ite Iff.rfl (.andThen (.record ..) fun _ => .fail _) (.pure rfl)

theorem matches_nextTable (same : format.settled word = format.settled word')
    (table : PhysicalAddress) (slot : Slot) (address : VirtualAddress) :
    Matches (Alike format) Eq (format.nextTable level table slot word address)
      (format.nextTable level table slot word' address) := by
  unfold nextTable
  apply Matches.ite (by rw [isPresent_congr same])
  · apply Matches.andThen Pool.blind_construct
    intro child
    exact .andThen (format.blind_store ..) fun _ => .pure rfl
  · exact .ite (by rw [isPage_congr same]) (.fail _) (.pure (address_congr same))

theorem blind_insertPiece {flags : PageFlags} {table : PhysicalAddress} {address : VirtualAddress}
    {piece : Extent} {target : PhysicalAddress}
    {descend : PhysicalAddress → Action Pool TableError Unit}
    (descends : ∀ child, Blind (Alike format) (descend child)) :
    Blind (Alike format)
      (format.insertPiece level flags table address piece target descend) := by
  unfold insertPiece
  apply Matches.bind (format.matches_load ..)
  intro word word' same
  apply Matches.ite Iff.rfl
  · apply Matches.ite (by rw [isPresent_congr same])
    · exact format.blind_store ..
    · apply Matches.ite (by rw [strip_congr same])
      · exact .andThen (.record ..) fun _ => .fail _
      · exact .pure rfl
  · exact .andThen (matches_nextTable same ..) descends

theorem blind_insertAt (flags : PageFlags) (levels : List Level) (depth : Nat)
    (table : PhysicalAddress) (base : VirtualAddress) (range : Extent) (target : PhysicalAddress) :
    Blind (Alike format) (format.insertAt flags levels depth table base range target) := by
  induction levels generalizing depth table base range target with
  | nil => exact .abort _
  | cons level deeper ih =>
    rw [insertAt]
    apply Matches.forM
    intro block
    apply Matches.andThen (.lift _)
    intro piece
    apply Matches.andThen (.lift _)
    intro address
    apply Matches.andThen (.lift _)
    intro pieceTarget
    apply Matches.andThen (blind_insertPiece fun child => ih ..)
    exact fun _ => .ite Iff.rfl (.pure rfl) (.abort _)

theorem blind_removeAt (levels : List Level) (table : PhysicalAddress) (range : Extent) :
    Blind (Alike format) (format.removeAt levels table range) := by
  induction levels generalizing table range with
  | nil => exact .abort _
  | cons level deeper ih =>
    rw [removeAt]
    apply Matches.forM
    intro block
    apply Matches.andThen (.lift _)
    intro piece
    apply Matches.bind (format.matches_load ..)
    intro word word' same
    apply Matches.ite (by rw [isPresent_congr same])
    · apply Matches.ite (by rw [isPage_congr same])
      · exact format.blind_store ..
      · rw [address_congr same]
        apply Matches.andThen (ih ..)
        intro _
        apply Matches.bind .state
        intro pool pool' alike
        apply Matches.ite (by rw [alike.isEmptyNode])
        · exact .andThen (format.blind_store ..) fun _ => Pool.blind_destruct _
        · exact .pure rfl
    · exact .pure rfl

theorem blind_releaseBelow {ε : Type} (levels : List Level) (table : PhysicalAddress) :
    Blind (Alike format) (format.releaseBelow levels table : Action Pool ε Unit) := by
  induction levels generalizing table with
  | nil => exact .abort _
  | cons level deeper ih =>
    rw [releaseBelow]
    apply Matches.ite Iff.rfl
    · exact .pure rfl
    · apply Matches.forM
      intro slot
      apply Matches.bind .state
      intro pool pool' alike
      rcases alike.read?_cases table slot with
        ⟨absent, absent'⟩ | ⟨word, word', held, held', same⟩
      · rw [absent, absent']
        exact .pure rfl
      · rw [held, held']
        apply Matches.ite (by rw [isPresent_congr same, isPage_congr same])
        · rw [address_congr same]
          exact .andThen (ih _) fun _ => Pool.blind_destruct _
        · exact .pure rfl

theorem lookupAt_settled (levels : List Level) (input : VirtualAddress) (table : PhysicalAddress) :
    format.lookupAt (pool.settled format) input levels table =
      format.lookupAt pool input levels table := by
  induction levels generalizing table with
  | nil => rfl
  | cons level deeper ih =>
    rw [lookupAt, lookupAt, Pool.read?_settled]
    cases pool.read? table (level.slot input.val) with
    | none => rfl
    | some descriptor =>
      simp only [Option.map_some, isPresent_settled, isPage_settled, address_settled,
        pageFlags_settled, ih]

end Format

/-- An entry of a walk with the raw word freed of the bits that hardware sets. -/
def WalkEntry.settled (format : Format) (entry : WalkEntry) : WalkEntry :=
  { entry with descriptor := format.settled entry.descriptor }

def Visit.settled (format : Format) : Visit → Visit
  | entry found => entry (found.settled format)
  | unresolved table => unresolved table

/-- What the steps of a traversal give is looked at step by step or as a whole. -/
theorem mapM_map_result {α β γ ε : Type} (f : α → Except ε β) (view : β → γ) (xs : List α) :
    (xs.mapM fun x => (f x).map view) = (xs.mapM f).map (List.map view) := by
  induction xs with
  | nil => rfl
  | cons x xs ih =>
    rw [List.mapM_cons, List.mapM_cons, ih]
    cases f x with
    | error cause => rfl
    | ok result => cases xs.mapM f <;> rfl

namespace Format

variable {format : Format} {level : Level} {pool : Pool}

theorem walkAt_settled (levels : List Level) (depth : Nat) (table : PhysicalAddress)
    (base : VirtualAddress) :
    format.walkAt (pool.settled format) levels depth table base =
      (format.walkAt pool levels depth table base).map (List.map (Visit.settled format)) := by
  induction levels generalizing depth table base with
  | nil => rfl
  | cons level deeper ih =>
    rw [walkAt_eq, walkAt_eq, Pool.node?_settled]
    cases pool.node? table with
    | none => rfl
    | some node =>
      have each (slot : Slot) : format.walkFrom (pool.settled format) level deeper depth table base
          slot ((node.settled format).get slot) =
            (format.walkFrom pool level deeper depth table base slot (node.get slot)).map
              (List.map (Visit.settled format)) := by
        simp only [walkFrom, Node.get_settled, isPresent_settled, target_settled]
        split
        · cases base.add (slot.val * level.pageSize) with
          | error cause => rfl
          | ok start =>
            cases format.target level (node.get slot) with
            | page => rfl
            | table next =>
              simp only [bind, Except.bind, ih]
              cases format.walkAt pool deeper (depth + 1) next start <;> rfl
        · rfl
      simp only [Option.map_some, each, mapM_map_result]
      cases (List.finRange 512).mapM fun slot =>
        format.walkFrom pool level deeper depth table base slot (node.get slot) with
      | error cause => rfl
      | ok visits => exact congrArg Except.ok List.map_flatten.symm

end Format

namespace TranslationTable

open Pool (Alike)

variable {table : TranslationTable} {pool pool' : Pool}

theorem blind_insert (start : VirtualAddress) (target : PhysicalAddress) (size : Nat)
    (flags : PageFlags) :
    Blind (Alike table.format) (table.insert start target size flags) := by
  unfold insert
  apply Matches.andThen (Format.blind_checkRange ..)
  intro _
  apply Matches.ite Iff.rfl
  · exact .andThen (.record ..) fun _ => .fail _
  · exact Format.blind_insertAt ..

theorem blind_remove (start : VirtualAddress) (size : Nat) :
    Blind (Alike table.format) (table.remove start size) := by
  unfold remove
  apply Matches.andThen (Format.blind_checkRange ..)
  exact fun _ => Format.blind_removeAt ..

theorem blind_clear {ε : Type} :
    Blind (Alike table.format) (table.clear : Action Pool ε Unit) :=
  .andThen (Format.blind_releaseBelow ..) fun _ => Pool.blind_wipe _

theorem blind_destroy {ε : Type} :
    Blind (Alike table.format) (table.destroy : Action Pool ε Unit) :=
  .andThen blind_clear fun _ => .andThen (Pool.blind_destruct _) fun _ => .record ..

theorem blind_create (format : Format) (coherency : Coherency) :
    Blind (Alike format) (create format coherency) :=
  .andThen Pool.blind_construct fun _ => .andThen (.record ..) fun _ => .pure rfl

theorem lookup_settled (input : VirtualAddress) :
    table.lookup (pool.settled table.format) input = table.lookup pool input := by
  simp only [lookup, Format.lookupAt_settled]

theorem isEmpty_settled : table.isEmpty (pool.settled table.format) = table.isEmpty pool := by
  simp [isEmpty, Pool.node?_settled, Option.all_map]

theorem visits_settled : table.visits (pool.settled table.format) =
    (table.visits pool).map (List.map (Visit.settled table.format)) :=
  Format.walkAt_settled ..

/-- The walks of pools that are alike differ in the raw words alone. -/
theorem walk_alike (alike : pool.Alike table.format pool') (journal journal' : Journal) :
    ∃ entries entries',
      (table.walk : Action Pool TableError _).outcome ⟨pool, journal⟩ = .ok entries ∧
      (table.walk : Action Pool TableError _).outcome ⟨pool', journal'⟩ = .ok entries' ∧
      entries.map (WalkEntry.settled table.format) =
        entries'.map (WalkEntry.settled table.format) := by
  obtain ⟨visits, visited⟩ := table.visits_total pool
  obtain ⟨visits', visited'⟩ := table.visits_total pool'
  refine ⟨_, _, walk_outcome_of_visits visited, walk_outcome_of_visits visited', ?_⟩
  have same := congrArg table.visits alike
  rw [visits_settled, visits_settled, visited, visited'] at same
  have entries (visits : List Visit) :
      (visits.filterMap Visit.entry?).map (WalkEntry.settled table.format) =
        (visits.map (Visit.settled table.format)).filterMap Visit.entry? := by
    rw [List.map_filterMap, List.filterMap_map]
    congr 1
    funext visit
    cases visit <;> rfl
  rw [entries, entries, Except.ok.inj same]

end TranslationTable

/-- The format of the table that an operation is about. -/
def Operation.format : Operation → Format
  | create format _ => format
  | insert table .. | remove table .. | clear table | destroy table => table.format

namespace Forest

variable {format : Format} {forest forest' : Forest}

/-- Two forests of the same tables, in pools that differ at most in the bits that hardware sets. -/
structure Alike (format : Format) (forest forest' : Forest) : Prop where
  pool : forest.pool.Alike format forest'.pool
  tables : forest.tables = forest'.tables

theorem blind_onPool {α : Type} {action : Action Pool TableError α}
    (blind : Blind (Pool.Alike format) action) :
    Blind (Alike format) (Operation.perform.onPool action) := by
  apply Matches.on blind
  · exact fun _ _ alike => alike.pool
  · exact fun _ _ _ _ alike pool => ⟨pool, alike.tables⟩

theorem blind_perform {operation : Operation} (uses : operation.format = format) :
    Blind (Alike format) operation.perform := by
  cases operation with
  | create _ coherency =>
    cases uses
    apply Matches.andThen (blind_onPool (TranslationTable.blind_create ..))
    intro table
    apply Matches.update
    exact fun _ _ alike => ⟨alike.pool, congrArg (table :: ·) alike.tables⟩
  | insert table start target size flags =>
    cases uses
    exact blind_onPool (TranslationTable.blind_insert ..)
  | remove table start size =>
    cases uses
    exact blind_onPool (TranslationTable.blind_remove ..)
  | clear table =>
    cases uses
    exact blind_onPool TranslationTable.blind_clear
  | destroy table =>
    cases uses
    apply Matches.andThen (blind_onPool TranslationTable.blind_destroy)
    intro _
    apply Matches.update
    exact fun _ _ alike => ⟨alike.pool, congrArg (List.erase · table) alike.tables⟩

/-- An operation that keeps to one format and to the tables of a forest. -/
structure Serves (forest : Forest) (format : Format) (operation : Operation) : Prop where
  uses : operation.format = format
  member : ∀ table, operation.table? = some table → table ∈ forest.tables

/-- A run of operations on tables of one format, with the operations and their outcomes in order.
Whatever the outcome of an operation is, the run goes on from what it left behind. Between two
operations the pool changes as `touch` allows. -/
inductive Service (format : Format) (touch : Pool → Pool → Prop) (first : Forest) :
    List (Operation × Except (Failure TableError) Unit) → Forest → Prop where
  | start : Service format touch first [] first
  | step {trace : List (Operation × Except (Failure TableError) Unit)} {forest : Forest}
      (run : Service format touch first trace forest) {operation : Operation}
      (serves : forest.Serves format operation) (journal : Journal) :
      Service format touch first
        (trace ++ [(operation, operation.perform.outcome ⟨forest, journal⟩)])
        (operation.perform.finish ⟨forest, journal⟩).state
  | touched {trace : List (Operation × Except (Failure TableError) Unit)} {forest : Forest}
      (run : Service format touch first trace forest) {pool : Pool}
      (touches : touch forest.pool pool) :
      Service format touch first trace ⟨pool, forest.tables⟩

/-- A run that nothing touches from outside. -/
abbrev Undisturbed (format : Format) (first : Forest) :=
  Service format (fun _ _ => False) first

/-- A run during which hardware sets its bits takes place in the same way without hardware. -/
theorem Service.undisturbed {first first' last : Forest}
    {trace : List (Operation × Except (Failure TableError) Unit)}
    (run : first.Service format (Pool.Alike format) trace last)
    (alike : first.Alike format first') :
    ∃ last', first'.Undisturbed format trace last' ∧ last.Alike format last' := by
  induction run with
  | start => exact ⟨first', .start, alike⟩
  | step run serves journal ih =>
    obtain ⟨forest', run', alike⟩ := ih
    have blind := blind_perform serves.uses
    have serves' : forest'.Serves format _ :=
      ⟨serves.uses, fun table about => alike.tables ▸ serves.member table about⟩
    have alike' : Alike format (⟨_, journal⟩ : Journaled Forest).state
        (⟨forest', journal⟩ : Journaled Forest).state :=
      alike
    refine ⟨_, ?_, blind.finish alike'⟩
    rw [blind.outcome_eq alike']
    exact run'.step serves' journal
  | touched run touches ih =>
    obtain ⟨forest', run', alike⟩ := ih
    exact ⟨forest', run', touches.symm.trans alike.pool, alike.tables⟩

/-- The bits that hardware sets influence nothing. In two forests that differ in those bits alone
every operation on tables of the format has the same outcome and leaves such forests behind, lookups
and emptiness are the same, and walks differ in the raw words alone. So a run during which hardware
sets them at any time has the operations and outcomes of a run without hardware. -/
theorem hardwareBits_invisible (alike : forest.Alike format forest') :
    (∀ operation : Operation, operation.format = format → ∀ journal journal' : Journal,
      operation.perform.outcome ⟨forest, journal⟩ = operation.perform.outcome ⟨forest', journal'⟩ ∧
      (operation.perform.finish ⟨forest, journal⟩).state.Alike format
        (operation.perform.finish ⟨forest', journal'⟩).state) ∧
    (∀ table : TranslationTable, table.format = format →
      (∀ input, table.lookup forest.pool input = table.lookup forest'.pool input) ∧
      table.isEmpty forest.pool = table.isEmpty forest'.pool ∧
      ∀ journal journal' : Journal, ∃ entries entries',
        (table.walk : Action Pool TableError _).outcome ⟨forest.pool, journal⟩ = .ok entries ∧
        (table.walk : Action Pool TableError _).outcome ⟨forest'.pool, journal'⟩ = .ok entries' ∧
        entries.map (WalkEntry.settled format) = entries'.map (WalkEntry.settled format)) ∧
    ∀ trace last, forest.Service format (Pool.Alike format) trace last →
      ∃ last', forest'.Undisturbed format trace last' ∧ last.Alike format last' := by
  refine ⟨fun operation uses journal journal' => ?_, ?_, fun _ _ run => run.undisturbed alike⟩
  · have alike' : Alike format (⟨forest, journal⟩ : Journaled Forest).state
        (⟨forest', journal'⟩ : Journaled Forest).state :=
      alike
    exact ⟨(blind_perform uses).outcome_eq alike', (blind_perform uses).finish alike'⟩
  · rintro table rfl
    refine ⟨fun input => ?_, ?_, TranslationTable.walk_alike alike.pool⟩
    · rw [← TranslationTable.lookup_settled, alike.pool, TranslationTable.lookup_settled]
    · rw [← TranslationTable.isEmpty_settled, alike.pool, TranslationTable.isEmpty_settled]

/-- The forest after a device has accessed and written the page of a descriptor. -/
def marked (forest : Forest) (address : PhysicalAddress) (slot : Slot) : Forest :=
  { forest with
    pool := forest.pool.write address slot
      ((forest.pool.read? address slot).getD 0 ||| Format.secondLevel.hardwareBits) }

/-- The operation that maps a page of 2 MiB in the table of the sample. -/
def sampleMapping (start : VirtualAddress) (target : PhysicalAddress) : Operation :=
  .insert sampleTable start target 0x200000 .empty

theorem alike_marked :
    mappedSample.Alike .secondLevel (mappedSample.marked ⟨0x102000, by decide⟩ 1) := by
  have held : mappedSample.pool.read? ⟨0x102000, by decide⟩ 1 =
      some (Format.secondLevel.pageDescriptor ⟨0x400000, by decide⟩ .empty
        ⟨512, 21, .largePages⟩) := by
    decide +kernel
  exact ⟨Pool.alike_write held (by decide +kernel), rfl⟩

/-- To map the accessed and written page of the sample once more is no conflict. -/
theorem hardwareBits_invisible_sample :
    (mappedSample.marked ⟨0x102000, by decide⟩ 1).pool.read? ⟨0x102000, by decide⟩ 1 ≠
        mappedSample.pool.read? ⟨0x102000, by decide⟩ 1 ∧
      (sampleMapping ⟨0x200000, by decide⟩ ⟨0x400000, by decide⟩).perform.outcome
        ⟨mappedSample.marked ⟨0x102000, by decide⟩ 1, silent⟩ = .ok () := by
  obtain ⟨outcomes, _⟩ := hardwareBits_invisible alike_marked
  refine ⟨by decide +kernel, ?_⟩
  rw [← (outcomes (sampleMapping _ _) rfl silent silent).1]
  decide +kernel

end Forest

end DmaRemap

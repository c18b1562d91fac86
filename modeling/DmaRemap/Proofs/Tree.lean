import DmaRemap.Table.Basic
import DmaRemap.Proofs.Descriptor
import DmaRemap.Proofs.Geometry
import DmaRemap.Proofs.Heap

/-! Tables as trees. A tree records what lies below a descriptor; a pool holds a table if its nodes
store such a tree, each node once. Lookups, walks and edits of a table are explained by its tree,
and a change of one subtree leaves the others as they are. -/

namespace DmaRemap

/-- What a descriptor leads to. A plain word is absent or a page. -/
inductive Tree where
  | word (descriptor : Word)
  | link (descriptor : Word) (below : Slot → Tree)

/-- What the descriptors of a table lead to. -/
abbrev Branches := Slot → Tree

def Tree.descriptor : Tree → Word
  | word descriptor => descriptor
  | link descriptor _ => descriptor

/-- The node of a table with the given branches. -/
def Node.of (branches : Branches) : Node :=
  Vector.ofFn fun slot => (branches slot).descriptor

@[simp] theorem Node.get_of (branches : Branches) (slot : Slot) :
    (Node.of branches).get slot = (branches slot).descriptor := by
  simp [Node.of, Vector.get_eq_getElem]

theorem Node.of_congr {branches branches' : Branches}
    (same : ∀ slot, (branches slot).descriptor = (branches' slot).descriptor) :
    Node.of branches = Node.of branches' :=
  congrArg Vector.ofFn (funext same)

theorem Node.write_of (branches : Branches) (slot : Slot) (tree : Tree) :
    (Node.of branches).write [(slot, tree.descriptor)] =
      Node.of (Function.update branches slot tree) := by
  apply Vector.ext
  intro index inside
  simp only [Node.write, List.foldl_cons, List.foldl_nil, Node.of, Vector.getElem_set,
    Vector.getElem_ofFn, Function.update_apply]
  by_cases same : slot.val = index
  · subst same
    simp
  · simp [same, show (⟨index, inside⟩ : Slot) ≠ slot from fun other => same (by simp [← other])]

namespace Format

variable {format : Format} {pool before after : Pool} {level : Level} {deeper levels : List Level}
  {table address : PhysicalAddress} {branches below below' : Branches} {tree tree' : Tree}
  {slot : Slot} {word : Word}

theorem nested_levels (format : Format) : Level.Nested format.levels :=
  Level.nested_four

theorem levels_ne_nil (format : Format) : format.levels ≠ [] :=
  List.cons_ne_nil _ _

theorem span_levels (format : Format) : Level.span format.levels = 1 <<< format.inputBits :=
  rfl

/-- The tables of a tree, each before those below it. -/
def nodes (format : Format) : Tree → List PhysicalAddress
  | .word _ => []
  | .link descriptor below =>
    format.linkTarget descriptor ::
      (List.finRange 512).flatMap fun slot => format.nodes (below slot)

/-- A table and all tables below it. -/
def tablesFrom (format : Format) (table : PhysicalAddress) (branches : Branches) :
    List PhysicalAddress :=
  table :: (List.finRange 512).flatMap fun slot => format.nodes (branches slot)

theorem nodes_link :
    format.nodes (.link word below) = format.tablesFrom (format.linkTarget word) below := by
  rw [nodes, tablesFrom]

theorem mem_tablesFrom_iff :
    address ∈ format.tablesFrom table branches ↔
      address = table ∨ ∃ slot, address ∈ format.nodes (branches slot) := by
  simp [tablesFrom]

/-- The branches of a table that holds nothing. -/
def blank : Branches := fun _ => .word 0

theorem tablesFrom_blank : format.tablesFrom table blank = [table] := by
  simp [tablesFrom, blank, nodes]

theorem nodup_tablesFrom_iff :
    (format.tablesFrom table branches).Nodup ↔
      (∀ slot, (table :: format.nodes (branches slot)).Nodup) ∧
        ∀ first second, first ≠ second →
          (format.nodes (branches first)).Disjoint (format.nodes (branches second)) := by
  have symmetric : Std.Symm
      (Function.onFun List.Disjoint fun slot : Slot => format.nodes (branches slot)) :=
    ⟨fun _ _ apart => apart.symm⟩
  simp only [tablesFrom, List.nodup_cons, List.nodup_flatMap, List.mem_flatMap, List.mem_finRange,
    true_and, not_exists, forall_const]
  constructor
  · intro holds
    obtain ⟨outside, each, pairs⟩ := holds
    exact ⟨fun slot => ⟨outside slot, each slot⟩, fun first second different =>
      pairs.forall (List.mem_finRange first) (List.mem_finRange second) different⟩
  · intro holds
    obtain ⟨each, apart⟩ := holds
    refine ⟨fun slot => (each slot).1, fun slot => (each slot).2, ?_⟩
    exact (List.nodup_finRange 512).pairwise_of_forall_ne
      fun first _ second _ different => apart first second different

theorem mem_tablesFrom_update :
    address ∈ format.tablesFrom table (Function.update branches slot tree) ↔
      address ∈ table :: format.nodes tree ∨
        ∃ other, other ≠ slot ∧ address ∈ format.nodes (branches other) := by
  rw [mem_tablesFrom_iff, List.mem_cons, or_assoc]
  apply or_congr_right
  constructor
  · intro holds
    obtain ⟨other, within⟩ := holds
    by_cases same : other = slot
    · rw [same, Function.update_self] at within
      exact .inl within
    · rw [Function.update_of_ne same] at within
      exact .inr ⟨other, same, within⟩
  · intro holds
    rcases holds with here | ⟨other, different, within⟩
    · exact ⟨slot, by rwa [Function.update_self]⟩
    · exact ⟨other, by rwa [Function.update_of_ne different]⟩

theorem mem_tablesFrom_split (slot : Slot) :
    address ∈ format.tablesFrom table branches ↔
      address ∈ table :: format.nodes (branches slot) ∨
        ∃ other, other ≠ slot ∧ address ∈ format.nodes (branches other) := by
  rw [← mem_tablesFrom_update, Function.update_eq_self]

theorem nodup_tablesFrom_update (nodup : (format.tablesFrom table branches).Nodup)
    (single : (table :: format.nodes tree).Nodup)
    (apart : ∀ other, other ≠ slot →
      (format.nodes (branches other)).Disjoint (format.nodes tree)) :
    (format.tablesFrom table (Function.update branches slot tree)).Nodup := by
  obtain ⟨each, pairs⟩ := nodup_tablesFrom_iff.mp nodup
  rw [nodup_tablesFrom_iff]
  constructor
  · rw [Function.forall_update_iff branches fun _ tree => (table :: format.nodes tree).Nodup]
    exact ⟨single, fun other _ => each other⟩
  · intro first second different
    by_cases firstHere : first = slot
    · have elsewhere : second ≠ slot := fun same => different (firstHere.trans same.symm)
      rw [firstHere, Function.update_self, Function.update_of_ne elsewhere]
      exact (apart second elsewhere).symm
    · rw [Function.update_of_ne firstHere]
      by_cases secondHere : second = slot
      · rw [secondHere, Function.update_self]
        exact apart first firstHere
      · rw [Function.update_of_ne secondHere]
        exact pairs first second different

theorem of_blank : Node.of blank = Node.zero := by
  apply Vector.ext
  intro index inside
  simp [Node.zero, Node.of, blank, Tree.descriptor]

/-- A pool stores a tree if every link of it leads to a node with the words of the tree. -/
def Stored (format : Format) (pool : Pool) : Tree → Prop
  | .word _ => True
  | .link descriptor below =>
    pool.node? (format.linkTarget descriptor) = some (Node.of below) ∧
      ∀ slot, format.Stored pool (below slot)

/-- Whether the descriptors of a tree are what their levels make of them: pages are plain words, and
links lead to tables of the next level. -/
def Shaped (format : Format) : List Level → Tree → Prop
  | [], _ => False
  | level :: _, .word descriptor => format.isPresent descriptor → format.isPage level descriptor
  | level :: deeper, .link descriptor below =>
    format.isPresent descriptor = true ∧ format.isPage level descriptor = false ∧
      ∀ slot, format.Shaped deeper (below slot)

theorem shaped_blank (inner : levels ≠ []) (slot : Slot) : format.Shaped levels (blank slot) := by
  cases levels with
  | nil => exact absurd rfl inner
  | cons => simp [blank, Shaped]

/-- A pool holds a table: it stores its branches, and reaches no node twice. -/
structure Held (format : Format) (pool : Pool) (levels : List Level) (table : PhysicalAddress)
    (branches : Branches) : Prop where
  node : pool.node? table = some (Node.of branches)
  stored : ∀ slot, format.Stored pool (branches slot)
  shaped : ∀ slot, format.Shaped levels (branches slot)
  nodup : (format.tablesFrom table branches).Nodup

/-- A node of zeros is a table that holds nothing. -/
theorem held_blank (node : pool.node? table = some Node.zero) (inner : levels ≠ []) :
    format.Held pool levels table blank where
  node := by rw [node, of_blank]
  stored _ := trivial
  shaped := shaped_blank inner
  nodup := by
    rw [tablesFrom_blank]
    exact List.nodup_singleton _

theorem Stored.transport (stored : format.Stored before tree)
    (agree : ∀ address ∈ format.nodes tree, after.node? address = before.node? address) :
    format.Stored after tree := by
  induction tree with
  | word => trivial
  | link descriptor below ih =>
    rw [nodes_link] at agree
    refine ⟨?_, fun slot => ih slot (stored.2 slot) fun address member => ?_⟩
    · rw [agree _ (mem_tablesFrom_iff.mpr (.inl rfl))]
      exact stored.1
    · exact agree address (mem_tablesFrom_iff.mpr (.inr ⟨slot, member⟩))

theorem Stored.live (stored : format.Stored pool tree) (member : address ∈ format.nodes tree) :
    ∃ node, pool.node? address = some node := by
  induction tree with
  | word => cases member
  | link descriptor below ih =>
    rw [nodes_link] at member
    rcases mem_tablesFrom_iff.mp member with rfl | ⟨slot, deeper⟩
    · exact ⟨_, stored.1⟩
    · exact ih slot (stored.2 slot) deeper

theorem Held.live (held : format.Held pool levels table branches)
    (member : address ∈ format.tablesFrom table branches) :
    ∃ node, pool.node? address = some node := by
  rcases mem_tablesFrom_iff.mp member with rfl | ⟨slot, below⟩
  · exact ⟨_, held.node⟩
  · exact (held.stored slot).live below

theorem Held.transport (held : format.Held before levels table branches)
    (agree : ∀ address ∈ format.tablesFrom table branches,
      after.node? address = before.node? address) :
    format.Held after levels table branches where
  node := by rw [agree _ (mem_tablesFrom_iff.mpr (.inl rfl)), held.node]
  stored slot := (held.stored slot).transport fun address member =>
    agree address (mem_tablesFrom_iff.mpr (.inr ⟨slot, member⟩))
  shaped := held.shaped
  nodup := held.nodup

/-- Two pools that store one tree agree on its nodes. -/
theorem Stored.agree (first : format.Stored before tree) (second : format.Stored after tree)
    (member : address ∈ format.nodes tree) : after.node? address = before.node? address := by
  induction tree with
  | word => cases member
  | link descriptor below ih =>
    rw [nodes_link] at member
    rcases mem_tablesFrom_iff.mp member with rfl | ⟨slot, deeper⟩
    · rw [first.1, second.1]
    · exact ih slot (first.2 slot) (second.2 slot) deeper

theorem Held.agree (first : format.Held before levels table branches)
    (second : format.Held after levels table branches)
    (member : address ∈ format.tablesFrom table branches) :
    after.node? address = before.node? address := by
  rcases mem_tablesFrom_iff.mp member with rfl | ⟨slot, below⟩
  · rw [first.node, second.node]
  · exact (first.stored slot).agree (second.stored slot) below

theorem Held.child (held : format.Held pool (level :: deeper) table branches)
    (linked : branches slot = .link word below) :
    format.Held pool deeper (format.linkTarget word) below := by
  have stored := held.stored slot
  have shaped := held.shaped slot
  have nodup := ((nodup_tablesFrom_iff.mp held.nodup).1 slot).of_cons
  rw [linked] at stored shaped nodup
  rw [nodes_link] at nodup
  exact ⟨stored.1, stored.2, shaped.2.2, nodup⟩

/-- From one pool to another a table was edited: it is held with other branches afterwards, and no
node of any other table was touched. -/
structure Edited (format : Format) (before after : Pool) (levels : List Level)
    (table : PhysicalAddress) (branches branches' : Branches) : Prop where
  held : format.Held after levels table branches'
  exchange : before.Exchanges after (format.tablesFrom table branches)
    (format.tablesFrom table branches')

theorem Held.unedited (held : format.Held pool levels table branches) :
    format.Edited pool pool levels table branches branches :=
  ⟨held, .refl ..⟩

theorem Edited.trans {middle : Pool} {branches' branches'' : Branches}
    (first : format.Edited before middle levels table branches branches')
    (second : format.Edited middle after levels table branches' branches'') :
    format.Edited before after levels table branches branches'' :=
  ⟨second.held, first.exchange.trans second.exchange⟩

theorem Edited.eq_of_same {after' : Pool} {branches' : Branches}
    (first : format.Edited before after levels table branches branches')
    (second : format.Edited before after' levels table branches branches') (sound : before.Sound) :
    after' = after :=
  first.exchange.eq_of_agree second.exchange sound fun _ member =>
    first.held.agree second.held member

/-- An edit that leads back to the same tree leads back to the same pool. -/
theorem Edited.restored (edited : format.Edited before after levels table branches branches)
    (held : format.Held before levels table branches) (sound : before.Sound) : after = before :=
  held.unedited.eq_of_same edited sound

theorem Edited.used_add_length {branches' : Branches}
    (edited : format.Edited before after levels table branches branches')
    (held : format.Held before levels table branches) (sound : before.Sound) :
    after.used + (format.tablesFrom table branches).length =
      before.used + (format.tablesFrom table branches').length :=
  edited.exchange.used_add_length sound held.nodup edited.held.nodup
    (fun _ member => Pool.contains_iff.mpr (held.live member))
    fun _ member => Pool.contains_iff.mpr (edited.held.live member)

theorem Edited.used_le {branches' : Branches}
    (edited : format.Edited before after levels table branches branches')
    (held : format.Held before levels table branches) (sound : before.Sound)
    (fewer : format.tablesFrom table branches' ⊆ format.tablesFrom table branches) :
    after.used ≤ before.used := by
  have counted := edited.used_add_length held sound
  have less := (edited.held.nodup.subperm fewer).length_le
  omega

/-- A table stays held when one of its branches is replaced. -/
theorem Held.replace (held : format.Held before (level :: deeper) table branches)
    (exchange : before.Exchanges after (table :: format.nodes (branches slot))
      (table :: format.nodes tree))
    (node : after.node? table = some (Node.of (Function.update branches slot tree)))
    (stored : format.Stored after tree) (shaped : format.Shaped (level :: deeper) tree)
    (nodup : (table :: format.nodes tree).Nodup) :
    format.Edited before after (level :: deeper) table branches
      (Function.update branches slot tree) := by
  obtain ⟨single, apart⟩ := nodup_tablesFrom_iff.mp held.nodup
  -- What lies below the other slots was handed out before and is not exchanged.
  have kept (other : Slot) (different : other ≠ slot) (address : PhysicalAddress)
      (member : address ∈ format.nodes (branches other)) :
      address ∉ table :: format.nodes tree ∧ after.node? address = before.node? address := by
    have outside : address ∉ table :: format.nodes (branches slot) := by
      intro inside
      rcases inside with _ | ⟨_, within⟩
      · exact (List.nodup_cons.mp (single other)).1 member
      · exact apart other slot different member within
    obtain ⟨found, live⟩ := (held.stored other).live member
    obtain ⟨absent, same⟩ := exchange.kept live outside
    exact ⟨absent, same.trans live.symm⟩
  constructor
  · refine ⟨node, ?_, ?_, nodup_tablesFrom_update held.nodup nodup ?_⟩
    · rw [Function.forall_update_iff branches fun _ tree => format.Stored after tree]
      exact ⟨stored, fun other different =>
        (held.stored other).transport fun address member => (kept other different address member).2⟩
    · rw [Function.forall_update_iff branches fun _ tree => format.Shaped (level :: deeper) tree]
      exact ⟨shaped, fun other _ => held.shaped other⟩
    · intro other different address member within
      exact (kept other different address member).1 (List.mem_cons_of_mem _ within)
  · apply exchange.widen
    · exact fun address member => (mem_tablesFrom_split slot).mpr (.inl member)
    · exact fun address member => mem_tablesFrom_update.mpr (.inl member)
    · intro address outside member
      have elsewhere := ((mem_tablesFrom_split slot).mp member).resolve_left outside
      exact mem_tablesFrom_update.mpr (.inr elsewhere)
    · intro address outside member
      have elsewhere := (mem_tablesFrom_update.mp member).resolve_left outside
      exact (mem_tablesFrom_split slot).mpr (.inr elsewhere)

/-- A table stays held when the table behind one of its links is edited. -/
theorem Held.replaceBelow (held : format.Held before (level :: deeper) table branches)
    (linked : branches slot = .link word below)
    (edited : format.Edited before after deeper (format.linkTarget word) below below') :
    format.Edited before after (level :: deeper) table branches
      (Function.update branches slot (.link word below')) := by
  obtain ⟨child, exchange⟩ := edited
  have nodup := (nodup_tablesFrom_iff.mp held.nodup).1 slot
  rw [linked, nodes_link] at nodup
  obtain ⟨absent, node⟩ := exchange.kept held.node (List.nodup_cons.mp nodup).1
  have shaped := held.shaped slot
  rw [linked] at shaped
  apply held.replace
  · rw [linked, nodes_link, nodes_link]
    exact exchange.keep table
  · rw [node]
    apply congrArg some (Node.of_congr fun other => ?_)
    by_cases same : other = slot
    · rw [same, linked, Function.update_self]
      rfl
    · rw [Function.update_of_ne same]
  · exact ⟨child.node, child.stored⟩
  · exact ⟨shaped.1, shaped.2.1, child.shaped⟩
  · rw [nodes_link]
    exact List.nodup_cons.mpr ⟨absent, child.nodup⟩

/-- Whether the links of a format can name every node of a pool. -/
def Fits (format : Format) (pool : Pool) : Prop :=
  ∀ index, (pool.addressOf index).val < 1 <<< format.outputBits

theorem Fits.exchange {old new : List PhysicalAddress} (fits : format.Fits before)
    (exchange : before.Exchanges after old new) : format.Fits after := by
  intro index
  have same := fits ⟨index.val, exchange.size ▸ index.isLt⟩
  simpa only [Pool.addressOf, exchange.base] using same

theorem Fits.linkTarget {node : Node} (fits : format.Fits pool)
    (held : pool.node? address = some node) :
    format.linkTarget (format.tableDescriptor address) = address := by
  obtain ⟨index, rfl⟩ := Pool.exists_addressOf held
  apply linkTarget_tableDescriptor _ (fits index)
  have aligned := pool.aligned
  simp only [Pool.addressOf]
  omega

/-- A range passes the check if it is made of whole pages of the input space. -/
structure Accepts (format : Format) (start : VirtualAddress) (size : Nat) : Prop where
  aligned : 4096 ∣ start.val
  whole : 4096 ∣ size
  inside : start.val + size ≤ 1 <<< format.inputBits

theorem checkRange_ends {σ : Type} (now : Journaled σ) (start : VirtualAddress) (size : Nat) :
    (format.checkRange start size : Action σ TableError Unit).Ends now
      (fun _ last => last.state = now.state ∧ format.Accepts start size)
      (fun cause last => last.state = now.state ∧ cause = .error (.invalidRange start size) ∧
        ¬format.Accepts start size) := by
  have smallest : 1 <<< format.minPageBits = 4096 := rfl
  unfold checkRange
  simp only [smallest, Bool.or_eq_true, bne_iff_ne, decide_eq_true_eq]
  rw [Action.ends_ite]
  constructor
  · intro rejected
    simp only [Action.ends_bind, Action.ends_record, Action.ends_fail]
    refine ⟨trivial, trivial, fun accepts => ?_⟩
    have aligned := accepts.aligned
    have whole := accepts.whole
    have inside := accepts.inside
    omega
  · intro accepted
    rw [Action.ends_pure]
    refine ⟨rfl, ?_, ?_, ?_⟩ <;> omega

theorem ends_load {start : Journaled Pool} {returns : Word → Journaled Pool → Prop}
    {fails : Failure TableError → Journaled Pool → Prop}
    (held : format.Held start.state levels table branches) (slot : Slot) :
    (format.load table slot).Ends start returns fails ↔
      returns (branches slot).descriptor start := by
  unfold load
  simp [Pool.read?_of_node? held.node]

theorem store_ends {start : Journaled Pool} (slot : Slot) (tree : Tree)
    (node : start.state.node? table = some (Node.of branches)) :
    (format.store table slot tree.descriptor).Returns start fun _ last =>
      start.state.Exchanges last.state [table] [table] ∧
        last.state.node? table = some (Node.of (Function.update branches slot tree)) := by
  have contained : start.state.contains table = true := Pool.contains_iff.mpr ⟨_, node⟩
  unfold store
  simp only [Action.ends_bind, Action.ends_state, contained, if_true]
  rw [← Node.write_of]
  apply (Pool.put_ends [(slot, tree.descriptor)] node).mono _ fun _ _ => id
  exact fun _ _ ended => ⟨ended.1, ended.2.1⟩

/-- Writing a descriptor that links nothing over one that links nothing. -/
theorem Held.store_word {start : Journaled Pool} {old : Word}
    (held : format.Held start.state (level :: deeper) table branches)
    (plain : branches slot = .word old)
    (shaped : format.isPresent word → format.isPage level word) :
    (format.store table slot word).Returns start fun _ last =>
      format.Edited start.state last.state (level :: deeper) table branches
        (Function.update branches slot (.word word)) := by
  apply (store_ends slot (.word word) held.node).mono _ fun _ _ => id
  intro _ last ended
  obtain ⟨exchange, node⟩ := ended
  apply held.replace _ node trivial shaped (List.nodup_singleton _)
  rw [plain]
  exact exchange

end Format

end DmaRemap

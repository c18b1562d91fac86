import DmaRemap.Table.Remove
import DmaRemap.Proofs.Tree

namespace DmaRemap

namespace Format

variable {format : Format} {before after : Pool} {level : Level} {deeper levels : List Level}
  {table : PhysicalAddress} {branches below : Branches} {slot : Slot} {word : Word} {ε : Type}

theorem tablesFrom_of_leaf (divided : Level.Divided level deeper) (leaf : level.kind = .leaf)
    (shaped : ∀ slot, format.Shaped (level :: deeper) (branches slot)) :
    format.tablesFrom table branches = [table] := by
  have none (slot : Slot) : format.nodes (branches slot) = [] := by
    have here := shaped slot
    cases branch : branches slot with
    | word descriptor => rw [nodes]
    | link descriptor below =>
      rw [branch, divided.leaf.mp leaf] at here
      exact (here.2.2 0).elim
  simp [tablesFrom, none]

/-- The first slots of a table are released: what is left are the nodes below the later ones. -/
structure Releasing (format : Format) (before after : Pool) (table : PhysicalAddress)
    (branches : Branches) (later : List Slot) : Prop where
  exchange : before.Exchanges after (format.tablesFrom table branches)
    (table :: later.flatMap fun slot => format.nodes (branches slot))
  node : after.node? table = some (Node.of branches)
  stored : ∀ slot ∈ later, format.Stored after (branches slot)

theorem Held.releasing (held : format.Held before levels table branches) :
    format.Releasing before before table branches (List.finRange 512) where
  exchange := .refl ..
  node := held.node
  stored slot _ := held.stored slot

theorem Releasing.child {later : List Slot}
    (releasing : format.Releasing before after table branches (slot :: later))
    (linked : branches slot = .link word below)
    (shaped : format.Shaped (level :: deeper) (branches slot))
    (nodup : (format.tablesFrom table branches).Nodup) :
    format.Held after deeper (format.linkTarget word) below := by
  have stored := releasing.stored slot List.mem_cons_self
  have single := ((nodup_tablesFrom_iff.mp nodup).1 slot).of_cons
  rw [linked] at stored shaped single
  rw [nodes_link] at single
  exact ⟨stored.1, stored.2, shaped.2.2, single⟩

theorem Releasing.next {later : List Slot} {last : Pool}
    (releasing : format.Releasing before after table branches (slot :: later))
    (nodup : (format.tablesFrom table branches).Nodup) (fresh : (slot :: later).Nodup)
    (released : after.Exchanges last (format.nodes (branches slot)) []) :
    format.Releasing before last table branches later := by
  obtain ⟨single, apart⟩ := nodup_tablesFrom_iff.mp nodup
  have elsewhere (other : Slot) (member : other ∈ later) (address : PhysicalAddress)
      (within : address ∈ format.nodes (branches other)) : address ∉ format.nodes (branches slot) :=
    apart other slot (fun same => (List.nodup_cons.mp fresh).1 (same ▸ member)) within
  refine ⟨releasing.exchange.trans ?_, ?_, fun other member => ?_⟩
  · rw [List.flatMap_cons]
    apply released.widen
    · exact fun address member => List.mem_cons_of_mem _ (List.mem_append_left _ member)
    · exact List.nil_subset _
    · intro address outside member
      simpa [outside] using member
    · intro address _ member
      rcases List.mem_cons.mp member with rfl | within
      · exact List.mem_cons_self
      · exact List.mem_cons_of_mem _ (List.mem_append_right _ within)
  · exact (released.kept releasing.node (List.nodup_cons.mp (single slot)).1).2
  · apply (releasing.stored other (List.mem_cons_of_mem _ member)).transport
    intro address within
    exact released.elsewhere address (elsewhere other member address within) List.not_mem_nil

/-- Every node below a table is given back, and the table itself is not touched. -/
theorem releaseBelow_ends {start : Journaled Pool} (nested : Level.Nested levels)
    (held : format.Held start.state levels table branches) :
    (format.releaseBelow levels table : Action Pool ε Unit).Returns start fun _ last =>
      format.Releasing start.state last.state table branches [] := by
  induction levels generalizing start table branches with
  | nil => exact absurd (held.shaped 0) (by simp [Shaped])
  | cons level deeper ih =>
    rw [releaseBelow]
    by_cases leaf : level.kind = .leaf
    · simp only [if_pos leaf, Action.ends_pure]
      refine ⟨?_, held.node, fun slot member => absurd member List.not_mem_nil⟩
      rw [tablesFrom_of_leaf nested.1 leaf held.shaped]
      exact .refl ..
    · rw [if_neg leaf]
      have everything := held.releasing
      have unique := List.nodup_finRange 512
      generalize List.finRange 512 = slots at everything unique ⊢
      apply Action.ends_forM fun past now => ∀ later, slots = past ++ later →
        format.Releasing start.state now.state table branches later
      case initial =>
        rintro later rfl
        exact everything
      case final =>
        intro last releasing
        exact releasing [] (List.append_nil _).symm
      case turn =>
        intro past slot later now split reached
        have releasing := reached _ split
        have fresh : (slot :: later).Nodup := by
          rw [split] at unique
          exact (List.nodup_append.mp unique).2.1
        have shaped := held.shaped slot
        simp only [Action.ends_bind, Action.ends_state, Pool.read?_of_node? releasing.node,
          Node.get_of]
        have turned (last : Journaled Pool)
            (released : now.state.Exchanges last.state (format.nodes (branches slot)) [])
            (rest : List Slot) (split' : slots = past ++ [slot] ++ rest) :
            format.Releasing start.state last.state table branches rest := by
          have same : later = rest := by
            rw [split] at split'
            simpa using split'
          exact same ▸ releasing.next held.nodup fresh released
        cases branch : branches slot with
        | word descriptor =>
          rw [branch] at shaped turned
          have skip : (format.isPresent descriptor && !format.isPage level descriptor) = false := by
            by_cases present : format.isPresent descriptor = true
            · simp [shaped present]
            · simp [present]
          simp only [Tree.descriptor, skip, Bool.false_eq_true, if_false, Action.ends_pure]
          exact turned now (.refl ..)
        | link descriptor below =>
          have child := releasing.child branch shaped held.nodup
          rw [branch] at shaped turned
          obtain ⟨present, link, _⟩ := shaped
          simp only [Tree.descriptor, present, link, Bool.not_false, Bool.and_true, if_true,
            address_of_not_isPage link, Action.ends_bind]
          apply (ih nested.2 child).mono _ fun _ _ => False.elim
          intro _ middle released
          apply (Pool.destruct_ends released.node).mono _ fun _ _ => False.elim
          intro _ last freed
          apply turned last
          rw [nodes_link]
          exact released.exchange.trans freed

end Format

namespace TranslationTable

variable {table : TranslationTable} {branches : Branches} {start : Journaled Pool} {ε : Type}

/-- A cleared table holds nothing, and of its nodes only the root is left. -/
theorem clear_ends
    (held : table.format.Held start.state table.format.levels table.root branches) :
    (table.clear : Action Pool ε Unit).Returns start fun _ last =>
      table.format.Edited start.state last.state table.format.levels table.root branches
        Format.blank := by
  simp only [clear, Action.ends_bind]
  apply (Format.releaseBelow_ends table.format.nested_levels held).mono _ fun _ _ => False.elim
  intro _ middle released
  apply (Pool.wipe_ends released.node).mono _ fun _ _ => False.elim
  intro _ last ended
  obtain ⟨wiped, node⟩ := ended
  refine ⟨Format.held_blank node table.format.levels_ne_nil, ?_⟩
  rw [Format.tablesFrom_blank]
  exact released.exchange.trans wiped

/-- Freeing the root of a cleared table gives back the last of its nodes. -/
theorem destruct_root_ends {middle : Journaled Pool}
    (cleared : table.format.Edited start.state middle.state table.format.levels table.root branches
      Format.blank) :
    (Pool.destruct table.root : Action Pool ε Unit).Returns middle fun _ last =>
      start.state.Exchanges last.state (table.format.tablesFrom table.root branches) [] := by
  apply (Pool.destruct_ends cleared.held.node).mono _ fun _ _ => False.elim
  intro _ last freed
  have exchange := cleared.exchange
  rw [Format.tablesFrom_blank] at exchange
  exact exchange.trans freed

/-- Destroying a table gives back all of its nodes. -/
theorem destroy_ends
    (held : table.format.Held start.state table.format.levels table.root branches) :
    (table.destroy : Action Pool ε Unit).Returns start fun _ last =>
      start.state.Exchanges last.state (table.format.tablesFrom table.root branches) [] := by
  simp only [destroy, Action.ends_bind]
  apply (clear_ends held).mono _ fun _ _ => False.elim
  intro _ middle cleared
  apply (destruct_root_ends cleared).mono _ fun _ _ => False.elim
  exact fun _ _ freed => (Action.ends_record ..).mpr freed

end TranslationTable

end DmaRemap

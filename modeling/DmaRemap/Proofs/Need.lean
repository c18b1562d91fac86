import DmaRemap.Proofs.Growth

/-! The nodes that a request needs. A request needs a node for the table of each block that it meets
in part and that has no table yet. While the request is carried out, each node that is taken is one
that is needed no more. -/

namespace DmaRemap

namespace Request

variable {request part : Request} {level : Level} {deeper levels : List Level}
  {branches : Branches} {tree : Tree} {slot : Slot} {word : Word} {below : Branches → Nat}

instance (request : Request) (level : Level) : Decidable (request.Fills level) :=
  inferInstanceAs (Decidable (_ ∧ _))

/-- Whether a part of a request cannot be mapped by one page, but needs a table below its block. -/
def Descends (part : Request) (level : Level) : Prop :=
  0 < part.range.size ∧ ¬part.Fills level

instance (part : Request) (level : Level) : Decidable (part.Descends level) :=
  inferInstanceAs (Decidable (_ ∧ _))

/-- How many nodes the part of a request in a block needs: one for the table of the block, unless it
is there, and those that `below` says it needs below that table. -/
def branchNeed (level : Level) (part : Request) (below : Branches → Nat) : Tree → Nat
  | .word _ => if part.Descends level then 1 + below Format.blank else 0
  | .link _ tables => if part.Descends level then below tables else 0

/-- How many nodes a request needs below a table. -/
def need : List Level → Request → Branches → Nat
  | [], _, _ => 0
  | level :: deeper, request, branches => ∑ slot : Slot,
    branchNeed level (request.within level.pageSize slot.val)
      (need deeper (request.within level.pageSize slot.val)) (branches slot)

theorem branchNeed_of_fills (fills : part.Fills level) :
    branchNeed level part below tree = 0 := by
  cases tree <;> exact if_neg fun descends => descends.2 fills

theorem branchNeed_of_size_eq_zero (none : part.range.size = 0) :
    branchNeed level part below tree = 0 := by
  cases tree <;> exact if_neg fun descends => descends.1.ne' none

theorem branchNeed_le_need (slot : Slot) :
    branchNeed level (request.within level.pageSize slot.val)
      (need deeper (request.within level.pageSize slot.val)) (branches slot) ≤
        need (level :: deeper) request branches := by
  rw [need]
  exact Finset.single_le_sum (f := fun slot : Slot =>
    branchNeed level (request.within level.pageSize slot.val)
      (need deeper (request.within level.pageSize slot.val)) (branches slot))
    (fun _ _ => Nat.zero_le _) (Finset.mem_univ slot)

end Request

namespace Format

variable {format : Format} {level : Level} {deeper levels : List Level} {request : Request}
  {branches branches' : Branches} {table : PhysicalAddress} {done : Nat} {short : Prop}

theorem length_tablesFrom (format : Format) (table : PhysicalAddress) (branches : Branches) :
    (format.tablesFrom table branches).length =
      1 + ∑ slot : Slot, (format.nodes (branches slot)).length := by
  rw [tablesFrom, List.length_cons, List.length_flatMap, Fin.sum_univ_def, Nat.add_comm]

/-- While a request is carried out, the nodes of a table and those that it still needs are as many
as before. -/
theorem Grown.length_add_need
    (grown : format.Grown levels request done short branches branches') :
    (format.tablesFrom table branches').length + request.need levels branches' =
      (format.tablesFrom table branches).length + request.need levels branches := by
  induction levels generalizing request done table branches branches' with
  | nil => exact grown.elim
  | cons level deeper ih =>
    rw [length_tablesFrom, length_tablesFrom, Request.need, Request.need, Nat.add_assoc,
      Nat.add_assoc, ← Finset.sum_add_distrib, ← Finset.sum_add_distrib]
    refine congrArg (1 + ·) (Finset.sum_congr rfl fun slot _ => ?_)
    have branch := grown slot
    generalize branches slot = tree at branch ⊢
    generalize branches' slot = tree' at branch ⊢
    cases branch with
    | untouched none tree => rfl
    | mapped fills complete vacant =>
      rw [Request.branchNeed_of_fills fills, Request.branchNeed_of_fills fills, nodes, nodes]
    | kept fills complete present same => rfl
    | linked partly touched barren vacant child inside =>
      have descends : (request.within level.pageSize slot.val).Descends level := ⟨touched, partly⟩
      have kept : (format.tablesFrom (format.linkTarget (format.tableDescriptor child)) _).length +
          _ = _ := ih inside
      rw [tablesFrom_blank, List.length_singleton] at kept
      simp only [Request.branchNeed, if_pos descends, nodes_link]
      rw [kept, nodes, List.length_nil, Nat.zero_add]
    | descended partly touched inside =>
      have descends : (request.within level.pageSize slot.val).Descends level := ⟨touched, partly⟩
      simp only [Request.branchNeed, if_pos descends, nodes_link]
      exact ih inside

theorem Grown.need_eq_zero
    (grown : format.Grown levels request request.range.size short branches branches') :
    request.need levels branches' = 0 := by
  induction levels generalizing request branches branches' with
  | nil => exact grown.elim
  | cons level deeper ih =>
    rw [Request.need]
    apply Finset.sum_eq_zero
    intro slot _
    have branch := grown slot
    rw [Request.progress_whole] at branch
    generalize branches slot = tree at branch
    generalize branches' slot = tree' at branch ⊢
    cases branch with
    | untouched none tree => exact Request.branchNeed_of_size_eq_zero none
    | mapped fills complete vacant => exact Request.branchNeed_of_fills fills
    | kept fills complete present same => exact Request.branchNeed_of_fills fills
    | linked partly touched barren vacant child inside =>
      exact (if_pos ⟨touched, partly⟩).trans (ih inside)
    | descended partly touched inside => exact (if_pos ⟨touched, partly⟩).trans (ih inside)

end Format

end DmaRemap

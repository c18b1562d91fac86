import DmaRemap.DomainId
import DmaRemap.Proofs.Bitmap
import DmaRemap.Proofs.Effects

namespace DmaRemap

variable {ε : Type}

theorem DomainId.isValid_of_pos {id : DomainId} (pos : 1 ≤ id.val.val) : id.isValid = true := by
  rw [isValid, bne_iff_ne]
  rintro rfl
  exact absurd pos (by decide)

namespace DomainIds

variable {ids rest : DomainIds} {id : DomainId} {n : Nat}

@[simp] theorem val_idAt (ids : DomainIds) (place : Fin ids.count) :
    (ids.idAt place).val.val = place.val + 1 :=
  rfl

theorem idAt_eq_iff {place : Fin ids.count} : ids.idAt place = id ↔ place.val + 1 = id.val.val := by
  constructor
  · rintro rfl
    rfl
  · intro same
    rw [← DomainId.ofNat_val id, ← same]
    exact (DomainId.ofNat_val (ids.idAt place)).symm

/-- The place of a bit is the number of its id less one; the reserved id has none. -/
theorem placeOf?_eq_some_iff {place : Fin ids.count} :
    ids.placeOf? id = some place ↔ place.val + 1 = id.val.val := by
  have small := ids.small
  have inside := place.isLt
  have bound := id.val.isLt
  have wrapped : (BitVec.ofNat 64 id.val.val - 1#64).toNat =
      (id.val.val + (2 ^ 64 - 1)) % 2 ^ 64 := by
    simp only [BitVec.toNat_sub, BitVec.toNat_ofNat]
    omega
  unfold placeOf?
  simp only [wrapped, Option.dite_none_right_eq_some, Option.some.injEq, Fin.ext_iff,
    exists_prop]
  omega

theorem placeOf?_idAt (place : Fin ids.count) :
    ids.placeOf? (ids.idAt place) = some place :=
  placeOf?_eq_some_iff.mpr rfl

theorem exists_place (least : 1 ≤ id.val.val) (most : id.val.val ≤ ids.count) :
    ∃ place, ids.placeOf? id = some place := by
  refine ⟨⟨id.val.val - 1, by omega⟩, placeOf?_eq_some_iff.mpr ?_⟩
  exact Nat.sub_add_cancel least

/-- The numbers of the ids that are free, in ascending order. -/
def free (ids : DomainIds) : List Nat :=
  ((List.finRange ids.count).filter fun place => !ids.handedOut.isUsed place).map (·.val + 1)

theorem mem_free_iff :
    n ∈ ids.free ↔ ∃ place, ids.handedOut.isUsed place = false ∧ place.val + 1 = n := by
  simp [free]

theorem succ_mem_free_iff {place : Fin ids.count} :
    place.val + 1 ∈ ids.free ↔ ids.handedOut.isUsed place = false := by
  rw [mem_free_iff]
  constructor
  · rintro ⟨other, free, same⟩
    cases Fin.ext (Nat.succ.inj same)
    exact free
  · exact fun free => ⟨place, free, rfl⟩

theorem pairwise_free (ids : DomainIds) : ids.free.Pairwise (· < ·) := by
  apply List.Pairwise.map _ (fun _ _ below => Nat.succ_lt_succ below)
  exact (List.pairwise_lt_finRange _).filter _

theorem nodup_free (ids : DomainIds) : ids.free.Nodup :=
  ids.pairwise_free.imp Nat.ne_of_lt

theorem length_free (ids : DomainIds) : ids.free.length = ids.handedOut.unused := by
  rw [free, List.length_map, Bitmap.unused,
    ← List.toFinset_card_of_nodup ((List.nodup_finRange _).filter _)]
  congr 1
  ext place
  simp

/-- The counter tells how many ids are not handed out. -/
def Counted (ids : DomainIds) : Prop :=
  ids.available = ids.handedOut.unused

theorem Counted.available_eq (counted : ids.Counted) : ids.available = ids.free.length :=
  counted.trans ids.length_free.symm

theorem unused_le (ids : DomainIds) : ids.handedOut.unused ≤ 65535 := by
  have all : ids.handedOut.unused ≤ ids.count := by
    exact (Finset.card_filter_le ..).trans_eq (Finset.card_fin _)
  exact all.trans ids.small

theorem free_ofLimit (limit : Nat) :
    (ofLimit limit).free = List.range' 1 (min (limit - 1) 65535) := by
  apply List.Pairwise.eq_of_mem_iff (pairwise_free _) List.pairwise_lt_range'
  intro n
  rw [mem_free_iff, List.mem_range'_1]
  constructor
  · rintro ⟨place, _, rfl⟩
    have inside : place.val < min (limit - 1) 65535 := place.isLt
    omega
  · rintro ⟨least, most⟩
    exact ⟨⟨n - 1, show n - 1 < min (limit - 1) 65535 by omega⟩, Bitmap.isUsed_clear _,
      Nat.sub_add_cancel least⟩

theorem counted_ofLimit (limit : Nat) : (ofLimit limit).Counted := by
  rw [Counted, ← length_free, free_ofLimit, List.length_range']
  rfl

/-- What is handed out: the lowest id that is free. -/
theorem take_some (taken : ids.take = (some id, rest)) :
    ∃ place, id = ids.idAt place ∧ ids.handedOut.isUsed place = false ∧
      (∀ earlier < place, ids.handedOut.isUsed earlier = true) ∧
      rest = { ids with
        handedOut := ids.handedOut.setUsed place true, available := ids.available - 1 } := by
  unfold take at taken
  split at taken
  case h_1 place found =>
    obtain ⟨free, lowest⟩ := Bitmap.lowestFree?_eq_some found
    cases taken
    exact ⟨place, rfl, free, lowest, rfl⟩
  case h_2 => cases taken

theorem take_none (taken : ids.take = (none, rest)) : rest = ids ∧ ids.free = [] := by
  unfold take at taken
  split at taken
  case h_1 => cases taken
  case h_2 found =>
    cases taken
    refine ⟨rfl, List.eq_nil_iff_forall_not_mem.mpr fun n member => ?_⟩
    obtain ⟨place, free, _⟩ := mem_free_iff.mp member
    cases free.symm.trans (Bitmap.lowestFree?_eq_none found place)

theorem free_of_take (taken : ids.take = (some id, rest)) :
    ids.free = id.val.val :: rest.free ∧ rest.count = ids.count := by
  obtain ⟨place, rfl, free, lowest, rfl⟩ := take_some taken
  refine ⟨?_, rfl⟩
  have here {n : Nat} (other : Fin ids.count) (same : other.val + 1 = n)
      (unused : (ids.handedOut.setUsed place true).isUsed other = false) :
      other ≠ place ∧ ids.handedOut.isUsed other = false := by
    rw [Bitmap.isUsed_setUsed] at unused
    split at unused
    case isTrue => cases unused
    case isFalse apart => exact ⟨apart, unused⟩
  apply List.Pairwise.eq_of_mem_iff ids.pairwise_free
  · refine List.pairwise_cons.mpr ⟨fun n member => ?_, pairwise_free _⟩
    obtain ⟨other, unused, same⟩ := mem_free_iff.mp member
    obtain ⟨apart, unused⟩ := here other same unused
    have behind : place < other := by
      refine lt_of_le_of_ne (Fin.not_lt.mp fun earlier => ?_) (Ne.symm apart)
      cases unused.symm.trans (lowest other earlier)
    rw [val_idAt, ← same]
    exact Nat.succ_lt_succ behind
  · intro n
    rw [List.mem_cons, mem_free_iff, mem_free_iff]
    constructor
    · rintro ⟨other, unused, rfl⟩
      by_cases same : other = place
      · exact .inl (by rw [same, val_idAt])
      · exact .inr ⟨other, by rw [Bitmap.isUsed_setUsed, if_neg same, unused], rfl⟩
    · rintro (rfl | ⟨other, unused, same⟩)
      · exact ⟨place, free, rfl⟩
      · exact ⟨other, (here other same unused).2, same⟩

theorem isValid_of_take (taken : ids.take = (some id, rest)) : id.isValid = true := by
  obtain ⟨place, rfl, _⟩ := take_some taken
  exact DomainId.isValid_of_pos (Nat.succ_pos _)

theorem Counted.take (counted : ids.Counted) (taken : ids.take = (some id, rest)) :
    rest.Counted := by
  obtain ⟨place, _, free, _, rfl⟩ := take_some taken
  have one := Bitmap.unused_of_set free
  simp only [Counted] at counted ⊢
  omega

/-- Giving an id back: what is handed out becomes free, and anything else is ignored. -/
theorem giveBack_cases (ids : DomainIds) (id : DomainId) :
    (∃ place, ids.placeOf? id = some place ∧ ids.handedOut.isUsed place = true ∧
      ids.giveBack id = (true, { ids with
        handedOut := ids.handedOut.setUsed place false, available := ids.available + 1 })) ∨
      ids.giveBack id = (false, ids) ∧
        ∀ place, ids.placeOf? id = some place → ids.handedOut.isUsed place = false := by
  unfold giveBack
  cases found : ids.placeOf? id with
  | none => exact .inr ⟨rfl, nofun⟩
  | some place =>
    cases used : ids.handedOut.isUsed place with
    | true => exact .inl ⟨place, rfl, used, if_pos used⟩
    | false =>
      refine .inr ⟨if_neg (by simp [used]), fun other same => ?_⟩
      cases same
      exact used

theorem count_giveBack (ids : DomainIds) (id : DomainId) :
    (ids.giveBack id).2.count = ids.count := by
  rcases ids.giveBack_cases id with ⟨_, _, _, same⟩ | ⟨same, _⟩ <;> rw [same]

theorem Counted.giveBack (counted : ids.Counted) (id : DomainId) :
    (ids.giveBack id).2.Counted := by
  rcases ids.giveBack_cases id with ⟨place, _, used, same⟩ | ⟨same, _⟩
  · rw [same, Counted, Bitmap.unused_of_unset used, counted]
  · rw [same]
    exact counted

theorem perm_free_giveBack (least : 1 ≤ id.val.val) (most : id.val.val ≤ ids.count)
    (held : id.val.val ∉ ids.free) : (ids.giveBack id).2.free.Perm (id.val.val :: ids.free) := by
  obtain ⟨place, found⟩ := exists_place least most
  have number := placeOf?_eq_some_iff.mp found
  rw [← number, succ_mem_free_iff] at held
  rcases ids.giveBack_cases id with ⟨place', found', used, same⟩ | ⟨_, unused⟩
  case inr => exact absurd (unused place found) held
  cases found.symm.trans found'
  rw [same]
  apply (List.perm_ext_iff_of_nodup (nodup_free _) ?_).mpr
  · intro n
    rw [List.mem_cons, mem_free_iff, mem_free_iff]
    constructor
    · rintro ⟨other, free, rfl⟩
      rw [Bitmap.isUsed_setUsed] at free
      split at free
      case isTrue here => exact .inl (here ▸ number)
      case isFalse => exact .inr ⟨other, free, rfl⟩
    · rintro (rfl | ⟨other, free, rfl⟩)
      · exact ⟨place, by simp, number⟩
      · refine ⟨other, ?_, rfl⟩
        rw [Bitmap.isUsed_setUsed]
        split <;> trivial
  · rw [← number]
    exact List.nodup_cons.mpr ⟨fun member => held (succ_mem_free_iff.mp member), ids.nodup_free⟩

/-- Giving back the id that was handed out last leaves everything as it was before. -/
theorem giveBack_of_take (counted : ids.Counted) (taken : ids.take = (some id, rest)) :
    (rest.giveBack id).2 = ids := by
  obtain ⟨place, rfl, free, _, rfl⟩ := take_some taken
  have some := Bitmap.unused_pos free
  rw [Counted] at counted
  rcases giveBack_cases { ids with
      handedOut := ids.handedOut.setUsed place true, available := ids.available - 1 }
    (ids.idAt place) with ⟨place', found, _, same⟩ | ⟨_, unused⟩
  · cases Fin.ext (Nat.succ.inj (placeOf?_eq_some_iff.mp found))
    rw [same]
    simp only [Bitmap.setUsed_setUsed free, Nat.sub_add_cancel (counted ▸ some)]
  · have now := unused place (placeOf?_eq_some_iff.mpr rfl)
    simp at now

/-- The ids after one was handed out, if one was free. -/
theorem acquire_ends (start : Journaled DomainIds) :
    acquire.Ends start
      (fun id last => start.state.take = (some id, last.state) ∧ last.journal = start.journal)
      (fun cause last => (∃ reason, cause = .abort reason ∧ ¬start.state.Counted) ∨
        cause = .error .domainIdsExhausted ∧ last = start ∧ start.state.free = []) := by
  simp only [acquire, Action.ends_bind, Action.ends_state]
  rcases taken : start.state.take with ⟨_ | id, rest⟩
  · rw [Action.ends_fail]
    exact .inr ⟨rfl, rfl, (take_none taken).2⟩
  · simp only [Action.ends_bind, Action.ends_lift, Action.ends_update, Action.ends_pure]
    split
    case h_1 => exact ⟨trivial, trivial⟩
    case h_2 reason failed =>
      refine .inl ⟨reason, rfl, fun counted => ?_⟩
      obtain ⟨place, _, free, _⟩ := take_some taken
      have some : 1 ≤ start.state.available := counted ▸ Bitmap.unused_pos free
      cases failed.symm.trans (Checked.sub_eq_ok_iff.mpr ⟨some, rfl⟩)

theorem release_ends (id : DomainId) (start : Journaled DomainIds) :
    (release id : Action DomainIds ε Unit).Ends start
      (fun _ last => last.state = (start.state.giveBack id).2 ∧
        last.journal.log = start.journal.log)
      (fun cause _ => ∃ reason, cause = .abort reason ∧ ¬start.state.Counted) := by
  simp only [release, Action.ends_bind, Action.ends_state]
  rcases given : start.state.giveBack id with ⟨_ | _, rest⟩
  · rcases start.state.giveBack_cases id with ⟨_, _, _, same⟩ | ⟨same, _⟩
    · cases given.symm.trans same
    · cases given.symm.trans same
      rw [Action.ends_record]
      exact ⟨rfl, Journal.log_record ..⟩
  · simp only [Action.ends_bind, Action.ends_lift, Action.ends_update]
    split
    case h_1 => exact ⟨trivial, trivial⟩
    case h_2 reason failed =>
      refine ⟨reason, rfl, fun counted => ?_⟩
      have fits : start.state.available + 1 < 1 <<< 64 := by
        have few := start.state.unused_le
        rw [counted, Nat.shiftLeft_eq]
        omega
      cases failed.symm.trans (Checked.add_eq_ok_iff.mpr ⟨fits, rfl⟩)

end DomainIds

end DmaRemap

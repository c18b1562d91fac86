import DmaRemap.Proofs.DomainIds

/-! The pool of domain ids as the set of those that are live. What the set makes of a call is all
that a caller can see, and every run of a pool is one of its set. The bitmap, the places of the ids
in it and the counter do not show. -/

namespace DmaRemap

namespace DomainIds

/-- What callers do to a pool of ids. -/
inductive Call where
  | acquire
  | release (id : DomainId)

/-- What a caller is told. -/
inductive Reply where
  | acquired (id : DomainId)
  | released
deriving DecidableEq

def Call.perform : Call → Action DomainIds IommuError Reply
  | acquire => return .acquired (← DomainIds.acquire)
  | release id => do
    DomainIds.release id
    return .released

/-- A run of calls with their outcomes in order, whatever these are. -/
inductive Run (first : DomainIds) :
    List (Call × Except (Failure IommuError) Reply) → DomainIds → Prop where
  | start : Run first [] first
  | step {trace : List (Call × Except (Failure IommuError) Reply)} {ids : DomainIds}
      (run : Run first trace ids) (call : Call) (journal : Journal) :
      Run first (trace ++ [(call, call.perform.outcome ⟨ids, journal⟩)])
        (call.perform.finish ⟨ids, journal⟩).state

end DomainIds

/-- The ids that were handed out and not given back since. -/
abbrev LiveIds := Finset DomainId

namespace LiveIds

/-- Whether an id names a domain of a unit with this many ids. -/
def Names (count : Nat) (id : DomainId) : Prop :=
  1 ≤ id.val.val ∧ id.val.val ≤ count

/-- Whether an id is the lowest that is not live. -/
structure Lowest (count : Nat) (live : LiveIds) (id : DomainId) : Prop where
  names : Names count id
  absent : id ∉ live
  least : ∀ other, Names count other → other ∉ live → id.val ≤ other.val

/-- What a call makes of the live ids, and what it tells. -/
inductive Step (count : Nat) (live : LiveIds) :
    DomainIds.Call → Except (Failure IommuError) DomainIds.Reply → LiveIds → Prop where
  | acquired {id : DomainId} (lowest : Lowest count live id) :
      Step count live .acquire (.ok (.acquired id)) (insert id live)
  | exhausted (full : ∀ id, Names count id → id ∈ live) :
      Step count live .acquire (.error (.error .domainIdsExhausted)) live
  | released {id : DomainId} (here : id ∈ live) :
      Step count live (.release id) (.ok .released) (live.erase id)
  | ignored {id : DomainId} (absent : id ∉ live) :
      Step count live (.release id) (.ok .released) live

/-- A run of calls, from no live id on. -/
inductive Run (count : Nat) :
    List (DomainIds.Call × Except (Failure IommuError) DomainIds.Reply) → LiveIds → Prop where
  | start : Run count [] ∅
  | step {trace : List (DomainIds.Call × Except (Failure IommuError) DomainIds.Reply)}
      {live next : LiveIds} {call : DomainIds.Call}
      {outcome : Except (Failure IommuError) DomainIds.Reply} (run : Run count trace live)
      (step : Step count live call outcome next) : Run count (trace ++ [(call, outcome)]) next

end LiveIds

namespace DomainIds

open LiveIds (Names Lowest)

variable {ids rest last : DomainIds} {id : DomainId}

/-- The ids whose bits are set. -/
def live (ids : DomainIds) : LiveIds :=
  (Finset.univ.filter fun place => ids.handedOut.isUsed place).image ids.idAt

theorem idAt_injective (ids : DomainIds) : Function.Injective ids.idAt := by
  intro place place' same
  have number := congrArg (·.val.val) same
  exact Fin.ext (Nat.succ.inj number)

theorem idAt_mem_live {place : Fin ids.count} :
    ids.idAt place ∈ ids.live ↔ ids.handedOut.isUsed place = true := by
  rw [live, ids.idAt_injective.mem_finset_image]
  simp

theorem names_iff : Names ids.count id ↔ ∃ place, ids.idAt place = id := by
  constructor
  · rintro ⟨least, most⟩
    exact ⟨⟨id.val.val - 1, by omega⟩, idAt_eq_iff.mpr (Nat.sub_add_cancel least)⟩
  · rintro ⟨place, rfl⟩
    exact ⟨Nat.succ_pos _, place.isLt⟩

theorem names_of_mem (member : id ∈ ids.live) : Names ids.count id := by
  obtain ⟨place, _, same⟩ := Finset.mem_image.mp member
  exact names_iff.mpr ⟨place, same⟩

theorem mem_live_setUsed (place : Fin ids.count) (used : Bool) (available : Nat) :
    id ∈ live { ids with handedOut := ids.handedOut.setUsed place used, available } ↔
      if id = ids.idAt place then used = true else id ∈ ids.live := by
  by_cases named : Names ids.count id
  · obtain ⟨other, rfl⟩ := names_iff.mp named
    have moved := @idAt_mem_live
      { ids with handedOut := ids.handedOut.setUsed place used, available } other
    rw [Bitmap.isUsed_setUsed] at moved
    refine moved.trans ?_
    simp only [ids.idAt_injective.eq_iff, idAt_mem_live]
    split <;> rfl
  · have other : id ≠ ids.idAt place := fun same => named (names_iff.mpr ⟨place, same.symm⟩)
    rw [if_neg other]
    exact ⟨fun member => absurd (names_of_mem member) named,
      fun member => absurd (names_of_mem member) named⟩

theorem lowest_of_take (taken : ids.take = (some id, rest)) :
    Lowest ids.count ids.live id ∧ rest.live = insert id ids.live := by
  obtain ⟨place, rfl, free, lowest, rfl⟩ := take_some taken
  refine ⟨⟨names_iff.mpr ⟨place, rfl⟩, ?_, ?_⟩, ?_⟩
  · simp [idAt_mem_live, free]
  · intro other named absent
    obtain ⟨place', rfl⟩ := names_iff.mp named
    have behind : ¬place' < place := fun earlier =>
      absent (idAt_mem_live.mpr (lowest place' earlier))
    exact Nat.succ_le_succ (Fin.not_lt.mp behind)
  · ext other
    rw [mem_live_setUsed, Finset.mem_insert]
    split <;> simp_all

theorem mem_live_of_full (full : ids.free = []) (named : Names ids.count id) : id ∈ ids.live := by
  obtain ⟨place, rfl⟩ := names_iff.mp named
  by_contra absent
  rw [idAt_mem_live, Bool.not_eq_true] at absent
  exact List.eq_nil_iff_forall_not_mem.mp full _ (succ_mem_free_iff.mpr absent)

/-- An id that is given back does not live any more, and all others do as before. -/
theorem live_giveBack (ids : DomainIds) (id : DomainId) :
    (ids.giveBack id).2.live = ids.live.erase id := by
  rcases ids.giveBack_cases id with ⟨place, found, _, same⟩ | ⟨same, unused⟩
  · cases idAt_eq_iff.mpr (placeOf?_eq_some_iff.mp found)
    rw [same]
    ext other
    rw [mem_live_setUsed, Finset.mem_erase]
    split <;> simp_all
  · rw [same, Finset.erase_eq_of_notMem]
    intro member
    obtain ⟨place, rfl⟩ := names_iff.mp (names_of_mem member)
    cases (unused place (placeOf?_idAt place)).symm.trans (idAt_mem_live.mp member)

/-- The counter tells of no id too few or too many, and no bit is set for which there is no id. -/
structure Sound (ids : DomainIds) : Prop where
  counted : ids.Counted
  trimmed : ids.handedOut.Trimmed

theorem sound_ofLimit (limit : Nat) : (ofLimit limit).Sound :=
  ⟨counted_ofLimit limit, Bitmap.trimmed_clear⟩

theorem Sound.take (sound : ids.Sound) (taken : ids.take = (some id, rest)) : rest.Sound := by
  refine ⟨sound.counted.take taken, ?_⟩
  obtain ⟨place, _, _, _, rfl⟩ := take_some taken
  exact sound.trimmed.setUsed place true

theorem Sound.giveBack (sound : ids.Sound) (id : DomainId) : (ids.giveBack id).2.Sound := by
  refine ⟨sound.counted.giveBack id, ?_⟩
  rcases ids.giveBack_cases id with ⟨place, _, _, same⟩ | ⟨same, _⟩
  · rw [same]
    exact sound.trimmed.setUsed place false
  · rw [same]
    exact sound.trimmed

/-- What a pool of ids shows is what the set of live ids says. -/
structure Shows (ids : DomainIds) (live : LiveIds) : Prop where
  names : ∀ id ∈ live, Names ids.count id
  available : ids.available = {id | Names ids.count id ∧ id ∉ live}.ncard
  counted : ids.available + live.card = ids.count
  bit : ∀ place, ids.handedOut.isUsed place = true ↔ ids.idAt place ∈ live
  trimmed : ids.handedOut.Trimmed

theorem Sound.shows (sound : ids.Sound) : ids.Shows ids.live where
  names _ := names_of_mem
  available := by
    have absent : {id | Names ids.count id ∧ id ∉ ids.live} =
        ids.idAt '' ↑(Finset.univ.filter fun place => ids.handedOut.isUsed place = false) := by
      ext id
      rw [Set.mem_ofPred_eq, names_iff]
      constructor
      · rintro ⟨⟨place, rfl⟩, absent⟩
        exact ⟨place, by simpa [idAt_mem_live] using absent, rfl⟩
      · rintro ⟨place, free, rfl⟩
        exact ⟨⟨place, rfl⟩, by simpa [idAt_mem_live] using free⟩
    rw [absent, Set.ncard_image_of_injective _ ids.idAt_injective, Set.ncard_coe_finset]
    exact sound.counted
  counted := by
    have both := Finset.card_filter_add_card_filter_not (s := Finset.univ)
      fun place => ids.handedOut.isUsed place = true
    rw [live, Finset.card_image_of_injective _ ids.idAt_injective, sound.counted, Bitmap.unused,
      Nat.add_comm]
    simpa using both
  bit _ := idAt_mem_live.symm
  trimmed := sound.trimmed

/-- A call to a sound pool is a step of its live ids, and keeps the pool sound. -/
theorem Call.perform_ends (sound : ids.Sound) (call : Call) (journal : Journal) :
    call.perform.Ends ⟨ids, journal⟩
      (fun reply last => last.state.Sound ∧ last.state.count = ids.count ∧
        LiveIds.Step ids.count ids.live call (.ok reply) last.state.live)
      (fun cause last => last.state.Sound ∧ last.state.count = ids.count ∧
        LiveIds.Step ids.count ids.live call (.error cause) last.state.live) := by
  cases call with
  | acquire =>
    simp only [perform, Action.ends_bind, Action.ends_pure]
    apply (acquire_ends _).mono
    · rintro id last ⟨taken, _⟩
      obtain ⟨lowest, lives⟩ := lowest_of_take taken
      exact ⟨sound.take taken, (free_of_take taken).2, lives ▸ .acquired lowest⟩
    · rintro cause last (⟨_, _, uncounted⟩ | ⟨rfl, rfl, full⟩)
      · exact absurd sound.counted uncounted
      · exact ⟨sound, rfl, .exhausted fun _ => mem_live_of_full full⟩
  | release id =>
    simp only [perform, Action.ends_bind, Action.ends_pure]
    apply (release_ends id _).mono
    · rintro _ last ⟨same, _⟩
      refine ⟨same ▸ sound.giveBack id, same ▸ count_giveBack ids id, ?_⟩
      rw [same, live_giveBack]
      by_cases here : id ∈ ids.live
      · exact .released here
      · rw [Finset.erase_eq_of_notMem here]
        exact .ignored here
    · rintro cause _ ⟨_, _, uncounted⟩
      exact absurd sound.counted uncounted

/-- A run from a new pool on keeps it sound, and is a run of its live ids. -/
theorem Run.recorded {limit : Nat} {trace : List (Call × Except (Failure IommuError) Reply)}
    (run : Run (ofLimit limit) trace last) :
    last.Sound ∧ last.count = min (limit - 1) 65535 ∧
      LiveIds.Run (min (limit - 1) 65535) trace last.live := by
  induction run with
  | start =>
    refine ⟨sound_ofLimit limit, rfl, ?_⟩
    have none : (ofLimit limit).live = ∅ :=
      Finset.image_eq_empty.mpr <| Finset.filter_false_of_mem fun place _ =>
        Bool.eq_false_iff.mp (Bitmap.isUsed_clear place)
    rw [none]
    exact .start
  | step run call journal ih =>
    obtain ⟨sound, count, before⟩ := ih
    rcases (call.perform_ends sound journal).outcome_finish with
      ⟨_, returned, sound', count', step⟩ | ⟨_, failed, sound', count', step⟩
    · rw [returned]
      exact ⟨sound', count'.trans count, before.step (count ▸ step)⟩
    · rw [failed]
      exact ⟨sound', count'.trans count, before.step (count ▸ step)⟩

/-- Every run of a pool of ids, from those of a unit that supports a number of ids on, is a run of a
set of live ids with the same outcomes, and the pool shows what the set says. In particular no call
aborts, and none fails but for want of an id that is not live. That no id leaves 16 bits and no
place leaves the words of the bitmap is said by their types. -/
theorem Run.tracks {limit : Nat} {trace : List (Call × Except (Failure IommuError) Reply)}
    (run : Run (ofLimit limit) trace last) :
    last.count = min (limit - 1) 65535 ∧
      ∃ live, LiveIds.Run (min (limit - 1) 65535) trace live ∧ last.Shows live := by
  obtain ⟨sound, count, ran⟩ := run.recorded
  exact ⟨count, _, ran, sound.shows⟩

/-- The ids after calls, one after the other. -/
def after (ids : DomainIds) (calls : List Call) : DomainIds :=
  calls.foldl (fun ids call => (call.perform.finish ⟨ids, { threshold := none }⟩).state) ids

theorem Run.follow {first : DomainIds} {trace : List (Call × Except (Failure IommuError) Reply)}
    (run : Run first trace ids) (calls : List Call) :
    ∃ trace', Run first trace' (ids.after calls) := by
  induction calls generalizing trace ids with
  | nil => exact ⟨trace, run⟩
  | cons call _ ih => exact ih (run.step call _)

/-- All of 65 ids handed out, one more than a word of the bitmap has bits. -/
def fullSample : DomainIds := (ofLimit 66).after (List.replicate 65 .acquire)

/-- Ids that are not live are not given back: the reserved one, and one behind the last. Nothing is
handed out then, and the last id again after it was given back. -/
theorem tracks_fullSample :
    let behind := fullSample.after [.release .invalid, .release (.ofNat 66)]
    let freed := behind.after [.release (.ofNat 65)]
    Call.acquire.perform.outcome ⟨behind, { threshold := none }⟩ =
        .error (.error .domainIdsExhausted) ∧
      Call.acquire.perform.outcome ⟨freed, { threshold := none }⟩ =
        .ok (.acquired (.ofNat 65)) ∧
      freed.available = 1 ∧ ∃ live, freed.Shows live := by
  intro behind freed
  obtain ⟨trace, run⟩ := (Run.start : Run (ofLimit 66) [] _).follow (.replicate 65 .acquire)
  obtain ⟨trace, run⟩ := run.follow [.release .invalid, .release (.ofNat 66)]
  obtain ⟨trace, run⟩ := run.follow [.release (.ofNat 65)]
  obtain ⟨_, live, _, shows⟩ := run.tracks
  exact ⟨by decide +kernel, by decide +kernel, by decide +kernel, live, shows⟩

end DomainIds

end DmaRemap

import DmaRemap.Proofs.Insertion
import DmaRemap.Proofs.Lookup
import DmaRemap.Proofs.Walk
import DmaRemap.Proofs.Window
import DmaRemap.Table.Remove

/-! Tables in arbitrary memory. Whatever the nodes of a pool hold, links that dangle, links that are
shared and links that lead back up included, every operation on a table comes to an end without an
abort, and only a request that is not made of whole pages of both spaces is refused as such. -/

namespace DmaRemap

section Orderly

variable {σ ε α β : Type}

/-- From every state an action returns, or fails with an error that passes a test. It never aborts,
and it keeps an invariant of the state. -/
structure Action.Orderly (invariant : σ → Prop) (expected : ε → Prop) (action : Action σ ε α) :
    Prop where
  ends : ∀ start, action.Ends start
    (fun _ last => invariant start.state → invariant last.state)
    (fun cause last => (invariant start.state → invariant last.state) ∧
      ∃ error, expected error ∧ cause = .error error)

namespace Action.Orderly

variable {invariant : σ → Prop} {expected : ε → Prop}

theorem pure (result : α) : (Pure.pure result : Action σ ε α).Orderly invariant expected :=
  ⟨fun _ => (ends_pure result).mpr id⟩

theorem fail {cause : ε} (passes : expected cause) :
    (Action.fail cause : Action σ ε α).Orderly invariant expected :=
  ⟨fun _ => (ends_fail cause).mpr ⟨id, cause, passes, rfl⟩⟩

theorem state : (Action.state : Action σ ε σ).Orderly invariant expected :=
  ⟨fun _ => ends_state.mpr id⟩

theorem step {change : σ → α × σ} (keeps : ∀ now, invariant now → invariant (change now).2) :
    (Action.step change : Action σ ε α).Orderly invariant expected :=
  ⟨fun start => (ends_step change).mpr (keeps start.state)⟩

theorem lift {attempted : Except Abort β} {value : β} (same : attempted = .ok value)
    {rest : β → Action σ ε α} (goesOn : (rest value).Orderly invariant expected) :
    (liftM attempted >>= rest).Orderly invariant expected := by
  rw [same]
  exact goesOn

theorem update {change : σ → σ} (keeps : ∀ now, invariant now → invariant (change now)) :
    (Action.update change : Action σ ε Unit).Orderly invariant expected :=
  ⟨fun start => (ends_update change).mpr (keeps start.state)⟩

theorem record (severity : Severity) (text : Unit → String) :
    (Action.record severity text : Action σ ε Unit).Orderly invariant expected :=
  ⟨fun _ => (ends_record severity text).mpr id⟩

theorem observe (effect : Effect) :
    (Action.observe effect : Action σ ε Unit).Orderly invariant expected :=
  ⟨fun _ => (ends_observe effect).mpr id⟩

theorem bind {first : Action σ ε β} {rest : β → Action σ ε α}
    (orderly : first.Orderly invariant expected)
    (goesOn : ∀ value, (rest value).Orderly invariant expected) :
    (first >>= rest).Orderly invariant expected := by
  constructor
  intro start
  rw [ends_bind]
  apply (orderly.ends start).mono _ fun _ _ => id
  intro value middle kept
  apply ((goesOn value).ends middle).mono
  · exact fun _ _ kept' => kept' ∘ kept
  · exact fun _ _ ended => ⟨ended.1 ∘ kept, ended.2⟩

theorem ite {condition : Prop} [Decidable condition] {yes no : Action σ ε α}
    (orderly : condition → yes.Orderly invariant expected)
    (orderly' : ¬condition → no.Orderly invariant expected) :
    (if condition then yes else no).Orderly invariant expected := by
  split
  case isTrue holds => exact orderly holds
  case isFalse fails => exact orderly' fails

theorem forM {body : β → Action σ ε Unit} {turns : List β}
    (orderly : ∀ turn ∈ turns, (body turn).Orderly invariant expected) :
    (turns.forM body).Orderly invariant expected := by
  rw [List.forM_eq_forM]
  induction turns with
  | nil => exact pure ()
  | cons turn turns ih =>
    rw [List.forM_cons]
    apply bind (orderly turn List.mem_cons_self)
    exact fun _ => ih fun later member => orderly later (List.mem_cons_of_mem _ member)

theorem returns {action : Action σ ε α} (orderly : action.Orderly invariant fun _ => False)
    (start : Journaled σ) : ∃ result, action.outcome start = .ok result := by
  rcases (orderly.ends start).outcome_finish with
    ⟨result, returned, _⟩ | ⟨_, _, _, _, impossible, _⟩
  · exact ⟨result, returned⟩
  · exact impossible.elim

theorem keeps {action : Action σ ε α} (orderly : action.Orderly invariant expected)
    {start : Journaled σ} (holds : invariant start.state) :
    invariant (action.finish start).state := by
  rcases (orderly.ends start).outcome_finish with ⟨_, _, kept⟩ | ⟨_, _, kept, _⟩
  · exact kept holds
  · exact kept holds

end Action.Orderly

end Orderly

/-- Whether an error is another one than the refusal of a request. -/
def TableError.Arises : TableError → Prop
  | invalidRange .. => False
  | _ => True

open DmaRemap.Action (Orderly)

namespace Pool

variable {pool : Pool} {address : PhysicalAddress} {ε : Type} {expected : ε → Prop}

/-- The count of the free nodes is right. -/
def Counted (pool : Pool) : Prop :=
  pool.free = pool.handedOut.unused

/-- A node is handed out only if the count allows for it, so that taking one off does not wrap. -/
theorem Counted.free_pos (counted : pool.Counted) {next : Pool}
    (taken : pool.take = (some address, next)) : 0 < pool.free := by
  unfold take at taken
  split at taken
  case h_2 => cases taken
  case h_1 index found =>
    rw [counted]
    exact Bitmap.unused_pos (Bitmap.lowestFree?_eq_some found).1

theorem Counted.take (counted : pool.Counted) : pool.take.2.Counted := by
  unfold Pool.take
  split
  case h_2 => exact counted
  case h_1 index found =>
    have fewer := Bitmap.unused_of_set (Bitmap.lowestFree?_eq_some found).1
    rw [← counted] at fewer
    exact (Nat.eq_sub_of_add_eq fewer).symm

theorem Counted.giveBack (counted : pool.Counted) (address : PhysicalAddress) :
    (pool.giveBack address).2.Counted := by
  unfold Pool.giveBack
  split
  case h_2 => exact counted
  case h_1 index found =>
    have more := Bitmap.unused_of_unset (indexOf?_eq_some_iff.mp found).2
    rw [← counted] at more
    exact more.symm

theorem Counted.modifyNode (counted : pool.Counted) (address : PhysicalAddress)
    (change : Node → Node) : (pool.modifyNode address change).Counted := by
  unfold Pool.modifyNode
  split <;> exact counted

theorem orderly_construct : construct.Orderly Counted TableError.Arises := by
  unfold construct
  apply Orderly.bind (.step fun _ counted => counted.take)
  intro taken
  cases taken with
  | none => exact .fail trivial
  | some address =>
    apply Orderly.bind (.observe _)
    intro _
    apply Orderly.bind .state
    intro _
    exact .bind (.record ..) fun _ => .pure _

theorem orderly_destruct (address : PhysicalAddress) :
    (destruct address : Action Pool ε Unit).Orderly Counted expected := by
  unfold destruct
  apply Orderly.bind (.step fun _ counted => counted.giveBack address)
  intro found
  apply Orderly.ite
  · intro _
    apply Orderly.bind (.observe _)
    exact fun _ => .bind .state fun _ => .record ..
  · exact fun _ => .record ..

theorem orderly_put (address : PhysicalAddress) (words : List (Slot × Word)) :
    (put address words : Action Pool ε Unit).Orderly Counted expected := by
  unfold put
  apply Orderly.forM
  rintro ⟨slot, word⟩ _
  apply Orderly.bind (.update fun _ counted => counted.modifyNode address _)
  exact fun _ => .observe _

theorem orderly_wipe (address : PhysicalAddress) :
    (wipe address : Action Pool ε Unit).Orderly Counted expected := by
  unfold wipe
  apply Orderly.bind .state
  intro pool
  apply Orderly.ite
  · intro _
    apply Orderly.bind (.update fun _ counted => counted.modifyNode address _)
    exact fun _ => .observe _
  · exact fun _ => .pure _

end Pool

namespace Format

open Pool (Counted)

variable {format : Format} {level : Level} {deeper levels : List Level} {request : Request}

theorem orderly_load (table : PhysicalAddress) (slot : Slot) :
    (format.load table slot).Orderly Counted TableError.Arises := by
  unfold load
  apply Orderly.bind .state
  intro pool
  split
  · exact .pure _
  · exact .bind (.record ..) fun _ => .fail trivial

theorem orderly_store (table : PhysicalAddress) (slot : Slot) (descriptor : Word) :
    (format.store table slot descriptor).Orderly Counted TableError.Arises := by
  unfold store
  apply Orderly.bind .state
  intro pool
  apply Orderly.ite
  · exact fun _ => Pool.orderly_put ..
  · exact fun _ => .bind (.record ..) fun _ => .fail trivial

theorem orderly_nextTable (table : PhysicalAddress) (slot : Slot) (descriptor : Word)
    (address : VirtualAddress) :
    (format.nextTable level table slot descriptor address).Orderly Counted TableError.Arises := by
  unfold nextTable
  apply Orderly.ite
  · intro _
    apply Orderly.bind Pool.orderly_construct
    intro child
    exact .bind (format.orderly_store ..) fun _ => .pure _
  · intro _
    exact .ite (fun _ => .fail trivial) fun _ => .pure _

/-- The part of a request in one block is mapped by a page, or handed down. In the last level every
part fills its block, so nothing is handed down from there. -/
theorem orderly_insertPiece (divided : Level.Divided level deeper) {part : Request}
    (aligned : part.Aligned) (some : 0 < part.range.size)
    (inside : part.range.stop ≤ level.pageSize) (block : Nat) {target : PhysicalAddress}
    (same : target.val = part.target) (table : PhysicalAddress) (address : VirtualAddress)
    {descend : PhysicalAddress → Action Pool TableError Unit}
    (descends : level.kind ≠ .leaf → ∀ child,
      (descend child).Orderly Counted TableError.Arises) :
    (format.insertPiece level part.flags table address
      ⟨block * level.pageSize + part.range.start, part.range.size⟩ target descend).Orderly Counted
        TableError.Arises := by
  unfold insertPiece
  apply Orderly.bind (format.orderly_load ..)
  intro descriptor
  rw [same]
  apply Orderly.ite
  · intro _
    apply Orderly.ite
    · exact fun _ => format.orderly_store ..
    · intro _
      exact .ite (fun _ => .bind (.record ..) fun _ => .fail trivial) fun _ => .pure _
  · intro partly
    apply Orderly.bind (format.orderly_nextTable ..)
    exact descends fun leaf => partly ((Request.fills_iff some inside block).mpr
      (aligned.fills divided leaf some inside))

/-- A request that is sited in a table never needs an address that there is not, nor a level below
the last one. -/
theorem orderly_insertAt (nested : Level.Nested levels) (deep : levels ≠ [])
    {base : VirtualAddress} {target : PhysicalAddress}
    (sited : request.Sited format levels base.val) (same : target.val = request.target)
    (depth : Nat) (table : PhysicalAddress) :
    (format.insertAt request.flags levels depth table base request.range target).Orderly Counted
      TableError.Arises := by
  induction levels generalizing table base request target depth with
  | nil => exact absurd rfl deep
  | cons level deeper ih =>
    have divided := nested.1
    have inside := sited.stop_le
    rw [insertAt]
    apply Orderly.forM
    intro block touched
    have part := sited.within divided touched
    have some : 0 < (request.within level.pageSize block).range.size :=
      Level.mem_blocks_iff_within.mp touched
    obtain ⟨address, pieceTarget, added, advanced, place, moved, floored⟩ :=
      sited.addresses divided same touched
    apply Orderly.lift (Level.piece_eq touched divided.pageSize_le inside)
    apply Orderly.lift added
    apply Orderly.lift advanced
    apply Orderly.bind
    · apply orderly_insertPiece divided part.aligned some (Extent.within_stop_le some) block moved
      intro above child
      simp only [Level.mod_pageSize_within touched]
      apply ih nested.2 (mt divided.leaf.mpr above) _ moved
      rw [floored]
      exact part
    · intro _
      apply Orderly.ite
      · exact fun _ => .pure _
      · intro overran
        refine absurd ?_ overran
        rw [Bool.or_eq_true, decide_eq_true_eq, decide_eq_true_eq, divided.entries]
        exact Level.within_ends touched sited.inside

theorem orderly_removeAt (nested : Level.Nested levels) (deep : levels ≠ [])
    (table : PhysicalAddress) {range : Extent} (inside : range.stop ≤ Level.span levels)
    (limit : Level.span levels ≤ 1 <<< 48) :
    (format.removeAt levels table range).Orderly Counted TableError.Arises := by
  induction levels generalizing table range with
  | nil => exact absurd rfl deep
  | cons level deeper ih =>
    have divided := nested.1
    have narrow := divided.pageSize_le
    rw [removeAt]
    apply Orderly.forM
    intro block touched
    have some := Level.mem_blocks_iff_within.mp touched
    apply Orderly.lift (Level.piece_eq touched narrow (Nat.le_trans inside limit))
    apply Orderly.bind (format.orderly_load ..)
    intro descriptor
    apply Orderly.ite
    · intro _
      apply Orderly.ite
      · exact fun _ => format.orderly_store ..
      · intro link
        have above : level.kind ≠ .leaf := fun leaf => link (by simp [isPage, leaf])
        simp only [Level.mod_pageSize_within touched]
        apply Orderly.bind
        · apply ih nested.2 (mt divided.leaf.mpr above) _ (divided.within_stop_le some)
          rw [← divided.pageSize]
          omega
        · intro _
          apply Orderly.bind .state
          intro pool
          apply Orderly.ite
          · exact fun _ => .bind (format.orderly_store ..) fun _ => Pool.orderly_destruct _
          · exact fun _ => .pure _
    · exact fun _ => .pure _

theorem orderly_releaseBelow {ε : Type} {expected : ε → Prop} (nested : Level.Nested levels)
    (deep : levels ≠ []) (table : PhysicalAddress) :
    (format.releaseBelow levels table : Action Pool ε Unit).Orderly Counted expected := by
  induction levels generalizing table with
  | nil => exact absurd rfl deep
  | cons level deeper ih =>
    rw [releaseBelow]
    apply Orderly.ite
    · exact fun _ => .pure _
    · intro above
      apply Orderly.forM
      intro slot _
      apply Orderly.bind .state
      intro pool
      split
      · exact .pure _
      · apply Orderly.ite
        · intro _
          apply Orderly.bind (ih nested.2 (mt nested.1.leaf.mpr above) _)
          exact fun _ => Pool.orderly_destruct _
        · exact fun _ => .pure _

theorem lookupAt_ok (nested : Level.Nested levels) (pool : Pool) (input : VirtualAddress)
    (table : PhysicalAddress) : ∃ found, format.lookupAt pool input levels table = .ok found := by
  induction levels generalizing table with
  | nil => exact ⟨none, rfl⟩
  | cons level deeper ih =>
    rw [lookupAt]
    split
    · exact ⟨none, rfl⟩
    case h_2 descriptor _ =>
      split
      · split
        case isTrue page =>
          obtain ⟨address, _, read⟩ := reading_some nested.1 page input
          exact ⟨_, read⟩
        case isFalse => exact ih nested.2 _
      · exact ⟨none, rfl⟩

/-- A walk visits the valid descriptors of what a table links to, wherever the links lead. -/
theorem walkAt_total (nested : Level.Nested levels) (deep : levels ≠ []) (pool : Pool)
    (table : PhysicalAddress) {base : VirtualAddress}
    (limit : base.val + Level.span levels ≤ 1 <<< 48) (depth : Nat) :
    ∃ visits, format.walkAt pool levels depth table base = .ok visits := by
  induction levels generalizing table base depth with
  | nil => exact absurd rfl deep
  | cons level deeper ih =>
    rw [Level.span] at limit
    rw [walkAt_eq]
    cases pool.node? table with
    | none => exact ⟨_, rfl⟩
    | some node =>
      suffices each : ∀ slot, ∃ visits,
          format.walkFrom pool level deeper depth table base slot (node.get slot) = .ok visits ∧
            True by
        obtain ⟨visits, walked, _⟩ := @exists_flatMapM _ _ _ _ _ (fun _ => True)
          (fun _ _ => True) each fun _ _ => trivial
        exact ⟨visits, walked⟩
      intro slot
      have address := Level.block_start_lt limit slot
      simp only [and_true]
      by_cases present : format.isPresent (node.get slot) = true
      case neg => exact ⟨_, walkFrom_absent present depth base⟩
      by_cases page : format.isPage level (node.get slot) = true
      case pos => exact ⟨_, walkFrom_page depth address present page⟩
      have above : level.kind ≠ .leaf := fun leaf => page (by simp [isPage, leaf])
      have inner := mt nested.1.leaf.mpr above
      have room : (⟨_, address⟩ : VirtualAddress).val + Level.span deeper ≤ 1 <<< 48 :=
        nested.1.room limit slot
      obtain ⟨below, walked⟩ := ih nested.2 inner
        (format.address level (node.get slot)) room (depth + 1)
      exact ⟨_, walkFrom_link depth address present (Bool.eq_false_iff.mpr page) walked⟩

end Format

/-- How an action answers a request: it refuses exactly what is not admitted, naming the request and
before anything has changed, and never aborts. The count of the free nodes stays right. -/
structure Vetted (admitted : Prop) (start : VirtualAddress) (size : Nat)
    (action : Action Pool TableError Unit) (now : Journaled Pool) : Prop where
  concluded : ∀ reason, action.outcome now ≠ .error (.abort reason)
  refusal : ∀ first length, action.outcome now = .error (.error (.invalidRange first length)) ↔
    ¬admitted ∧ first = start ∧ length = size
  untouched : ¬admitted → (action.finish now).state = now.state ∧
    (action.finish now).journal.log = now.journal.log
  counted : now.state.Counted → (action.finish now).state.Counted

theorem Vetted.of_ends {admitted : Prop} {start : VirtualAddress} {size : Nat}
    {action : Action Pool TableError Unit} {now : Journaled Pool}
    (ends : action.Ends now
      (fun _ last => admitted ∧ (now.state.Counted → last.state.Counted))
      (fun cause last =>
        (¬admitted ∧ cause = .error (.invalidRange start size) ∧ last.state = now.state ∧
          last.journal.log = now.journal.log) ∨
        (admitted ∧ (now.state.Counted → last.state.Counted) ∧
          ∃ error, error.Arises ∧ cause = .error error))) :
    Vetted admitted start size action now := by
  rcases ends.outcome_finish with ⟨_, returned, holds, kept⟩ |
    ⟨_, failed, ⟨refused, rfl, same, log⟩ | ⟨holds, kept, error, arises, rfl⟩⟩
  · refine ⟨?_, ?_, fun refused => absurd holds refused, kept⟩
    · simp [returned]
    · simp [returned, holds]
  · refine ⟨?_, ?_, fun _ => ⟨same, log⟩, fun counted => same ▸ counted⟩
    · simp [failed]
    · simp [failed, refused, eq_comm]
  · refine ⟨?_, ?_, fun refused => absurd holds refused, kept⟩
    · simp [failed]
    · intro first length
      simp only [failed, holds, not_true_eq_false, false_and, iff_false]
      rintro ⟨⟩
      exact arises

namespace TranslationTable

open Pool (Counted)

variable {ε : Type} {expected : ε → Prop} (table : TranslationTable) (now : Journaled Pool)

theorem orderly_clear : (table.clear : Action Pool ε Unit).Orderly Counted expected := by
  apply Orderly.bind (Format.orderly_releaseBelow table.format.nested_levels
    table.format.levels_ne_nil table.root)
  exact fun _ => Pool.orderly_wipe _

theorem orderly_destroy : (table.destroy : Action Pool ε Unit).Orderly Counted expected := by
  apply Orderly.bind table.orderly_clear
  exact fun _ => .bind (Pool.orderly_destruct _) fun _ => .record ..

theorem checkRange_vets (format : Format) (start : VirtualAddress) (size : Nat) :
    (format.checkRange start size : Action Pool TableError Unit).Ends now
      (fun _ last => format.Accepts start size ∧ last.state = now.state ∧
        last.journal.log = now.journal.log)
      (fun cause last => ¬format.Accepts start size ∧ cause = .error (.invalidRange start size) ∧
        last.state = now.state ∧ last.journal.log = now.journal.log) := by
  have stays : (format.checkRange start size : Action Pool TableError Unit).Keeps
      (Pool.Stays fun _ => False) :=
    format.stays_checkRange start size
  have log (last : Journaled Pool) (stayed : Pool.Stays (fun _ => False) now last) :
      last.journal.log = now.journal.log := by
    obtain ⟨added, same, none⟩ := stayed.grows
    rw [same, List.eq_nil_iff_forall_not_mem.mpr none, List.append_nil]
  apply ((Format.checkRange_ends now start size).and (stays.ends now)).mono
  · intro _ last ended
    obtain ⟨⟨same, accepts⟩, stayed⟩ := ended
    exact ⟨accepts, same, log last stayed⟩
  · intro cause last ended
    obtain ⟨⟨same, refusal, refused⟩, stayed⟩ := ended
    exact ⟨refused, refusal, same, log last stayed⟩

theorem vetted_insert (start : VirtualAddress) (target : PhysicalAddress) (size : Nat)
    (flags : PageFlags) :
    Vetted (table.format.Admits start target size) start size
      (table.insert start target size flags) now := by
  apply Vetted.of_ends
  simp only [insert, Action.ends_bind]
  apply (checkRange_vets now table.format start size).mono
  · intro _ checked ended
    obtain ⟨accepts, same, log⟩ := ended
    have smallest : 1 <<< table.format.minPageBits = 4096 := rfl
    simp only [smallest, Bool.or_eq_true, bne_iff_ne, decide_eq_true_eq]
    rw [Action.ends_ite]
    constructor
    · intro rejected
      simp only [Action.ends_bind, Action.ends_record, Action.ends_fail]
      refine .inl ⟨fun admitted => ?_, trivial, same, by rw [Journal.log_record, log]⟩
      have aligned := admitted.aligned
      have output := admitted.output
      omega
    · intro accepted
      have admitted : table.format.Admits start target size := ⟨accepts, by omega, by omega⟩
      have inserts := Format.orderly_insertAt table.format.nested_levels
        table.format.levels_ne_nil (admitted.sited flags) rfl 0 table.root
      apply (inserts.ends checked).mono
      · exact fun _ _ kept => ⟨admitted, same ▸ kept⟩
      · exact fun _ _ ended => .inr ⟨admitted, same ▸ ended.1, ended.2⟩
  · exact fun _ _ ended => .inl ⟨fun admitted => ended.1 admitted.input, ended.2⟩

theorem vetted_remove (start : VirtualAddress) (size : Nat) :
    Vetted (table.format.Accepts start size) start size (table.remove start size) now := by
  apply Vetted.of_ends
  simp only [remove, Action.ends_bind]
  apply (checkRange_vets now table.format start size).mono
  · intro _ checked ended
    obtain ⟨accepts, same, _⟩ := ended
    have inside : Extent.stop ⟨start.val, size⟩ ≤ Level.span table.format.levels := accepts.inside
    have removes : (table.format.removeAt _ table.root _).Orderly Counted _ :=
      Format.orderly_removeAt table.format.nested_levels table.format.levels_ne_nil table.root
        inside (Nat.le_of_eq table.format.span_levels)
    apply (removes.ends checked).mono
    · exact fun _ _ kept => ⟨accepts, same ▸ kept⟩
    · exact fun _ _ ended => .inr ⟨accepts, same ▸ ended.1, ended.2⟩
  · exact fun _ _ => .inl

theorem visits_total (pool : Pool) : ∃ visits, table.visits pool = .ok visits := by
  apply Format.walkAt_total table.format.nested_levels table.format.levels_ne_nil
  rw [Format.span_levels]
  exact Nat.le_of_eq (Nat.zero_add _)

theorem lookup_total (pool : Pool) (input : VirtualAddress) :
    ∃ found, table.lookup pool input = .ok found := by
  unfold lookup
  split
  · exact Format.lookupAt_ok table.format.nested_levels pool input table.root
  · exact ⟨none, rfl⟩

/-- In a pool with any nodes handed out and any words in them, for a table with any root: an
insertion refuses exactly what is not made of whole pages of the input and the output space, and a
removal what is not made of whole pages of the input space. Neither aborts, and neither do lookups,
walks, clearing and destroying; whether a table is empty is no action at all. No operation puts the
count of the free nodes wrong, and under a right count a node is handed out only if the count is not
zero. -/
theorem totality :
    (∀ start target size flags, Vetted (table.format.Admits start target size) start size
      (table.insert start target size flags) now) ∧
    (∀ start size, Vetted (table.format.Accepts start size) start size
      (table.remove start size) now) ∧
    (∀ input, ∃ found, table.lookup now.state input = .ok found) ∧
    (∃ entries, (table.walk : Action Pool TableError _).outcome now = .ok entries ∧
      ((table.walk : Action Pool TableError _).finish now).state = now.state) ∧
    (∀ action ∈ [table.clear, (table.destroy : Action Pool TableError Unit)],
      action.outcome now = .ok () ∧
        (now.state.Counted → (action.finish now).state.Counted)) ∧
    ∀ pool : Pool, pool.Counted → ∀ address next, pool.take = (some address, next) →
      0 < pool.free := by
  refine ⟨table.vetted_insert now, table.vetted_remove now, table.lookup_total now.state, ?_, ?_,
    fun pool counted address next => counted.free_pos⟩
  · obtain ⟨visits, visited⟩ := table.visits_total now.state
    obtain ⟨entries, returned, _, same⟩ := (walk_ends visited).exists_outcome
    exact ⟨entries, returned, same⟩
  · have orderly : ∀ action ∈ [table.clear, (table.destroy : Action Pool TableError Unit)],
        action.Orderly Counted fun _ => False := by
      simp [table.orderly_clear, table.orderly_destroy]
    intro action member
    obtain ⟨_, returned⟩ := (orderly action member).returns now
    exact ⟨returned, (orderly action member).keeps⟩

end TranslationTable

end DmaRemap

import Mathlib
import DmaRemap.Action

/-! What an action ends with. `Ends` is the weakest precondition of an action: it holds of a start
exactly when the end reached from there is as described, whether the action returns or fails. -/

namespace DmaRemap

/-- A traversal whose steps all succeed succeeds with the results of the steps in order. -/
theorem exists_flatMapM {α β ε : Type} {f : α → Except ε (List β)} {xs : List α}
    {whole : List β → Prop} (part : α → List β → Prop)
    (each : ∀ x, ∃ found, f x = .ok found ∧ part x found)
    (gather : ∀ found : α → List β, (∀ x, part x (found x)) → whole (xs.flatMap found)) :
    ∃ found, (do return (← xs.mapM f).flatten) = .ok found ∧ whole found := by
  choose found same holds using each
  refine ⟨xs.flatMap found, ?_, gather found holds⟩
  have steps : f = fun x => pure (found x) := funext same
  rw [steps, List.mapM_pure, pure_bind, List.flatMap_def]
  rfl

theorem eq_ok_get {ε α : Type} {outcome : Except ε α} (some : outcome.toOption.isSome = true) :
    outcome = .ok (outcome.toOption.get some) := by
  cases outcome with
  | ok result => rfl
  | error cause => cases some

namespace Action

variable {σ τ ε ε' α β : Type}

/-- The result of an action, or the reason why there is none. -/
def outcome (action : Action σ ε α) (start : Journaled σ) : Except (Failure ε) α :=
  match action start with
  | .ok result _ => .ok result
  | .error cause _ => .error cause

/-- What an action leaves behind, whether it returns or fails. -/
def finish (action : Action σ ε α) (start : Journaled σ) : Journaled σ :=
  match action start with
  | .ok _ last => last
  | .error _ last => last

/-- From this start the action returns as `returns` describes or fails as `fails` describes. -/
def Ends (action : Action σ ε α) (start : Journaled σ) (returns : α → Journaled σ → Prop)
    (fails : Failure ε → Journaled σ → Prop) : Prop :=
  match action start with
  | .ok result last => returns result last
  | .error cause last => fails cause last

/-- An action that cannot fail from this start. -/
abbrev Returns (action : Action σ ε α) (start : Journaled σ)
    (returns : α → Journaled σ → Prop) : Prop :=
  action.Ends start returns fun _ _ => False

variable {action : Action σ ε α} {start : Journaled σ} {returns returns' : α → Journaled σ → Prop}
  {fails fails' : Failure ε → Journaled σ → Prop}

theorem Ends.mono (ends : action.Ends start returns fails)
    (returning : ∀ result last, returns result last → returns' result last)
    (failing : ∀ cause last, fails cause last → fails' cause last) :
    action.Ends start returns' fails' := by
  unfold Ends at ends ⊢
  split at ends
  · exact returning _ _ ends
  · exact failing _ _ ends

/-- An action that ends as described has an outcome and a finish as described. -/
theorem Ends.outcome_finish (ends : action.Ends start returns fails) :
    (∃ result, action.outcome start = .ok result ∧ returns result (action.finish start)) ∨
      ∃ cause, action.outcome start = .error cause ∧ fails cause (action.finish start) := by
  unfold Ends at ends
  unfold outcome finish
  split at ends
  case h_1 result _ _ => exact .inl ⟨result, rfl, ends⟩
  case h_2 cause _ _ => exact .inr ⟨cause, rfl, ends⟩

theorem Ends.returned (ends : action.Ends start returns fails) {result : α}
    (returned : action.outcome start = .ok result) : returns result (action.finish start) := by
  rcases ends.outcome_finish with ⟨result', same, reached⟩ | ⟨cause, failed, _⟩
  · cases returned.symm.trans same
    exact reached
  · cases returned.symm.trans failed

theorem Ends.failed (ends : action.Ends start returns fails) {cause : Failure ε}
    (failed : action.outcome start = .error cause) : fails cause (action.finish start) := by
  rcases ends.outcome_finish with ⟨result, returned, _⟩ | ⟨cause', same, reached⟩
  · cases failed.symm.trans returned
  · cases failed.symm.trans same
    exact reached

theorem ends_run :
    action.Ends start
      (fun result last => action.outcome start = .ok result ∧ action.finish start = last)
      (fun cause last => action.outcome start = .error cause ∧ action.finish start = last) := by
  unfold Ends outcome finish
  split <;> exact ⟨rfl, rfl⟩

/-- An action that cannot fail has an outcome. -/
theorem Returns.exists_outcome (ends : action.Returns start returns) :
    ∃ result, action.outcome start = .ok result ∧ returns result (action.finish start) :=
  ends.outcome_finish.resolve_right fun ⟨_, _, impossible⟩ => impossible

@[simp] theorem ends_pure (result : α) :
    (pure result : Action σ ε α).Ends start returns fails ↔ returns result start :=
  Iff.rfl

@[simp] theorem ends_bind (first : Action σ ε β) (rest : β → Action σ ε α) :
    (first >>= rest).Ends start returns fails ↔
      first.Ends start (fun result middle => (rest result).Ends middle returns fails) fails := by
  simp only [Ends, bind, EStateM.bind]
  cases first start <;> rfl

@[simp] theorem ends_map (f : β → α) (inner : Action σ ε β) :
    (f <$> inner).Ends start returns fails ↔
      inner.Ends start (fun result last => returns (f result) last) fails := by
  simp only [Ends, Functor.map, EStateM.map]
  cases inner start <;> rfl

@[simp] theorem ends_discard {returns : Unit → Journaled σ → Prop} (inner : Action σ ε β) :
    (discard inner : Action σ ε Unit).Ends start returns fails ↔
      inner.Ends start (fun _ => returns ()) fails :=
  ends_map (fun _ => ()) inner

@[simp] theorem ends_fail (cause : ε) :
    (fail cause : Action σ ε α).Ends start returns fails ↔ fails (.error cause) start :=
  Iff.rfl

@[simp] theorem ends_abort (cause : Abort) :
    (abort cause : Action σ ε α).Ends start returns fails ↔ fails (.abort cause) start :=
  Iff.rfl

@[simp] theorem ends_lift_ok (result : α) :
    (liftM (Except.ok result : Except Abort α) : Action σ ε α).Ends start returns fails ↔
      returns result start :=
  Iff.rfl

@[simp] theorem ends_state {returns : σ → Journaled σ → Prop} :
    (state : Action σ ε σ).Ends start returns fails ↔ returns start.state start :=
  Iff.rfl

@[simp] theorem ends_step (f : σ → α × σ) :
    (step f : Action σ ε α).Ends start returns fails ↔
      returns (f start.state).1 ⟨(f start.state).2, start.journal⟩ :=
  Iff.rfl

@[simp] theorem ends_update {returns : Unit → Journaled σ → Prop} (f : σ → σ) :
    (update f : Action σ ε Unit).Ends start returns fails ↔
      returns () ⟨f start.state, start.journal⟩ :=
  Iff.rfl

@[simp] theorem ends_record {returns : Unit → Journaled σ → Prop} (severity : Severity)
    (text : Unit → String) :
    (record severity text : Action σ ε Unit).Ends start returns fails ↔
      returns () ⟨start.state, start.journal.record severity text⟩ :=
  Iff.rfl

@[simp] theorem ends_observe {returns : Unit → Journaled σ → Prop} (effect : Effect) :
    (observe effect : Action σ ε Unit).Ends start returns fails ↔
      returns () ⟨start.state, start.journal.observe effect⟩ :=
  Iff.rfl

@[simp] theorem ends_on (part : Part σ τ) (inner : Action τ ε α) :
    (on part inner).Ends start returns fails ↔
      inner.Ends ⟨part.get start.state, start.journal⟩
        (fun result last => returns result ⟨part.set last.state start.state, last.journal⟩)
        (fun cause last => fails cause ⟨part.set last.state start.state, last.journal⟩) := by
  simp only [Ends, on]
  cases inner ⟨part.get start.state, start.journal⟩ <;> rfl

@[simp] theorem ends_mapError (f : ε → ε') (inner : Action σ ε α)
    {fails : Failure ε' → Journaled σ → Prop} :
    (mapError f inner).Ends start returns fails ↔
      inner.Ends start returns fun cause last => fails (cause.map f) last := by
  simp only [Ends, mapError]
  cases inner start <;> rfl

/-- How an attempt goes on after a failure: an error is a result, an abort is not. -/
def Handled (returns : Except ε α → Journaled σ → Prop)
    (fails : Failure ε' → Journaled σ → Prop) : Failure ε → Journaled σ → Prop
  | .error cause, last => returns (.error cause) last
  | .abort cause, last => fails (.abort cause) last

@[simp] theorem ends_attempt (inner : Action σ ε α) {returns : Except ε α → Journaled σ → Prop}
    {fails : Failure ε' → Journaled σ → Prop} :
    (attempt inner : Action σ ε' (Except ε α)).Ends start returns fails ↔
      inner.Ends start (fun result last => returns (.ok result) last) (Handled returns fails) := by
  simp only [Ends, attempt]
  rcases inner start with _ | ⟨_ | _, _⟩ <;> rfl

@[simp] theorem ends_beside (extra : τ) (inner : Action (σ × τ) ε α)
    {returns : Except ε α × τ → Journaled σ → Prop} {fails : Failure ε' → Journaled σ → Prop} :
    (beside extra inner : Action σ ε' (Except ε α × τ)).Ends start returns fails ↔
      inner.Ends ⟨(start.state, extra), start.journal⟩
        (fun result last => returns (.ok result, last.state.2) ⟨last.state.1, last.journal⟩)
        (Handled (fun outcome last => returns (outcome, last.state.2) ⟨last.state.1, last.journal⟩)
          fun cause last => fails cause ⟨last.state.1, last.journal⟩) := by
  simp only [Ends, beside]
  rcases inner ⟨(start.state, extra), start.journal⟩ with _ | ⟨_ | _, _⟩ <;> rfl

theorem ends_recordM {returns : Unit → Journaled σ → Prop} (severity : Severity)
    (text : Action σ ε String) :
    (recordM severity text).Ends start returns fails ↔
      if start.journal.keeps severity then
        text.Ends start
          (fun line last => returns () ⟨last.state, last.journal.record severity fun _ => line⟩)
          fails
      else returns () start := by
  simp only [Ends, recordM]
  by_cases kept : start.journal.keeps severity
  · rw [if_pos kept, if_pos kept]
    cases text start <;> rfl
  · rw [if_neg kept, if_neg kept]

theorem ends_lift (attempted : Except Abort α) :
    (liftM attempted : Action σ ε α).Ends start returns fails ↔
      match attempted with
      | .ok result => returns result start
      | .error cause => fails (.abort cause) start := by
  cases attempted <;> rfl

theorem ends_true : action.Ends start (fun _ _ => True) (fun _ _ => True) := by
  unfold Ends
  split <;> trivial

/-- What an action ends with in two respects, it ends with in both. -/
theorem Ends.and (first : action.Ends start returns fails)
    (second : action.Ends start returns' fails') :
    action.Ends start (fun result last => returns result last ∧ returns' result last)
      (fun cause last => fails cause last ∧ fails' cause last) := by
  unfold Ends at first second ⊢
  split
  case h_1 same =>
    rw [same] at first second
    exact ⟨first, second⟩
  case h_2 same =>
    rw [same] at first second
    exact ⟨first, second⟩

theorem Ends.all {ι : Sort*} {returns : ι → α → Journaled σ → Prop}
    {fails : ι → Failure ε → Journaled σ → Prop}
    (each : ∀ respect, action.Ends start (returns respect) (fails respect)) :
    action.Ends start (fun result last => ∀ respect, returns respect result last)
      (fun cause last => ∀ respect, fails respect cause last) := by
  unfold Ends at each ⊢
  split
  case h_1 same =>
    rw [same] at each
    exact each
  case h_2 same =>
    rw [same] at each
    exact each

theorem ends_ite (condition : Prop) [Decidable condition] (yes no : Action σ ε α) :
    (if condition then yes else no).Ends start returns fails ↔
      (condition → yes.Ends start returns fails) ∧
        (¬condition → no.Ends start returns fails) := by
  split <;> simp_all

theorem ends_ite_record {condition : Prop} [Decidable condition] {severity : Severity}
    {text : Unit → String} {rest : Unit → Action σ ε α}
    (goesOn : ∀ journal, (rest ()).Ends ⟨start.state, journal⟩ returns fails) :
    (if condition then record severity text >>= rest else rest ()).Ends start returns fails := by
  split
  · exact (ends_bind ..).mpr ((ends_record ..).mpr (goesOn _))
  · exact goesOn start.journal

/-- A loop over distinct elements is not done with the next one. -/
theorem not_mem_past {turns past later : List β} {next : β} (distinct : turns.Nodup)
    (split : turns = past ++ next :: later) : next ∉ past := by
  rw [split, List.nodup_append] at distinct
  exact fun earlier => distinct.2.2 _ earlier _ List.mem_cons_self rfl

/-- A loop keeps an invariant of the elements it is done with, if each turn does. -/
theorem ends_forM {body : β → Action σ ε Unit} {returns : Unit → Journaled σ → Prop}
    (invariant : List β → Journaled σ → Prop) (turns : List β)
    (initial : invariant [] start)
    (turn : ∀ past next later now, turns = past ++ next :: later → invariant past now →
      (body next).Ends now (fun _ => invariant (past ++ [next])) fails)
    (final : ∀ last, invariant turns last → returns () last) :
    (turns.forM body).Ends start returns fails := by
  suffices rest : ∀ later past now, turns = past ++ later → invariant past now →
      (later.forM body).Ends now returns fails from rest turns [] start rfl initial
  intro later
  induction later with
  | nil =>
    intro past now split kept
    rw [List.append_nil] at split
    exact final now (split ▸ kept)
  | cons next later ih =>
    intro past now split kept
    rw [List.forM_eq_forM, List.forM_cons, ends_bind]
    apply (turn past next later now split kept).mono
    · intro _ middle kept
      rw [← List.forM_eq_forM]
      exact ih (past ++ [next]) middle (by simpa using split) kept
    · exact fun _ _ failed => failed

/-- A loop that collects results keeps an invariant of the elements it is done with and of what they
gave, if each turn does. -/
theorem ends_mapM {body : β → Action σ ε α} {returns : List α → Journaled σ → Prop}
    (invariant : List β → List α → Journaled σ → Prop) (turns : List β)
    (initial : invariant [] [] start)
    (turn : ∀ past given next later now, turns = past ++ next :: later →
      invariant past given now →
      (body next).Ends now (fun result => invariant (past ++ [next]) (given ++ [result])) fails)
    (final : ∀ results last, invariant turns results last → returns results last) :
    (turns.mapM body).Ends start returns fails := by
  suffices rest : ∀ later past given now, turns = past ++ later → invariant past given now →
      (later.mapM body).Ends now (fun results => invariant turns (given ++ results)) fails from
    (rest turns [] [] start rfl initial).mono (fun results last => final results last)
      fun _ _ => id
  intro later
  induction later with
  | nil =>
    intro past given now split kept
    rw [List.append_nil] at split
    rw [List.mapM_nil, ends_pure, List.append_nil]
    exact split ▸ kept
  | cons next later ih =>
    intro past given now split kept
    simp only [List.mapM_cons, ends_bind]
    apply (turn past given next later now split kept).mono _ fun _ _ => id
    intro result middle kept
    apply (ih (past ++ [next]) (given ++ [result]) middle (by simpa using split) kept).mono _
      fun _ _ => id
    intro results last kept
    rw [ends_pure]
    simpa using kept

/-- Whatever an action returns, it is as described. -/
structure Gives (action : Action σ ε α) (result : α → Prop) : Prop where
  ends : ∀ start, action.Ends start (fun value _ => result value) (fun _ _ => True)

namespace Gives

variable {result result' : α → Prop} {first : Action σ ε β} {rest : β → Action σ ε α}

theorem mono (gives : action.Gives result) (imp : ∀ value, result value → result' value) :
    action.Gives result' :=
  ⟨fun start => (gives.ends start).mono (fun value _ => imp value) fun _ _ => id⟩

theorem pure {value : α} (holds : result value) : (pure value : Action σ ε α).Gives result :=
  ⟨fun _ => (ends_pure value).mpr holds⟩

theorem fail (cause : ε) : (fail cause : Action σ ε α).Gives result :=
  ⟨fun _ => (ends_fail cause).mpr trivial⟩

theorem bind {middle : β → Prop} (gives : first.Gives middle)
    (goesOn : ∀ value, middle value → (rest value).Gives result) :
    (first >>= rest).Gives result := by
  constructor
  intro start
  rw [ends_bind]
  exact (gives.ends start).mono (fun value last holds => (goesOn value holds).ends last)
    fun _ _ => id

/-- What an action returns at last does not depend on what it did before. -/
theorem after (goesOn : ∀ value, (rest value).Gives result) : (first >>= rest).Gives result :=
  bind ⟨fun _ => ends_true⟩ fun value (_ : True) => goesOn value

theorem ite (condition : Prop) [Decidable condition] {yes no : Action σ ε α}
    (gives : yes.Gives result) (gives' : no.Gives result) :
    (if condition then yes else no).Gives result := by
  split
  · exact gives
  · exact gives'

end Gives

-- Unification must not run an action to compare what it ends with.
attribute [irreducible] Ends

end Action

end DmaRemap

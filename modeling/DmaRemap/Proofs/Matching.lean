import DmaRemap.Proofs.Ending

/-! Two runs side by side. Actions match if from related states they give related results or fail
for the same reason, and leave related states behind. What they write to their journals may differ.
-/

namespace DmaRemap.Action

variable {σ τ ε α β : Type} {states : σ → σ → Prop} {results : α → α → Prop}
  {action action' : Action σ ε α}

/-- Two ends that agree: related results or the same failure, in related states. -/
inductive EndTogether (states : σ → σ → Prop) (results : α → α → Prop) :
    EStateM.Result (Failure ε) (Journaled σ) α → EStateM.Result (Failure ε) (Journaled σ) α →
      Prop where
  | returned {result result' : α} {last last' : Journaled σ} (related : results result result')
      (kept : states last.state last'.state) :
      EndTogether states results (.ok result last) (.ok result' last')
  | failed {cause : Failure ε} {last last' : Journaled σ} (kept : states last.state last'.state) :
      EndTogether states results (.error cause last) (.error cause last')

/-- Two actions that end together from all related states. -/
structure Matches (states : σ → σ → Prop) (results : α → α → Prop)
    (action action' : Action σ ε α) : Prop where
  together : ∀ start start', states start.state start'.state →
    EndTogether states results (action start) (action' start')

/-- An action whose result does not depend on which of the related states it starts in. -/
abbrev Blind (states : σ → σ → Prop) (action : Action σ ε α) : Prop :=
  Matches states Eq action action

namespace Matches

theorem pure {result result' : α} (related : results result result') :
    Matches states results (pure result : Action σ ε α) (pure result') :=
  ⟨fun _ _ kept => .returned related kept⟩

theorem fail (cause : ε) :
    Matches states results (Action.fail cause : Action σ ε α) (Action.fail cause) :=
  ⟨fun _ _ kept => .failed kept⟩

theorem abort (cause : Abort) :
    Matches states results (Action.abort cause : Action σ ε α) (Action.abort cause) :=
  ⟨fun _ _ kept => .failed kept⟩

theorem lift (attempted : Except Abort α) :
    Blind states (liftM attempted : Action σ ε α) := by
  constructor
  intro start start' kept
  cases attempted with
  | ok result => exact .returned rfl kept
  | error cause => exact .failed kept

theorem state : Matches states states (Action.state : Action σ ε σ) Action.state :=
  ⟨fun _ _ kept => .returned kept kept⟩

theorem step {change change' : σ → α × σ}
    (agree : ∀ start start', states start start' →
      results (change start).1 (change' start').1 ∧ states (change start).2 (change' start').2) :
    Matches states results (Action.step change : Action σ ε α) (Action.step change') := by
  constructor
  intro start start' kept
  obtain ⟨related, kept⟩ := agree _ _ kept
  exact .returned related kept

theorem update {change change' : σ → σ}
    (agree : ∀ start start', states start start' → states (change start) (change' start')) :
    Matches states Eq (Action.update change : Action σ ε Unit) (Action.update change') :=
  ⟨fun _ _ kept => .returned rfl (agree _ _ kept)⟩

theorem record (severity : Severity) (text text' : Unit → String) :
    Matches states Eq (Action.record severity text : Action σ ε Unit)
      (Action.record severity text') :=
  ⟨fun _ _ kept => .returned rfl kept⟩

theorem observe (effect : Effect) : Blind states (Action.observe effect : Action σ ε Unit) :=
  ⟨fun _ _ kept => .returned rfl kept⟩

theorem bind {middle : β → β → Prop} {first first' : Action σ ε β}
    {rest rest' : β → Action σ ε α} (matched : Matches states middle first first')
    (goesOn : ∀ value value', middle value value' →
      Matches states results (rest value) (rest' value')) :
    Matches states results (first >>= rest) (first' >>= rest') := by
  constructor
  intro start start' kept
  have ended := matched.together start start' kept
  simp only [Bind.bind, EStateM.bind]
  generalize first start = here at ended ⊢
  generalize first' start' = there at ended ⊢
  cases ended with
  | returned related kept => exact (goesOn _ _ related).together _ _ kept
  | failed kept => exact .failed kept

theorem andThen {first first' : Action σ ε β} {rest rest' : β → Action σ ε α}
    (matched : Matches states Eq first first')
    (goesOn : ∀ value, Matches states results (rest value) (rest' value)) :
    Matches states results (first >>= rest) (first' >>= rest') := by
  apply bind matched
  rintro value _ rfl
  exact goesOn value

theorem ite {condition condition' : Prop} [Decidable condition] [Decidable condition']
    (same : condition ↔ condition') {yes no yes' no' : Action σ ε α}
    (matched : Matches states results yes yes') (matched' : Matches states results no no') :
    Matches states results (if condition then yes else no) (if condition' then yes' else no') := by
  by_cases holds : condition
  · rwa [if_pos holds, if_pos (same.mp holds)]
  · rwa [if_neg holds, if_neg (mt same.mpr holds)]

theorem forM {body body' : β → Action σ ε Unit}
    (matched : ∀ turn, Matches states Eq (body turn) (body' turn)) (turns : List β) :
    Matches states Eq (turns.forM body) (turns.forM body') := by
  rw [List.forM_eq_forM]
  induction turns with
  | nil => exact pure rfl
  | cons turn turns ih =>
    rw [List.forM_cons, List.forM_cons]
    exact andThen (matched turn) fun _ => ih

theorem on {part : Part σ τ} {parts : τ → τ → Prop} {inner inner' : Action τ ε α}
    (matched : Matches parts results inner inner')
    (get : ∀ start start', states start start' → parts (part.get start) (part.get start'))
    (set : ∀ start start' value value', states start start' → parts value value' →
      states (part.set value start) (part.set value' start')) :
    Matches states results (Action.on part inner) (Action.on part inner') := by
  constructor
  intro start start' kept
  have ended := matched.together ⟨part.get start.state, start.journal⟩
    ⟨part.get start'.state, start'.journal⟩ (get _ _ kept)
  simp only [Action.on]
  generalize inner _ = here at ended ⊢
  generalize inner' _ = there at ended ⊢
  cases ended with
  | returned related kept' => exact .returned related (set _ _ _ _ kept kept')
  | failed kept' => exact .failed (set _ _ _ _ kept kept')

theorem finish (matched : Matches states results action action') {start start' : Journaled σ}
    (kept : states start.state start'.state) :
    states (action.finish start).state (action'.finish start').state := by
  have ended := matched.together start start' kept
  unfold Action.finish
  generalize action start = here at ended ⊢
  generalize action' start' = there at ended ⊢
  cases ended with
  | returned _ kept => exact kept
  | failed kept => exact kept

/-- A blind action has the same outcome from all related states. -/
theorem outcome_eq (blind : Blind states action) {start start' : Journaled σ}
    (kept : states start.state start'.state) : action.outcome start = action.outcome start' := by
  have ended := blind.together start start' kept
  unfold Action.outcome
  generalize action start = here at ended ⊢
  generalize action start' = there at ended ⊢
  cases ended with
  | returned related _ => rw [related]
  | failed _ => rfl

end Matches

end DmaRemap.Action

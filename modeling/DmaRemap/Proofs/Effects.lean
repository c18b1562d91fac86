import DmaRemap.Proofs.Ending

namespace DmaRemap

/-- The effects in a journal, in the order they took place. -/
abbrev Journal.log (journal : Journal) : List Effect := journal.effects.toList

/-- Whether an effect is the write of a word. -/
def Effect.IsWrite (effect : Effect) : Prop :=
  ∃ table slot word, effect = .write table slot word

/-- Whether an effect sets a whole table to zero. -/
def Effect.IsWipe (effect : Effect) : Prop :=
  ∃ table, effect = .wipe table

/-- Whether an effect is an access to a register. -/
def Effect.IsAccess (effect : Effect) : Prop :=
  ∃ made, effect = .access made

theorem Effect.IsAccess.not_isWrite {effect : Effect} (access : effect.IsAccess) :
    ¬effect.IsWrite := by
  obtain ⟨made, rfl⟩ := access
  rintro ⟨_, _, _, same⟩
  cases same

theorem Effect.IsAccess.not_isWipe {effect : Effect} (access : effect.IsAccess) :
    ¬effect.IsWipe := by
  obtain ⟨made, rfl⟩ := access
  rintro ⟨_, same⟩
  cases same

theorem Effect.IsWipe.not_isWrite {effect : Effect} (wipe : effect.IsWipe) : ¬effect.IsWrite := by
  obtain ⟨table, rfl⟩ := wipe
  rintro ⟨_, _, _, same⟩
  cases same

@[simp] theorem Journal.log_record (journal : Journal) (severity : Severity)
    (text : Unit → String) : (journal.record severity text).log = journal.log := by
  unfold record
  split <;> rfl

@[simp] theorem Journal.log_observe (journal : Journal) (effect : Effect) :
    (journal.observe effect).log = journal.log ++ [effect] :=
  Array.toList_push ..

variable {σ τ ε ε' α β : Type}

namespace Action

/-- Whichever way an action ends, what it leaves behind is so related to its start. -/
structure Keeps (action : Action σ ε α) (relation : Journaled σ → Journaled σ → Prop) : Prop where
  ends : ∀ start, action.Ends start (fun _ => relation start) (fun _ => relation start)

variable {relation : Journaled σ → Journaled σ → Prop} [IsPreorder (Journaled σ) relation]

theorem Keeps.pure (result : α) : (pure result : Action σ ε α).Keeps relation :=
  ⟨fun start => ends_pure result |>.mpr (refl_of relation start)⟩

theorem Keeps.fail (cause : ε) : (fail cause : Action σ ε α).Keeps relation :=
  ⟨fun start => ends_fail cause |>.mpr (refl_of relation start)⟩

theorem Keeps.fail_bind (cause : ε) (rest : β → Action σ ε α) :
    (Action.fail cause >>= rest).Keeps relation := by
  constructor
  intro start
  rw [ends_bind, ends_fail]
  exact refl_of relation start

theorem Keeps.abort (cause : Abort) : (abort cause : Action σ ε α).Keeps relation :=
  ⟨fun start => ends_abort cause |>.mpr (refl_of relation start)⟩

theorem Keeps.state : (state : Action σ ε σ).Keeps relation :=
  ⟨fun start => ends_state.mpr (refl_of relation start)⟩

theorem Keeps.lift (attempted : Except Abort α) :
    (liftM attempted : Action σ ε α).Keeps relation := by
  constructor
  intro start
  rw [ends_lift]
  cases attempted <;> exact refl_of relation start

theorem Keeps.bind {first : Action σ ε β} {rest : β → Action σ ε α} (kept : first.Keeps relation)
    (keeps : ∀ result, (rest result).Keeps relation) : (first >>= rest).Keeps relation := by
  constructor
  intro start
  rw [ends_bind]
  apply (kept.ends start).mono _ fun _ _ => id
  intro result middle before
  apply ((keeps result).ends middle).mono
  · exact fun _ _ => trans_of relation before
  · exact fun _ _ => trans_of relation before

theorem Keeps.forM {body : β → Action σ ε Unit} (kept : ∀ turn, (body turn).Keeps relation)
    (turns : List β) : (turns.forM body).Keeps relation := by
  constructor
  intro start
  apply ends_forM fun _ => relation start
  case initial => exact refl_of relation start
  case turn =>
    intro _ next _ now _ before
    apply ((kept next).ends now).mono
    · exact fun _ _ => trans_of relation before
    · exact fun _ _ => trans_of relation before
  case final => exact fun _ => id

omit [IsPreorder (Journaled σ) relation] in
theorem Keeps.ite_of (condition : Prop) [Decidable condition] {yes no : Action σ ε α}
    (kept : condition → yes.Keeps relation) (keeps : ¬condition → no.Keeps relation) :
    (if condition then yes else no).Keeps relation := by
  split
  case isTrue holds => exact kept holds
  case isFalse fails => exact keeps fails

omit [IsPreorder (Journaled σ) relation] in
theorem Keeps.ite (condition : Prop) [Decidable condition] {yes no : Action σ ε α}
    (kept : yes.Keeps relation) (keeps : no.Keeps relation) :
    (if condition then yes else no).Keeps relation :=
  .ite_of condition (fun _ => kept) fun _ => keeps

theorem Keeps.mapM {body : β → Action σ ε α} (kept : ∀ turn, (body turn).Keeps relation)
    (turns : List β) : (turns.mapM body).Keeps relation := by
  constructor
  intro start
  apply ends_mapM fun _ _ => relation start
  case initial => exact refl_of relation start
  case turn =>
    intro _ _ next _ now _ before
    apply ((kept next).ends now).mono
    · exact fun _ _ => trans_of relation before
    · exact fun _ _ => trans_of relation before
  case final => exact fun _ _ => id

/-- A message whose text takes actions comes after them. -/
theorem Keeps.recordM {severity : Severity} {text : Action σ ε String}
    (records : ∀ line, (record severity fun _ => line : Action σ ε Unit).Keeps relation)
    (kept : text.Keeps relation) : (recordM severity text).Keeps relation := by
  constructor
  intro start
  rw [ends_recordM]
  split
  · apply (kept.ends start).mono _ fun _ _ => id
    intro line last before
    exact trans_of relation before ((ends_record ..).mp ((records line).ends last))
  · exact refl_of relation start

omit [IsPreorder (Journaled σ) relation] in
theorem Keeps.map {inner : Action σ ε β} (f : β → α) (kept : inner.Keeps relation) :
    (f <$> inner).Keeps relation :=
  ⟨fun start => (ends_map f inner).mpr (kept.ends start)⟩

omit [IsPreorder (Journaled σ) relation] in
theorem Keeps.discard {inner : Action σ ε β} (kept : inner.Keeps relation) :
    (discard inner : Action σ ε Unit).Keeps relation :=
  kept.map fun _ => ()

omit [IsPreorder (Journaled σ) relation] in
theorem Keeps.mapError (f : ε → ε') {inner : Action σ ε α} (kept : inner.Keeps relation) :
    (mapError f inner).Keeps relation :=
  ⟨fun start => (ends_mapError f inner).mpr (kept.ends start)⟩

omit [IsPreorder (Journaled σ) relation] in
theorem Keeps.attempt {inner : Action σ ε α} (kept : inner.Keeps relation) :
    (attempt inner : Action σ ε' (Except ε α)).Keeps relation := by
  constructor
  intro start
  rw [ends_attempt]
  apply (kept.ends start).mono fun _ _ => id
  intro cause last same
  cases cause with
  | error cause => exact same
  | abort reason => exact same

omit [IsPreorder (Journaled σ) relation] in
theorem Keeps.finish {action : Action σ ε α} (kept : action.Keeps relation)
    (start : Journaled σ) : relation start (action.finish start) :=
  (kept.ends start).outcome_finish.elim (fun ⟨_, _, same⟩ => same) fun ⟨_, _, same⟩ => same

/-- A message whose text takes an address that may be too wide. -/
theorem ends_recordM_lift {returns : Unit → Journaled σ → Prop}
    {fails : Failure ε → Journaled σ → Prop} {start : Journaled σ} {severity : Severity}
    {attempted : Except Abort α} {text : α → String}
    (goesOn : ∀ journal : Journal, journal.log = start.journal.log →
      returns () ⟨start.state, journal⟩)
    (stops : ∀ reason, attempted = .error reason → fails (.abort reason) start) :
    (recordM severity do
      let part ← liftM attempted
      return text part : Action σ ε Unit).Ends start returns fails := by
  rw [ends_recordM]
  split
  · simp only [ends_bind, ends_lift, ends_pure]
    cases attempted with
    | ok part => exact goesOn _ (Journal.log_record ..)
    | error reason => exact stops reason rfl
  · exact goesOn _ rfl

end Action

/-- The journal goes on with effects that pass a test. -/
def Grows (allowed : Effect → Prop) (start last : Journaled σ) : Prop :=
  ∃ added, last.journal.log = start.journal.log ++ added ∧ ∀ effect ∈ added, allowed effect

variable {allowed : Effect → Prop} {start last : Journaled σ}

theorem Grows.of_log_eq (same : last.journal.log = start.journal.log) : Grows allowed start last :=
  ⟨[], by simp [same], by simp⟩

instance : IsPreorder (Journaled σ) (Grows allowed) where
  refl start := .of_log_eq rfl
  trans start middle last := by
    intro first second
    obtain ⟨added, same, passed⟩ := first
    obtain ⟨more, same', passed'⟩ := second
    refine ⟨added ++ more, by rw [same', same, List.append_assoc], fun effect member => ?_⟩
    exact (List.mem_append.mp member).elim (passed effect) (passed' effect)

end DmaRemap

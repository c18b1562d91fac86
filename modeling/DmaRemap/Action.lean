import DmaRemap.Abort
import DmaRemap.Journal

/-!
Actions: computations that change a state, write to a journal and may fail. A failure leaves the
state and the journal as they were when it arose; nothing is rolled back.
-/

namespace DmaRemap

/-- Why an action ended without a result: an error its caller may handle, or an abort. -/
inductive Failure (ε : Type) where
  | error (cause : ε)
  | abort (cause : Abort)
deriving DecidableEq, Repr

def Failure.map {ε ε' : Type} (f : ε → ε') : Failure ε → Failure ε'
  | error cause => error (f cause)
  | abort cause => abort cause

/-- A state together with the journal of the run. -/
structure Journaled (σ : Type) where
  state : σ
  journal : Journal

/-- A computation on a state `σ` that may fail with an error `ε`. -/
abbrev Action (σ ε α : Type) := EStateM (Failure ε) (Journaled σ) α

/-- A component of a state: how it is read and how it is replaced. -/
structure Part (σ τ : Type) where
  get : σ → τ
  set : τ → σ → σ

namespace Action

variable {σ τ ε ε' α : Type}

/-- Ends with an error. -/
def fail (cause : ε) : Action σ ε α :=
  throw (.error cause)

/-- Ends with an abort. -/
def abort (cause : Abort) : Action σ ε α :=
  throw (.abort cause)

def ofExcept : Except Abort α → Action σ ε α
  | .ok result => pure result
  | .error cause => abort cause

instance : MonadLift (Except Abort) (Action σ ε) := ⟨ofExcept⟩

/-- The current state. -/
def state : Action σ ε σ := fun s => .ok s.state s

/-- Replaces the state by a function of itself, which also gives the result. -/
def step (f : σ → α × σ) : Action σ ε α := fun s =>
  match f s.state with
  | (result, next) => .ok result ⟨next, s.journal⟩

def update (f : σ → σ) : Action σ ε Unit := fun s =>
  .ok () ⟨f s.state, s.journal⟩

/-- Writes a message. -/
def record (severity : Severity) (text : Unit → String) : Action σ ε Unit := fun s =>
  .ok () ⟨s.state, s.journal.record severity text⟩

/-- Notes an effect. -/
def observe (effect : Effect) : Action σ ε Unit := fun s =>
  .ok () ⟨s.state, s.journal.observe effect⟩

/-- Writes a message whose text takes actions to make. They happen only if the message is kept. -/
def recordM (severity : Severity) (text : Action σ ε String) : Action σ ε Unit := fun s =>
  if s.journal.keeps severity then
    match text s with
    | .ok line t => .ok () ⟨t.state, t.journal.record severity fun _ => line⟩
    | .error cause t => .error cause t
  else
    .ok () s

/-- Performs an action on a part of the state. -/
def on (part : Part σ τ) (inner : Action τ ε α) : Action σ ε α := fun s =>
  match inner ⟨part.get s.state, s.journal⟩ with
  | .ok result t => .ok result ⟨part.set t.state s.state, t.journal⟩
  | .error cause t => .error cause ⟨part.set t.state s.state, t.journal⟩

/-- Performs an action with other names for its errors. -/
def mapError (f : ε → ε') (inner : Action σ ε α) : Action σ ε' α := fun s =>
  match inner s with
  | .ok result t => .ok result t
  | .error cause t => .error (cause.map f) t

/-- Performs an action and hands its error, if any, to the caller. An abort stays an abort. -/
def attempt (inner : Action σ ε α) : Action σ ε' (Except ε α) := fun s =>
  match inner s with
  | .ok result t => .ok (.ok result) t
  | .error (.error cause) t => .ok (.error cause) t
  | .error (.abort cause) t => .error (.abort cause) t

/-- Performs an action that has a further state of its own, which is returned beside the outcome. -/
def beside (extra : τ) (inner : Action (σ × τ) ε α) : Action σ ε' (Except ε α × τ) := fun s =>
  match inner ⟨(s.state, extra), s.journal⟩ with
  | .ok result t => .ok (.ok result, t.state.2) ⟨t.state.1, t.journal⟩
  | .error (.error cause) t => .ok (.error cause, t.state.2) ⟨t.state.1, t.journal⟩
  | .error (.abort cause) t => .error (.abort cause) ⟨t.state.1, t.journal⟩

end Action

namespace Part

variable {σ τ : Type}

def first : Part (σ × τ) σ := ⟨Prod.fst, fun value pair => (value, pair.2)⟩

def second : Part (σ × τ) τ := ⟨Prod.snd, fun value pair => (pair.1, value)⟩

end Part

end DmaRemap

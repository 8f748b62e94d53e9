import PathAcl.Report.Event
import PathAcl.Report.Metric

/-! # Actions
An action reads and replaces a state, answers or fails, and reports what it did on the way. The
state it leaves counts also when it fails, so nothing is undone silently. -/

namespace PathAcl

/-- Something reported: a log event or a measure. -/
inductive Note
  | event (e : Event)
  | measure (m : Measure)
  deriving Repr, DecidableEq

/-- What became of an action. -/
structure Outcome (σ ε α : Type) where
  /-- The answer or the failure. -/
  answer : Except ε α
  /-- The state that is left. -/
  state : σ
  /-- What was reported, in order. -/
  notes : List Note

/-- An **action** on states `σ` that answers `α` or fails with `ε`. -/
def Action (σ ε α : Type) : Type := σ → Outcome σ ε α

namespace Action

variable {σ τ ε ζ α β : Type}

/-- Runs an action from a state. -/
def run (a : Action σ ε α) (s : σ) : Outcome σ ε α := a s

/-- Answers at once. -/
def answer (x : α) : Action σ ε α := fun s => ⟨.ok x, s, []⟩

/-- Fails at once. -/
def fail (e : ε) : Action σ ε α := fun s => ⟨.error e, s, []⟩

/-- Goes on with an answer; a failure ends the action. -/
def andThen (a : Action σ ε α) (f : α → Action σ ε β) : Action σ ε β := fun s =>
  let o := a s
  match o.answer with
  | .error e => ⟨.error e, o.state, o.notes⟩
  | .ok x =>
    let p := f x o.state
    ⟨p.answer, p.state, o.notes ++ p.notes⟩

instance : Monad (Action σ ε) where
  pure := answer
  bind := andThen

/-- A computation that needs no state. -/
def ofExcept (r : Except ε α) : Action σ ε α := fun s => ⟨r, s, []⟩

/-- The present state. -/
def get : Action σ ε σ := fun s => ⟨.ok s, s, []⟩

/-- Replaces the state. -/
def put (s : σ) : Action σ ε Unit := fun _ => ⟨.ok (), s, []⟩

/-- Reports something. -/
def report (n : Note) : Action σ ε Unit := fun s => ⟨.ok (), s, [n]⟩

/-- Reports a log event. -/
def log (e : Event) : Action σ ε Unit := report (.event e)

/-- Rewords a failure. -/
def mapError (f : ε → ζ) (a : Action σ ε α) : Action σ ζ α := fun s =>
  let o := a s
  ⟨o.answer.mapError f, o.state, o.notes⟩

/-- Acts on a part of a larger state. -/
def onPart (part : τ → σ) (replace : τ → σ → τ) (a : Action σ ε α) : Action τ ε α := fun t =>
  let o := a (part t)
  ⟨o.answer, replace t o.state, o.notes⟩

@[simp] theorem run_pure (x : α) (s : σ) :
    (pure x : Action σ ε α).run s = ⟨.ok x, s, []⟩ := rfl

/-- After an answer the rest runs from the state that is left. -/
theorem run_bind_ok {a : Action σ ε α} {f : α → Action σ ε β} {s : σ} {x : α}
    (h : (a.run s).answer = .ok x) :
    (a >>= f).run s =
      ⟨((f x).run (a.run s).state).answer, ((f x).run (a.run s).state).state,
        (a.run s).notes ++ ((f x).run (a.run s).state).notes⟩ := by
  simp only [run] at h
  simp only [run, bind, andThen, h]

/-- After a failure nothing else runs. -/
theorem run_bind_error {a : Action σ ε α} {f : α → Action σ ε β} {s : σ} {e : ε}
    (h : (a.run s).answer = .error e) :
    (a >>= f).run s = ⟨.error e, (a.run s).state, (a.run s).notes⟩ := by
  simp only [run] at h
  simp only [run, bind, andThen, h]

end Action

end PathAcl

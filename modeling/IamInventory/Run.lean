import IamInventory.Event
import IamInventory.Service.Script

/-!
# Runs — work that calls the service

  A run starts from a draft of what it makes and from the answers that the service will give. It
  ends with a result or a fault, and in either case with the draft as far as it has come, the
  answers that are left, and a trace of its own events. What a run has drafted before a fault is
  not lost.

* **`Run.bind_trace`** — the trace of a run and then another is the one followed by the other.
* **`Run.attempt`** — a run with a draft of its own, whose fault is a result.
* **`Run.loop`** — steps as long as each one takes an answer.
-/

namespace IamInventory

/-- What a run ends with. -/
structure Outcome (σ α : Type) where
  result : Except Fault α
  draft : σ
  left : Script
  trace : Trace

/-- Work that calls the service, with a draft of type `σ`. -/
def Run (σ α : Type) : Type := σ → Script → Outcome σ α

namespace Run

variable {σ τ α β : Type}

/-- The run that does nothing. -/
protected def pure (a : α) : Run σ α := fun draft script => ⟨.ok a, draft, script, []⟩

/-- A run and then another one that depends on its result, unless there is a fault. -/
protected def bind (m : Run σ α) (f : α → Run σ β) : Run σ β := fun draft script =>
  let first := m draft script
  match first.result with
  | .error e => ⟨.error e, first.draft, first.left, first.trace⟩
  | .ok a =>
    let second := f a first.draft first.left
    { second with trace := first.trace ++ second.trace }

instance : Monad (Run σ) where
  pure := Run.pure
  bind := Run.bind

/-! ## Parts of runs -/

/-- Ends with a fault. -/
def fault (f : Fault) : Run σ α := fun draft script => ⟨.error f, draft, script, []⟩

/-- Ends with a failure. -/
def fail (f : Failure) : Run σ α := fault (.failure f)

/-- The result of something that may be a fault. -/
def ofFault (e : Except Fault α) : Run σ α := fun draft script => ⟨e, draft, script, []⟩

/-- The result of something that may be a failure. -/
def ofFailure (e : Except Failure α) : Run σ α := ofFault (e.mapError .failure)

/-- The draft. -/
def draft : Run σ σ := fun draft script => ⟨.ok draft, draft, script, []⟩

/-- Changes the draft. -/
def redraft (f : σ → σ) : Run σ Unit := fun draft script => ⟨.ok (), f draft, script, []⟩

/-- One event. -/
def emit (e : Event) : Run σ Unit := fun draft script => ⟨.ok (), draft, script, [e]⟩

/-- Notes a record. -/
def note (level : Log.Level) (source : Log.Source) (message : String) : Run σ Unit :=
  emit (.noted ⟨level, source, message⟩)

/-- Takes the answer to a call. -/
def answer (action : Action) (arguments : Members) : Run σ Answer := fun draft script =>
  let (a, left) := script.take action
  ⟨.ok a, draft, left, [.called action arguments]⟩

/-- What a script tells. -/
def ofScript (f : Script → α) : Run σ α := fun draft script => ⟨.ok (f script), draft, script, []⟩

/-- Whether the answers of an action come in pages. -/
def isPaged (action : Action) : Run σ Bool := ofScript (·.isPaged action)

/-- **A run with a draft of its own.** Its fault, if there is one, is a result beside its draft. -/
def attempt (start : τ) (m : Run τ α) : Run σ (Except Fault α × τ) := fun draft script =>
  let inner := m start script
  ⟨.ok (inner.result, inner.draft), draft, inner.left, inner.trace⟩

/-- A run on a part of the draft. -/
def within (get : σ → τ) (put : τ → σ → σ) (m : Run τ α) : Run σ α := fun draft script =>
  let inner := m (get draft) script
  ⟨inner.result, put inner.draft draft, inner.left, inner.trace⟩

/-- **Steps until one has a result.** A step that has none has to take an answer. -/
def loop (step : β → Run σ (β ⊕ α)) (b : β) : Run σ α := fun draft script =>
  let first := step b draft script
  match first.result with
  | .error e => ⟨.error e, first.draft, first.left, first.trace⟩
  | .ok (.inr a) => ⟨.ok a, first.draft, first.left, first.trace⟩
  | .ok (.inl next) =>
    if first.left.size < script.size then
      let rest := loop step next first.draft first.left
      { rest with trace := first.trace ++ rest.trace }
    else ⟨.error .stalled, first.draft, first.left, first.trace⟩
termination_by _ script => script.size

/-- Runs once for each item, in order. -/
def each (items : List α) (body : α → Run σ Unit) : Run σ Unit :=
  match items with
  | [] => pure ()
  | a :: rest => do
    body a
    each rest body

/-! ## Laws -/

/-- **The trace of a run and then another one.** -/
theorem bind_trace {m : Run σ α} {f : α → Run σ β} {d : σ} {s : Script} {a : α}
    (h : (m d s).result = .ok a) :
    ((m >>= f) d s).trace = (m d s).trace ++ (f a (m d s).draft (m d s).left).trace := by
  simp only [bind, Run.bind, h]

theorem bind_result {m : Run σ α} {f : α → Run σ β} {d : σ} {s : Script} {a : α}
    (h : (m d s).result = .ok a) :
    ((m >>= f) d s).result = (f a (m d s).draft (m d s).left).result := by
  simp only [bind, Run.bind, h]

theorem bind_of_error {m : Run σ α} {f : α → Run σ β} {d : σ} {s : Script} {e : Fault}
    (h : (m d s).result = .error e) :
    (m >>= f) d s = ⟨.error e, (m d s).draft, (m d s).left, (m d s).trace⟩ := by
  simp only [bind, Run.bind, h]

instance : LawfulMonad (Run σ) := LawfulMonad.mk' (Run σ)
  (fun m => by
    funext d s
    simp only [Functor.map, Run.bind]
    cases m d s with
    | mk result draft left trace =>
      cases result with
      | error e => rfl
      | ok a => simp [Run.pure])
  (fun _ _ => rfl)
  (fun m f g => by
    funext d s
    simp only [bind, Run.bind]
    cases m d s with
    | mk result draft left trace =>
      cases result with
      | error e => rfl
      | ok a =>
        simp only
        cases f a draft left with
        | mk result draft left trace =>
          cases result with
          | error e => rfl
          | ok b => simp [List.append_assoc])

end Run

end IamInventory

import IamInventory.Session

/-!
# Effects — what a run does outside itself, with the answers it is given

  A trace says which calls a run makes and where it pauses; the script that the run starts from says
  how the calls are answered. Put together they are the *effects* of the run: each call with its
  answer, and the pauses between the calls. Nothing else that a run notes can be told from outside.

  A script *follows* effects if it answers their calls with their answers. Two scripts that follow
  the same effects cannot be told apart by a run that has these effects and no others.

* **`Script.effects`** — the effects of a trace that starts from a script.
* **`Script.Follows`** — whether a script gives the answers that effects tell of.
-/

namespace IamInventory

/-- A call with its answer, or a pause. -/
inductive Effect where
  | asked (action : Action) (arguments : Members) (answer : Answer)
  | paused (delay : Number.Binary64)

/-- The calls among effects. -/
def Effect.calls (l : List Effect) : List (Action × Members) :=
  l.filterMap fun
    | .asked action arguments _ => some (action, arguments)
    | .paused _ => none

namespace Script

/-- The script that is left after the calls of a trace. -/
def after (s : Script) : Trace → Script
  | [] => s
  | e :: t =>
    match e with
    | .called action _ => (s.take action).2.after t
    | _ => s.after t

/-- **The effects of a trace** that starts from a script. -/
def effects (s : Script) : Trace → List Effect
  | [] => []
  | e :: t =>
    match e with
    | .called action arguments =>
      .asked action arguments (s.take action).1 :: (s.take action).2.effects t
    | .paused delay => .paused delay :: s.effects t
    | _ => s.effects t

/-- **Whether a script answers the calls of effects with their answers.** -/
def Follows (s : Script) : List Effect → Prop
  | [] => True
  | .asked action _ answer :: l => (s.take action).1 = answer ∧ (s.take action).2.Follows l
  | .paused _ :: l => s.Follows l

theorem after_append (s : Script) (t u : Trace) : s.after (t ++ u) = (s.after t).after u := by
  induction t generalizing s with
  | nil => rfl
  | cons e t ih => cases e <;> simp only [List.cons_append, after, ih]

theorem effects_append (s : Script) (t u : Trace) :
    s.effects (t ++ u) = s.effects t ++ (s.after t).effects u := by
  induction t generalizing s with
  | nil => rfl
  | cons e t ih => cases e <;> simp only [List.cons_append, effects, after, ih]

/-- The calls among the effects of a trace are its calls. -/
theorem calls_effects (s : Script) (t : Trace) : Effect.calls (s.effects t) = t.calls := by
  induction t generalizing s with
  | nil => rfl
  | cons e t ih =>
    have ih := fun s => ih s
    simp only [Effect.calls, Trace.calls] at ih
    cases e <;> simp only [effects, Effect.calls, Trace.calls, List.filterMap_cons, ih]

end Script

/-- Effects come to each of their calls, after the effects with the calls before it. -/
theorem Effect.split_of_calls {l : List Effect} {n : Nat} {c : Action × Members}
    (h : (Effect.calls l)[n]? = some c) :
    ∃ before a rest, l = before ++ .asked c.1 c.2 a :: rest ∧
      Effect.calls before = (Effect.calls l).take n := by
  induction l generalizing n with
  | nil => cases h
  | cons e l ih =>
    cases e with
    | paused delay =>
      obtain ⟨before, a, rest, rfl, hb⟩ := ih h
      exact ⟨.paused delay :: before, a, rest, rfl, hb⟩
    | asked action arguments a =>
      cases n with
      | zero =>
        cases h
        exact ⟨[], a, l, rfl, rfl⟩
      | succ n =>
        obtain ⟨before, b, rest, rfl, hb⟩ := ih h
        exact ⟨.asked action arguments a :: before, b, rest, rfl, congrArg _ hb⟩

theorem Effect.calls_append (l k : List Effect) :
    Effect.calls (l ++ k) = Effect.calls l ++ Effect.calls k := List.filterMap_append

namespace Script

/-! ## What a call leaves -/

theorem unpaged_take (s : Script) (action : Action) : (s.take action).2.unpaged = s.unpaged := by
  rw [take]
  split <;> rfl

theorem unpaged_after (s : Script) (t : Trace) : (s.after t).unpaged = s.unpaged := by
  induction t generalizing s with
  | nil => rfl
  | cons e t ih => cases e <;> simp only [after, ih, unpaged_take]

theorem size_after_le (s : Script) (t : Trace) : (s.after t).size ≤ s.size := by
  induction t generalizing s with
  | nil => exact Nat.le_refl _
  | cons e t ih =>
    cases e with
    | called action arguments => exact Nat.le_trans (ih _) (size_take_le s action)
    | _ => exact ih s

/-- A call that is answered from the script takes the answer out of it. -/
theorem size_take_lt {s : Script} {action : Action} (h : (s.take action).1 ≠ unscripted) :
    (s.take action).2.size < s.size := by
  rw [take] at h ⊢
  split at h
  · next x queues hq =>
    have := countAnswers_of_takeFrom hq
    simp only [size]
    omega
  · exact absurd rfl h

/-- A trace without calls leaves the script as it is. -/
theorem after_of_quiet {s : Script} {t : Trace} (h : t.calls = []) : s.after t = s := by
  induction t with
  | nil => rfl
  | cons e t ih =>
    cases e with
    | called action arguments => simp [Trace.calls] at h
    | _ => exact ih (by simpa [Trace.calls] using h)

/-! ## Scripts that follow effects -/

theorem follows_effects (s : Script) (t : Trace) : s.Follows (s.effects t) := by
  induction t generalizing s with
  | nil => trivial
  | cons e t ih =>
    cases e with
    | called action arguments => exact ⟨rfl, ih _⟩
    | paused delay => exact ih s
    | _ => exact ih s

/-- A script that follows the effects of a trace has them itself. -/
theorem effects_of_follows {s s' : Script} {t : Trace} (h : s'.Follows (s.effects t)) :
    s'.effects t = s.effects t := by
  induction t generalizing s s' with
  | nil => rfl
  | cons e t ih =>
    cases e with
    | called action arguments =>
      obtain ⟨ha, ht⟩ := h
      simp only [effects, ha, ih ht]
    | paused delay => exact congrArg _ (ih h)
    | _ => exact ih h

/-- What follows effects follows the first ones of them. -/
theorem follows_of_append {s : Script} {l k : List Effect} (h : s.Follows (l ++ k)) :
    s.Follows l := by
  induction l generalizing s with
  | nil => trivial
  | cons e l ih =>
    cases e with
    | asked action arguments a => exact ⟨h.1, ih h.2⟩
    | paused delay => exact ih h

/-- What follows the effects of a trace and then more follows the rest after the trace. -/
theorem follows_effects_append {s s' : Script} {t : Trace} {l : List Effect} :
    s'.Follows (s.effects t ++ l) ↔ s'.Follows (s.effects t) ∧ (s'.after t).Follows l := by
  induction t generalizing s s' with
  | nil => exact (true_and _).symm.to_iff
  | cons e t ih =>
    cases e with
    | called action arguments =>
      simp only [effects, after, List.cons_append, Follows, ih, and_assoc]
    | _ => exact ih

end Script

/-! ## Calls -/

/-- What a call for an entity ends with, told by its answer. -/
def Answer.told (action : Action) (identifier : Value) (a : Answer) : Except Fault Value :=
  match a.settle action with
  | .ok (.response v) => .ok v
  | .ok (.trouble t) => .error (.failure (t.failure action identifier))
  | .error e => .error e

/-- **A call takes its answer from the script and ends with what the answer tells.** -/
theorem call_eq {σ : Type} (action : Action) (arguments : Members) (identifier : Value) (d : σ)
    (s : Script) :
    call action arguments identifier d s =
      ⟨(s.take action).1.told action identifier, d, (s.take action).2,
        [.called action arguments]⟩ := by
  simp only [call, bind, Run.bind, Run.answer, Run.ofFault, Answer.told]
  cases (s.take action).1.settle action with
  | error e => rfl
  | ok settled => cases settled <;> rfl

/-- A call that the script has no answer for meets with trouble. -/
theorem settle_unscripted (action : Action) :
    ∃ t, Script.unscripted.settle action = .ok (.trouble t) := ⟨_, rfl⟩

/-- A call that ends with a response takes an answer out of the script. -/
theorem size_take_lt_of_told {action : Action} {identifier v : Value} {s : Script}
    (h : (s.take action).1.told action identifier = .ok v) :
    (s.take action).2.size < s.size := by
  refine Script.size_take_lt fun hu => ?_
  obtain ⟨t, ht⟩ := settle_unscripted action
  rw [hu, Answer.told, ht] at h
  cases h

/-! ## One run and then another -/

namespace Run

variable {σ α β : Type}

/-- A run that has a result, and then another one. -/
theorem bind_of_ok {m : Run σ α} {f : α → Run σ β} {d : σ} {s : Script} {a : α}
    (h : (m d s).result = .ok a) :
    (m >>= f) d s =
      ⟨(f a (m d s).draft (m d s).left).result, (f a (m d s).draft (m d s).left).draft,
        (f a (m d s).draft (m d s).left).left,
        (m d s).trace ++ (f a (m d s).draft (m d s).left).trace⟩ := by
  simp only [bind, Run.bind, h]

end Run

end IamInventory

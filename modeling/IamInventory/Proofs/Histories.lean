/-!
# Histories — what becomes of a state by steps that may be refused

  A step leads from a state to the next one, or it is refused and leaves the state as it was. So a
  history is told by the steps of it that are accepted: what each of these adds to a state is all
  that the state holds in the end.

* **`History.after`** — the state after steps, and **`History.accepted`** — the accepted ones.
* **`History.tells`** — what every accepted step keeps is so after every history.
* **`History.view_after`** — a view of states that every step respects is a history of its own.
-/

namespace IamInventory.History

variable {σ τ α ε : Type}

/-- The state after a step. -/
def next (step : σ → α → Except ε σ) (s : σ) (a : α) : σ :=
  match step s a with
  | .ok s' => s'
  | .error _ => s

/-- **The state after steps.** -/
def after (step : σ → α → Except ε σ) (s : σ) (as : List α) : σ := as.foldl (next step) s

/-- **The steps that are accepted**, in order. -/
def accepted (step : σ → α → Except ε σ) : σ → List α → List α
  | _, [] => []
  | s, a :: as =>
    match step s a with
    | .ok s' => a :: accepted step s' as
    | .error _ => accepted step s as

variable {step : σ → α → Except ε σ} {s s' : σ} {a : α} {e : ε}

theorem next_of_ok (h : step s a = .ok s') : next step s a = s' := by rw [next, h]

theorem next_of_error (h : step s a = .error e) : next step s a = s := by rw [next, h]

theorem accepted_cons_of_ok (h : step s a = .ok s') (as : List α) :
    accepted step s (a :: as) = a :: accepted step s' as := by rw [accepted, h]

theorem accepted_cons_of_error (h : step s a = .error e) (as : List α) :
    accepted step s (a :: as) = accepted step s as := by rw [accepted, h]

theorem after_append (as bs : List α) :
    after step s (as ++ bs) = after step (after step s as) bs := List.foldl_append

theorem after_append_of_ok {as : List α} (h : step (after step s as) a = .ok s') :
    after step s (as ++ [a]) = s' := by
  rw [after_append]
  exact next_of_ok h

/-- **A step that is refused leaves no trace.** -/
theorem after_append_of_error {as : List α} (h : step (after step s as) a = .error e) :
    after step s (as ++ [a]) = after step s as := by
  rw [after_append]
  exact next_of_error h

/-- **What every accepted step keeps** is so after every history: a relation between a state and the
    steps that have been accepted on the way to it. -/
theorem tells {P : σ → List α → Prop} (start : P s [])
    (keep : ∀ s done a s', P s done → step s a = .ok s' → P s' (done ++ [a])) (as : List α) :
    P (after step s as) (accepted step s as) := by
  -- the induction takes off the first step, so there are steps before it that have been accepted
  suffices h : ∀ s done, P s done → P (after step s as) (done ++ accepted step s as) from
    h s [] start
  induction as with
  | nil =>
    intro s done hs
    rw [accepted, List.append_nil]
    exact hs
  | cons a as ih =>
    intro s done hs
    show P (after step (next step s a) as) _
    cases ha : step s a with
    | ok s' =>
      rw [next_of_ok ha, accepted_cons_of_ok ha, List.append_cons]
      exact ih s' (done ++ [a]) (keep s done a s' hs ha)
    | error e =>
      rw [next_of_error ha, accepted_cons_of_error ha]
      exact ih s done hs

/-- **A view of states that every step respects** is a history of its own. -/
theorem view_after {view : σ → τ} {step' : τ → α → Except ε τ}
    (h : ∀ s a, step' (view s) a = (step s a).map view) (s : σ) (as : List α) :
    view (after step s as) = after step' (view s) as := by
  induction as generalizing s with
  | nil => rfl
  | cons a as ih =>
    have hnext : next step' (view s) a = view (next step s a) := by
      cases ha : step s a with
      | ok s' => rw [next_of_ok ha, next, h, ha]; rfl
      | error e => rw [next_of_error ha, next, h, ha]; rfl
    show view (after step (next step s a) as) = after step' (next step' (view s) a) as
    rw [ih, hnext]

end IamInventory.History

import IamInventory.Proofs.Steady

/-!
# Injection — scripts with one answer changed

  Answers are given to the calls of each action in order, so the answer to a call is found by how
  many calls of the same action come before it. A script with this one answer changed leads a run
  to the call as before, and then answers with what has been put in.

* **`Answer.Raises`** — answers that are trouble whatever they are asked for, with their code.
* **`Script.setAnswer`** — a script with one answer changed.
* **`Script.follows_setAnswer`** — it follows the effects before the call, and the changed answer.
* **`Run.Breaks.injected`** — what breaks at its calls breaks where an answer is changed to trouble.
-/

namespace IamInventory

/-! ## Answers that raise -/

namespace Answer

/-- Whether an answer is an error of the service or of the client: an error report whose parts are
    objects where they are present, or a client that gives up and has words for it. -/
def Raises : Answer → Prop
  | .rejected (.object report) =>
    (∀ v, Members.get? report "Error" = some v → ∃ ms, v = .object ms) ∧
      ∀ v, Members.get? report "ResponseMetadata" = some v → ∃ ms, v = .object ms
  | .gaveUp fault details => ∃ text, fault.text details = .ok text
  | _ => False

/-- The code in an error report; an empty one if there is none. -/
def code : Answer → Value
  | .rejected (.object report) =>
    match Members.get? report "Error" with
    | some (.object error) => (Members.get? error "Code").getD (.text "")
    | _ => .text ""
  | _ => .text ""

/-- Reading what an error report says about retries cannot go wrong if that is an object. -/
theorem retryText_of_object {report : Members}
    (h : ∀ v, Members.get? report "ResponseMetadata" = some v → ∃ ms, v = .object ms) :
    ∃ text, Rejection.retryText (.object report) = .ok text := by
  cases hr : Members.get? report "ResponseMetadata" with
  | none =>
    refine ⟨"", ?_⟩
    simp only [Rejection.retryText, Rejection.answerPart?, hr, bind, Except.bind]
  | some v =>
    obtain ⟨about, rfl⟩ := h v hr
    simp only [Rejection.retryText, Rejection.answerPart?, hr, Value.memberOr, Value.members, bind,
      Except.bind]
    split
    · split
      · exact ⟨_, rfl⟩
      · exact ⟨_, rfl⟩
    · exact ⟨_, rfl⟩

/-- **An answer that raises is trouble with its code.** -/
theorem settle_of_raises {a : Answer} (h : a.Raises) (action : Action) :
    ∃ t, a.settle action = .ok (.trouble t) ∧ t.code = a.code := by
  simp only [Raises] at h
  split at h
  · next report =>
    obtain ⟨herror, hretries⟩ := h
    obtain ⟨retries, hr⟩ := retryText_of_object hretries
    cases he : Members.get? report "Error" with
    | none =>
      simp only [settle, Rejection.trouble, hr, Value.memberOr, Value.members, he, code, bind,
        Except.bind]
      exact ⟨_, rfl, rfl⟩
    | some v =>
      obtain ⟨error, rfl⟩ := herror v he
      simp only [settle, Rejection.trouble, hr, Value.memberOr, Value.members, he, code, bind,
        Except.bind]
      exact ⟨_, rfl, rfl⟩
  · obtain ⟨text, ht⟩ := h
    simp only [settle, ht, Except.map]
    exact ⟨_, rfl, rfl⟩
  · exact h.elim

end Answer

/-! ## Changed scripts -/

namespace Script

/-- Queues with one answer for an action changed, or added where the queue ends before it. -/
def putAnswer (action : Action) (n : Nat) (a : Answer) :
    List (Action × List Answer) → List (Action × List Answer)
  | [] => [(action, [a])]
  | q :: qs =>
    if q.1 = action then (action, q.2.take n ++ a :: q.2.drop (n + 1)) :: qs
    else q :: putAnswer action n a qs

/-- **The script with one answer for an action changed**, counted from zero. -/
def setAnswer (s : Script) (action : Action) (n : Nat) (a : Answer) : Script :=
  { s with queues := putAnswer action n a s.queues }

theorem takeFrom_putAnswer_zero (action : Action) (a : Answer)
    (queues : List (Action × List Answer)) :
    ∃ rest, takeFrom action (putAnswer action 0 a queues) = some (a, rest) := by
  induction queues with
  | nil => exact ⟨[(action, [])], if_pos rfl⟩
  | cons q qs ih =>
    obtain ⟨rest, hrest⟩ := ih
    by_cases hq : q.1 = action
    · simp only [putAnswer, hq, if_true, takeFrom]
      exact ⟨_, rfl⟩
    · simp only [putAnswer, hq, if_false, takeFrom, hrest]
      exact ⟨_, rfl⟩

theorem takeFrom_putAnswer_succ {action : Action} {queues rest : List (Action × List Answer)}
    {x : Answer} (h : takeFrom action queues = some (x, rest)) (n : Nat) (a : Answer) :
    takeFrom action (putAnswer action (n + 1) a queues) = some (x, putAnswer action n a rest) := by
  induction queues generalizing rest with
  | nil => cases h
  | cons q qs ih =>
    obtain ⟨b, xs⟩ := q
    by_cases hb : b = action
    · cases xs with
      | nil => simp [takeFrom, hb] at h
      | cons y ys =>
        simp only [takeFrom, hb, if_true, Option.some.injEq, Prod.mk.injEq] at h
        obtain ⟨rfl, rfl⟩ := h
        simp [putAnswer, takeFrom, hb]
    · simp only [takeFrom, hb, if_false, Option.map_eq_some_iff] at h
      obtain ⟨⟨y, ys⟩, hy, hp⟩ := h
      obtain ⟨rfl, rfl⟩ := Prod.mk.inj hp
      simp [putAnswer, takeFrom, hb, ih hy]

theorem takeFrom_putAnswer_of_ne {action b : Action} (hb : b ≠ action) (n : Nat) (a : Answer)
    (queues : List (Action × List Answer)) :
    takeFrom b (putAnswer action n a queues) =
      (takeFrom b queues).map fun p => (p.1, putAnswer action n a p.2) := by
  induction queues with
  | nil => simp [putAnswer, takeFrom, hb.symm]
  | cons q qs ih =>
    obtain ⟨c, xs⟩ := q
    by_cases hc : c = action
    · have hcb : c ≠ b := hc ▸ hb.symm
      simp only [putAnswer, hc, if_true, takeFrom, hb.symm, if_false, Option.map_map]
      cases takeFrom b qs <;> simp [putAnswer]
    · by_cases hcb : c = b
      · subst hcb
        cases xs <;> simp [putAnswer, takeFrom, hb]
      · simp only [putAnswer, hc, if_false, takeFrom, hcb, ih, Option.map_map]
        cases takeFrom b qs <;> simp [putAnswer, hc]

/-- The changed answer is the first one. -/
theorem take_setAnswer_zero (s : Script) (action : Action) (a : Answer) :
    ((s.setAnswer action 0 a).take action).1 = a := by
  obtain ⟨rest, hrest⟩ := takeFrom_putAnswer_zero action a s.queues
  simp only [take, setAnswer, hrest]

/-- The changed answer is a later one. -/
theorem take_setAnswer_succ {s : Script} {action : Action} (h : (s.take action).1 ≠ unscripted)
    (n : Nat) (a : Answer) :
    (s.setAnswer action (n + 1) a).take action =
      ((s.take action).1, (s.take action).2.setAnswer action n a) := by
  cases ht : takeFrom action s.queues with
  | none => exact absurd (by rw [take, ht]) h
  | some p =>
    obtain ⟨x, rest⟩ := p
    simp only [take, setAnswer, ht, takeFrom_putAnswer_succ ht n a]

/-- The changed answer is one for another action. -/
theorem take_setAnswer_of_ne (s : Script) {action b : Action} (hb : b ≠ action) (n : Nat)
    (a : Answer) :
    (s.setAnswer action n a).take b = ((s.take b).1, (s.take b).2.setAnswer action n a) := by
  have := takeFrom_putAnswer_of_ne hb n a s.queues
  cases ht : takeFrom b s.queues with
  | none => simp only [take, setAnswer, this, ht, Option.map_none]
  | some p => simp only [take, setAnswer, this, ht, Option.map_some]

/-- **A script with the answer to a call changed** follows the effects before the call, and then
    gives the changed answer. -/
theorem follows_setAnswer {s : Script} {l : List Effect} (h : s.Follows l)
    (hl : ∀ action arguments, Effect.asked action arguments unscripted ∉ l) (action : Action)
    (arguments : Members) (a : Answer) :
    (s.setAnswer action ((Effect.calls l).countP fun c => c.1 = action) a).Follows
      (l ++ [.asked action arguments a]) := by
  induction l generalizing s with
  | nil => exact ⟨take_setAnswer_zero s action a, trivial⟩
  | cons e l ih =>
    have hl' : ∀ b args, Effect.asked b args unscripted ∉ l := fun b args he =>
      hl b args (List.mem_cons_of_mem _ he)
    cases e with
    | paused delay => exact ih h hl'
    | asked b args x =>
      obtain ⟨rfl, h⟩ := h
      have hcalls : Effect.calls (.asked b args (s.take b).1 :: l) = (b, args) :: Effect.calls l :=
        rfl
      rw [hcalls, List.countP_cons]
      by_cases hb : b = action
      -- a call of the same action takes one answer off in front of the changed one
      · subst hb
        have hx : (s.take b).1 ≠ unscripted := fun hx =>
          hl b args (hx ▸ List.mem_cons_self)
        simp only [decide_true, if_true, List.cons_append, Follows, take_setAnswer_succ hx,
          true_and]
        exact ih h hl'
      · simp only [hb, decide_false, Bool.false_eq_true, if_false, Nat.add_zero, List.cons_append,
          Follows, take_setAnswer_of_ne s hb, true_and]
        exact ih h hl'

end Script

namespace Run

variable {σ α : Type} {m : Run σ α} {d : σ} {Q : Script → σ → Prop}

/-- What breaks at its calls goes past no call that the script has no answer for. -/
theorem Breaks.scripted_before (hm : m.Breaks d Q) {s : Script} {before rest : List Effect}
    {e : Effect} (h : s.effects (m d s).trace = before ++ e :: rest) (action : Action)
    (arguments : Members) : Effect.asked action arguments Script.unscripted ∉ before := by
  intro hmem
  obtain ⟨first, more, rfl⟩ := List.append_of_mem hmem
  obtain ⟨t, ht⟩ := settle_unscripted action
  -- the script itself makes the trouble at which the run has to end
  let b : Break := ⟨first, action, arguments, Script.unscripted, t, ht⟩
  have hin : b.In (s.effects (m d s).trace) :=
    ⟨Script.unscripted, more ++ e :: rest, by rw [h, List.append_assoc, List.cons_append]⟩
  have hs : s.Follows b.effects := by
    have := Script.follows_effects s (m d s).trace
    rw [h, List.append_assoc, List.cons_append, List.append_cons] at this
    exact Script.follows_of_append this
  obtain ⟨he, -, -⟩ := hm b s s rfl hin hs
  rw [h] at he
  have := congrArg List.length he
  simp [b, Break.effects] at this

/-- **What breaks at its calls breaks where an answer is changed to trouble**: the call is the last
    one, and the failure tells of it. -/
theorem Breaks.injected (hm : m.Breaks d Q) {s : Script} {n : Nat} {c : Action × Members}
    (hc : (m d s).trace.calls[n]? = some c) {a : Answer} {t : Trouble}
    (ha : a.settle c.1 = .ok (.trouble t)) {s' : Script}
    (hs : s' = s.setAnswer c.1 (((m d s).trace.calls.take n).countP fun k => k.1 = c.1) a) :
    (m d s').trace.calls = (m d s).trace.calls.take (n + 1) ∧
      (∃ i, (m d s').result = .error (.failure (t.failure c.1 i))) ∧ Q s (m d s').draft := by
  rw [← Script.calls_effects s] at hc
  obtain ⟨before, answer, rest, he, hb⟩ := Effect.split_of_calls hc
  rw [Script.calls_effects] at hb
  let b : Break := ⟨before, c.1, c.2, a, t, ha⟩
  have hs' : s'.Follows b.effects := by
    rw [hs, ← hb]
    refine Script.follows_setAnswer ?_ (hm.scripted_before he) c.1 c.2 a
    have := Script.follows_effects s (m d s).trace
    rw [he] at this
    exact Script.follows_of_append this
  have hp : s'.unpaged = s.unpaged := by
    rw [hs]
    rfl
  obtain ⟨heffects, hr, hd⟩ := hm b s s' hp ⟨answer, rest, he⟩ hs'
  refine ⟨?_, hr, hd⟩
  have hcall : (m d s).trace.calls[n]? = some c := by rwa [← Script.calls_effects s]
  calc (m d s').trace.calls
    _ = Effect.calls (s'.effects (m d s').trace) := (Script.calls_effects _ _).symm
    _ = Effect.calls before ++ [c] := by
      rw [heffects, Break.effects, Effect.calls_append]
      rfl
    _ = (m d s).trace.calls.take (n + 1) := by
      rw [hb, List.take_add_one, hcall, Option.toList_some]

end Run

end IamInventory

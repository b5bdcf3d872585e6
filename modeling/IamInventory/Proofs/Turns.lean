import Mathlib.Data.List.Basic
import IamInventory.Proofs.Effects

/-!
# Turns — loops that take the answers to one action one after another

  The answers that a script has for an action are a sequence: the first one, the one after it, and
  so on, up to rejections without end. A loop that calls nothing else goes along this sequence, one
  answer in each turn. So what it comes to is told forwards, from the answers: as long as the turns
  go on, the loop has their traces behind it, and what is left to say is how the next turn ends.

* **`Script.nth`** — the answers to an action, counted from zero.
* **`Run.loop_of_turns`** — a loop after as many turns as go on.
-/

namespace IamInventory

/-! ## Answers in sequence -/

namespace Script

/-- What is left of a script after some calls of an action. -/
def skip (s : Script) (action : Action) : Nat → Script
  | 0 => s
  | n + 1 => ((s.skip action n).take action).2

/-- **The answer to a call of an action** that comes after some others, counted from zero. -/
def nth (s : Script) (action : Action) (n : Nat) : Answer := ((s.skip action n).take action).1

/-- An answer that comes from the script is one less that is left. -/
theorem size_skip_lt {s : Script} {action : Action} {n : Nat} (h : s.nth action n ≠ unscripted) :
    (s.skip action (n + 1)).size < (s.skip action n).size := size_take_lt h

/-- What is left of the answers to one action. -/
theorem skip_queue {action : Action} {unpaged : List Action} (answers : List Answer) (n : Nat) :
    (⟨[(action, answers)], unpaged⟩ : Script).skip action n =
      ⟨[(action, answers.drop n)], unpaged⟩ := by
  induction n with
  | zero => rfl
  | succ n ih =>
    rw [skip, ih, ← List.drop_drop, take]
    cases answers.drop n with
    | nil => simp only [takeFrom, if_true, List.drop_nil]
    | cons a rest => simp only [takeFrom, if_true, List.drop_one, List.tail_cons]

/-- The answer that comes after as many others as a call comes after. -/
theorem nth_queue {action : Action} {unpaged : List Action} (before : List Answer) (a : Answer)
    (after : List Answer) :
    (⟨[(action, before ++ a :: after)], unpaged⟩ : Script).nth action before.length = a := by
  rw [nth, skip_queue, List.drop_left, take]
  simp only [takeFrom, if_true]

end Script

/-- A call takes the next answer. -/
theorem call_skip {σ : Type} (action : Action) (arguments : Members) (identifier : Value) (d : σ)
    (s : Script) (n : Nat) :
    call action arguments identifier d (s.skip action n) =
      ⟨(s.nth action n).told action identifier, d, s.skip action (n + 1),
        [.called action arguments]⟩ := call_eq _ _ _ _ _

theorem response_ne_unscripted (v : Value) : Answer.response v ≠ Script.unscripted := nofun

/-! ## Traces of turns -/

namespace Trace

/-- The calls of turns, where each of them has one. -/
theorem calls_turns {n : Nat} {t : Nat → Trace} {c : Nat → Action × Members}
    (h : ∀ i < n, (t i).calls = [c i]) :
    calls ((List.range n).flatMap t) = (List.range n).map c := by
  have hcalls : ∀ i ∈ List.range n, (t i).calls = [c i] := fun i hi => h i (List.mem_range.mp hi)
  calc calls ((List.range n).flatMap t)
    _ = (List.range n).flatMap fun i => (t i).calls := List.filterMap_flatMap
    _ = (List.range n).flatMap fun i => [c i] := List.flatMap_congr hcalls
    _ = (List.range n).map c := List.map_eq_flatMap.symm

/-- The pauses of turns, where each of them has one. -/
theorem pauses_turns {n : Nat} {t : Nat → Trace} {delay : Nat → Number.Binary64}
    (h : ∀ i < n, (t i).pauses = [delay i]) :
    pauses ((List.range n).flatMap t) = (List.range n).map delay := by
  have hpauses : ∀ i ∈ List.range n, (t i).pauses = [delay i] :=
    fun i hi => h i (List.mem_range.mp hi)
  calc pauses ((List.range n).flatMap t)
    _ = (List.range n).flatMap fun i => (t i).pauses := List.filterMap_flatMap
    _ = (List.range n).flatMap fun i => [delay i] := List.flatMap_congr hpauses
    _ = (List.range n).map delay := List.map_eq_flatMap.symm

end Trace

/-- An outcome with a trace that comes before its own. -/
def Outcome.behind {σ α : Type} (t : Trace) (o : Outcome σ α) : Outcome σ α :=
  { o with trace := t ++ o.trace }

namespace Run

variable {σ α β : Type} {step : β → Run σ (β ⊕ α)}

/-- A run that has a result, and then another one: its trace comes before the other's. -/
theorem bind_behind {γ : Type} {m : Run σ γ} {f : γ → Run σ α} {a : γ} {d d' : σ} {s s' : Script}
    {t : Trace} (h : m d s = ⟨.ok a, d', s', t⟩) : (m >>= f) d s = (f a d' s').behind t := by
  rw [bind_of_ok (congrArg Outcome.result h), h]
  rfl

/-- A loop whose turn has a result ends with it. -/
theorem loop_of_done {b : β} {d : σ} {s : Script} {a : α}
    (h : (step b d s).result = .ok (.inr a)) :
    loop step b d s = ⟨.ok a, (step b d s).draft, (step b d s).left, (step b d s).trace⟩ := by
  rw [loop]
  simp only [h]

/-- A loop whose turn ends with a fault ends with it. -/
theorem loop_of_error {b : β} {d : σ} {s : Script} {e : Fault}
    (h : (step b d s).result = .error e) :
    loop step b d s = ⟨.error e, (step b d s).draft, (step b d s).left, (step b d s).trace⟩ := by
  rw [loop]
  simp only [h]

/-- A loop whose turn takes an answer and goes on has the turn behind it. -/
theorem loop_of_next {b next : β} {d : σ} {s : Script}
    (h : (step b d s).result = .ok (.inl next)) (hs : (step b d s).left.size < s.size) :
    loop step b d s =
      (loop step next (step b d s).draft (step b d s).left).behind (step b d s).trace := by
  rw [loop]
  simp only [h, hs, if_true]
  rfl

/-- **A loop after as many turns as go on**: it has their traces behind it. -/
theorem loop_of_turns {n : Nat} {b : Nat → β} {d : Nat → σ} {s : Nat → Script}
    (h : ∀ i < n, (step (b i) (d i) (s i)).result = .ok (.inl (b (i + 1))) ∧
      (step (b i) (d i) (s i)).draft = d (i + 1) ∧ (step (b i) (d i) (s i)).left = s (i + 1))
    (hs : ∀ i < n, (s (i + 1)).size < (s i).size) :
    loop step (b 0) (d 0) (s 0) = (loop step (b n) (d n) (s n)).behind
      ((List.range n).flatMap fun i => (step (b i) (d i) (s i)).trace) := by
  induction n with
  | zero => rfl
  | succ n ih =>
    obtain ⟨hr, hd, hl⟩ := h n (Nat.lt_succ_self n)
    have hlt : (step (b n) (d n) (s n)).left.size < (s n).size := by
      rw [hl]
      exact hs n (Nat.lt_succ_self n)
    have hbefore := ih (fun i hi => h i (Nat.lt_succ_of_lt hi))
      (fun i hi => hs i (Nat.lt_succ_of_lt hi))
    rw [hbefore, loop_of_next hr hlt, hd, hl, List.range_succ, List.flatMap_append,
      List.flatMap_singleton]
    simp only [Outcome.behind, List.append_assoc]

end Run

end IamInventory

import IamInventory.Proofs.Steady

/-!
# Behaviour — what a run can come to, whatever the script

  The script of a run is an infinity of possible answers; what a run *does* is a choice of them: its
  effects, its result, and its draft in the end. A fact about every script is a fact about
  everything that a run does, and what a composed run does is read off what its parts do:

* **`Run.Does.bind`** — a run and then another one: the first one ends early, or both are done;
* **`Run.Does.loop`** — a loop: turn by turn, up to the last one (`Run.Turned`);
* the parts without calls do nothing outside, and a call does itself.
-/

namespace IamInventory.Run

variable {σ α β : Type}

/-- **A run can have effects, and end with a result and a draft.** -/
def Does (m : Run σ α) (d : σ) (l : List Effect) (r : Except Fault α) (d' : σ) : Prop :=
  ∃ s, l = s.effects (m d s).trace ∧ r = (m d s).result ∧ d' = (m d s).draft

/-- The effects of a run from a draft, on a script. -/
def effects (m : Run σ α) (d : σ) (s : Script) : List Effect := s.effects (m d s).trace

theorem does_outcome (m : Run σ α) (d : σ) (s : Script) :
    m.Does d (s.effects (m d s).trace) (m d s).result (m d s).draft := ⟨s, rfl, rfl, rfl⟩

namespace Does

variable {d d' : σ} {l : List Effect}

/-- **What a run and then another one do**: the first one ends early, or both are done. -/
theorem bind {m : Run σ α} {f : α → Run σ β} {r : Except Fault β} (hm : m.Led)
    (h : (m >>= f).Does d l r d') :
    (∃ e, r = .error e ∧ m.Does d l (.error e) d') ∨
      ∃ a d₁ l₁ l₂, l = l₁ ++ l₂ ∧ m.Does d l₁ (.ok a) d₁ ∧ (f a).Does d₁ l₂ r d' := by
  obtain ⟨s, rfl, rfl, rfl⟩ := h
  cases hr : (m d s).result with
  | error e =>
    rw [bind_of_error hr]
    exact Or.inl ⟨e, rfl, s, rfl, hr.symm, rfl⟩
  | ok a =>
    rw [bind_of_ok hr, Script.effects_append, ← hm.left]
    exact Or.inr ⟨a, (m d s).draft, _, _, rfl, ⟨s, rfl, hr.symm, rfl⟩, (m d s).left, rfl, rfl, rfl⟩

theorem pure {a : α} {r : Except Fault α} (h : (Pure.pure a : Run σ α).Does d l r d') :
    l = [] ∧ r = .ok a ∧ d' = d := by
  obtain ⟨s, rfl, rfl, rfl⟩ := h
  exact ⟨rfl, rfl, rfl⟩

theorem ofFault {e r : Except Fault α} (h : (Run.ofFault e : Run σ α).Does d l r d') :
    l = [] ∧ r = e ∧ d' = d := by
  obtain ⟨s, rfl, rfl, rfl⟩ := h
  exact ⟨rfl, rfl, rfl⟩

theorem fault {f : Fault} {r : Except Fault α} (h : (Run.fault f : Run σ α).Does d l r d') :
    l = [] ∧ r = .error f ∧ d' = d := ofFault h

theorem note {level : Log.Level} {source : Log.Source} {message : String} {r : Except Fault Unit}
    (h : (Run.note level source message : Run σ Unit).Does d l r d') :
    l = [] ∧ r = .ok () ∧ d' = d := by
  obtain ⟨s, rfl, rfl, rfl⟩ := h
  exact ⟨rfl, rfl, rfl⟩

theorem pause {delay : Number.Binary64} {r : Except Fault Unit}
    (h : (Run.emit (.paused delay) : Run σ Unit).Does d l r d') :
    l = [.paused delay] ∧ r = .ok () ∧ d' = d := by
  obtain ⟨s, rfl, rfl, rfl⟩ := h
  exact ⟨rfl, rfl, rfl⟩

/-- A call does itself, and ends with what its answer tells. -/
theorem call {action : Action} {arguments : Members} {identifier : Value} {r : Except Fault Value}
    (h : (IamInventory.call action arguments identifier : Run σ Value).Does d l r d') :
    ∃ a, l = [.asked action arguments a] ∧ r = a.told action identifier ∧ d' = d := by
  obtain ⟨s, rfl, rfl, rfl⟩ := h
  rw [call_eq]
  exact ⟨(s.take action).1, rfl, rfl, rfl⟩

/-- A part without effects that comes first can be left out. -/
theorem bind_ofFault {e : Except Fault α} {f : α → Run σ β} {r : Except Fault β}
    (h : (Run.ofFault e >>= f).Does d l r d') :
    (∃ x, e = .error x ∧ r = .error x ∧ l = [] ∧ d' = d) ∨
      ∃ a, e = .ok a ∧ (f a).Does d l r d' := by
  obtain ⟨s, rfl, rfl, rfl⟩ := h
  cases e with
  | error x => exact Or.inl ⟨x, rfl, rfl, rfl, rfl⟩
  | ok a => exact Or.inr ⟨a, rfl, s, rfl, rfl, rfl⟩

theorem bind_ofFault_ok {e : Except Fault α} {f : α → Run σ β} {b : β}
    (h : (Run.ofFault e >>= f).Does d l (.ok b) d') :
    ∃ a, e = .ok a ∧ (f a).Does d l (.ok b) d' := by
  rcases h.bind_ofFault with ⟨x, -, he, -⟩ | h
  · cases he
  · exact h

/-- A note that comes first can be left out. -/
theorem bind_note {level : Log.Level} {source : Log.Source} {message : String}
    {f : Unit → Run σ β} {r : Except Fault β}
    (h : (Run.note level source message >>= f).Does d l r d') : (f ()).Does d l r d' := by
  obtain ⟨s, rfl, rfl, rfl⟩ := h
  exact ⟨s, rfl, rfl, rfl⟩

/-- What a run does depends on what it is from its draft on only. -/
theorem congr {m m' : Run σ α} {r : Except Fault α} (h : m.Does d l r d') (hm : m d = m' d) :
    m'.Does d l r d' := by
  rw [Does] at h ⊢
  rwa [← hm]

end Does

/-- What has no effects has no call to break at. -/
theorem Breaks.of_silent {m : Run σ α} {d : σ} {Q : Script → σ → Prop}
    (h : ∀ {l r d'}, m.Does d l r d' → l = []) : m.Breaks d Q := by
  intro b s s' _ hin _
  rw [h (does_outcome m d s)] at hin
  exact absurd hin b.not_in_nil

/-- **What a loop does turn by turn**, up to the turn that has a result. -/
inductive Turned (step : β → Run σ (β ⊕ α)) : β → σ → List Effect → Except Fault α → σ → Prop where
  | ended {b : β} {d d' : σ} {l : List Effect} {a : α} :
      (step b).Does d l (.ok (.inr a)) d' → Turned step b d l (.ok a) d'
  | broken {b : β} {d d' : σ} {l : List Effect} {e : Fault} :
      (step b).Does d l (.error e) d' → Turned step b d l (.error e) d'
  | turn {b next : β} {d d₁ d' : σ} {l l' : List Effect} {r : Except Fault α} :
      (step b).Does d l (.ok (.inl next)) d₁ → Turned step next d₁ l' r d' →
      Turned step b d (l ++ l') r d'

/-- **A loop whose turns take answers does what its turns do**, one after another. -/
theorem Does.loop {step : β → Run σ (β ⊕ α)} (hs : ∀ b, (step b).Led) (hp : Productive step)
    {b : β} {d d' : σ} {l : List Effect} {r : Except Fault α}
    (h : (Run.loop step b).Does d l r d') : Turned step b d l r d' := by
  obtain ⟨s, rfl, rfl, rfl⟩ := h
  -- the induction is on how many answers the script has
  induction hn : s.size using Nat.strongRecOn generalizing s b d with
  | ind n ih =>
    cases hr : (step b d s).result with
    | error e =>
      have hl : Run.loop step b d s =
          ⟨.error e, (step b d s).draft, (step b d s).left, (step b d s).trace⟩ := by
        rw [Run.loop]
        simp only [hr]
      rw [hl]
      exact .broken ⟨s, rfl, hr.symm, rfl⟩
    | ok next =>
      cases next with
      | inr a =>
        have hl : Run.loop step b d s =
            ⟨.ok a, (step b d s).draft, (step b d s).left, (step b d s).trace⟩ := by
          rw [Run.loop]
          simp only [hr]
        rw [hl]
        exact .ended ⟨s, rfl, hr.symm, rfl⟩
      | inl next =>
        have hlt := hp b d s next hr
        have hl : Run.loop step b d s =
            { Run.loop step next (step b d s).draft (step b d s).left with
              trace := (step b d s).trace ++
                (Run.loop step next (step b d s).draft (step b d s).left).trace } := by
          rw [Run.loop]
          simp only [hr, hlt, if_true]
        rw [hl, Script.effects_append, ← (hs b).left]
        exact .turn ⟨s, rfl, hr.symm, rfl⟩ (ih _ (hn ▸ hlt) _ rfl)

end IamInventory.Run

import IamInventory.Service.Catalog

/-!
# Scripts — the answers that a service will give

  A script holds, for each action, the answers to its calls in order. A call takes the first of
  them; a call for which there is none is rejected. So no run makes more successful calls than the
  script has answers, which is what ends every loop over calls.

* **`Script.take`** — the answer to a call, and the script that is left.
* **`Script.size`** — the count of answers; an answer that is taken lessens it.
-/

namespace IamInventory

/-- The answers that a service will give, and the listings whose answers do not come in pages. -/
structure Script where
  queues : List (Action × List Answer)
  unpaged : List Action

namespace Script

/-- The rejection of a call that the script has no answer for. -/
def unscripted : Answer :=
  .rejected (.object [("Error", .object
    [("Code", .text "Unscripted"), ("Message", .text "no response scripted")])])

/-- The count of answers in queues. -/
def countAnswers : List (Action × List Answer) → Nat
  | [] => 0
  | q :: qs => q.2.length + countAnswers qs

/-- The count of answers. -/
def size (s : Script) : Nat := countAnswers s.queues

/-- Takes the first answer for an action out of queues; nothing if there is none. -/
def takeFrom (a : Action) :
    List (Action × List Answer) → Option (Answer × List (Action × List Answer))
  | [] => none
  | q :: qs =>
    if q.1 = a then
      match q.2 with
      | [] => none
      | x :: xs => some (x, (a, xs) :: qs)
    else (takeFrom a qs).map fun p => (p.1, q :: p.2)

/-- **The answer to a call**, and the script that is left. -/
def take (s : Script) (a : Action) : Answer × Script :=
  match takeFrom a s.queues with
  | some (x, queues) => (x, { s with queues })
  | none => (unscripted, s)

/-- Whether the answers of an action do not come in pages although they might. -/
def isUnpaged (s : Script) (a : Action) : Bool := s.unpaged.contains a

/-- Whether the answers of an action come in pages. -/
def isPaged (s : Script) (a : Action) : Bool := a.mainItems?.isSome && !s.isUnpaged a

theorem countAnswers_of_takeFrom {a : Action} {queues rest : List (Action × List Answer)}
    {x : Answer} (h : takeFrom a queues = some (x, rest)) :
    countAnswers queues = countAnswers rest + 1 := by
  induction queues generalizing rest with
  | nil => simp [takeFrom] at h
  | cons q qs ih =>
    obtain ⟨b, xs⟩ := q
    by_cases hb : b = a
    · cases xs with
      | nil => simp [takeFrom, hb] at h
      | cons y ys =>
        simp only [takeFrom, hb, if_true, Option.some.injEq, Prod.mk.injEq] at h
        obtain ⟨_, rfl⟩ := h
        simp only [countAnswers, List.length_cons]
        omega
    · simp only [takeFrom, hb, if_false, Option.map_eq_some_iff] at h
      obtain ⟨⟨y, ys⟩, hy, hp⟩ := h
      obtain ⟨rfl, rfl⟩ := Prod.mk.inj hp
      have := ih hy
      simp only [countAnswers] at this ⊢
      omega

/-- A call never adds an answer. -/
theorem size_take_le (s : Script) (a : Action) : (s.take a).2.size ≤ s.size := by
  unfold take
  split
  · next h =>
    have := countAnswers_of_takeFrom h
    simp only [size]
    omega
  · exact Nat.le_refl _

end Script

end IamInventory

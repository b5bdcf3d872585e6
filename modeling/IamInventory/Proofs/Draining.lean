import IamInventory.Proofs.Listings
import IamInventory.Proofs.Turns

/-!
# Draining — what a listing gives, and how often it is asked for

  The answers to the call of a listing are a sequence of pages. As long as each of them tells of a
  next one, with a marker that is not the one before it, the listing goes on; and it closes with the
  first answer that does not. Whoever takes all items gets those of all pages up to that answer.
  Whoever takes only the first ones gets them with as few calls as there are pages to hold them.

* **`Listing.Leads`** — answers that lead from page to page, and **`Listing.Closes`** — the answer
  that a listing closes with.
* **`Listing.request`** — the arguments that a page is asked for with.
* **`Listing.take_of_closes`** — a listing of which as many items are wanted as there are.
* **`Listing.take_of_enough`** — a listing that is left within a page.
-/

namespace IamInventory

namespace Members

theorem set_set (ms : Members) (name : String) (v w : Value) :
    (ms.set name v).set name w = ms.set name w := by
  induction ms with
  | nil => simp [set]
  | cons m ms ih =>
    by_cases h : m.1 = name
    · simp [set, h]
    · simp [set, h, ih]

end Members

namespace Listing

variable {l : Listing} {s : Script} {n : Nat} {v marker : Nat → Value}
  {items : Nat → List Value}

/-! ## Pages -/

/-- Whether a response holds items, and its main items can be counted. -/
structure Holds (l : Listing) (v : Value) (items : List Value) : Prop where
  items : l.itemsOf v = .ok items
  counted : ∃ k, l.action.countMain v = .ok k

/-- The main items can be counted if they are the ones that are listed. -/
theorem holds_of_main {name : String} (hname : l.action.mainItems? = some name)
    (hkey : l.key = .text name) {v : Value} {items : List Value}
    (h : l.itemsOf v = .ok items) : l.Holds v items := by
  refine ⟨h, ?_⟩
  rw [itemsOf, hkey] at h
  cases v with
  | object ms =>
    have hitems : ((Members.get? ms name).getD (.list [])).items = .ok items := h
    have hmain : l.action.mainItems (.object ms) = (Members.get? ms name).getD .null := by
      rw [Action.mainItems, hname]
      rfl
    rw [Action.countMain, hmain]
    cases hget : Members.get? ms name with
    | none => exact ⟨0, rfl⟩
    | some w =>
      rw [hget] at hitems
      have hw : w.items = .ok items := hitems
      cases w with
      | null => exact ⟨0, rfl⟩
      | _ => exact ⟨items.length, by simp only [Option.getD_some, hw, bind, Except.bind]⟩
  | _ => cases h

/-- The marker that came with the page before, if there is one. -/
def previous (marker : Nat → Value) : Nat → Option Value
  | 0 => none
  | i + 1 => some (marker i)

/-- **Answers that lead from page to page**: each of them is a response that holds items and tells
    of a next page, with a marker that is not the one before it. -/
structure Leads (l : Listing) (s : Script) (n : Nat) (v : Nat → Value)
    (items : Nat → List Value) (marker : Nat → Value) : Prop where
  answered : ∀ i < n, s.nth l.action i = .response (v i)
  held : ∀ i < n, l.Holds (v i) (items i)
  marked : ∀ i < n, nextMarker (v i) = .ok (some (marker i))
  fresh : ∀ i < n, (previous marker i).any (marker i).same = false

/-- **The answer that a listing closes with**, with its items and with what the listing comes to: a
    response that tells of no next page, one that tells of it with the marker of the page before,
    or trouble. -/
inductive Closes (l : Listing) (before : Option Value) :
    Answer → List Value → Except Fault Demand → Prop where
  | last {v : Value} {items : List Value} : l.Holds v items → nextMarker v = .ok none →
      Closes l before (.response v) items (.ok .more)
  | repeated {v marker : Value} {items : List Value} : l.Holds v items →
      nextMarker v = .ok (some marker) → before.any marker.same →
      Closes l before (.response v) items (.error (.failure (l.repeated marker)))
  | refused {a : Answer} {t : Trouble} : a.settle l.action = .ok (.trouble t) →
      Closes l before a [] (.error (.failure (t.failure l.action l.identifier)))

/-- **The arguments that a page is asked for with**: the given ones, with the marker of the page
    before placed among them. -/
def request (l : Listing) (marker : Nat → Value) : Nat → Members
  | 0 => l.arguments
  | i + 1 => Paging.place (l.request marker i) Token.markerName (marker i)

/-- The items of the first pages. -/
def front (items : Nat → List Value) (n : Nat) : List Value := (List.range n).flatMap items

/-- The calls for the first pages. -/
def requests (l : Listing) (marker : Nat → Value) (n : Nat) : List (Action × Members) :=
  (List.range n).map fun i => (l.action, l.request marker i)

theorem front_succ (items : Nat → List Value) (n : Nat) :
    front items (n + 1) = front items n ++ items n := by
  rw [front, List.range_succ, List.flatMap_append, List.flatMap_singleton, front]

theorem requests_succ (l : Listing) (marker : Nat → Value) (n : Nat) :
    l.requests marker (n + 1) = l.requests marker n ++ [(l.action, l.request marker n)] := by
  rw [requests, List.range_succ, List.map_append, requests]
  rfl

/-- What a page is asked for with is what is given, but for the marker. -/
theorem get?_request_of_ne (l : Listing) (marker : Nat → Value) {name : String}
    (h : name ≠ Token.markerName) (i : Nat) :
    (l.request marker i).get? name = l.arguments.get? name := by
  induction i with
  | zero => rfl
  | succ i ih =>
    rw [request, Paging.place]
    split
    · rw [Members.get?_erase, if_neg h, ih]
    · rw [Members.get?_set, if_neg h, ih]

/-- The marker that a page is asked for with is that of the page before. -/
theorem get?_request_succ (l : Listing) {marker : Nat → Value} {i : Nat}
    (hnull : (marker i).isNull = false)
    (hnone : (marker i).same (.text Token.noArgument) = false) :
    (l.request marker (i + 1)).get? Token.markerName = some (marker i) := by
  rw [request, Paging.place, hnull, hnone]
  show ((l.request marker i).set Token.markerName (marker i)).get? Token.markerName = _
  rw [Members.get?_set, if_pos rfl]

/-- A marker that there is, and that is not the text for no argument, takes the place of the one
    before it. -/
theorem request_succ {i : Nat} (h : ∀ k ≤ i, (marker k).isNull = false ∧
      (marker k).same (.text Token.noArgument) = false) :
    l.request marker (i + 1) = l.arguments.set Token.markerName (marker i) := by
  have hplace (arguments : Members) {k : Nat} (hk : k ≤ i) :
      Paging.place arguments Token.markerName (marker k) =
        arguments.set Token.markerName (marker k) := by
    rw [Paging.place, (h k hk).1, (h k hk).2]
    rfl
  induction i with
  | zero => exact hplace _ (Nat.le_refl 0)
  | succ i ih =>
    have hbefore := ih (fun k hk => h k (Nat.le_succ_of_le hk))
      (fun arguments k hk => hplace arguments (Nat.le_succ_of_le hk))
    rw [request, hplace _ (Nat.le_refl _), hbefore, Members.set_set]

/-! ## Taking items -/

/-- Keeps an item, and wants more unless there are as many as are to be taken. -/
def keepUpTo (count : Option Nat) (v : Value) : Run (List Value) Demand := do
  Run.redraft (· ++ [v])
  pure (if count = some (← Run.draft).length then .enough else .more)

theorem take_eq {count : Option Nat} (h : count ≠ some 0) :
    l.take count = l.visit (keepUpTo count) := by
  rw [take, if_neg h]
  rfl

theorem keepUpTo_eq (count : Option Nat) (v : Value) (d : List Value) (s : Script) :
    keepUpTo count v d s =
      ⟨.ok (if count = some (d.length + 1) then .enough else .more), d ++ [v], s, []⟩ := by
  simp only [keepUpTo, Run.redraft, Run.draft, bind, Run.bind, pure, Run.pure, List.length_append,
    List.length_singleton, List.append_nil]

/-- All items are kept as long as there are not as many as are to be taken. -/
theorem visitItems_upTo_more {count : Option Nat} {vs d : List Value}
    (h : ∀ j, count = some j → (d ++ vs).length < j) (s : Script) :
    visitItems (keepUpTo count) vs d s = ⟨.ok .more, d ++ vs, s, []⟩ := by
  induction vs generalizing d with
  | nil =>
    rw [List.append_nil]
    rfl
  | cons v vs ih =>
    have hmore : ¬ count = some (d.length + 1) := by
      intro hcount
      have := h _ hcount
      rw [List.length_append, List.length_cons] at this
      omega
    have hkeep := keepUpTo_eq count v d s
    rw [if_neg hmore] at hkeep
    have happend : (d ++ [v]) ++ vs = d ++ v :: vs := (List.append_cons d v vs).symm
    rw [visitItems, Run.bind_behind hkeep]
    show (visitItems (keepUpTo count) vs (d ++ [v]) s).behind [] = _
    rw [ih (by rwa [happend]), happend]
    rfl

/-- Items are kept up to the one with which there are as many as are to be taken. -/
theorem visitItems_upTo_enough {j : Nat} {vs d : List Value} (hd : d.length < j)
    (hj : j ≤ (d ++ vs).length) (s : Script) :
    visitItems (keepUpTo (some j)) vs d s = ⟨.ok .enough, (d ++ vs).take j, s, []⟩ := by
  induction vs generalizing d with
  | nil =>
    rw [List.append_nil] at hj
    exact absurd hd (Nat.not_lt.mpr hj)
  | cons v vs ih =>
    have happend : (d ++ [v]) ++ vs = d ++ v :: vs := (List.append_cons d v vs).symm
    have hkeep := keepUpTo_eq (some j) v d s
    by_cases hlast : j = d.length + 1
    · rw [if_pos (congrArg some hlast)] at hkeep
      have hlength : (d ++ [v]).length = d.length + 1 := by
        rw [List.length_append, List.length_singleton]
      rw [visitItems, Run.bind_behind hkeep, ← happend, hlast, List.take_left' hlength]
      rfl
    · rw [if_neg (fun h => hlast (Option.some.inj h))] at hkeep
      have hlength : (d ++ [v]).length < j := by
        rw [List.length_append, List.length_singleton]
        omega
      rw [visitItems, Run.bind_behind hkeep]
      show (visitItems (keepUpTo (some j)) vs (d ++ [v]) s).behind [] = _
      rw [ih hlength (by rwa [happend]), happend]
      rfl

/-! ## Single pages -/

/-- What comes after the items of a page have been visited. -/
def proceed {σ : Type} (l : Listing) (page : Page) (shown : Shown) :
    Demand → Run σ (Page ⊕ Demand)
  | .enough => pure (.inr .enough)
  | .more => do
    match ← Run.ofFault (l.follow page shown) with
    | none => pure (.inr .more)
    | some next => pure (.inl next)

/-- What is made of the response to the call for a page. -/
def present {σ : Type} (l : Listing) (body : Value → Run σ Demand) (page : Page)
    (response : Value) : Run σ (Page ⊕ Demand) := do
  let shown ← Run.ofFault (l.window.view l.action page.marker page.shown response)
  let items ← Run.ofFault (l.itemsOf shown.response)
  Run.note .debug .listing
    (l.action.name ++ s!" page {page.number} returned {items.length} item(s)")
  let demand ← visitItems body items
  l.proceed page shown demand

theorem visitPage_eq {σ : Type} (l : Listing) (body : Value → Run σ Demand) (page : Page) :
    l.visitPage body page = call l.action page.arguments l.identifier >>= l.present body page := by
  rw [visitPage]
  refine congrArg _ (funext fun response => ?_)
  rw [present]
  refine congrArg _ (funext fun shown => congrArg _ (funext fun items => congrArg _
    (funext fun _ => congrArg _ (funext fun demand => ?_))))
  cases demand <;> rfl

/-- **A page of the whole listing** is its call, and then its items are visited and the next page is
    found. -/
theorem visitPage_of_response {σ : Type} (body : Value → Run σ Demand) (hw : l.window = .whole)
    (page : Page) (d : σ) {i k : Nat} {w : Value} {vs : List Value}
    (ha : s.nth l.action i = .response w) (hitems : l.itemsOf w = .ok vs)
    (hk : l.action.countMain w = .ok k) :
    ∃ record, l.visitPage body page d (s.skip l.action i) =
      ((visitItems body vs >>= l.proceed page ⟨w, page.shown + k, false⟩) d
        (s.skip l.action (i + 1))).behind [.called l.action page.arguments, .noted record] := by
  have hcall : call l.action page.arguments l.identifier d (s.skip l.action i) =
      ⟨.ok w, d, s.skip l.action (i + 1), [.called l.action page.arguments]⟩ := by
    rw [call_skip, ha]
    rfl
  have hview : l.window.view l.action page.marker page.shown w =
      .ok ⟨w, page.shown + k, false⟩ := by
    rw [hw, Window.view_whole, hk]
    rfl
  rw [visitPage_eq, Run.bind_behind hcall, present, hview]
  show ∃ record, (((Run.ofFault (l.itemsOf w) >>= _ : Run σ (Page ⊕ Demand)) d _).behind _) = _
  rw [hitems]
  exact ⟨_, rfl⟩

/-- What comes after a page of the whole listing is told by its marker, and the one before it. -/
theorem follow_whole (hw : l.window = .whole) (page : Page) (w : Value) (c : Int) :
    l.follow page ⟨w, c, false⟩ = (do
      match ← nextMarker w with
      | none => .ok none
      | some m =>
        if page.marker.any m.same then .error (.failure (l.repeated m))
        else .ok (some ⟨page.number + 1, Paging.place page.arguments Token.markerName m, some m,
          c⟩)) := by
  have hfull : l.window.isFull ⟨w, c, false⟩ = false := by
    rw [hw]
    rfl
  rw [follow, if_neg Bool.false_ne_true]
  refine congrArg _ (funext fun marker => ?_)
  cases marker with
  | none => rfl
  | some m => simp only [hfull, Bool.false_eq_true, if_false]

/-- How many main items have been shown with the first pages. -/
def shownBefore (l : Listing) (v : Nat → Value) : Nat → Int
  | 0 => 0
  | i + 1 => l.shownBefore v i + ((l.action.countMain (v i)).toOption.getD 0 : Nat)

/-- A page after some others. -/
def page (l : Listing) (v marker : Nat → Value) (i : Nat) : Page :=
  ⟨i + 1, l.request marker i, previous marker i, l.shownBefore v i⟩

section Pages

variable {count : Option Nat} {i : Nat} {rest : List Value} {r : Except Fault Demand}

/-- **A page that leads to another one** gives its items, if more than these are wanted. -/
theorem visitPage_of_leads (count : Option Nat) (hw : l.window = .whole)
    (hl : l.Leads s n v items marker) (hi : i < n)
    (hcount : ∀ j, count = some j → (front items (i + 1)).length < j) :
    ∃ record, l.visitPage (keepUpTo count) (l.page v marker i) (front items i) (s.skip l.action i) =
      ⟨.ok (.inl (l.page v marker (i + 1))), front items (i + 1), s.skip l.action (i + 1),
        [.called l.action (l.request marker i), .noted record]⟩ := by
  obtain ⟨k, hk⟩ := (hl.held i hi).counted
  obtain ⟨record, hpage⟩ := visitPage_of_response (keepUpTo count) hw (l.page v marker i)
    (front items i) (hl.answered i hi) (hl.held i hi).items hk
  rw [front_succ] at hcount ⊢
  have hshown : l.shownBefore v (i + 1) = l.shownBefore v i + k := by
    rw [shownBefore, hk]
    rfl
  have hfollow : l.follow (l.page v marker i) ⟨v i, l.shownBefore v i + k, false⟩ =
      .ok (some (l.page v marker (i + 1))) := by
    rw [follow_whole hw, hl.marked i hi, ← hshown]
    show (if (previous marker i).any (marker i).same then _ else _) = _
    rw [hl.fresh i hi]
    rfl
  refine ⟨record, ?_⟩
  rw [hpage, Run.bind_behind (visitItems_upTo_more hcount _)]
  show (((Run.ofFault (l.follow (l.page v marker i) ⟨v i, l.shownBefore v i + k, false⟩) >>= _ :
    Run (List Value) (Page ⊕ Demand)) _ _).behind _).behind _ = _
  rw [hfollow]
  rfl

/-- **The page that a listing closes with** gives its items, if more than these are wanted. -/
theorem visitPage_of_closes (hw : l.window = .whole) (v : Nat → Value)
    (hc : l.Closes (previous marker i) (s.nth l.action i) rest r)
    (hcount : ∀ j, count = some j → (front items i ++ rest).length < j) :
    ∃ t : Trace, t.calls = [(l.action, l.request marker i)] ∧
      l.visitPage (keepUpTo count) (l.page v marker i) (front items i) (s.skip l.action i) =
        ⟨r.map .inr, front items i ++ rest, s.skip l.action (i + 1), t⟩ := by
  -- where there is a response, all of its items are kept
  have visited {w : Value} (ha : s.nth l.action i = .response w) (hh : l.Holds w rest)
      {next : Except Fault (Option Page)}
      (hnext : ∀ c, l.follow (l.page v marker i) ⟨w, c, false⟩ = next) :
      ∃ record, l.visitPage (keepUpTo count) (l.page v marker i) (front items i)
          (s.skip l.action i) =
        ⟨next.map fun next => next.elim (.inr .more) .inl, front items i ++ rest,
          s.skip l.action (i + 1), [.called l.action (l.request marker i), .noted record]⟩ := by
    obtain ⟨k, hk⟩ := hh.counted
    obtain ⟨record, hpage⟩ := visitPage_of_response (keepUpTo count) hw
      (l.page v marker i) (front items i) ha hh.items hk
    refine ⟨record, ?_⟩
    rw [hpage, Run.bind_behind (visitItems_upTo_more hcount _)]
    show (((Run.ofFault (l.follow (l.page v marker i) ⟨w, _, false⟩) >>= _ :
      Run (List Value) (Page ⊕ Demand)) _ _).behind _).behind _ = _
    rw [hnext]
    cases next with
    | error e => rfl
    | ok next => cases next <;> rfl
  generalize ha : s.nth l.action i = a at hc
  cases hc with
  | @last w _ hh hm =>
    have hnext (c : Int) : l.follow (l.page v marker i) ⟨w, c, false⟩ = .ok none := by
      rw [follow_whole hw, hm]
      rfl
    obtain ⟨record, h⟩ := visited ha hh hnext
    exact ⟨_, rfl, h⟩
  | @repeated w m _ hh hm hrepeated =>
    have hnext (c : Int) : l.follow (l.page v marker i) ⟨w, c, false⟩ =
        .error (.failure (l.repeated m)) := by
      rw [follow_whole hw, hm]
      show (if (previous marker i).any m.same then _ else _) = _
      rw [hrepeated]
      rfl
    obtain ⟨record, h⟩ := visited ha hh hnext
    exact ⟨_, rfl, h⟩
  | @refused a t ht =>
    have hcall : call l.action (l.request marker i) l.identifier (front items i)
        (s.skip l.action i) =
        ⟨.error (.failure (t.failure l.action l.identifier)), front items i,
          s.skip l.action (i + 1), [.called l.action (l.request marker i)]⟩ := by
      rw [call_skip, ha, Answer.told, ht]
    refine ⟨[.called l.action (l.request marker i)], rfl, ?_⟩
    rw [visitPage_eq, List.append_nil]
    show (call l.action (l.request marker i) l.identifier >>= _ :
      Run (List Value) (Page ⊕ Demand)) _ _ = _
    rw [Run.bind_of_error (congrArg Outcome.result hcall), hcall]
    rfl

/-- **The page within which a listing is left** gives as many of its items as are still wanted. -/
theorem visitPage_of_enough (hw : l.window = .whole) (v marker : Nat → Value) {w : Value} {j : Nat}
    (ha : s.nth l.action i = .response w) (hh : l.Holds w rest)
    (hd : (front items i).length < j) (hj : j ≤ (front items i ++ rest).length) :
    ∃ t : Trace, t.calls = [(l.action, l.request marker i)] ∧
      l.visitPage (keepUpTo (some j)) (l.page v marker i) (front items i) (s.skip l.action i) =
        ⟨.ok (.inr .enough), (front items i ++ rest).take j, s.skip l.action (i + 1), t⟩ := by
  obtain ⟨k, hk⟩ := hh.counted
  obtain ⟨record, hpage⟩ := visitPage_of_response (keepUpTo (some j)) hw
    (l.page v marker i) (front items i) ha hh.items hk
  refine ⟨[.called l.action (l.request marker i), .noted record], rfl, ?_⟩
  rw [hpage, Run.bind_behind (visitItems_upTo_enough hd hj _)]
  rfl

end Pages

/-! ## Whole listings -/

section Whole

variable {count : Option Nat} {rest : List Value} {r : Except Fault Demand}

theorem front_starts (items : Nat → List Value) {i n : Nat} (h : i ≤ n) :
    front items i <+: front items n := by
  induction n with
  | zero => exact Nat.le_zero.mp h ▸ List.prefix_rfl
  | succ n ih =>
    rcases Nat.lt_or_eq_of_le h with hlt | rfl
    · rw [front_succ]
      exact (ih (Nat.le_of_lt_succ hlt)).trans (List.prefix_append _ _)
    · exact List.prefix_rfl

/-- **A listing after the pages that lead to another one** has given all of their items, if more
    than these are wanted. -/
theorem take_of_leads (count : Option Nat) (hw : l.window = .whole) (hp : s.isPaged l.action)
    (hl : l.Leads s n v items marker)
    (hcount : ∀ j, count = some j → (front items n).length < j) :
    ∃ t : Trace, t.calls = l.requests marker n ∧
      l.take count [] s =
        (Run.loop (l.visitPage (keepUpTo count)) (l.page v marker n) (front items n)
          (s.skip l.action n)).behind t := by
  have hzero : count ≠ some 0 := fun h => Nat.not_lt_zero _ (hcount 0 h)
  have hpage (i : Nat) (hi : i < n) := visitPage_of_leads count hw hl hi fun j hj =>
    Nat.lt_of_le_of_lt (front_starts items hi).length_le (hcount j hj)
  refine ⟨(List.range n).flatMap fun i => (l.visitPage (keepUpTo count) (l.page v marker i)
    (front items i) (s.skip l.action i)).trace, ?_, ?_⟩
  · refine Trace.calls_turns fun i hi => ?_
    obtain ⟨record, h⟩ := hpage i hi
    rw [h]
    rfl
  · have hvisit : l.take count [] s =
        Run.loop (l.visitPage (keepUpTo count)) (l.page v marker 0) (front items 0)
          (s.skip l.action 0) := by
      rw [take_eq hzero, visit]
      simp only [Run.isPaged, Run.ofScript, bind, Run.bind, hp, if_true, List.nil_append]
      rfl
    rw [hvisit]
    refine Run.loop_of_turns (s := s.skip l.action) ?_ ?_
    · intro i hi
      obtain ⟨record, h⟩ := hpage i hi
      rw [h]
      exact ⟨rfl, rfl, rfl⟩
    · intro i hi
      exact Script.size_skip_lt (hl.answered i hi ▸ response_ne_unscripted _)

/-- **A listing of which more items are wanted than there are** gives all of them, and comes to what
    it closes with. -/
theorem take_of_closes (hw : l.window = .whole) (hp : s.isPaged l.action)
    (hl : l.Leads s n v items marker)
    (hc : l.Closes (previous marker n) (s.nth l.action n) rest r)
    (hcount : ∀ j, count = some j → (front items n ++ rest).length < j) :
    (l.take count [] s).result = r ∧ (l.take count [] s).draft = front items n ++ rest ∧
      (l.take count [] s).trace.calls = l.requests marker (n + 1) := by
  obtain ⟨t, hcalls, h⟩ := take_of_leads count hw hp hl fun j hj =>
    Nat.lt_of_le_of_lt (List.prefix_append _ _).length_le (hcount j hj)
  obtain ⟨t', hcalls', hlast⟩ := visitPage_of_closes hw v hc hcount
  have hend : Run.loop (l.visitPage (keepUpTo count)) (l.page v marker n) (front items n)
      (s.skip l.action n) = ⟨r, front items n ++ rest, s.skip l.action (n + 1), t'⟩ := by
    cases r with
    | ok demand => rw [Run.loop_of_done (congrArg Outcome.result hlast), hlast]
    | error e => rw [Run.loop_of_error (congrArg Outcome.result hlast), hlast]
  rw [h, hend, requests_succ, ← hcalls, ← hcalls', ← Trace.calls_append]
  exact ⟨rfl, rfl, rfl⟩

/-- **A listing that is left within a page** gives as many items as are wanted, and the next page is
    not asked for. -/
theorem take_of_enough (hw : l.window = .whole) (hp : s.isPaged l.action)
    (hl : l.Leads s n v items marker) {w : Value} (ha : s.nth l.action n = .response w)
    (hh : l.Holds w rest) {j : Nat} (hj : (front items n).length < j)
    (hj' : j ≤ (front items n ++ rest).length) :
    (l.take (some j) [] s).result = .ok .enough ∧
      (l.take (some j) [] s).draft = (front items n ++ rest).take j ∧
      (l.take (some j) [] s).trace.calls = l.requests marker (n + 1) := by
  obtain ⟨t, hcalls, h⟩ := take_of_leads (some j) hw hp hl fun m hm =>
    Option.some.inj hm ▸ hj
  obtain ⟨t', hcalls', hlast⟩ := visitPage_of_enough hw v marker ha hh hj hj'
  have hend : Run.loop (l.visitPage (keepUpTo (some j))) (l.page v marker n) (front items n)
      (s.skip l.action n) =
      ⟨.ok .enough, (front items n ++ rest).take j, s.skip l.action (n + 1), t'⟩ := by
    rw [Run.loop_of_done (congrArg Outcome.result hlast), hlast]
  rw [h, hend, requests_succ, ← hcalls, ← hcalls', ← Trace.calls_append]
  exact ⟨rfl, rfl, rfl⟩

theorem Leads.mono (hl : l.Leads s n v items marker) {m : Nat} (h : m ≤ n) :
    l.Leads s m v items marker where
  answered := fun i hi => hl.answered i (Nat.lt_of_lt_of_le hi h)
  held := fun i hi => hl.held i (Nat.lt_of_lt_of_le hi h)
  marked := fun i hi => hl.marked i (Nat.lt_of_lt_of_le hi h)
  fresh := fun i hi => hl.fresh i (Nat.lt_of_lt_of_le hi h)

/-- Answers that lead from page to page come from the script. -/
theorem Leads.add_size_le (hl : l.Leads s n v items marker) :
    (s.skip l.action n).size + n ≤ s.size := by
  induction n with
  | zero => exact Nat.le_refl _
  | succ n ih =>
    have hbefore := ih (hl.mono (Nat.le_succ n))
    have hlt : (s.skip l.action (n + 1)).size < (s.skip l.action n).size :=
      Script.size_skip_lt (hl.answered n (Nat.lt_succ_self n) ▸ response_ne_unscripted _)
    omega

theorem Leads.succ (hl : l.Leads s n v items marker)
    (ha : s.nth l.action n = .response (v n)) (hh : l.Holds (v n) (items n))
    (hm : nextMarker (v n) = .ok (some (marker n)))
    (hfresh : (previous marker n).any (marker n).same = false) :
    l.Leads s (n + 1) v items marker := by
  have split {P : Nat → Prop} (hP : ∀ i < n, P i) (hn : P n) : ∀ i < n + 1, P i := by
    intro i hi
    rcases Nat.lt_succ_iff_lt_or_eq.mp hi with hlt | rfl
    · exact hP i hlt
    · exact hn
  exact ⟨split hl.answered ha, split hl.held hh, split hl.marked hm, split hl.fresh hfresh⟩

/-- Whether an answer is trouble, or a response that holds items and tells whether there is a next
    page. -/
def Shows (l : Listing) (a : Answer) : Prop :=
  (∃ t, a.settle l.action = .ok (.trouble t)) ∨
    ∃ w vs marker, a = .response w ∧ l.Holds w vs ∧ nextMarker w = .ok marker

/-- The response that an answer is. -/
def responseOf : Answer → Value
  | .response w => w
  | _ => .null

/-- The items of an answer. -/
def itemsShown (l : Listing) (a : Answer) : List Value :=
  (l.itemsOf (responseOf a)).toOption.getD []

/-- The marker of the next page that an answer tells of. -/
def markerShown (a : Answer) : Value := ((nextMarker (responseOf a)).toOption.bind id).getD .null

/-- A listing closes with the items of its answer. -/
theorem Closes.items_eq {before : Option Value} {a : Answer} (hc : l.Closes before a rest r) :
    rest = l.itemsShown a := by
  cases hc with
  | last hh hm =>
    rw [itemsShown, responseOf, hh.items]
    rfl
  | repeated hh hm hsame =>
    rw [itemsShown, responseOf, hh.items]
    rfl
  | refused ht =>
    cases a with
    | response w => cases ht
    | _ =>
      show [] = (l.itemsOf .null).toOption.getD []
      rw [itemsOf]
      cases l.key <;> rfl

/-- Answers that show something lead on, up to any number of them or to one that the listing closes
    with. -/
theorem leads_or_closes (hs : ∀ i, l.Shows (s.nth l.action i)) (n : Nat) :
    l.Leads s n (fun i => responseOf (s.nth l.action i)) (fun i => l.itemsShown (s.nth l.action i))
        (fun i => markerShown (s.nth l.action i)) ∨
      ∃ m r, l.Leads s m (fun i => responseOf (s.nth l.action i))
          (fun i => l.itemsShown (s.nth l.action i)) (fun i => markerShown (s.nth l.action i)) ∧
        l.Closes (previous (fun i => markerShown (s.nth l.action i)) m) (s.nth l.action m)
          (l.itemsShown (s.nth l.action m)) r := by
  induction n with
  | zero => exact Or.inl ⟨nofun, nofun, nofun, nofun⟩
  | succ n ih =>
    rcases ih with hl | hclosed
    · have closed {vs : List Value} {r : Except Fault Demand}
          (hc : l.Closes (previous (fun i => markerShown (s.nth l.action i)) n) (s.nth l.action n)
            vs r) := hc.items_eq ▸ hc
      rcases hs n with ⟨t, ht⟩ | ⟨w, vs, next, ha, hh, hm⟩
      · exact Or.inr ⟨n, _, hl, closed (.refused ht)⟩
      have hw : responseOf (s.nth l.action n) = w := by rw [ha, responseOf]
      cases next with
      | none =>
        have hlast : l.Closes (previous (fun i => markerShown (s.nth l.action i)) n)
          (.response w) vs (.ok .more) := .last hh hm
        rw [← ha] at hlast
        exact Or.inr ⟨n, _, hl, closed hlast⟩
      | some m =>
        have hmarker : markerShown (s.nth l.action n) = m := by
          rw [markerShown, hw, hm]
          rfl
        have hitems : l.itemsShown (s.nth l.action n) = vs := by
          rw [itemsShown, hw, hh.items]
          rfl
        by_cases hsame : (previous (fun i => markerShown (s.nth l.action i)) n).any m.same = true
        · have hrepeated := Closes.repeated hh hm hsame
          rw [← ha] at hrepeated
          exact Or.inr ⟨n, _, hl, closed hrepeated⟩
        · refine Or.inl (hl.succ ?_ ?_ ?_ ?_)
          · rw [hw]
            exact ha
          · rw [hw, hitems]
            exact hh
          · rw [hw, hmarker]
            exact hm
          · rw [hmarker]
            exact Bool.eq_false_iff.mpr hsame
    · exact Or.inr hclosed

/-- The marker of a next page is not null. -/
theorem isNull_of_nextMarker {w m : Value} (h : nextMarker w = .ok (some m)) :
    m.isNull = false := by
  cases w with
  | object ms =>
    simp only [nextMarker, Value.memberOr, Value.members, bind, Except.bind] at h
    split at h
    · next htruthy =>
      cases h
      rw [Bool.and_eq_true] at htruthy
      generalize (Members.get? ms "Marker").getD .null = m at htruthy
      cases m with
      | null => cases htruthy.2
      | _ => rfl
    · cases h
  | _ => cases h

/-- **Every listing closes**, since a script has only so many answers. -/
theorem exists_closes (hs : ∀ i, l.Shows (s.nth l.action i)) :
    ∃ n v items marker r, l.Leads s n v items marker ∧
      l.Closes (previous marker n) (s.nth l.action n) (items n) r := by
  rcases leads_or_closes hs (s.size + 1) with hl | ⟨m, r, hl, hc⟩
  · have := hl.add_size_le
    omega
  · exact ⟨m, _, _, _, r, hl, hc⟩

/-! ## The law of listings -/

/-- **The law of listings.** Let answers lead from page to page up to the one that the listing
    closes with, as they do in every script whose answers show something. Whoever wants more items
    than there are gets those of all pages, with one call for each page, and then what the listing
    closes with. Whoever wants fewer gets the first ones, with calls for as many pages as hold them
    and no more; and nothing at all is called for no items. The first call has the given arguments,
    and each later one the same ones with the marker of the page before, unless that is the text
    that the client takes for no marker. -/
theorem listing_law (hw : l.window = .whole) (hp : s.isPaged l.action) :
    (∀ n v items marker r, l.Leads s n v items marker →
      l.Closes (previous marker n) (s.nth l.action n) (items n) r →
      (∀ count : Option Nat, (∀ j, count = some j → (front items (n + 1)).length < j) →
        (l.take count [] s).result = r ∧ (l.take count [] s).draft = front items (n + 1) ∧
          (l.take count [] s).trace.calls = l.requests marker (n + 1)) ∧
      (∀ m ≤ n, ∀ j, (front items m).length < j → j ≤ (front items (m + 1)).length →
        (l.take (some j) [] s).result = .ok .enough ∧
          (l.take (some j) [] s).draft = (front items (n + 1)).take j ∧
          (l.take (some j) [] s).trace.calls = l.requests marker (m + 1)) ∧
      l.request marker 0 = l.arguments ∧
      ∀ i < n,
        (∀ name ≠ "Marker", (l.request marker (i + 1)).get? name = l.arguments.get? name) ∧
        (marker i ≠ .text "None" → (l.request marker (i + 1)).get? "Marker" = some (marker i)) ∧
        ((∀ k ≤ i, marker k ≠ .text "None") →
          l.request marker (i + 1) = l.arguments.set "Marker" (marker i))) ∧
    ((l.take (some 0) [] s).result = .ok .enough ∧ (l.take (some 0) [] s).draft = [] ∧
      (l.take (some 0) [] s).trace.calls = []) ∧
    ((∀ i, l.Shows (s.nth l.action i)) →
      ∃ n v items marker r, l.Leads s n v items marker ∧
        l.Closes (previous marker n) (s.nth l.action n) (items n) r) := by
  refine ⟨?_, ⟨rfl, rfl, rfl⟩, exists_closes⟩
  intro n v items marker r hl hc
  refine ⟨?_, ?_, rfl, ?_⟩
  · intro count hcount
    rw [front_succ] at hcount ⊢
    exact take_of_closes hw hp hl hc hcount
  · intro m hm j hj hj'
    have hfirst : (front items (n + 1)).take j = (front items (m + 1)).take j := by
      obtain ⟨more, hmore⟩ := front_starts items (Nat.succ_le_succ hm)
      rw [← hmore, List.take_append_of_le_length hj']
    rw [hfirst]
    rw [front_succ] at hj' ⊢
    -- the page that the items end in has been answered, whether or not it is the last one
    rcases Nat.lt_or_eq_of_le hm with hlt | rfl
    · exact take_of_enough hw hp (hl.mono hm) (hl.answered m hlt) (hl.held m hlt) hj hj'
    · generalize ha : s.nth l.action m = a at hc
      generalize items m = rest at hc hj'
      cases hc with
      | last hh _ => exact take_of_enough hw hp hl ha hh hj hj'
      | repeated hh _ _ => exact take_of_enough hw hp hl ha hh hj hj'
      | refused _ =>
        rw [List.append_nil] at hj'
        exact absurd hj (Nat.not_lt.mpr hj')
  · intro i hi
    have hnull (k : Nat) (hk : k ≤ i) : (marker k).isNull = false :=
      isNull_of_nextMarker (hl.marked k (Nat.lt_of_le_of_lt hk hi))
    have hsame (k : Nat) (h : marker k ≠ .text "None") :
        (marker k).same (.text Token.noArgument) = false :=
      Bool.eq_false_iff.mpr fun hsame => h (LastAccessed.eq_text_of_same hsame)
    refine ⟨?_, ?_, ?_⟩
    · intro name hname
      exact l.get?_request_of_ne marker hname (i + 1)
    · intro hnone
      exact l.get?_request_succ (hnull i (Nat.le_refl i)) (hsame i hnone)
    · intro hnone
      exact request_succ fun k hk => ⟨hnull k hk, hsame k (hnone k hk)⟩

end Whole

/-- A listing of users. -/
def sampleListing : Listing := .ofAction "list_users" "Users" [("PathPrefix", .text "/")] .null

/-- Two pages of users, of which the first one tells of the second one. -/
def samplePages : Script :=
  ⟨[(⟨"list_users"⟩,
    [.response (.object [("Users", .list [.text "a", .text "b"]), ("IsTruncated", .bool true),
      ("Marker", .text "m")]),
     .response (.object [("Users", .list [.text "c"])])])], []⟩

/-- The whole listing of the sample takes two calls, and its first two items take one. -/
theorem listing_law_sample :
    sampleListing.window = .whole ∧ samplePages.isPaged sampleListing.action ∧
      (sampleListing.take none [] samplePages).draft = [.text "a", .text "b", .text "c"] ∧
      (sampleListing.take none [] samplePages).trace.calls =
        [(⟨"list_users"⟩, [("PathPrefix", .text "/")]),
          (⟨"list_users"⟩, [("PathPrefix", .text "/"), ("Marker", .text "m")])] ∧
      (sampleListing.take (some 2) [] samplePages).trace.calls =
        [(⟨"list_users"⟩, [("PathPrefix", .text "/")])] := by
  have hpaged : samplePages.isPaged sampleListing.action = true := by decide +kernel
  have hname : sampleListing.action.mainItems? = some "Users" := by decide +kernel
  have holds {w : Value} {vs : List Value} (h : sampleListing.itemsOf w = .ok vs) :
      sampleListing.Holds w vs := holds_of_main hname rfl h
  let v : Nat → Value := fun i => responseOf (samplePages.nth ⟨"list_users"⟩ i)
  let items : Nat → List Value := fun i =>
    sampleListing.itemsShown (samplePages.nth ⟨"list_users"⟩ i)
  let marker : Nat → Value := fun _ => .text "m"
  have hl : sampleListing.Leads samplePages 1 v items marker := by
    refine ⟨?_, ?_, ?_, ?_⟩
    all_goals
      intro i hi
      obtain rfl := Nat.lt_one_iff.mp hi
    · rfl
    · exact holds rfl
    · rfl
    · rfl
  have hc : sampleListing.Closes (previous marker 1) (samplePages.nth sampleListing.action 1)
      (items 1) (.ok .more) := .last (holds rfl) rfl
  obtain ⟨hall, hsome, -⟩ := (listing_law rfl hpaged).1 1 v items marker (.ok .more) hl hc
  obtain ⟨-, hdraft, hcalls⟩ := hall none nofun
  obtain ⟨-, -, hfirst⟩ := hsome 0 (Nat.zero_le 1) 2 (by decide) (by decide)
  exact ⟨rfl, hpaged, hdraft, hcalls, hfirst⟩

end Listing

end IamInventory

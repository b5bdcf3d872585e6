import IamInventory.Proofs.Jobs

/-!
# Contracts — what a run comes to where the answers keep a promise

  A script may promise something of its answers, each by the action that it is the answer to. A run
  that is given such a script keeps an *invariant* of its draft, whatever becomes of it, and ends
  with a result or a fault of which something is known. Such contracts compose: the rules here are
  one for each way in which runs are made of others, and a contract of a report is put together
  from them along its own text.

* **`Script.Answers`** — a script that keeps a promise; `Script.answers_take` is its step lemma.
* **`Run.Yields`** — the contract of a run.
* **`Run.Yields.loop`** — the rule of loops, by the answers that are left.
* **`Run.Yields.visit`**, **`Run.Yields.gather`** — the rules of listings.
-/

namespace IamInventory

variable {σ τ α β : Type}

/-! ## Results and faults -/

/-- Whether something ends with a result as asked for, or else with such a fault. -/
def Ends (E : Fault → Prop) (Q : α → Prop) : Except Fault α → Prop
  | .ok a => Q a
  | .error e => E e

namespace Ends

variable {E : Fault → Prop} {Q : α → Prop} {R : β → Prop} {e : Except Fault α}

theorem bind {f : α → Except Fault β} (he : Ends E Q e) (hf : ∀ a, Q a → Ends E R (f a)) :
    Ends E R (e >>= f) := by
  cases e with
  | error x => exact he
  | ok a => exact hf a he

theorem mono {Q' : α → Prop} (he : Ends E Q e) (h : ∀ a, Q a → Q' a) : Ends E Q' e := by
  cases e with
  | error x => exact he
  | ok a => exact h a he

theorem weaken {E' : Fault → Prop} (he : Ends E Q e) (h : ∀ x, E x → E' x) : Ends E' Q e := by
  cases e with
  | error x => exact h x he
  | ok a => exact he

/-- What has ended keeps in mind how it has come about. -/
theorem self (he : Ends E Q e) : Ends E (fun a => e = .ok a ∧ Q a) e := by
  cases e with
  | error x => exact he
  | ok a => exact ⟨rfl, he⟩

/-- What ends with no fault at all has a result. -/
theorem exists_eq_ok (he : Ends (fun _ => False) Q e) : ∃ a, e = .ok a ∧ Q a := by
  cases e with
  | error x => exact he.elim
  | ok a => exact ⟨a, rfl, he⟩

end Ends

/-! ## Promises -/

/-- What is promised of answers, by the action that they are the answers to. -/
abbrev Promise := Action → Answer → Prop

namespace Script

/-- **Whether all answers of a script are as promised.** -/
def Answers (s : Script) (P : Promise) : Prop := ∀ q ∈ s.queues, ∀ a ∈ q.2, P q.1 a

variable {P : Promise} {action : Action}

theorem answers_takeFrom {queues rest : List (Action × List Answer)} {a : Answer}
    (h : takeFrom action queues = some (a, rest)) (hP : ∀ q ∈ queues, ∀ b ∈ q.2, P q.1 b) :
    P action a ∧ ∀ q ∈ rest, ∀ b ∈ q.2, P q.1 b := by
  induction queues generalizing rest with
  | nil => cases h
  | cons q qs ih =>
    obtain ⟨hq, hqs⟩ := List.forall_mem_cons.mp hP
    obtain ⟨b, answers⟩ := q
    by_cases hb : b = action
    · subst hb
      cases answers with
      | nil => simp [takeFrom] at h
      | cons x xs =>
        obtain ⟨hx, hxs⟩ := List.forall_mem_cons.mp hq
        simp only [takeFrom, if_true, Option.some.injEq, Prod.mk.injEq] at h
        obtain ⟨rfl, rfl⟩ := h
        exact ⟨hx, List.forall_mem_cons.mpr ⟨hxs, hqs⟩⟩
    · simp only [takeFrom, hb, if_false, Option.map_eq_some_iff] at h
      obtain ⟨⟨y, ys⟩, hy, hp⟩ := h
      obtain ⟨rfl, rfl⟩ := Prod.mk.inj hp
      obtain ⟨ha, hrest⟩ := ih hy hqs
      exact ⟨ha, List.forall_mem_cons.mpr ⟨hq, hrest⟩⟩

/-- **A call of a script that keeps a promise** is answered as promised, if the rejection of a call
    that has no answer is; and what is left keeps the promise. -/
theorem answers_take {s : Script} (hu : P action unscripted) (hs : s.Answers P) :
    P action (s.take action).1 ∧ (s.take action).2.Answers P := by
  rw [take]
  split
  · next a queues h => exact answers_takeFrom h hs
  · exact ⟨hu, hs⟩

/-- **The answers among the effects** of a trace that starts from a script that keeps a promise are
    as promised. -/
theorem answers_effects {s : Script} (hu : ∀ action, P action unscripted) (hs : s.Answers P)
    {t : Trace} {arguments : Members} {a : Answer}
    (h : .asked action arguments a ∈ s.effects t) : P action a := by
  induction t generalizing s with
  | nil => cases h
  | cons e t ih =>
    cases e with
    | called asked given =>
      obtain ⟨ha, hleft⟩ := answers_take (hu asked) hs
      rcases List.mem_cons.mp h with heq | hmem
      · cases heq
        exact ha
      · exact ih hleft hmem
    | paused delay =>
      rcases List.mem_cons.mp h with heq | hmem
      · cases heq
      · exact ih hs hmem
    | _ => exact ih hs h

end Script

/-! ## Contracts -/

namespace Run

theorem ofFault_ok (a : α) : (Run.ofFault (.ok a) : Run σ α) = Pure.pure a := rfl

/-- Two parts that may be a fault are one such part and then the other. -/
theorem ofFault_bind (e : Except Fault α) (f : α → Except Fault β) :
    (Run.ofFault (e >>= f) : Run σ β) = Run.ofFault e >>= fun a => Run.ofFault (f a) := by
  funext d s
  cases e <;> rfl

/-- **What a run yields** on a script that keeps a promise, from a draft with an invariant: it ends
    as asked for, and both the invariant and the promise are kept. -/
def Yields (P : Promise) (E : Fault → Prop) (I : σ → Prop) (m : Run σ α) (Q : α → Prop) : Prop :=
  ∀ d s, I d → s.Answers P →
    Ends E Q (m d s).result ∧ I (m d s).draft ∧ (m d s).left.Answers P

namespace Yields

variable {P : Promise} {E : Fault → Prop} {I : σ → Prop} {Q : α → Prop} {R : β → Prop}

theorem bind {m : Run σ α} {f : α → Run σ β} (hm : m.Yields P E I Q)
    (hf : ∀ a, Q a → (f a).Yields P E I R) : (m >>= f).Yields P E I R := by
  intro d s hd hs
  obtain ⟨hr, hd₁, hs₁⟩ := hm d s hd hs
  cases h : (m d s).result with
  | error e =>
    rw [h] at hr
    rw [bind_of_error h]
    exact ⟨hr, hd₁, hs₁⟩
  | ok a =>
    rw [h] at hr
    rw [bind_of_ok h]
    exact hf a hr _ _ hd₁ hs₁

theorem mono {Q' : α → Prop} {m : Run σ α} (hm : m.Yields P E I Q) (h : ∀ a, Q a → Q' a) :
    m.Yields P E I Q' := by
  intro d s hd hs
  obtain ⟨hr, hd₁, hs₁⟩ := hm d s hd hs
  exact ⟨hr.mono h, hd₁, hs₁⟩

/-! ## Parts without calls -/

theorem pure {a : α} (h : Q a) : (Pure.pure a : Run σ α).Yields P E I Q :=
  fun _ _ hd hs => ⟨h, hd, hs⟩

theorem ofFault {e : Except Fault α} (h : Ends E Q e) : (Run.ofFault e : Run σ α).Yields P E I Q :=
  fun _ _ hd hs => ⟨h, hd, hs⟩

theorem fail {f : Failure} (h : E (.failure f)) : (Run.fail f : Run σ α).Yields P E I Q :=
  fun _ _ hd hs => ⟨h, hd, hs⟩

/-- The draft that is looked at has the invariant. -/
theorem draft : (Run.draft : Run σ σ).Yields P E I I := fun _ _ hd hs => ⟨hd, hd, hs⟩

theorem redraft {f : σ → σ} (h : ∀ d, I d → I (f d)) :
    (Run.redraft f).Yields P E I fun _ => True :=
  fun d _ hd hs => ⟨trivial, h d hd, hs⟩

theorem emit (e : Event) : (Run.emit e : Run σ Unit).Yields P E I fun _ => True :=
  fun _ _ hd hs => ⟨trivial, hd, hs⟩

theorem note (level : Log.Level) (source : Log.Source) (message : String) :
    (Run.note level source message : Run σ Unit).Yields P E I fun _ => True := emit _

/-! ## Calls -/

/-- **The rule of calls**: what is promised of the answer is all that is known of it. -/
theorem call {action : Action} {identifier : Value} {Q : Value → Prop}
    (hu : P action Script.unscripted) (h : ∀ a, P action a → Ends E Q (a.told action identifier))
    (arguments : Members) :
    (IamInventory.call action arguments identifier : Run σ Value).Yields P E I Q := by
  intro d s hd hs
  obtain ⟨ha, hleft⟩ := Script.answers_take hu hs
  rw [call_eq]
  exact ⟨h _ ha, hd, hleft⟩

/-! ## Drafts of their own -/

theorem attempt {E' : Fault → Prop} {J : τ → Prop} {start : τ} {m : Run τ α} (hstart : J start)
    (hm : m.Yields P E' J Q) :
    (Run.attempt start m : Run σ (Except Fault α × τ)).Yields P E I
      fun p => Ends E' Q p.1 ∧ J p.2 := by
  intro d s hd hs
  obtain ⟨hr, hdraft, hleft⟩ := hm start s hstart hs
  exact ⟨⟨hr, hdraft⟩, hd, hleft⟩

theorem within {J : τ → Prop} {get : σ → τ} {put : τ → σ → σ} {m : Run τ α}
    (hget : ∀ d, I d → J (get d)) (hput : ∀ d t, I d → J t → I (put t d))
    (hm : m.Yields P E J Q) : (Run.within get put m).Yields P E I Q := by
  intro d s hd hs
  obtain ⟨hr, hdraft, hleft⟩ := hm (get d) s (hget d hd) hs
  exact ⟨hr, hput d _ hd hdraft, hleft⟩

/-! ## Loops -/

/-- **The rule of loops.** What is known of the turns, `B`, is known before each of them. The loop
    ends since every turn takes an answer. -/
theorem loop {step : β → Run σ (β ⊕ α)} {B : β → Prop} (hp : Productive step)
    (h : ∀ b, B b → (step b).Yields P E I (Sum.elim B Q)) {b : β} (hb : B b) :
    (Run.loop step b).Yields P E I Q := by
  intro d s hd hs
  induction hn : s.size using Nat.strongRecOn generalizing b d s with
  | ind n ih =>
    obtain ⟨hr, hd₁, hs₁⟩ := h b hb d s hd hs
    rw [Run.loop]
    cases hstep : (step b d s).result with
    | error e =>
      rw [hstep] at hr
      exact ⟨hr, hd₁, hs₁⟩
    | ok next =>
      rw [hstep] at hr
      cases next with
      | inr a => exact ⟨hr, hd₁, hs₁⟩
      | inl next =>
        have hlt : (step b d s).left.size < s.size := hp b d s next hstep
        simp only [hlt, if_true]
        exact ih _ (hn ▸ hlt) hr _ _ hd₁ hs₁ rfl

theorem each {items : List α} {body : α → Run σ Unit} {B : α → Prop} (hitems : ∀ a ∈ items, B a)
    (h : ∀ a, B a → (body a).Yields P E I fun _ => True) :
    (Run.each items body).Yields P E I fun _ => True := by
  induction items with
  | nil => exact .pure trivial
  | cons a items ih =>
    obtain ⟨ha, hitems⟩ := List.forall_mem_cons.mp hitems
    exact (h a ha).bind fun _ _ => ih hitems

theorem mapM {items : List α} {f : α → Run σ β}
    (h : ∀ a ∈ items, (f a).Yields P E I R) :
    (items.mapM f).Yields P E I fun bs => ∀ b ∈ bs, R b := by
  induction items with
  | nil => exact .pure (List.forall_mem_nil _)
  | cons a items ih =>
    rw [List.mapM_cons]
    refine (h a List.mem_cons_self).bind fun b hb => ?_
    refine (ih fun a ha => h a (List.mem_cons_of_mem _ ha)).bind fun bs hbs => ?_
    exact .pure (List.forall_mem_cons.mpr ⟨hb, hbs⟩)

end Yields

end Run

/-! ## Items that are promised -/

/-- Whether what stands under a name, if it is there, is a list of objects. -/
def Members.ListsObjects (ms : Members) (key : String) : Prop :=
  ∀ v, ms.get? key = some v → ∃ items : List Members, v = .list (items.map .object)

/-- Whether an object stands in the list under a name of a response that may come. -/
def Promise.Item (P : Promise) (action : Action) (key : String) (item : Members) : Prop :=
  ∃ (ms : Members) (items : List Members), P action (.response (.object ms)) ∧
    ms.get? key = some (.list (items.map .object)) ∧ item ∈ items

/-- What a response that may come holds under a name, item by item. -/
theorem Members.ListsObjects.items {ms : Members} {key : String} (h : ms.ListsObjects key)
    {P : Promise} {action : Action} (hP : P action (.response (.object ms))) :
    ∃ items : List Members, (ms.get? key).getD (.list []) = .list (items.map .object) ∧
      ∀ item ∈ items, P.Item action key item := by
  cases hkey : ms.get? key with
  | none => exact ⟨[], rfl, List.forall_mem_nil _⟩
  | some v =>
    obtain ⟨items, rfl⟩ := h v hkey
    exact ⟨items, rfl, fun item hitem => ⟨ms, items, hP, hkey, hitem⟩⟩

namespace Listing

/-- **A listing that is served**: all of it is wanted, its items are the main ones of its action,
    and a call for a page is trouble or has a response with a list of objects. -/
structure Served (l : Listing) (P : Promise) (E : Fault → Prop) (key : String) : Prop where
  whole : l.window = .whole
  named : l.key = .text key
  main : l.action.mainItems? = some key
  unscripted : P l.action Script.unscripted
  trouble : ∀ t : Trouble, E (.failure (t.failure l.action l.identifier))
  told : ∀ a, P l.action a → Ends E (fun v => ∃ ms : Members, v = .object ms ∧ ms.ListsObjects key)
    (a.told l.action l.identifier)

namespace Served

variable {l : Listing} {P : Promise} {E : Fault → Prop} {key : String} {ms : Members}

/-- What a call for a page yields: a response that is promised. -/
theorem call (h : l.Served P E key) {I : σ → Prop} (arguments : Members) :
    (IamInventory.call l.action arguments l.identifier : Run σ Value).Yields P E I fun v =>
      ∃ ms : Members, v = .object ms ∧ ms.ListsObjects key ∧ P l.action (.response v) := by
  refine .call h.unscripted (fun a ha => (h.told a ha).self.mono ?_) arguments
  rintro v ⟨hv, ms, rfl, hms⟩
  obtain rfl := Answer.eq_response_of_told hv
  exact ⟨ms, rfl, hms, ha⟩

theorem itemsOf (h : l.Served P E key) (hms : ms.ListsObjects key)
    (hP : P l.action (.response (.object ms))) :
    Ends E (fun vs => ∃ items : List Members, vs = items.map .object ∧
      ∀ item ∈ items, P.Item l.action key item) (l.itemsOf (.object ms)) := by
  obtain ⟨items, hitems, hpromised⟩ := hms.items hP
  have hheld : l.itemsOf (.object ms) = .ok (items.map .object) := by
    show (do (← Value.memberUnder (.object ms) l.key (.list [])).items) = _
    rw [h.named]
    show ((ms.get? key).getD (.list [])).items = _
    rw [hitems]
    rfl
  rw [hheld]
  exact ⟨items, rfl, hpromised⟩

/-- A response is shown as it comes. -/
theorem view (h : l.Served P E key) (hms : ms.ListsObjects key) (marker : Option Value)
    (before : Int) : Ends E (fun shown => ∃ count, shown = ⟨.object ms, count, false⟩)
      (l.window.view l.action marker before (.object ms)) := by
  have hcount : ∃ n, l.action.countMain (.object ms) = .ok n := by
    simp only [Action.countMain, Action.mainItems, h.main, Option.getD_some, Members.get]
    cases hkey : ms.get? key with
    | none => exact ⟨0, rfl⟩
    | some v =>
      obtain ⟨items, rfl⟩ := hms v hkey
      exact ⟨_, rfl⟩
  obtain ⟨n, hn⟩ := hcount
  rw [h.whole, Window.view_whole, hn]
  exact ⟨before + n, rfl⟩

/-- After a page there is another one, or none, or its marker has come before. -/
theorem follow (h : l.Served P E key) (page : Page) (count : Int) :
    Ends E (fun _ => True) (l.follow page ⟨.object ms, count, false⟩) := by
  simp only [Listing.follow, Bool.false_eq_true, if_false]
  refine Ends.bind (Q := fun _ => True) trivial fun marker _ => ?_
  cases marker with
  | none => exact trivial
  | some marker =>
    have hfull : l.window.isFull ⟨.object ms, count, false⟩ = false := by
      rw [h.whole]
      rfl
    simp only [hfull, Bool.false_eq_true, if_false]
    split
    · exact h.trouble _
    · exact trivial

end Served

end Listing

namespace Run.Yields

variable {P : Promise} {E : Fault → Prop} {I : σ → Prop}

theorem visitItems {body : Value → Run σ Demand} {items : List Members}
    (h : ∀ item ∈ items, (body (.object item)).Yields P E I fun _ => True) :
    (Listing.visitItems body (items.map .object)).Yields P E I fun _ => True := by
  induction items with
  | nil => exact .pure trivial
  | cons item items ih =>
    obtain ⟨hitem, hitems⟩ := List.forall_mem_cons.mp h
    refine hitem.bind fun demand _ => ?_
    cases demand with
    | more => exact ih hitems
    | enough => exact .pure trivial

variable {l : Listing} {key : String}

theorem visitPage {body : Value → Run σ Demand} (hl : l.Served P E key)
    (h : ∀ item, P.Item l.action key item → (body (.object item)).Yields P E I fun _ => True)
    (page : Page) :
    (l.visitPage body page).Yields P E I (Sum.elim (fun _ => True) fun _ => True) := by
  refine (hl.call page.arguments).bind ?_
  rintro v ⟨ms, rfl, hms, hP⟩
  refine (ofFault (hl.view hms page.marker page.shown)).bind ?_
  rintro shown ⟨count, rfl⟩
  refine (ofFault (hl.itemsOf hms hP)).bind ?_
  rintro vs ⟨items, rfl, hitems⟩
  refine (note _ _ _).bind fun _ _ => ?_
  refine (visitItems fun item hitem => h item (hitems item hitem)).bind fun demand _ => ?_
  cases demand with
  | enough => exact .pure trivial
  | more =>
    refine (ofFault (hl.follow page count)).bind fun next _ => ?_
    cases next with
    | none => exact .pure trivial
    | some next => exact .pure trivial

/-- **The rule of listings that are visited.** -/
theorem visit {body : Value → Run σ Demand} {S : σ → σ → Prop} [IsPreorder σ S]
    (hsteady : ∀ v, (body v).Steady S) (hl : l.Served P E key)
    (h : ∀ item, P.Item l.action key item → (body (.object item)).Yields P E I fun _ => True) :
    (l.visit body).Yields P E I fun _ => True := by
  have hpaged : (Run.isPaged l.action : Run σ Bool).Yields P E I fun _ => True :=
    fun _ _ hd hs => ⟨trivial, hd, hs⟩
  refine hpaged.bind fun paged _ => ?_
  cases paged with
  | true =>
    exact .loop (B := fun _ => True) (productive_visitPage hsteady)
      (fun page _ => visitPage hl h page) trivial
  | false =>
    refine (hl.call l.arguments).bind ?_
    rintro v ⟨ms, rfl, hms, hP⟩
    refine (ofFault (hl.itemsOf hms hP)).bind ?_
    rintro vs ⟨items, rfl, hitems⟩
    exact visitItems fun item hitem => h item (hitems item hitem)

/-- **The rule of listings that something is made of**: what is known of all that is made. -/
theorem gather {make : Value → Run (List α) α} {Q : α → Prop}
    (hsteady : ∀ v, (make v).Steady fun _ _ => True)
    (hl : l.Served P E key)
    (h : ∀ item, P.Item l.action key item →
      (make (.object item)).Yields P E (fun made => ∀ a ∈ made, Q a) Q) :
    (l.gather make : Run σ (List α)).Yields P E I fun made => ∀ a ∈ made, Q a := by
  have hkept : ∀ v, (do
      let a ← make v
      Run.redraft (· ++ [a])
      Pure.pure .more : Run (List α) Demand).Steady fun _ _ => True := fun v =>
    (hsteady v).bind fun _ => (Steady.redraft fun _ => trivial).bind fun _ => .pure _
  have hvisit := visit (I := fun made : List α => ∀ a ∈ made, Q a) hkept hl
    fun item hitem => (h item hitem).bind fun a ha => by
      refine (redraft fun made hmade => ?_).bind fun _ _ => .pure trivial
      intro b hb
      rcases List.mem_append.mp hb with hb | hb
      · exact hmade b hb
      · rw [List.mem_singleton.mp hb]
        exact ha
  refine (attempt (List.forall_mem_nil _) hvisit).bind ?_
  rintro ⟨result, made⟩ ⟨hresult, hmade⟩
  cases result with
  | ok demand => exact .pure hmade
  | error e => exact fun _ _ hd hs => ⟨hresult, hd, hs⟩

end Run.Yields

end IamInventory

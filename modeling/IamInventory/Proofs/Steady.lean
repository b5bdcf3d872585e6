import Mathlib.Order.Defs.Unbundled
import IamInventory.Listing
import IamInventory.Proofs.Effects

/-!
# Steady runs — what answers do to a run, and how trouble breaks it off

  A run sees the world only through the answers to its calls. It is *led* by them: what it leaves
  of its script is what its calls have left, and on a script that gives the same answers it does
  the same. It *breaks* at a call where that call meets with trouble: nothing is done after the
  call, and the run ends with the failure of the call. What a steady run has drafted by then is no
  more than what it would have drafted without the trouble; what "no more" means is a preorder on
  drafts.

  Every combinator keeps runs steady, so that a whole report is steady because its parts are:

* a loop is as many of its turns as the script has answers for (`Run.turns`,
  `Run.loop_eq_turns`), and turns are binds;
* **`Run.Breaks.bind`** — a run and then another one break where either of them does;
* **`Run.Steady.visit`**, **`Run.Steady.gather`** — listings are steady if what is done with each
  item is.
-/

namespace IamInventory

/-- A call at which a run is broken off: the effects before it, and an answer that is trouble. -/
structure Break where
  before : List Effect
  action : Action
  arguments : Members
  answer : Answer
  trouble : Trouble
  settled : answer.settle action = .ok (.trouble trouble)

namespace Break

/-- The effects of a run that is broken off. -/
def effects (b : Break) : List Effect := b.before ++ [.asked b.action b.arguments b.answer]

/-- Whether effects come to the call of a break, however it is answered there. -/
def In (b : Break) (l : List Effect) : Prop :=
  ∃ answer rest, l = b.before ++ .asked b.action b.arguments answer :: rest

theorem not_in_nil (b : Break) : ¬ b.In [] := by
  rintro ⟨answer, rest, h⟩
  exact absurd h.symm (by simp)

/-- A break in effects that are put together is in the first ones, or after them in the others. -/
theorem in_append {b : Break} {l k : List Effect} (h : b.In (l ++ k)) :
    b.In l ∨ ∃ before, b.before = l ++ before ∧ ({ b with before } : Break).In k := by
  obtain ⟨answer, rest, h⟩ := h
  rcases List.append_eq_append_iff.mp h with ⟨before, hb, hk⟩ | ⟨more, hl, hk⟩
  · exact Or.inr ⟨before, hb, answer, rest, hk⟩
  · cases more with
    | nil =>
      rw [List.append_nil] at hl
      exact Or.inr ⟨[], by rw [List.append_nil, hl], answer, rest, hk.symm⟩
    | cons e more =>
      obtain ⟨rfl, -⟩ := List.cons.inj hk
      exact Or.inl ⟨answer, more, hl⟩

end Break

namespace Run

variable {σ τ α β : Type}

/-- **A run that is led by the answers it gets**, and by whether listings come in pages. -/
structure Led (m : Run σ α) : Prop where
  left : ∀ d s, (m d s).left = s.after (m d s).trace
  follows : ∀ d s s', s'.unpaged = s.unpaged → s'.Follows (s.effects (m d s).trace) →
    (m d s').result = (m d s).result ∧ (m d s').draft = (m d s).draft ∧
      (m d s').trace = (m d s).trace

/-- **A run from a draft breaks at its calls**: on a script that leads it to one of them and makes
    trouble there, the call is the last thing it does and the failure of the call its result. Of the
    draft at that point something is known, on which the script without the trouble has a
    bearing. -/
def Breaks (m : Run σ α) (d : σ) (Q : Script → σ → Prop) : Prop :=
  ∀ (b : Break) (s s' : Script), s'.unpaged = s.unpaged → b.In (s.effects (m d s).trace) →
    s'.Follows b.effects →
    s'.effects (m d s').trace = b.effects ∧
      (∃ i, (m d s').result = .error (.failure (b.trouble.failure b.action i))) ∧
      Q s (m d s').draft

/-- **A run that is led by its answers, only adds to its draft, and breaks at its calls** with no
    more drafted than without the trouble. -/
structure Steady (R : σ → σ → Prop) (m : Run σ α) : Prop extends Led m where
  grows : ∀ d s, R d (m d s).draft
  breaks : ∀ d, m.Breaks d fun s d' => R d' (m d s).draft

/-! ## One run and then another -/

theorem Led.size_le {m : Run σ α} (hm : m.Led) (d : σ) (s : Script) :
    (m d s).left.size ≤ s.size := by
  rw [hm.left]
  exact Script.size_after_le s _

theorem Led.bind {m : Run σ α} {f : α → Run σ β} (hm : m.Led) (hf : ∀ a, (f a).Led) :
    (m >>= f).Led where
  left d s := by
    cases h : (m d s).result with
    | error e => rw [bind_of_error h]; exact hm.left d s
    | ok a => rw [bind_of_ok h, Script.after_append, ← hm.left]; exact (hf a).left _ _
  follows d s s' hp hs := by
    cases h : (m d s).result with
    | error e =>
      rw [bind_of_error h] at hs ⊢
      obtain ⟨hr, hd, ht⟩ := hm.follows d s s' hp hs
      rw [bind_of_error (hr.trans h)]
      exact ⟨rfl, hd, ht⟩
    | ok a =>
      rw [bind_of_ok h, Script.effects_append, Script.follows_effects_append] at hs
      obtain ⟨hr, hd, ht⟩ := hm.follows d s s' hp hs.1
      -- what the first run leaves of the other script leads the second run the same way
      have hl : (m d s').left = s'.after (m d s).trace := by rw [hm.left, ht]
      have hp' : (m d s').left.unpaged = (m d s).left.unpaged := by
        rw [hm.left, hm.left, Script.unpaged_after, Script.unpaged_after, hp]
      have hs' := hs.2
      rw [← hl, ← hm.left] at hs'
      obtain ⟨hr₂, hd₂, ht₂⟩ := (hf a).follows (m d s).draft _ _ hp' hs'
      rw [bind_of_ok h, bind_of_ok (hr.trans h), hd]
      exact ⟨hr₂, hd₂, by rw [ht, ht₂]⟩

/-- Where a run breaks depends on what it does from its draft only. -/
theorem Breaks.congr {m m' : Run σ α} {d : σ} {Q : Script → σ → Prop} (h : m d = m' d)
    (hm : m'.Breaks d Q) : m.Breaks d Q := by
  rw [Breaks]
  rw [h]
  exact hm

/-- What is known of the draft where a run breaks may be said in other words. -/
theorem Breaks.imp {m : Run σ α} {d : σ} {P Q : Script → σ → Prop} (hm : m.Breaks d P)
    (hPQ : ∀ s d', P s d' → Q s d') : m.Breaks d Q := by
  intro b s s' hp hin hs
  obtain ⟨he, hr, hd⟩ := hm b s s' hp hin hs
  exact ⟨he, hr, hPQ s _ hd⟩

/-- **A run and then another one break where either of them does.** -/
theorem Breaks.bind {m : Run σ α} {f : α → Run σ β} {d : σ} {P Q : Script → σ → Prop}
    (hm : m.Led) (hb : m.Breaks d P) (hPQ : ∀ s d', P s d' → Q s d')
    (hf : ∀ s a, (m d s).result = .ok a →
      (f a).Breaks (m d s).draft fun s₁ d' => s₁ = (m d s).left → Q s d') :
    (m >>= f).Breaks d Q := by
  intro b s s' hp hin hs
  -- where the first run breaks, the other one is not reached
  have first : b.In (s.effects (m d s).trace) →
      s'.effects ((m >>= f) d s').trace = b.effects ∧
        (∃ i, ((m >>= f) d s').result = .error (.failure (b.trouble.failure b.action i))) ∧
        Q s ((m >>= f) d s').draft := by
    intro hin
    obtain ⟨he, ⟨i, hr⟩, hd⟩ := hb b s s' hp hin hs
    rw [bind_of_error hr]
    exact ⟨he, ⟨i, rfl⟩, hPQ _ _ hd⟩
  cases h : (m d s).result with
  | error e =>
    rw [bind_of_error h] at hin
    exact first hin
  | ok a =>
    rw [bind_of_ok h, Script.effects_append] at hin
    rcases Break.in_append hin with hin | ⟨before, hbefore, hin⟩
    · exact first hin
    -- a call of the second run: the first one is done, and the second one breaks from there
    · have hall : b.effects = s.effects (m d s).trace ++ ({ b with before } : Break).effects := by
        rw [Break.effects, Break.effects, hbefore, List.append_assoc]
      rw [hall, Script.follows_effects_append] at hs
      obtain ⟨hr, hd, ht⟩ := hm.follows d s s' hp hs.1
      have hl : (m d s').left = s'.after (m d s).trace := by rw [hm.left, ht]
      have hp' : (m d s').left.unpaged = (m d s).left.unpaged := by
        rw [hm.left, hm.left, Script.unpaged_after, Script.unpaged_after, hp]
      rw [← hm.left] at hin
      obtain ⟨he, ⟨i, hr₂⟩, hq⟩ := hf s a h _ _ _ hp' hin (hl ▸ hs.2)
      rw [bind_of_ok (hr.trans h), hd]
      refine ⟨?_, ⟨i, hr₂⟩, hq rfl⟩
      rw [Script.effects_append, ht, Script.effects_of_follows hs.1, ← hl, he, hall]

/-- Where nothing is said about drafts, every draft is as good as any other. -/
instance : IsPreorder σ fun _ _ => True where
  refl _ := trivial
  trans _ _ _ _ _ := trivial

variable {R : σ → σ → Prop} [IsPreorder σ R]

theorem Steady.bind {m : Run σ α} {f : α → Run σ β} (hm : m.Steady R)
    (hf : ∀ a, (f a).Steady R) : (m >>= f).Steady R where
  toLed := hm.toLed.bind fun a => (hf a).toLed
  grows d s := by
    cases h : (m d s).result with
    | error e => rw [bind_of_error h]; exact hm.grows d s
    | ok a =>
      rw [bind_of_ok h]
      exact Trans.trans (hm.grows d s) ((hf a).grows _ _)
  breaks d := by
    refine Breaks.bind (P := fun s d' => R d' (m d s).draft) hm.toLed (hm.breaks d) ?_ ?_
    · intro s d' hd
      cases h : (m d s).result with
      | error e => rw [bind_of_error h]; exact hd
      | ok a => rw [bind_of_ok h]; exact Trans.trans hd ((hf a).grows _ _)
    · intro s a h
      refine ((hf a).breaks _).imp ?_
      rintro s₁ d' hd rfl
      rw [bind_of_ok h]
      exact hd

/-- A steady run that leaves every draft as it is leaves it so where it breaks. -/
theorem Steady.breaks_same {m : Run σ α} (hm : m.Steady (· = ·)) (d : σ) :
    m.Breaks d fun _ d' => d' = d :=
  (hm.breaks d).imp fun s _ hd => hd.trans (hm.grows d s).symm

/-! ## Runs without calls, and single calls -/

omit [IsPreorder σ R] in
/-- A run that makes no call and does not look at the script is steady if it only adds to its
    draft. -/
theorem Steady.of_quiet {m : Run σ α}
    (h : ∀ d, ∃ r d' t, Trace.calls t = [] ∧ R d d' ∧ ∀ s, m d s = ⟨r, d', s, t⟩) :
    m.Steady R where
  left d s := by
    obtain ⟨r, d', t, ht, -, hm⟩ := h d
    rw [hm, Script.after_of_quiet ht]
  follows d s s' _ _ := by
    obtain ⟨r, d', t, -, -, hm⟩ := h d
    rw [hm, hm]
    exact ⟨rfl, rfl, rfl⟩
  grows d s := by
    obtain ⟨r, d', t, -, hd, hm⟩ := h d
    rw [hm]
    exact hd
  breaks d := by
    intro b s s' _ hin _
    obtain ⟨r, d', t, ht, -, hm⟩ := h d
    obtain ⟨answer, rest, heq⟩ := hin
    have := congrArg Effect.calls heq
    rw [hm, Script.calls_effects, ht] at this
    simp [Effect.calls] at this

theorem Steady.pure (a : α) : (Pure.pure a : Run σ α).Steady R :=
  .of_quiet fun d => ⟨.ok a, d, [], rfl, Std.Refl.refl d, fun _ => rfl⟩

theorem Steady.ofFault (e : Except Fault α) : (Run.ofFault e : Run σ α).Steady R :=
  .of_quiet fun d => ⟨e, d, [], rfl, Std.Refl.refl d, fun _ => rfl⟩

/-- What follows a part without effects is steady if it is with the result of the part. -/
theorem Steady.bind_ofFault {e : Except Fault α} {f : α → Run σ β}
    (h : ∀ a, e = .ok a → (f a).Steady R) : (Run.ofFault e >>= f).Steady R := by
  cases e with
  | error x => exact .ofFault (.error x)
  | ok a => exact h a rfl

theorem Steady.ofFailure (e : Except Failure α) : (Run.ofFailure e : Run σ α).Steady R :=
  .ofFault _

theorem Steady.fault (f : Fault) : (Run.fault f : Run σ α).Steady R := .ofFault (.error f)

theorem Steady.fail (f : Failure) : (Run.fail f : Run σ α).Steady R := .fault _

omit [IsPreorder σ R] in
theorem Steady.redraft {f : σ → σ} (h : ∀ d, R d (f d)) : (Run.redraft f).Steady R :=
  .of_quiet fun d => ⟨.ok (), f d, [], rfl, h d, fun _ => rfl⟩

theorem Steady.emit {e : Event} (h : Trace.calls [e] = []) : (Run.emit e : Run σ Unit).Steady R :=
  .of_quiet fun d => ⟨.ok (), d, [e], h, Std.Refl.refl d, fun _ => rfl⟩

theorem Steady.note (level : Log.Level) (source : Log.Source) (message : String) :
    (Run.note level source message : Run σ Unit).Steady R := .emit rfl

/-- Whether listings come in pages is the same on scripts that agree about it. -/
theorem Steady.isPaged (action : Action) : (Run.isPaged action : Run σ Bool).Steady R where
  left d s := rfl
  follows d s s' hp _ := by
    refine ⟨?_, rfl, rfl⟩
    show Except.ok (s'.isPaged action) = Except.ok (s.isPaged action)
    rw [Script.isPaged, Script.isPaged, Script.isUnpaged, Script.isUnpaged, hp]
  grows d s := Std.Refl.refl d
  breaks d := fun b s s' _ hin _ => absurd hin b.not_in_nil

/-- **A call is steady**: it breaks where it meets with trouble itself. -/
theorem Steady.call (action : Action) (arguments : Members) (identifier : Value) :
    (IamInventory.call action arguments identifier : Run σ Value).Steady R where
  left d s := by rw [call_eq]; rfl
  follows d s s' _ hs := by
    rw [call_eq] at hs
    rw [call_eq, call_eq, hs.1]
    exact ⟨rfl, rfl, rfl⟩
  grows d s := by rw [call_eq]; exact Std.Refl.refl d
  breaks d := by
    rintro ⟨before, action', arguments', answer, trouble, settled⟩ s s' _ hin hs
    rw [call_eq] at hin
    obtain ⟨x, rest, heq⟩ := hin
    -- the only effect is the call itself, so that nothing is before it
    cases before with
    | cons e before => simp [Script.effects] at heq
    | nil =>
      obtain ⟨⟨rfl, rfl, -⟩, -⟩ := by simpa [Script.effects] using heq
      have ha : (s'.take action).1 = answer := hs.1
      refine ⟨?_, ⟨identifier, ?_⟩, ?_⟩
      · simp only [call_eq, Script.effects, Break.effects, List.nil_append, ha]
      · simp only [call_eq, Answer.told, ha, settled]
      · simp only [call_eq]
        exact Std.Refl.refl d

theorem Led.call (action : Action) (arguments : Members) (identifier : Value) :
    (IamInventory.call action arguments identifier : Run σ Value).Led :=
  (Steady.call (R := fun _ _ => True) action arguments identifier).toLed

/-! ## Runs on a part of the draft -/

theorem Breaks.within {get : σ → τ} {put : τ → σ → σ} {m : Run τ α} {d : σ} {Q : Script → τ → Prop}
    {P : Script → σ → Prop} (hm : m.Breaks (get d) Q) (h : ∀ s t, Q s t → P s (put t d)) :
    (Run.within get put m).Breaks d P := by
  intro b s s' hp hin hs
  obtain ⟨he, hr, hd⟩ := hm b s s' hp hin hs
  exact ⟨he, hr, h s _ hd⟩

/-! ## Loops -/

/-- A step that takes an answer whenever another turn is to follow. -/
def Productive (step : β → Run σ (β ⊕ α)) : Prop :=
  ∀ b d s next, (step b d s).result = .ok (.inl next) → (step b d s).left.size < s.size

/-- At most so many turns of a loop. -/
def turns (step : β → Run σ (β ⊕ α)) : Nat → β → Run σ α
  | 0, _ => fault .stalled
  | n + 1, b => do
    match ← step b with
    | .inl next => turns step n next
    | .inr a => pure a

/-- **A loop is as many turns as its script has answers for**, or any more. -/
theorem loop_eq_turns {step : β → Run σ (β ⊕ α)} (h : Productive step) {n : Nat} (b : β) (d : σ)
    (s : Script) (hn : s.size < n) : loop step b d s = turns step n b d s := by
  induction n generalizing b d s with
  | zero => exact absurd hn (Nat.not_lt_zero _)
  | succ n ih =>
    rw [loop, turns]
    cases hr : (step b d s).result with
    | error e => simp only [bind_of_error hr]
    | ok next =>
      simp only [bind_of_ok hr]
      cases next with
      | inr a => simp [Pure.pure, Run.pure]
      | inl next =>
        have hlt := h b d s next hr
        simp only [hlt, if_true, ih next _ (step b d s).left (by omega)]

theorem Steady.turns {step : β → Run σ (β ⊕ α)} (h : ∀ b, (step b).Steady R) (n : Nat) (b : β) :
    (Run.turns step n b).Steady R := by
  induction n generalizing b with
  | zero => exact .fault _
  | succ n ih =>
    refine (h b).bind fun next => ?_
    cases next with
    | inl next => exact ih next
    | inr a => exact .pure a

theorem Steady.loop {step : β → Run σ (β ⊕ α)} (h : ∀ b, (step b).Steady R)
    (hp : Productive step) (b : β) : (Run.loop step b).Steady R where
  left d s := by
    rw [loop_eq_turns hp b d s (Nat.lt_succ_self _)]
    exact (Steady.turns h _ b).left d s
  follows d s s' hu hs := by
    -- one count of turns that is enough for both scripts
    have hn : s.size < s.size + s'.size + 1 ∧ s'.size < s.size + s'.size + 1 := by omega
    rw [loop_eq_turns hp b d s hn.1] at hs ⊢
    rw [loop_eq_turns hp b d s' hn.2]
    exact (Steady.turns h _ b).follows d s s' hu hs
  grows d s := by
    rw [loop_eq_turns hp b d s (Nat.lt_succ_self _)]
    exact (Steady.turns h _ b).grows d s
  breaks d := by
    intro k s s' hu hin hs
    have hn : s.size < s.size + s'.size + 1 ∧ s'.size < s.size + s'.size + 1 := by omega
    rw [loop_eq_turns hp b d s hn.1] at hin
    simp only [loop_eq_turns hp b d s hn.1, loop_eq_turns hp b d s' hn.2]
    exact (Steady.turns h _ b).breaks d k s s' hu hin hs

/-- What starts with a call and has a result has taken an answer. -/
theorem size_lt_of_call {action : Action} {arguments : Members} {identifier : Value}
    {f : Value → Run σ α} (hf : ∀ v, (f v).Led) {d : σ} {s : Script} {a : α}
    (h : ((call action arguments identifier >>= f) d s).result = .ok a) :
    ((call action arguments identifier >>= f) d s).left.size < s.size := by
  cases hr : (call action arguments identifier d s).result with
  | error e =>
    rw [bind_of_error hr] at h
    cases h
  | ok v =>
    rw [bind_of_ok hr]
    rw [call_eq] at hr
    refine Nat.lt_of_le_of_lt ((hf v).size_le _ _) ?_
    simp only [call_eq]
    exact size_take_lt_of_told hr

theorem Steady.each {items : List α} {body : α → Run σ Unit}
    (h : ∀ a ∈ items, (body a).Steady R) : (Run.each items body).Steady R := by
  induction items with
  | nil => exact .pure ()
  | cons a items ih =>
    exact (h a List.mem_cons_self).bind fun _ => ih fun a ha => h a (List.mem_cons_of_mem _ ha)

theorem Steady.mapM {items : List α} {f : α → Run σ β} (h : ∀ a ∈ items, (f a).Steady R) :
    (items.mapM f).Steady R := by
  induction items with
  | nil => exact .pure []
  | cons a items ih =>
    rw [List.mapM_cons]
    refine (h a List.mem_cons_self).bind fun b => ?_
    exact (ih fun a ha => h a (List.mem_cons_of_mem _ ha)).bind fun bs => .pure _

/-! ## Listings -/

theorem Steady.visitItems {body : Value → Run σ Demand} (h : ∀ v, (body v).Steady R)
    (items : List Value) : (Listing.visitItems body items).Steady R := by
  induction items with
  | nil => exact .pure _
  | cons v vs ih =>
    refine (h v).bind fun demand => ?_
    cases demand with
    | more => exact ih
    | enough => exact .pure _

/-- What one page of a listing does after its call. -/
theorem Steady.afterCall {l : Listing} {body : Value → Run σ Demand}
    (h : ∀ v, (body v).Steady R) (page : Page) (response : Value) : Steady R (do
      let shown ← Run.ofFault (l.window.view l.action page.marker page.shown response)
      let items ← Run.ofFault (l.itemsOf shown.response)
      Run.note .debug .listing
        (l.action.name ++ s!" page {page.number} returned {items.length} item(s)")
      match ← Listing.visitItems body items with
      | .enough => Pure.pure (.inr .enough)
      | .more =>
        match ← Run.ofFault (l.follow page shown) with
        | none => Pure.pure (.inr .more)
        | some next => Pure.pure (.inl next) : Run σ (Page ⊕ Demand)) := by
  refine (Steady.ofFault _).bind fun shown => (Steady.ofFault _).bind fun items =>
    (Steady.note _ _ _).bind fun _ => (Steady.visitItems h items).bind fun demand => ?_
  cases demand with
  | enough => exact .pure _
  | more =>
    refine (Steady.ofFault _).bind fun next => ?_
    cases next with
    | none => exact .pure _
    | some next => exact .pure _

theorem Steady.visitPage {l : Listing} {body : Value → Run σ Demand}
    (h : ∀ v, (body v).Steady R) (page : Page) : (l.visitPage body page).Steady R :=
  (Steady.call _ _ _).bind fun response => .afterCall h page response

/-- A page that another one follows has been answered. -/
theorem productive_visitPage {l : Listing} {body : Value → Run σ Demand}
    (h : ∀ v, (body v).Steady R) : Productive (l.visitPage body) := by
  intro page d s next hr
  exact size_lt_of_call (fun v => (Steady.afterCall h page v).toLed) hr

/-- **A listing is steady** if what is done with each item is. -/
theorem Steady.visit {l : Listing} {body : Value → Run σ Demand} (h : ∀ v, (body v).Steady R) :
    (l.visit body).Steady R := by
  refine (Steady.isPaged _).bind fun paged => ?_
  cases paged with
  | true => exact .loop (.visitPage h) (productive_visitPage h) _
  | false =>
    exact (Steady.call _ _ _).bind fun response => (Steady.ofFault _).bind fun items =>
      .visitItems h items

/-- A run with a draft of its own, of which the draft is the result unless there is a fault. -/
theorem gather_eq (l : Listing) (make : Value → Run (List α) α) (d : σ) (s : Script) :
    l.gather make d s =
      let inner := l.visit (fun v => do
        let a ← make v
        Run.redraft (· ++ [a])
        Pure.pure .more) [] s
      ⟨inner.result.map fun _ => inner.draft, d, inner.left, inner.trace⟩ := by
  rw [Listing.gather]
  generalize l.visit _ = m
  simp only [bind, Run.bind, attempt]
  cases h : (m [] s).result <;> simp [Pure.pure, Run.pure, fault, Except.map]

/-- **What is gathered from a listing leaves the draft alone**, and is steady if what is made of
    each item is. -/
theorem Steady.gather {l : Listing} {make : Value → Run (List α) α}
    (h : ∀ v, (make v).Steady fun _ _ => True) : (l.gather make : Run σ (List α)).Steady R := by
  have hin : (l.visit fun v => do
      let a ← make v
      Run.redraft (· ++ [a])
      Pure.pure .more).Steady fun _ _ => True :=
    .visit fun v => (h v).bind fun a => (Steady.redraft fun _ => trivial).bind fun _ => .pure _
  refine ⟨⟨?_, ?_⟩, ?_, ?_⟩
  · intro d s
    rw [gather_eq]
    exact hin.left [] s
  · intro d s s' hp hs
    rw [gather_eq] at hs
    obtain ⟨hr, hd, ht⟩ := hin.follows [] s s' hp hs
    simp only [gather_eq, hr, hd, ht, and_self]
  · intro d s
    rw [gather_eq]
    exact Std.Refl.refl d
  · intro d b s s' hp hb hs
    rw [gather_eq] at hb
    obtain ⟨he, ⟨i, hr⟩, -⟩ := hin.breaks [] b s s' hp hb hs
    refine ⟨?_, ⟨i, ?_⟩, ?_⟩
    · rw [gather_eq]
      exact he
    · simp only [gather_eq, hr, Except.map]
    · simp only [gather_eq]
      exact Std.Refl.refl d

end Run

end IamInventory

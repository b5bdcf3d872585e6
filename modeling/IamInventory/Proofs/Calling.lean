import IamInventory.Proofs.Jobs

/-!
# Calling — which actions a run can call

  Which actions a run calls can be told without its answers: it is a matter of its parts, whatever
  they come to. A run that *calls only* some actions does so on every script, from every draft, and
  also where it ends with a fault; and nothing that it does can be seen where the program is run,
  but what it notes.

* **`Run.CallsOnly`** — whether a run calls no other actions than some, and shows nothing.
* **`Run.CallsOnly.visit`** — a listing calls its action, and what is called for its items.
* **`LastAccessed.callsOnly_submit`**, **`LastAccessed.callsOnly_attachOne`** — submitting jobs and
  working them through are calls of one action each.
-/

namespace IamInventory

/-- Whether an event is a call of one of some actions, or nothing that can be seen. -/
def Event.IsWork (P : Action → Prop) : Event → Prop
  | .called action _ => P action
  | .printed _ => False
  | .complained _ => False
  | .saved _ _ => False
  | _ => True

namespace Trace

variable {P : Action → Prop} {t : Trace}

theorem calls_of_isWork (h : ∀ e ∈ t, e.IsWork P) : ∀ c ∈ t.calls, P c.1 := by
  intro c hc
  obtain ⟨e, he, hcall⟩ := List.mem_filterMap.mp hc
  have hwork := h e he
  cases e with
  | called action arguments =>
    cases hcall
    exact hwork
  | _ => cases hcall

end Trace

namespace Run

variable {σ τ α β : Type} {P : Action → Prop}

/-- **A run calls only some actions**, whatever its draft and its script, and shows nothing. -/
def CallsOnly (P : Action → Prop) (m : Run σ α) : Prop :=
  ∀ d s, ∀ e ∈ (m d s).trace, e.IsWork P

namespace CallsOnly

theorem does {m : Run σ α} (h : m.CallsOnly P) {d d' : σ} {l : List Effect} {r : Except Fault α}
    (hd : m.Does d l r d') : ∀ c ∈ Effect.calls l, P c.1 := by
  obtain ⟨s, rfl, -, -⟩ := hd
  rw [Script.calls_effects]
  exact Trace.calls_of_isWork (h d s)

theorem mono {Q : Action → Prop} {m : Run σ α} (h : m.CallsOnly P) (hPQ : ∀ a, P a → Q a) :
    m.CallsOnly Q := by
  intro d s e he
  have hwork := h d s e he
  cases e with
  | called action arguments => exact hPQ action hwork
  | _ => exact hwork

theorem bind {m : Run σ α} {f : α → Run σ β} (hm : m.CallsOnly P) (hf : ∀ a, (f a).CallsOnly P) :
    (m >>= f).CallsOnly P := by
  intro d s e he
  cases hr : (m d s).result with
  | error x =>
    rw [bind_of_error hr] at he
    exact hm d s e he
  | ok a =>
    rw [bind_of_ok hr] at he
    rcases List.mem_append.mp he with he | he
    · exact hm d s e he
    · exact hf a _ _ e he

/-! ## Parts of runs -/

theorem of_quiet {m : Run σ α} (h : ∀ d s, (m d s).trace = []) : m.CallsOnly P := by
  intro d s e he
  rw [h d s] at he
  cases he

theorem emit {e : Event} (h : e.IsWork P) : (Run.emit e : Run σ Unit).CallsOnly P :=
  fun _ _ _ he => List.mem_singleton.mp he ▸ h

theorem pure (a : α) : (Pure.pure a : Run σ α).CallsOnly P := .of_quiet fun _ _ => rfl

theorem ofFault (e : Except Fault α) : (Run.ofFault e : Run σ α).CallsOnly P :=
  .of_quiet fun _ _ => rfl

theorem ofFailure (e : Except Failure α) : (Run.ofFailure e : Run σ α).CallsOnly P := .ofFault _

theorem fault (f : Fault) : (Run.fault f : Run σ α).CallsOnly P := .of_quiet fun _ _ => rfl

theorem fail (f : Failure) : (Run.fail f : Run σ α).CallsOnly P := .fault _

theorem draft : (Run.draft : Run σ σ).CallsOnly P := .of_quiet fun _ _ => rfl

theorem redraft (f : σ → σ) : (Run.redraft f).CallsOnly P := .of_quiet fun _ _ => rfl

theorem note (level : Log.Level) (source : Log.Source) (message : String) :
    (Run.note level source message : Run σ Unit).CallsOnly P := .emit trivial

theorem pause (delay : Number.Binary64) :
    (Run.emit (.paused delay) : Run σ Unit).CallsOnly P := .emit trivial

theorem call {action : Action} (h : P action) (arguments : Members) (identifier : Value) :
    (IamInventory.call action arguments identifier : Run σ Value).CallsOnly P := by
  intro d s e he
  rw [call_eq] at he
  obtain rfl := List.mem_singleton.mp he
  exact h

/-- A call calls its own action. -/
theorem self (action : Action) (arguments : Members) (identifier : Value) :
    (IamInventory.call action arguments identifier : Run σ Value).CallsOnly (· = action) :=
  call (P := (· = action)) rfl arguments identifier

theorem within {get : σ → τ} {put : τ → σ → σ} {m : Run τ α} (h : m.CallsOnly P) :
    (Run.within get put m).CallsOnly P := fun d s => h (get d) s

theorem attempt {start : τ} {m : Run τ α} (h : m.CallsOnly P) :
    (Run.attempt start m : Run σ (Except Fault α × τ)).CallsOnly P := fun _ s => h start s

theorem loop {step : β → Run σ (β ⊕ α)} (h : ∀ b, (step b).CallsOnly P) (b : β) :
    (Run.loop step b).CallsOnly P := by
  intro d s e he
  -- the induction is on how many answers the script has
  induction hn : s.size using Nat.strongRecOn generalizing s b d with
  | ind n ih =>
    rw [Run.loop] at he
    dsimp only at he
    split at he
    · exact h b d s e he
    · exact h b d s e he
    · split at he
      · next hlt =>
        rcases List.mem_append.mp he with he | he
        · exact h b d s e he
        · exact ih _ (hn ▸ hlt) _ _ _ he rfl
      · exact h b d s e he

theorem each {items : List α} {body : α → Run σ Unit} (h : ∀ a, (body a).CallsOnly P) :
    (Run.each items body).CallsOnly P := by
  induction items with
  | nil => exact .pure ()
  | cons a items ih => exact (h a).bind fun _ => ih

theorem mapM {items : List α} {f : α → Run σ β} (h : ∀ a, (f a).CallsOnly P) :
    (items.mapM f).CallsOnly P := by
  induction items with
  | nil => exact .pure []
  | cons a items ih =>
    rw [List.mapM_cons]
    exact (h a).bind fun _ => ih.bind fun _ => .pure _

/-! ## Listings -/

theorem visitItems {body : Value → Run σ Demand} (h : ∀ v, (body v).CallsOnly P)
    (items : List Value) : (Listing.visitItems body items).CallsOnly P := by
  induction items with
  | nil => exact .pure _
  | cons v vs ih =>
    refine (h v).bind fun demand => ?_
    cases demand with
    | more => exact ih
    | enough => exact .pure _

/-- **A listing calls its action, and what is called for its items.** -/
theorem visit {l : Listing} {body : Value → Run σ Demand} (hl : P l.action)
    (h : ∀ v, (body v).CallsOnly P) : (l.visit body).CallsOnly P := by
  refine CallsOnly.bind (.of_quiet fun _ _ => rfl) fun paged => ?_
  cases paged with
  | true =>
    refine .loop (fun page => ?_) _
    refine (call hl _ _).bind fun response => (ofFault _).bind fun shown =>
      (ofFault _).bind fun items => (note _ _ _).bind fun _ =>
        (visitItems h items).bind fun demand => ?_
    cases demand with
    | enough => exact .pure _
    | more =>
      refine (ofFault _).bind fun next => ?_
      cases next with
      | none => exact .pure _
      | some next => exact .pure _
  | false =>
    exact (call hl _ _).bind fun response => (ofFault _).bind fun items => visitItems h items

theorem gather {l : Listing} {make : Value → Run (List α) α} (hl : P l.action)
    (h : ∀ v, (make v).CallsOnly P) : (l.gather make : Run σ (List α)).CallsOnly P := by
  intro d s
  rw [gather_eq]
  exact visit hl (fun v => (h v).bind fun a => (redraft _).bind fun _ => .pure _) [] s

end CallsOnly

end Run

/-! ## The use of services -/

namespace LastAccessed

variable {σ : Type}

theorem callsOnly_submit (identifiers : List Value) :
    (submit identifiers : Run σ (List Value)).CallsOnly (· = generate) :=
  .mapM fun _ => (Run.CallsOnly.self _ _ _).bind fun _ => (Run.CallsOnly.ofFault _).bind fun _ =>
    (Run.CallsOnly.note _ _ _).bind fun _ => .pure _

theorem callsOnly_poll (settings : Settings) (job : Job) (p : Polling) :
    (poll settings job p : Run σ (Polling ⊕ Value)).CallsOnly (· = details) := by
  rw [poll_eq]
  refine (Run.CallsOnly.self _ _ _).bind fun response =>
    (Run.CallsOnly.ofFault _).bind fun status => ?_
  split
  · exact .pure _
  · split
    · dsimp only
      split
      · exact .fail _
      · exact (Run.CallsOnly.note _ _ _).bind fun _ => (Run.CallsOnly.pause _).bind fun _ => .pure _
    · exact (Run.CallsOnly.ofFault _).bind fun _ => .fail _

theorem callsOnly_nextPage (job : Job) (sofar : Value × List Value) :
    (nextPage job sofar : Run σ ((Value × List Value) ⊕ List Value)).CallsOnly (· = details) := by
  rw [nextPage_eq]
  refine (Run.CallsOnly.ofFault _).bind fun marker => ?_
  cases marker with
  | none => exact .pure _
  | some marker =>
    exact (Run.CallsOnly.self _ _ _).bind fun _ => (Run.CallsOnly.ofFault _).bind fun _ => .pure _

theorem callsOnly_attachOne (settings : Settings) (job : Job) :
    (attachOne settings job).CallsOnly (· = details) := by
  have hwrite (name : String) (v : Value) :
      (write job.identifier name v).CallsOnly (· = details) :=
    Run.CallsOnly.draft.bind fun _ => (Run.CallsOnly.ofFault _).bind fun _ => .redraft _
  exact (Run.CallsOnly.loop (callsOnly_poll settings job) _).bind fun first =>
    ((Run.CallsOnly.ofFault _).bind fun _ => .loop (callsOnly_nextPage job) _).bind fun _ =>
      (hwrite _ _).bind fun _ => (Run.CallsOnly.ofFault _).bind fun _ => hwrite _ _

end LastAccessed

end IamInventory

import IamInventory.LastAccessed
import IamInventory.Proofs.Behaviour

/-!
# Jobs — what polling and paging come to

  The work for one job is two loops over the same action. The first one polls: every response that
  finds the job in progress is followed by a pause, until one poll ends the waiting in some way.
  The second one follows the markers from page to page. Neither loop touches the draft.

  Both loops are told by lists of responses, the ones that they have gone past. The effects of a
  loop are read off its list, and what ended it is the one answer after the list.

* **`LastAccessed.await_does`** — the polls that find a job in progress, and the poll that ends
  the waiting (`LastAccessed.Ending`).
* **`LastAccessed.collect_does`** — the pages after the first one, up to the last page or to
  trouble on the way.
-/

namespace IamInventory

open Number

/-! ## What ends without a failure -/

/-- Whether something ends without a failure: well, or with a fault that no report keeps. -/
def Unfailing {α : Type} (e : Except Fault α) : Prop := ∀ f, e ≠ .error (.failure f)

/-- Whether something ends with a failure. -/
def isFailure {α : Type} : Except Fault α → Bool
  | .error (.failure _) => true
  | _ => false

theorem exists_of_isFailure {α : Type} {e : Except Fault α} (h : isFailure e) :
    ∃ f, e = .error (.failure f) := by
  simp only [isFailure] at h
  split at h
  · next f => exact ⟨f, rfl⟩
  · cases h

/-- What ends well without a result to speak of. -/
theorem eq_ok_of_isOk {e : Except Fault Unit} (h : e.isOk) : e = .ok () := by
  cases e with
  | error x => cases h
  | ok a => rfl

namespace Unfailing

variable {α β : Type}

theorem ok (a : α) : Unfailing (.ok a) := by
  rintro f ⟨⟩

theorem bind {e : Except Fault α} {f : α → Except Fault β} (he : Unfailing e)
    (hf : ∀ a, e = .ok a → Unfailing (f a)) : Unfailing (e >>= f) := by
  cases e with
  | error x => exact fun g h => he g (congrArg _ (Except.error.inj h))
  | ok a => exact hf a rfl

theorem map {e : Except Fault α} {f : α → β} (he : Unfailing e) : Unfailing (e.map f) := by
  cases e with
  | error x => exact fun g h => he g (congrArg _ (Except.error.inj h))
  | ok a => exact ok _

theorem members (v : Value) : Unfailing v.members := by
  cases v <;> rintro f ⟨⟩

theorem member (v : Value) (name : String) : Unfailing (v.member name) := by
  simp only [Value.member]
  split
  · split <;> rintro f ⟨⟩
  · rintro f ⟨⟩

theorem memberOr (v : Value) (name : String) (default : Value) :
    Unfailing (v.memberOr name default) := (members v).bind fun _ _ => ok _

theorem items (v : Value) : Unfailing v.items := by
  cases v <;> rintro f ⟨⟩

theorem nextMarker (response : Value) : Unfailing (Listing.nextMarker response) :=
  (memberOr _ _ _).bind fun _ _ => (memberOr _ _ _).bind fun _ _ => ok _

theorem entriesOf (response : Value) : Unfailing (LastAccessed.entriesOf response) :=
  (memberOr _ _ _).bind fun _ _ => items _

theorem times (entries : List Value) : Unfailing (LastAccessed.times entries) := by
  induction entries with
  | nil => exact ok _
  | cons v vs ih => exact (memberOr _ _ _).bind fun _ _ => ih.bind fun _ _ => ok _

theorem greatest (best : Value) (vs : List Value) :
    Unfailing (LastAccessed.greatest best vs) := by
  induction vs generalizing best with
  | nil => exact ok _
  | cons v vs ih =>
    rw [LastAccessed.greatest]
    split
    · exact ih v
    · exact ih best
    · rintro f ⟨⟩

theorem latest (entries : List Value) : Unfailing (LastAccessed.latest entries) := by
  -- only times that cannot be compared are a fault, and that one no report keeps
  refine (times entries).bind fun ts _ => ?_
  cases ts with
  | nil => exact ok _
  | cons t ts => exact greatest t ts

theorem failureDetail (job : LastAccessed.Job) (status response : Value) :
    Unfailing (job.failureDetail status response) := by
  refine (memberOr _ _ _).bind fun error _ => ?_
  split
  · exact (memberOr _ _ _).bind fun _ _ => ok _
  · exact ok _

/-- Trouble is no fault, and reading it is at worst a fault that no report keeps. -/
theorem settle (action : Action) (a : Answer) : Unfailing (a.settle action) := by
  have detail (details : Members) (name : String) :
      Unfailing (ClientFault.detail details name) := by
    rw [ClientFault.detail]
    split <;> rintro f ⟨⟩
  have part (report : Value) : Unfailing (Rejection.answerPart? report) := by
    cases report with
    | text s => simp only [Rejection.answerPart?]; split <;> rintro f ⟨⟩
    | list vs => simp only [Rejection.answerPart?]; split <;> rintro f ⟨⟩
    | _ => rintro f ⟨⟩
  have retries (report : Value) : Unfailing (Rejection.retryText report) := by
    refine (part report).bind fun about _ => ?_
    cases about with
    | none => exact ok _
    | some about =>
      refine (memberOr _ _ _).bind fun used _ => ?_
      split
      · refine (members _).bind fun ms _ => ?_
        split <;> exact ok _
      · exact ok _
  cases a with
  | response v => exact ok _
  | invalid message => rintro f ⟨⟩
  | rejected report =>
    exact ((retries report).bind fun _ _ => (memberOr _ _ _).bind fun _ _ =>
      (memberOr _ _ _).bind fun _ _ => (memberOr _ _ _).bind fun _ _ =>
        (memberOr _ _ _).bind fun _ _ => ok _).map
  | gaveUp fault details =>
    refine map ?_
    cases fault with
    | partialCredentials =>
      exact (detail _ _).bind fun _ _ => (detail _ _).bind fun _ _ => ok _
    | noProfile => exact (detail _ _).bind fun _ _ => ok _
    | unreachable => exact (detail _ _).bind fun _ _ => ok _
    | readTimeout => exact (detail _ _).bind fun _ _ => ok _
    | connectTimeout => exact (detail _ _).bind fun _ _ => ok _
    | badParameters => exact (detail _ _).bind fun _ _ => ok _
    | pagination => exact (detail _ _).bind fun _ _ => ok _
    | _ => exact ok _

end Unfailing

/-- An answer that tells of a response is the response. -/
theorem Answer.eq_response_of_told {a : Answer} {action : Action} {identifier v : Value}
    (h : a.told action identifier = .ok v) : a = .response v := by
  rw [told] at h
  split at h
  · next w hw =>
    cases a with
    | response u =>
      cases hw
      cases h
      rfl
    | rejected report =>
      simp only [settle] at hw
      cases ht : Rejection.trouble action report <;> rw [ht] at hw <;> cases hw
    | gaveUp fault details =>
      simp only [settle] at hw
      cases ht : fault.text details <;> rw [ht] at hw <;> cases hw
    | invalid message => cases hw
  · cases h
  · cases h

/-- An answer that tells of no response is trouble, or tells of a fault that no report keeps. -/
theorem Answer.trouble_of_told {a : Answer} {action : Action} {identifier : Value} {e : Fault}
    (h : a.told action identifier = .error e) :
    (∃ t, a.settle action = .ok (.trouble t) ∧ e = .failure (t.failure action identifier)) ∨
      ∀ {α : Type}, Unfailing (Except.error e : Except Fault α) := by
  rw [told] at h
  split at h
  · cases h
  · next t ht =>
    cases h
    exact Or.inl ⟨t, ht, rfl⟩
  · next x hx =>
    cases h
    refine Or.inr fun f hf => ?_
    cases hf
    exact Unfailing.settle action a f hx

/-- **What a call and then more do**: the call meets with trouble or with a fault that no report
    keeps, and nothing more is done, or more is done with the response. -/
theorem Run.Does.bind_call {σ β : Type} {d d' : σ} {l : List Effect} {action : Action}
    {arguments : Members} {identifier : Value} {f : Value → Run σ β} {r : Except Fault β}
    (h : (IamInventory.call action arguments identifier >>= f).Does d l r d') :
    (∃ a e, l = [.asked action arguments a] ∧ r = .error e ∧ d' = d ∧
        ((∃ t, a.settle action = .ok (.trouble t) ∧ e = .failure (t.failure action identifier)) ∨
          ∀ {α : Type}, Unfailing (Except.error e : Except Fault α))) ∨
      ∃ v l', l = .asked action arguments (.response v) :: l' ∧ (f v).Does d l' r d' := by
  rcases h.bind (.call _ _ _) with ⟨e, rfl, hc⟩ | ⟨v, d₁, l₁, l₂, rfl, hc, hf⟩
  · obtain ⟨a, rfl, he, rfl⟩ := hc.call
    exact Or.inl ⟨a, e, rfl, rfl, rfl, Answer.trouble_of_told he.symm⟩
  · obtain ⟨a, rfl, ha, rfl⟩ := hc.call
    obtain rfl := Answer.eq_response_of_told ha.symm
    exact Or.inr ⟨v, l₂, rfl, hf⟩

theorem Run.Does.bind_call_ok {σ β : Type} {d d' : σ} {l : List Effect} {action : Action}
    {arguments : Members} {identifier : Value} {f : Value → Run σ β} {b : β}
    (h : (IamInventory.call action arguments identifier >>= f).Does d l (.ok b) d') :
    ∃ v l', l = .asked action arguments (.response v) :: l' ∧ (f v).Does d l' (.ok b) d' := by
  rcases h.bind_call with ⟨a, e, -, he, -⟩ | h
  · cases he
  · exact h

namespace LastAccessed

variable {σ : Type}

/-! ## The parts are steady -/

section Steady

variable {R : σ → σ → Prop} [IsPreorder σ R]

theorem steady_submitOne (identifier : Value) : (submitOne identifier : Run σ Value).Steady R :=
  (Run.Steady.call _ _ _).bind fun _ => (Run.Steady.ofFault _).bind fun _ =>
    (Run.Steady.note _ _ _).bind fun _ => .pure _

theorem steady_submit (identifiers : List Value) :
    (submit identifiers : Run σ (List Value)).Steady R :=
  .mapM fun _ _ => steady_submitOne _

/-- What is made of a response to a poll. -/
def judge (settings : Settings) (job : Job) (p : Polling) (response : Value) :
    Run σ (Polling ⊕ Value) := do
  let status ← Run.ofFault (response.memberOr "JobStatus" .null)
  if status.same (.text "COMPLETED") then pure (.inr response)
  else if status.same (.text "IN_PROGRESS") then
    let pending := p.pending + 1
    if exhausted settings pending then
      Run.fail (job.failure .jobTimeout (.text ("job " ++ job.id.shown ++
        s!" still IN_PROGRESS after {pending} checks")))
    else
      Run.note .debug .lastAccessed ("Job " ++ job.id.shown ++ " for " ++ job.identifier.shown ++
        " in progress, retrying in " ++ fixedText 2 p.delay ++ "s")
      Run.emit (.paused p.delay)
      pure (.inl ⟨nextDelay settings p.delay, pending⟩)
  else
    let detail ← Run.ofFault (job.failureDetail status response)
    Run.fail (job.failure .jobFailed detail)

/-- A poll is its call, and then its response is judged. -/
theorem poll_eq (settings : Settings) (job : Job) (p : Polling) :
    (poll settings job p : Run σ (Polling ⊕ Value)) =
      call details [("JobId", job.id)] job.identifier >>= judge settings job p := rfl

theorem steady_judge (settings : Settings) (job : Job) (p : Polling) (response : Value) :
    (judge settings job p response : Run σ (Polling ⊕ Value)).Steady R := by
  refine (Run.Steady.ofFault _).bind fun status => ?_
  split
  · exact .pure _
  · split
    · dsimp only
      split
      · exact .fail _
      · exact (Run.Steady.note _ _ _).bind fun _ => (Run.Steady.emit rfl).bind fun _ => .pure _
    · exact (Run.Steady.ofFault _).bind fun _ => .fail _

theorem steady_poll (settings : Settings) (job : Job) (p : Polling) :
    (poll settings job p : Run σ (Polling ⊕ Value)).Steady R :=
  (Run.Steady.call _ _ _).bind fun response => steady_judge settings job p response

/-- A poll that another one follows has been answered. -/
theorem productive_poll (settings : Settings) (job : Job) :
    Run.Productive (poll settings job : Polling → Run σ (Polling ⊕ Value)) := fun p _ _ _ h =>
  Run.size_lt_of_call
    (fun v => (steady_judge (R := fun _ _ => True) settings job p v).toLed) h

theorem steady_await (settings : Settings) (job : Job) :
    (await settings job : Run σ Value).Steady R :=
  .loop (steady_poll settings job) (productive_poll settings job) _

/-- What is made of the response to a page, after the entries up to it. -/
def gain (sofar : List Value) (response : Value) :
    Run σ ((Value × List Value) ⊕ List Value) := do
  let more ← Run.ofFault (entriesOf response)
  pure (.inl (response, sofar ++ more))

theorem steady_gain (sofar : List Value) (response : Value) :
    (gain sofar response : Run σ ((Value × List Value) ⊕ List Value)).Steady R :=
  (Run.Steady.ofFault _).bind fun _ => .pure _

/-- The next page is its call, and then its entries are put to the others, if there is one. -/
theorem nextPage_eq (job : Job) (sofar : Value × List Value) :
    (nextPage job sofar : Run σ ((Value × List Value) ⊕ List Value)) =
      Run.ofFault (Listing.nextMarker sofar.1) >>= fun
        | none => pure (.inr sofar.2)
        | some marker =>
          call details [("JobId", job.id), ("Marker", marker)] job.identifier >>= gain sofar.2 := by
  rfl

theorem steady_nextPage (job : Job) (sofar : Value × List Value) :
    (nextPage job sofar : Run σ ((Value × List Value) ⊕ List Value)).Steady R := by
  rw [nextPage_eq]
  refine (Run.Steady.ofFault _).bind fun marker => ?_
  cases marker with
  | none => exact .pure _
  | some marker => exact (Run.Steady.call _ _ _).bind fun v => steady_gain sofar.2 v

/-- A page that is asked for and comes has been answered. -/
theorem productive_nextPage (job : Job) : Run.Productive
    (nextPage job : Value × List Value → Run σ ((Value × List Value) ⊕ List Value)) := by
  intro sofar d s next h
  rw [nextPage_eq] at h ⊢
  cases hm : Listing.nextMarker sofar.1 with
  | error e =>
    rw [hm] at h
    cases h
  | ok marker =>
    rw [hm] at h
    cases marker with
    | none => cases h
    | some marker =>
      exact Run.size_lt_of_call
        (fun v => (steady_gain (R := fun _ _ => True) sofar.2 v).toLed) h

theorem steady_collect (job : Job) (first : Value) :
    (collect job first : Run σ (List Value)).Steady R :=
  (Run.Steady.ofFault _).bind fun _ =>
    .loop (steady_nextPage job) (productive_nextPage job) _

end Steady

/-! ## Polling -/

/-- Whether a response says that its job is in a state. -/
def Says (v : Value) (state : String) : Prop := v.memberOr "JobStatus" .null = .ok (.text state)

/-- The only value that is the same as a text is the text. -/
theorem eq_text_of_same {v : Value} {s : String} (h : v.same (.text s)) : v = .text s := by
  cases v with
  | text t =>
    rw [Value.same_text] at h
    exact congrArg Value.text (eq_of_beq h)
  | real x => cases x <;> exact Bool.noConfusion h
  | _ => exact Bool.noConfusion h

/-- The effects of polls that find a job in progress, each of them followed by a pause. -/
def waitEffects (settings : Settings) (job : Job) : Binary64 → List Value → List Effect
  | _, [] => []
  | delay, v :: vs =>
    .asked details [("JobId", job.id)] (.response v) :: .paused delay ::
      waitEffects settings job (nextDelay settings delay) vs

/-- Whether polls find a job in progress, and are not as many as are allowed, some polls having
    found it in progress before. -/
def Waited (settings : Settings) : Nat → List Value → Prop
  | _, [] => True
  | pending, v :: vs =>
    Says v "IN_PROGRESS" ∧ exhausted settings (pending + 1) = false ∧
      Waited settings (pending + 1) vs

/-- **How the waiting for a job ends** with the answer to one poll, after some polls that have found
    the job in progress. -/
inductive Ending (settings : Settings) (job : Job) (pending : Nat) :
    Answer → Except Fault Value → Prop where
  | completed {v : Value} :
      Says v "COMPLETED" → Ending settings job pending (.response v) (.ok v)
  | trouble {a : Answer} {t : Trouble} : a.settle details = .ok (.trouble t) →
      Ending settings job pending a (.error (.failure (t.failure details job.identifier)))
  | timeout {v : Value} {detail : Value} :
      Says v "IN_PROGRESS" → exhausted settings (pending + 1) →
      Ending settings job pending (.response v)
        (.error (.failure (job.failure .jobTimeout detail)))
  | failed {v status detail : Value} : v.memberOr "JobStatus" .null = .ok status →
      status ≠ .text "COMPLETED" → status ≠ .text "IN_PROGRESS" →
      job.failureDetail status v = .ok detail →
      Ending settings job pending (.response v)
        (.error (.failure (job.failure .jobFailed detail)))
  | fault {a : Answer} {e : Fault} : Unfailing (Except.error e : Except Fault Value) →
      Ending settings job pending a (.error e)

/-- **What one poll does**: it finds the job in progress and pauses, or it ends the waiting. -/
theorem poll_does {settings : Settings} {job : Job} {p : Polling} {d d' : σ} {l : List Effect}
    {r : Except Fault (Polling ⊕ Value)} (h : (poll settings job p).Does d l r d') :
    d' = d ∧ ((∃ v, Says v "IN_PROGRESS" ∧ exhausted settings (p.pending + 1) = false ∧
        l = [.asked details [("JobId", job.id)] (.response v), .paused p.delay] ∧
        r = .ok (.inl ⟨nextDelay settings p.delay, p.pending + 1⟩)) ∨
      ∃ a r', l = [.asked details [("JobId", job.id)] a] ∧ r = r'.map .inr ∧
        Ending settings job p.pending a r') := by
  rw [poll_eq] at h
  rcases h.bind_call with ⟨a, e, rfl, rfl, rfl, ⟨t, ht, rfl⟩ | hu⟩ | ⟨v, l', rfl, hj⟩
  · exact ⟨rfl, Or.inr ⟨a, .error _, rfl, rfl, .trouble ht⟩⟩
  · exact ⟨rfl, Or.inr ⟨a, .error e, rfl, rfl, .fault hu⟩⟩
  · rw [judge] at hj
    rcases hj.bind_ofFault with ⟨e, he, rfl, rfl, rfl⟩ | ⟨status, hstatus, hj⟩
    · exact ⟨rfl, Or.inr ⟨_, .error e, rfl, rfl,
        .fault (he ▸ Unfailing.memberOr v "JobStatus" .null)⟩⟩
    · split at hj
      · next hs =>
        obtain ⟨rfl, rfl, rfl⟩ := hj.pure
        exact ⟨rfl, Or.inr ⟨_, .ok v, rfl, rfl,
          .completed (hstatus.trans (congrArg _ (eq_text_of_same hs)))⟩⟩
      · next hc =>
        split at hj
        · next hs =>
          have hv : Says v "IN_PROGRESS" := hstatus.trans (congrArg _ (eq_text_of_same hs))
          dsimp only at hj
          split at hj
          · next hx =>
            obtain ⟨rfl, rfl, rfl⟩ := hj.fault
            exact ⟨rfl, Or.inr ⟨_, .error _, rfl, rfl, .timeout hv hx⟩⟩
          · next hx =>
            have hj := hj.bind_note
            rcases hj.bind (Run.Steady.emit (R := fun _ _ => True) rfl).toLed with
              ⟨e, rfl, he⟩ | ⟨_, d₂, l₃, l₄, rfl, he, hp⟩
            · obtain ⟨-, he, -⟩ := he.pause
              cases he
            · obtain ⟨rfl, -, rfl⟩ := he.pause
              obtain ⟨rfl, rfl, rfl⟩ := hp.pure
              exact ⟨rfl, Or.inl ⟨v, hv, by simpa using hx, rfl, rfl⟩⟩
        · next hp =>
          rcases hj.bind_ofFault with ⟨e, he, rfl, rfl, rfl⟩ | ⟨detail, hd, hj⟩
          · exact ⟨rfl, Or.inr ⟨_, .error e, rfl, rfl,
              .fault (he ▸ Unfailing.failureDetail job status v)⟩⟩
          · obtain ⟨rfl, rfl, rfl⟩ := hj.fault
            refine ⟨rfl, Or.inr ⟨_, .error _, rfl, rfl, .failed hstatus ?_ ?_ hd⟩⟩
            -- a text is the same as itself, so that the tests would have held
            · rintro rfl
              exact hc (by simp [Value.same_text])
            · rintro rfl
              exact hp (by simp [Value.same_text])

/-- The polls that find a job in progress, from any state of the polling on. -/
theorem turned_poll_does {settings : Settings} {job : Job} {p : Polling} {d d' : σ}
    {l : List Effect} {r : Except Fault Value} (h : Run.Turned (poll settings job) p d l r d') :
    d' = d ∧ ∃ waiting a, Waited settings p.pending waiting ∧
      l = waitEffects settings job p.delay waiting ++ [.asked details [("JobId", job.id)] a] ∧
      Ending settings job (p.pending + waiting.length) a r := by
  induction h with
  | ended h =>
    obtain ⟨rfl, ⟨v, -, -, -, hr⟩ | ⟨a, r', rfl, hr, ha⟩⟩ := poll_does h
    · cases hr
    · cases r' with
      | error e => cases hr
      | ok v =>
        cases hr
        exact ⟨rfl, [], a, trivial, rfl, ha⟩
  | broken h =>
    obtain ⟨rfl, ⟨v, -, -, -, hr⟩ | ⟨a, r', rfl, hr, ha⟩⟩ := poll_does h
    · cases hr
    · cases r' with
      | ok v => cases hr
      | error e =>
        cases hr
        exact ⟨rfl, [], a, trivial, rfl, ha⟩
  -- one more poll in front of those that the rest of the loop makes
  | turn h _ ih =>
    obtain ⟨rfl, ⟨v, hv, hx, rfl, hr⟩ | ⟨a, r', -, hr, -⟩⟩ := poll_does h
    · cases hr
      obtain ⟨rfl, waiting, a, hw, rfl, ha⟩ := ih
      refine ⟨rfl, v :: waiting, a, ⟨hv, hx, hw⟩, rfl, ?_⟩
      rw [List.length_cons, Nat.add_comm waiting.length, ← Nat.add_assoc]
      exact ha
    · cases r' <;> cases hr

/-- **The polls of a job**: some find it in progress, and one ends the waiting. -/
theorem await_does {settings : Settings} {job : Job} {d d' : σ} {l : List Effect}
    {r : Except Fault Value} (h : (await settings job).Does d l r d') :
    d' = d ∧ ∃ waiting a, Waited settings 0 waiting ∧
      l = waitEffects settings job settings.pollInterval waiting ++
        [.asked details [("JobId", job.id)] a] ∧
      Ending settings job waiting.length a r := by
  have := turned_poll_does (h.loop
    (fun p => (steady_poll (R := fun _ _ => True) settings job p).toLed)
    (productive_poll settings job))
  simpa using this

/-! ## Paging -/

/-- The marker in a response, null if there is none. -/
def markerOf : Value → Value
  | .object ms => Members.get ms "Marker"
  | _ => .null

/-- The marker of the next page is the one in the response. -/
theorem eq_markerOf_of_nextMarker {v marker : Value}
    (h : Listing.nextMarker v = .ok (some marker)) : marker = markerOf v := by
  cases v with
  | object ms =>
    simp only [Listing.nextMarker, Value.memberOr, Value.members, bind, Except.bind] at h
    split at h
    · cases h
      rfl
    · cases h
  | _ => cases h

/-- Whether every page tells of the one after it. -/
def Linked : Value → List Value → Prop
  | _, [] => True
  | v, w :: ws => Listing.nextMarker v = .ok (some (markerOf v)) ∧ Linked w ws

/-- The call for the page after a page. -/
def askPage (job : Job) (v : Value) (a : Answer) : Effect :=
  .asked details [("JobId", job.id), ("Marker", markerOf v)] a

/-- The effects of asking for the pages after a page, each with the marker of the one before it. -/
def pageEffects (job : Job) : Value → List Value → List Effect
  | _, [] => []
  | v, w :: ws => askPage job v (.response w) :: pageEffects job w ws

/-- The entries of pages, one page after another. -/
def entriesOfPages : List Value → Except Fault (List Value)
  | [] => .ok []
  | v :: vs => do .ok ((← entriesOf v) ++ (← entriesOfPages vs))

/-- **How paging ends** after some pages that have come since a page. -/
inductive Finish (job : Job) (v : Value) (pages : List Value) :
    List Effect → Except Fault (List Value) → Prop where
  | complete {entries : List Value} :
      Listing.nextMarker (pages.getLastD v) = .ok none → entriesOfPages pages = .ok entries →
      Finish job v pages [] (.ok entries)
  | trouble {a : Answer} {t : Trouble} :
      Listing.nextMarker (pages.getLastD v) = .ok (some (markerOf (pages.getLastD v))) →
      a.settle details = .ok (.trouble t) →
      Finish job v pages [askPage job (pages.getLastD v) a]
        (.error (.failure (t.failure details job.identifier)))
  | fault {l : List Effect} {e : Fault} :
      Unfailing (Except.error e : Except Fault (List Value)) → Finish job v pages l (.error e)

/-- How paging ends after one more page in front. -/
theorem Finish.cons {job : Job} {v w : Value} {pages : List Value} {l : List Effect}
    {r : Except Fault (List Value)} {more : List Value} (hw : entriesOf w = .ok more)
    (h : Finish job w pages l r) : Finish job v (w :: pages) l (r.map (more ++ ·)) := by
  cases h with
  | complete hl he =>
    refine .complete (by rwa [List.getLastD_cons]) ?_
    simp only [entriesOfPages, hw, he, bind, Except.bind]
  | trouble hl ht =>
    have he : (w :: pages).getLastD v = pages.getLastD w := List.getLastD_cons
    rw [← he] at hl ⊢
    exact .trouble hl ht
  | fault hu => exact .fault hu

/-- **What asking for one page does**: there is none, or its entries are put to the others, or
    paging has ended. -/
theorem nextPage_does {job : Job} {sofar : Value × List Value} {d d' : σ} {l : List Effect}
    {r : Except Fault ((Value × List Value) ⊕ List Value)}
    (h : (nextPage job sofar).Does d l r d') :
    d' = d ∧ ((∃ w more, Listing.nextMarker sofar.1 = .ok (some (markerOf sofar.1)) ∧
        l = [askPage job sofar.1 (.response w)] ∧ entriesOf w = .ok more ∧
        r = .ok (.inl (w, sofar.2 ++ more))) ∨
      ∃ r', r = r'.map (fun more => .inr (sofar.2 ++ more)) ∧ Finish job sofar.1 [] l r') := by
  rw [nextPage_eq] at h
  rcases h.bind_ofFault with ⟨e, he, rfl, rfl, rfl⟩ | ⟨marker, hm, h⟩
  · exact ⟨rfl, Or.inr ⟨.error e, rfl, .fault fun f hf => Unfailing.nextMarker sofar.1 f <| by
      cases hf
      exact he⟩⟩
  cases marker with
  | none =>
    obtain ⟨rfl, rfl, rfl⟩ := h.pure
    refine ⟨rfl, Or.inr ⟨.ok [], ?_, .complete hm rfl⟩⟩
    simp only [Except.map, List.append_nil]
  | some marker =>
    obtain rfl := eq_markerOf_of_nextMarker hm
    rcases h.bind_call with ⟨a, e, rfl, rfl, rfl, ⟨t, ht, rfl⟩ | hu⟩ | ⟨w, l', rfl, hg⟩
    · exact ⟨rfl, Or.inr ⟨.error _, rfl, .trouble hm ht⟩⟩
    · exact ⟨rfl, Or.inr ⟨.error e, rfl, .fault hu⟩⟩
    · rw [gain] at hg
      rcases hg.bind_ofFault with ⟨e, he, rfl, rfl, rfl⟩ | ⟨more, hmore, hg⟩
      · exact ⟨rfl, Or.inr ⟨.error e, rfl, .fault fun f hf => Unfailing.entriesOf w f <| by
          cases hf
          exact he⟩⟩
      · obtain ⟨rfl, rfl, rfl⟩ := hg.pure
        exact ⟨rfl, Or.inl ⟨w, more, hm, rfl, hmore, rfl⟩⟩

/-- The pages after a page, from any entries on. -/
theorem turned_nextPage_does {job : Job} {sofar : Value × List Value} {d d' : σ}
    {l : List Effect} {r : Except Fault (List Value)}
    (h : Run.Turned (nextPage job) sofar d l r d') :
    d' = d ∧ ∃ pages l' r', Linked sofar.1 pages ∧ l = pageEffects job sofar.1 pages ++ l' ∧
      r = r'.map (sofar.2 ++ ·) ∧ Finish job sofar.1 pages l' r' := by
  induction h with
  | @ended sofar _ _ l _ h =>
    obtain ⟨rfl, ⟨w, more, -, -, -, hr⟩ | ⟨r', hr, hf⟩⟩ := nextPage_does h
    · cases hr
    · refine ⟨rfl, [], l, r', trivial, rfl, ?_, hf⟩
      cases r' with
      | error e => cases hr
      | ok more =>
        cases hr
        rfl
  | @broken sofar _ _ l _ h =>
    obtain ⟨rfl, ⟨w, more, -, -, -, hr⟩ | ⟨r', hr, hf⟩⟩ := nextPage_does h
    · cases hr
    · refine ⟨rfl, [], l, r', trivial, rfl, ?_, hf⟩
      cases r' with
      | ok more => cases hr
      | error e =>
        cases hr
        rfl
  -- one more page in front of those that the rest of the loop asks for
  | @turn sofar _ _ _ _ _ _ _ h _ ih =>
    obtain ⟨rfl, ⟨w, more, hm, rfl, hmore, hr⟩ | ⟨r', hr, -⟩⟩ := nextPage_does h
    · cases hr
      obtain ⟨rfl, pages, l', r', hl, rfl, rfl, hf⟩ := ih
      refine ⟨rfl, w :: pages, l', r'.map (more ++ ·), ⟨hm, hl⟩, rfl, ?_, hf.cons hmore⟩
      cases r' <;> simp only [Except.map, List.append_assoc]
    · cases r' <;> cases hr

/-- **The pages of a job** after its first one. -/
theorem collect_does {job : Job} {first : Value} {d d' : σ} {l : List Effect}
    {r : Except Fault (List Value)} (h : (collect job first).Does d l r d') :
    d' = d ∧ ((∃ pages entries, Linked first pages ∧
        Listing.nextMarker (pages.getLastD first) = .ok none ∧
        l = pageEffects job first pages ∧ entriesOfPages (first :: pages) = .ok entries ∧
        r = .ok entries) ∨
      (∃ pages a t, Linked first pages ∧
        Listing.nextMarker (pages.getLastD first) = .ok (some (markerOf (pages.getLastD first))) ∧
        l = pageEffects job first pages ++ [askPage job (pages.getLastD first) a] ∧
        a.settle details = .ok (.trouble t) ∧
        r = .error (.failure (t.failure details job.identifier))) ∨
      ∃ e, r = .error e ∧ Unfailing (Except.error e : Except Fault (List Value))) := by
  rw [collect] at h
  rcases h.bind_ofFault with ⟨e, he, rfl, rfl, rfl⟩ | ⟨more, hmore, h⟩
  · exact ⟨rfl, Or.inr (Or.inr ⟨e, rfl, he ▸ Unfailing.entriesOf first⟩)⟩
  · obtain ⟨rfl, pages, l', r', hl, rfl, rfl, hf⟩ := turned_nextPage_does (h.loop
      (fun sofar => (steady_nextPage (R := fun _ _ => True) job sofar).toLed)
      (productive_nextPage job))
    refine ⟨rfl, ?_⟩
    cases hf with
    | @complete entries hn he =>
      refine Or.inl ⟨pages, more ++ entries, hl, hn, List.append_nil _, ?_, rfl⟩
      simp only [entriesOfPages, hmore, he, bind, Except.bind]
    | trouble hn ht => exact Or.inr (Or.inl ⟨pages, _, _, hl, hn, rfl, ht, rfl⟩)
    | fault hu => exact Or.inr (Or.inr ⟨_, rfl, hu⟩)

end LastAccessed

end IamInventory

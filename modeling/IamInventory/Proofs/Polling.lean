import IamInventory.Proofs.Completeness
import IamInventory.Proofs.Rounding
import IamInventory.Proofs.Rules
import IamInventory.Proofs.Turns

/-!
# Polling — how often a job is asked for, and how long the pauses are

  A job is polled until a poll does not find it in progress any more, or until as many polls as are
  allowed have found it so. Between two polls there is a pause. The first one is as long as the
  settings say, and each one is longer than the one before it by the backoff, up to the greatest
  one.

* **`LastAccessed.delay`** — how long a pause is; **`LastAccessed.exists_delays`** — that pauses do
  not become shorter, and stay between the first one and the greatest one.
* **`LastAccessed.Verdict`** — what a poll comes to that does not find the job in progress.
* **`LastAccessed.await_of_verdict`**, **`LastAccessed.await_of_bound`** — the two ways in which
  polling ends.
-/

namespace IamInventory

/-- The pauses among effects. -/
def Effect.pauses (l : List Effect) : List Number.Binary64 :=
  l.filterMap fun
    | .asked _ _ _ => none
    | .paused delay => some delay

theorem Effect.pauses_append (l k : List Effect) :
    Effect.pauses (l ++ k) = Effect.pauses l ++ Effect.pauses k := List.filterMap_append

theorem Effect.pauses_flatMap {α : Type} (l : List α) (k : α → List Effect) :
    Effect.pauses (l.flatMap k) = l.flatMap fun a => Effect.pauses (k a) := List.filterMap_flatMap

/-- The pauses among the effects of a trace are its pauses. -/
theorem Script.pauses_effects (s : Script) (t : Trace) :
    Effect.pauses (s.effects t) = t.pauses := by
  induction t generalizing s with
  | nil => rfl
  | cons e t ih =>
    simp only [Effect.pauses, Trace.pauses] at ih
    cases e <;> simp only [effects, Effect.pauses, Trace.pauses, List.filterMap_cons, ih]

end IamInventory

namespace IamInventory.LastAccessed

open Number

variable {σ : Type} {settings : Settings} {job : Job}

/-! ## Pauses -/

/-- **The length of a pause** that comes after some others: the first one is as long as the
    settings say, and each one is the one before it times the backoff, or the greatest one if that
    is less. -/
def delay (settings : Settings) : Nat → Binary64
  | 0 => settings.pollInterval
  | n + 1 => ((delay settings n).mul settings.pollBackoff).lesser settings.maxPollInterval

/-- The delay after a delay is the next one of these. -/
theorem nextDelay_delay (settings : Settings) (n : Nat) :
    nextDelay settings (delay settings n) = delay settings (n + 1) := rfl

/-- The lengths of the first pauses. -/
def delays (settings : Settings) (n : Nat) : List Binary64 := (List.range n).map (delay settings)

theorem rank_zero : (Binary64.ofInt 0).rank = some 0 := by decide +kernel

theorem rank_one : (Binary64.ofInt 1).rank = some (Binary64.unit : Int) := by decide +kernel

/-- What is not less than a number, by their places. -/
theorem le_of_not_less {a b : Binary64} {x y : Int} (h : a.less b = false) (ha : a.rank = some x)
    (hb : b.rank = some y) : y ≤ x := by
  simp only [Binary64.less, ha, hb, decide_eq_false_iff_not] at h
  exact Int.not_lt.mp h

section Delays

variable {first factor greatest : Int}

/-- One pause after another is not shorter, and not longer than the greatest one. -/
theorem exists_rank_nextDelay (hs : settings.Passes)
    (hfactor : settings.pollBackoff.rank = some factor) (hfactor' : factor.natAbs < Binary64.bound)
    (hgreatest : settings.maxPollInterval.rank = some greatest)
    (hgreatest' : greatest.natAbs < Binary64.bound) {d : Binary64} {x : Int}
    (hd : d.rank = some x) (hx : 0 ≤ x) (hx' : x ≤ greatest) :
    ∃ y, (nextDelay settings d).rank = some y ∧ x ≤ y ∧ y ≤ greatest := by
  have hone : (Binary64.unit : Int) ≤ factor := le_of_not_less hs.backoff hfactor rank_one
  obtain ⟨z, hz, hxz⟩ := Binary64.exists_rank_mul hd hx (by omega) hfactor hone (by omega)
  exact ⟨min z greatest, Binary64.rank_lesser hz hgreatest, by omega, by omega⟩

theorem exists_rank_delay (hs : settings.Passes)
    (hfirst : settings.pollInterval.rank = some first)
    (hfactor : settings.pollBackoff.rank = some factor) (hfactor' : factor.natAbs < Binary64.bound)
    (hgreatest : settings.maxPollInterval.rank = some greatest)
    (hgreatest' : greatest.natAbs < Binary64.bound) (n : Nat) :
    ∃ x, (delay settings n).rank = some x ∧ first ≤ x ∧ x ≤ greatest := by
  have hzero : 0 ≤ first := le_of_not_less hs.interval hfirst rank_zero
  induction n with
  | zero => exact ⟨first, hfirst, Int.le_refl _, le_of_not_less hs.greatest hgreatest hfirst⟩
  | succ n ih =>
    obtain ⟨x, hx, hlow, hhigh⟩ := ih
    obtain ⟨y, hy, hxy, hyg⟩ := exists_rank_nextDelay hs hfactor hfactor' hgreatest hgreatest' hx
      (Int.le_trans hzero hlow) hhigh
    rw [nextDelay_delay] at hy
    exact ⟨y, hy, Int.le_trans hlow hxy, hyg⟩

end Delays

/-- **Pauses do not become shorter**, and they stay between the first one and the greatest one,
    where all numbers of the settings are finite. -/
theorem exists_delays (hs : settings.Passes) {first factor greatest : ℚ}
    (hfirst : settings.pollInterval.toRat? = some first)
    (hfactor : settings.pollBackoff.toRat? = some factor)
    (hgreatest : settings.maxPollInterval.toRat? = some greatest) :
    ∃ q : Nat → ℚ, (∀ n, (delay settings n).toRat? = some (q n)) ∧ Monotone q ∧
      ∀ n, first ≤ q n ∧ q n ≤ greatest := by
  obtain ⟨x₀, hx₀, -, rfl⟩ := Binary64.rank_of_toRat? hfirst
  obtain ⟨b, hb, hb', -⟩ := Binary64.rank_of_toRat? hfactor
  obtain ⟨g, hg, hg', rfl⟩ := Binary64.rank_of_toRat? hgreatest
  have hzero : 0 ≤ x₀ := le_of_not_less hs.interval hx₀ rank_zero
  have hplaces := exists_rank_delay hs hx₀ hb hb' hg hg'
  choose x hx hlow hhigh using hplaces
  have hunit : (0 : ℚ) ≤ Binary64.unit := Nat.cast_nonneg _
  have hstep (n : Nat) : x n ≤ x (n + 1) := by
    obtain ⟨y, hy, hxy, -⟩ := exists_rank_nextDelay hs hb hb' hg hg' (hx n)
      (Int.le_trans hzero (hlow n)) (hhigh n)
    have hnext := hx (n + 1)
    rw [← nextDelay_delay, hy] at hnext
    exact Option.some.inj hnext ▸ hxy
  refine ⟨fun n => (x n : ℚ) / Binary64.unit, fun n => ?_, ?_, fun n => ⟨?_, ?_⟩⟩
  · refine Binary64.toRat?_of_rank (hx n) ?_
    have := hlow n
    have := hhigh n
    omega
  · exact monotone_nat_of_le_succ fun n =>
      div_le_div_of_nonneg_right (Rat.intCast_le_intCast.mpr (hstep n)) hunit
  · exact div_le_div_of_nonneg_right (Rat.intCast_le_intCast.mpr (hlow n)) hunit
  · exact div_le_div_of_nonneg_right (Rat.intCast_le_intCast.mpr (hhigh n)) hunit

/-! ## Single polls -/

/-- Whether an answer finds a job in progress. -/
def FindsPending (a : Answer) : Prop := ∃ v, a = .response v ∧ Says v "IN_PROGRESS"

/-- **What a poll comes to that does not find its job in progress**: the response of a job that has
    completed, the failure of one in any other state, or the failure of the call. -/
inductive Verdict (job : Job) : Answer → Except Fault Value → Prop where
  | completed {v : Value} : Says v "COMPLETED" → Verdict job (.response v) (.ok v)
  | failed {v status detail : Value} : v.memberOr "JobStatus" .null = .ok status →
      status ≠ .text "COMPLETED" → status ≠ .text "IN_PROGRESS" →
      job.failureDetail status v = .ok detail →
      Verdict job (.response v) (.error (.failure (job.failure .jobFailed detail)))
  | refused {a : Answer} {t : Trouble} : a.settle details = .ok (.trouble t) →
      Verdict job a (.error (.failure (t.failure details job.identifier)))

/-- Whether a call has failed, or its response is an object in which an error is one, too. -/
def Tells (a : Answer) : Prop :=
  (∃ t, a.settle details = .ok (.trouble t)) ∨
    ∃ ms : Members, a = .response (.object ms) ∧ ms.HoldsObject "Error"

/-- Why a job has failed can be told, if an error in the response is an object. -/
theorem exists_failureDetail (job : Job) (status : Value) {ms : Members}
    (h : ms.HoldsObject "Error") :
    ∃ detail, job.failureDetail status (.object ms) = .ok detail := by
  have herror : (Value.object ms).memberOr "Error" .null =
      .ok ((ms.get? "Error").getD .null) := rfl
  simp only [Job.failureDetail, herror, bind, Except.bind]
  rcases h.getD with hnull | ⟨error, hobject⟩
  · rw [hnull]
    exact ⟨_, rfl⟩
  · rw [hobject]
    split <;> exact ⟨_, rfl⟩

/-- **Every answer that tells something comes to a verdict**, or finds the job in progress. -/
theorem exists_verdict (job : Job) {a : Answer} (ha : Tells a) (hp : ¬ FindsPending a) :
    ∃ r, Verdict job a r := by
  rcases ha with ⟨t, ht⟩ | ⟨ms, rfl, herror⟩
  · exact ⟨_, .refused ht⟩
  have hstatus : (Value.object ms).memberOr "JobStatus" .null =
      .ok ((ms.get? "JobStatus").getD .null) := rfl
  by_cases hc : (ms.get? "JobStatus").getD .null = .text "COMPLETED"
  · exact ⟨_, .completed (hstatus.trans (congrArg _ hc))⟩
  · obtain ⟨detail, hdetail⟩ := exists_failureDetail job ((ms.get? "JobStatus").getD .null) herror
    refine ⟨_, .failed hstatus hc (fun hi => hp ⟨_, rfl, ?_⟩) hdetail⟩
    exact hstatus.trans (congrArg _ hi)

/-- The words of a job that as many polls as are allowed have found in progress. -/
def timeout (job : Job) (n : Nat) : Failure :=
  job.failure .jobTimeout
    (.text ("job " ++ job.id.shown ++ s!" still IN_PROGRESS after {n} checks"))

section Polls

variable {p : Polling} {d : σ} {s : Script} {i : Nat} {v : Value}

/-- What is made of a response that says its job's state. -/
theorem judge_of_status {status : Value} (h : v.memberOr "JobStatus" .null = .ok status) :
    (judge settings job p v : Run σ (Polling ⊕ Value)) =
      (if status.same (.text "COMPLETED") then pure (.inr v)
      else if status.same (.text "IN_PROGRESS") then
        if exhausted settings (p.pending + 1) then
          Run.fail (timeout job (p.pending + 1))
        else
          Run.note .debug .lastAccessed
            ("Job " ++ job.id.shown ++ " for " ++ job.identifier.shown ++
              " in progress, retrying in " ++ fixedText 2 p.delay ++ "s") >>= fun _ =>
          Run.emit (.paused p.delay) >>= fun _ =>
          pure (.inl ⟨nextDelay settings p.delay, p.pending + 1⟩)
      else Run.ofFault (job.failureDetail status v) >>= fun detail =>
        Run.fail (job.failure .jobFailed detail)) := by
  rw [judge, h]
  rfl

/-- A response that says that its job has completed is the result. -/
theorem judge_of_completed (h : Says v "COMPLETED") :
    (judge settings job p v : Run σ (Polling ⊕ Value)) = pure (.inr v) := by
  rw [judge_of_status h, Value.same_text, beq_self_eq_true, if_pos rfl]

/-- After a response that says that its job is in progress there is a pause, unless as many as are
    allowed have said so. -/
theorem judge_of_pending (h : Says v "IN_PROGRESS") :
    (judge settings job p v : Run σ (Polling ⊕ Value)) =
      (if exhausted settings (p.pending + 1) then
        Run.fail (timeout job (p.pending + 1))
      else
        Run.note .debug .lastAccessed
          ("Job " ++ job.id.shown ++ " for " ++ job.identifier.shown ++
            " in progress, retrying in " ++ fixedText 2 p.delay ++ "s") >>= fun _ =>
        Run.emit (.paused p.delay) >>= fun _ =>
        pure (.inl ⟨nextDelay settings p.delay, p.pending + 1⟩)) := by
  have hne : ("IN_PROGRESS" == "COMPLETED") = false := by decide
  rw [judge_of_status h, Value.same_text, hne, if_neg Bool.false_ne_true, Value.same_text,
    beq_self_eq_true, if_pos rfl]

/-- A poll is judged by its response, after its call. -/
theorem poll_of_response (ha : s.nth details i = .response v) :
    poll settings job p d (s.skip details i) =
      (judge settings job p v d (s.skip details (i + 1))).behind
        [.called details [("JobId", job.id)]] := by
  have hcall := call_skip details [("JobId", job.id)] job.identifier d s i
  have hok : (call details [("JobId", job.id)] job.identifier d (s.skip details i)).result =
      .ok v := by
    rw [hcall, ha]
    rfl
  rw [poll_eq, Run.bind_of_ok hok, hcall]
  rfl

variable (settings job p d)

/-- **A poll that finds its job in progress pauses**, unless as many as are allowed have done so. -/
theorem poll_of_pending (ha : FindsPending (s.nth details i))
    (hx : exhausted settings (p.pending + 1) = false) :
    ∃ record, poll settings job p d (s.skip details i) =
      ⟨.ok (.inl ⟨nextDelay settings p.delay, p.pending + 1⟩), d, s.skip details (i + 1),
        [.called details [("JobId", job.id)], .noted record, .paused p.delay]⟩ := by
  obtain ⟨v, ha, hv⟩ := ha
  rw [poll_of_response ha, judge_of_pending hv, hx]
  exact ⟨_, rfl⟩

/-- The last poll that is allowed ends the waiting, if it finds its job in progress. -/
theorem poll_of_bound (ha : FindsPending (s.nth details i))
    (hx : exhausted settings (p.pending + 1)) :
    poll settings job p d (s.skip details i) =
      ⟨.error (.failure (timeout job (p.pending + 1))), d, s.skip details (i + 1),
        [.called details [("JobId", job.id)]]⟩ := by
  obtain ⟨v, ha, hv⟩ := ha
  rw [poll_of_response ha, judge_of_pending hv, hx]
  rfl

/-- **A poll that does not find its job in progress ends the waiting**, as its verdict says. -/
theorem poll_of_verdict {job : Job} {r : Except Fault Value}
    (ha : Verdict job (s.nth details i) r) :
    poll settings job p d (s.skip details i) =
      ⟨r.map .inr, d, s.skip details (i + 1), [.called details [("JobId", job.id)]]⟩ := by
  generalize h : s.nth details i = a at ha
  cases ha with
  | completed hv =>
    rw [poll_of_response h, judge_of_completed hv]
    rfl
  | failed hstatus hc hp hdetail =>
    have hc := Bool.eq_false_iff.mpr fun h => hc (eq_text_of_same h)
    have hp := Bool.eq_false_iff.mpr fun h => hp (eq_text_of_same h)
    rw [poll_of_response h, judge_of_status hstatus, hc, hp, hdetail]
    rfl
  | @refused a t ht =>
    have hcall := call_skip details [("JobId", job.id)] job.identifier d s i
    have htold : a.told details job.identifier =
        .error (.failure (t.failure details job.identifier)) := by
      rw [Answer.told, ht]
    rw [h, htold] at hcall
    rw [poll_eq, Run.bind_of_error (congrArg Outcome.result hcall), hcall]
    rfl

end Polls

/-! ## Waiting -/

section Waiting

variable (settings job) (d : σ) {s : Script} {k : Nat}

/-- How polling stands after some polls that have found the job in progress. -/
def standing (settings : Settings) (i : Nat) : Polling := ⟨delay settings i, i⟩

/-- **Polls that find the job in progress** come before the one that does not, each of them followed
    by its pause. -/
theorem await_of_pending (hp : ∀ i < k, FindsPending (s.nth details i))
    (hx : ∀ i < k, exhausted settings (i + 1) = false) :
    ∃ t : Trace, t.calls = List.replicate k (details, [("JobId", job.id)]) ∧
      t.pauses = delays settings k ∧
      await settings job d s =
        (Run.loop (poll settings job) (standing settings k) d (s.skip details k)).behind t := by
  have hturn (i : Nat) (hi : i < k) := poll_of_pending settings job
    (standing settings i) d (hp i hi) (hx i hi)
  refine ⟨(List.range k).flatMap fun i =>
    (poll settings job (standing settings i) d (s.skip details i)).trace, ?_, ?_, ?_⟩
  · have hcalls : ∀ i < k, (poll settings job (standing settings i) d
        (s.skip details i)).trace.calls = [(details, [("JobId", job.id)])] := by
      intro i hi
      obtain ⟨record, h⟩ := hturn i hi
      rw [h]
      rfl
    rw [Trace.calls_turns hcalls, List.map_const', List.length_range]
  · refine Trace.pauses_turns fun i hi => ?_
    obtain ⟨record, h⟩ := hturn i hi
    rw [h]
    rfl
  · refine Run.loop_of_turns (b := standing settings) (d := fun _ => d) (s := s.skip details) ?_ ?_
    · intro i hi
      obtain ⟨record, h⟩ := hturn i hi
      rw [h]
      exact ⟨rfl, rfl, rfl⟩
    · intro i hi
      obtain ⟨v, hv, -⟩ := hp i hi
      exact Script.size_skip_lt (hv ▸ response_ne_unscripted v)

/-- **Waiting for a job that is not in progress in the end**: one more poll than have found it
    so. -/
theorem await_of_verdict {r : Except Fault Value} (hp : ∀ i < k, FindsPending (s.nth details i))
    (hx : ∀ i < k, exhausted settings (i + 1) = false)
    (hr : Verdict job (s.nth details k) r) :
    (await settings job d s).result = r ∧
      (await settings job d s).trace.calls =
        List.replicate (k + 1) (details, [("JobId", job.id)]) ∧
      (await settings job d s).trace.pauses = delays settings k := by
  obtain ⟨t, hcalls, hpauses, h⟩ := await_of_pending settings job d hp hx
  have hlast := poll_of_verdict settings (standing settings k) d hr
  have hend : Run.loop (poll settings job) (standing settings k) d (s.skip details k) =
      ⟨r, d, s.skip details (k + 1), [.called details [("JobId", job.id)]]⟩ := by
    cases r with
    | ok v =>
      have hdone := congrArg Outcome.result hlast
      rw [Run.loop_of_done hdone, hlast]
    | error e =>
      have hdone := congrArg Outcome.result hlast
      rw [Run.loop_of_error hdone, hlast]
  rw [h, hend]
  refine ⟨rfl, ?_, ?_⟩
  · simp only [Outcome.behind, Trace.calls_append, hcalls, List.replicate_succ']
    rfl
  · simp only [Outcome.behind, Trace.pauses_append, hpauses]
    exact List.append_nil _

/-- **Waiting for a job that is in progress for too long**: as many polls as are allowed. -/
theorem await_of_bound (hp : ∀ i < k + 1, FindsPending (s.nth details i))
    (hx : ∀ i < k, exhausted settings (i + 1) = false) (hk : exhausted settings (k + 1)) :
    (await settings job d s).result = .error (.failure (timeout job (k + 1))) ∧
      (await settings job d s).trace.calls =
        List.replicate (k + 1) (details, [("JobId", job.id)]) ∧
      (await settings job d s).trace.pauses = delays settings k := by
  obtain ⟨t, hcalls, hpauses, h⟩ :=
    await_of_pending settings job d (fun i hi => hp i (Nat.lt_succ_of_lt hi)) hx
  have hlast := poll_of_bound settings job (standing settings k) d (hp k (Nat.lt_succ_self k)) hk
  rw [h, Run.loop_of_error (congrArg Outcome.result hlast), hlast]
  refine ⟨rfl, ?_, ?_⟩
  · simp only [Outcome.behind, Trace.calls_append, hcalls, List.replicate_succ']
    rfl
  · simp only [Outcome.behind, Trace.pauses_append, hpauses]
    exact List.append_nil _

end Waiting

/-! ## Jobs one after another -/

/-- What is asked for one job: the responses that find it in progress, the answer to the poll that
    ends the waiting, and what comes after that, which is no pause. -/
structure Stint (settings : Settings) where
  job : Job
  waiting : List Value
  answer : Answer
  pages : List Effect
  waited : Waited settings 0 waiting
  ended : ∃ r, Ending settings job waiting.length answer r
  paged : Effect.pauses pages = []

/-- The effects of what is asked for one job. -/
def Stint.effects (w : Stint settings) : List Effect :=
  pollEffects settings w.job w.waiting w.answer ++ w.pages

/-- The pauses between polls from one of them on. -/
theorem pauses_waitEffects (settings : Settings) (job : Job) (n : Nat) (waiting : List Value) :
    Effect.pauses (waitEffects settings job (delay settings n) waiting) =
      (List.range' n waiting.length).map (delay settings) := by
  induction waiting generalizing n with
  | nil => rfl
  | cons v waiting ih =>
    rw [List.length_cons, List.range'_succ, List.map_cons, ← ih (n + 1)]
    rfl

/-- **The pauses for one job** are the first ones, as many as find it in progress. -/
theorem Stint.pauses_effects (w : Stint settings) :
    Effect.pauses w.effects = delays settings w.waiting.length := by
  have hpolls : Effect.pauses (pollEffects settings w.job w.waiting w.answer) =
      delays settings w.waiting.length := by
    rw [pollEffects, Effect.pauses_append, delays, List.range_eq_range']
    exact (List.append_nil _).trans (pauses_waitEffects settings w.job 0 w.waiting)
  rw [Stint.effects, Effect.pauses_append, hpolls, w.paged, List.append_nil]

section Work

variable {l : List Effect}

/-- Asking for a page is no pause. -/
theorem pauses_nextPage {sofar : Value × List Value} {d d' : σ}
    {r : Except Fault ((Value × List Value) ⊕ List Value)}
    (h : (nextPage job sofar).Does d l r d') : Effect.pauses l = [] := by
  rw [nextPage_eq] at h
  rcases h.bind_ofFault with ⟨e, -, -, rfl, -⟩ | ⟨marker, -, h⟩
  · rfl
  cases marker with
  | none =>
    obtain ⟨rfl, -, -⟩ := h.pure
    rfl
  | some marker =>
    rcases h.bind_call with ⟨a, e, rfl, -⟩ | ⟨v, l', rfl, hgain⟩
    · rfl
    · rcases hgain.bind_ofFault with ⟨e, -, -, rfl, -⟩ | ⟨more, -, hgain⟩
      · rfl
      · obtain ⟨rfl, -, -⟩ := hgain.pure
        rfl

/-- Asking for all pages is no pause. -/
theorem pauses_collect {first : Value} {d d' : σ} {r : Except Fault (List Value)}
    (h : (collect job first).Does d l r d') : Effect.pauses l = [] := by
  rcases h.bind_ofFault with ⟨e, -, -, rfl, -⟩ | ⟨entries, -, hloop⟩
  · rfl
  have hturned := hloop.loop
    (fun sofar => (steady_nextPage (R := fun _ _ => True) job sofar).toLed)
    (productive_nextPage job)
  clear h hloop
  generalize (first, entries) = sofar at hturned
  induction hturned with
  | ended h => exact pauses_nextPage h
  | broken h => exact pauses_nextPage h
  | turn h _ ih => rw [Effect.pauses_append, pauses_nextPage h, ih, List.append_nil]

/-- **The work for one job is one stint.** -/
theorem attachOne_stint {r r' : Report} {res : Except Fault Unit}
    (h : (attachOne settings job).Does r l res r') :
    ∃ w : Stint settings, w.job = job ∧ l = w.effects := by
  rw [attachOne_eq] at h
  rcases h.bind (steady_await (R := fun _ _ => True) settings job).toLed with
    ⟨e, -, h₁⟩ | ⟨first, r₁, l₁, l₂, rfl, h₁, h₂⟩
  · obtain ⟨-, waiting, a, hw, rfl, hend⟩ := await_does h₁
    exact ⟨⟨job, waiting, a, [], hw, ⟨_, hend⟩, rfl⟩, rfl, (List.append_nil _).symm⟩
  obtain ⟨-, waiting, a, hw, rfl, hend⟩ := await_does h₁
  have hpages : Effect.pauses l₂ = [] := by
    rcases h₂.bind (steady_collect (R := fun _ _ => True) job first).toLed with
      ⟨e, -, h₃⟩ | ⟨entries, r₂, l₃, l₄, rfl, h₃, h₄⟩
    · exact pauses_collect h₃
    · rw [record_silent h₄, List.append_nil]
      exact pauses_collect h₃
  exact ⟨⟨job, waiting, a, l₂, hw, ⟨_, hend⟩, hpages⟩, rfl, rfl⟩

/-- **The work for some jobs is one stint after another**, for the first ones of them, and for all
    of them if it is done. -/
theorem each_stints {jobs : List Job} {r r' : Report} {res : Except Fault Unit}
    (h : (Run.each jobs (attachOne settings)).Does r l res r') :
    ∃ ws : List (Stint settings), l = ws.flatMap Stint.effects ∧ ws.map Stint.job <+: jobs ∧
      (res = .ok () → ws.map Stint.job = jobs) := by
  induction jobs generalizing r l with
  | nil =>
    obtain ⟨rfl, -, -⟩ := Run.Does.pure h
    exact ⟨[], rfl, List.nil_prefix, fun _ => rfl⟩
  | cons job jobs ih =>
    rcases h.bind (steady_attachOne settings job).toLed with
      ⟨e, rfl, h₁⟩ | ⟨_, r₁, l₁, l₂, rfl, h₁, h₂⟩
    · obtain ⟨w, rfl, rfl⟩ := attachOne_stint h₁
      refine ⟨[w], (List.flatMap_singleton _ _).symm, ⟨jobs, rfl⟩, nofun⟩
    · obtain ⟨w, rfl, rfl⟩ := attachOne_stint h₁
      obtain ⟨ws, rfl, hprefix, hall⟩ := ih h₂
      refine ⟨w :: ws, List.flatMap_cons.symm, (List.prefix_cons_inj _).mpr hprefix, fun hok => ?_⟩
      rw [List.map_cons, hall hok]

/-- Submitting jobs is no pause. -/
theorem pauses_submissions (ss : List Submission) :
    Effect.pauses (ss.map Submission.effect) = [] := by
  rw [Effect.pauses, List.filterMap_map]
  exact List.filterMap_eq_nil_iff.mpr fun _ _ => rfl

/-- **The enrichment of a report is submissions, and then one stint after another**, for the first
    ones of the tracked identifiers, and for all of them if it is done. -/
theorem attach_stints {r r' : Report} {res : Except Fault Unit}
    (h : (attach settings).Does r l res r') :
    ∃ (before : List Effect) (ws : List (Stint settings)),
      l = before ++ ws.flatMap Stint.effects ∧ Effect.pauses before = [] ∧
      ws.map (·.job.identifier) <+: r.tracked ∧
      (res = .ok () → ws.map (·.job.identifier) = r.tracked) := by
  rcases attach_works h with ⟨-, hnone, hasked⟩ | ⟨ss, l', -, hi, rfl, hwork⟩
  · have hidle : Effect.pauses l = [] := by
      refine List.filterMap_eq_nil_iff.mpr fun e he => ?_
      obtain ⟨i, a, rfl⟩ := hasked e he
      rfl
    exact ⟨l, [], (List.append_nil _).symm, hidle, List.nil_prefix, fun hok => (hnone hok).symm⟩
  · obtain ⟨ws, rfl, hfirst, hall⟩ := each_stints hwork
    -- a stint for each of the first jobs is one for each of the first identifiers
    have hjobs : (ss.map Submission.job).map Job.identifier = r.tracked := by
      rw [identifiers_of_submissions hi, Report.names_targets]
    have hnames : (ws.map Stint.job).map Job.identifier = ws.map (·.job.identifier) :=
      List.map_map
    refine ⟨_, ws, rfl, pauses_submissions ss, ?_, fun hok => ?_⟩
    · rw [← hnames, ← hjobs]
      exact hfirst.map _
    · rw [← hnames, hall hok, hjobs]

end Work

/-! ## The law of polling -/

/-- **The law of polling.** Let some answers find a job in progress before the first one that does
    not. Where they are fewer than as many polls as are allowed, there is one more poll than they
    are, a pause after each of them, and the verdict of the last poll is what the waiting comes to.
    Where they are not, there are as many polls as are allowed, and a timeout. Pauses do not become
    shorter, and stay between the first one and the greatest one. And for each job of a report all
    of this starts again: the pauses are those for one job after those for another. -/
theorem polling_law (hs : settings.check = .ok settings) :
    (∀ (job : Job) (d : σ) (s : Script) (k : Nat),
      (∀ i < k, FindsPending (s.nth details i)) → (∀ n ∈ settings.pollBound?, k < n) →
      ¬ FindsPending (s.nth details k) → Tells (s.nth details k) →
      Verdict job (s.nth details k) (await settings job d s).result ∧
        (await settings job d s).trace.calls =
          List.replicate (k + 1) (details, [("JobId", job.id)]) ∧
        (await settings job d s).trace.pauses = delays settings k) ∧
    (∀ (job : Job) (d : σ) (s : Script), ∀ n ∈ settings.pollBound?,
      (∀ i < n, FindsPending (s.nth details i)) →
      (await settings job d s).result = .error (.failure (timeout job n)) ∧
        (await settings job d s).trace.calls =
          List.replicate n (details, [("JobId", job.id)]) ∧
        (await settings job d s).trace.pauses = delays settings (n - 1)) ∧
    (∀ first factor greatest : ℚ, settings.pollInterval.toRat? = some first →
      settings.pollBackoff.toRat? = some factor →
      settings.maxPollInterval.toRat? = some greatest →
      ∃ q : Nat → ℚ, (∀ n, (delay settings n).toRat? = some (q n)) ∧ Monotone q ∧
        ∀ n, first ≤ q n ∧ q n ≤ greatest) ∧
    ∀ (r : Report) (s : Script), ∃ (before : List Effect) (ws : List (Stint settings)),
      s.effects (attach settings r s).trace = before ++ ws.flatMap Stint.effects ∧
      Effect.pauses before = [] ∧ ws.map (·.job.identifier) <+: r.tracked ∧
      ((attach settings r s).result = .ok () → ws.map (·.job.identifier) = r.tracked) ∧
      (attach settings r s).trace.pauses =
        ws.flatMap fun w => delays settings w.waiting.length := by
  obtain ⟨-, hpasses⟩ := Settings.check_eq_ok_iff.mp hs
  obtain ⟨hreached, hpositive⟩ := hpasses.reached
  have more {k : Nat} (hk : ∀ n ∈ settings.pollBound?, k < n) :
      ∀ i < k, exhausted settings (i + 1) = false := by
    intro i hi
    refine Bool.eq_false_iff.mpr fun hx => ?_
    obtain ⟨n, hn, hle⟩ := (hreached (i + 1)).mp hx
    have := hk n hn
    omega
  refine ⟨?_, ?_, ?_, ?_⟩
  · intro job d s k hp hk hnot ha
    obtain ⟨r, hr⟩ := exists_verdict job ha hnot
    obtain ⟨hresult, hcalls, hpauses⟩ :=
      await_of_verdict settings job d hp (more hk) hr
    exact ⟨hresult ▸ hr, hcalls, hpauses⟩
  · intro job d s n hn hp
    obtain ⟨k, rfl⟩ := Nat.exists_eq_add_of_le' (hpositive n hn)
    have hallowed : ∀ m ∈ settings.pollBound?, k < m := by
      intro m hm
      cases hn.symm.trans hm
      exact Nat.lt_succ_self k
    have hlast : exhausted settings (k + 1) :=
      (hreached (k + 1)).mpr ⟨k + 1, hn, Nat.le_refl _⟩
    exact await_of_bound settings job d hp (more hallowed) hlast
  · intro first factor greatest hfirst hfactor hgreatest
    exact exists_delays hpasses hfirst hfactor hgreatest
  · intro r s
    obtain ⟨before, ws, heffects, hbefore, hprefix, hall⟩ :=
      attach_stints (Run.does_outcome (attach settings) r s)
    refine ⟨before, ws, heffects, hbefore, hprefix, hall, ?_⟩
    calc (attach settings r s).trace.pauses
      _ = Effect.pauses (s.effects (attach settings r s).trace) :=
        (Script.pauses_effects _ _).symm
      _ = ws.flatMap fun w => Effect.pauses w.effects := by
        rw [heffects, Effect.pauses_append, hbefore, List.nil_append, Effect.pauses_flatMap]
      _ = ws.flatMap fun w => delays settings w.waiting.length :=
        List.flatMap_congr fun w _ => w.pauses_effects

/-- The answers to a job that is in progress once and then has completed. -/
def onceInProgress : Script :=
  ⟨[(details, [inState "IN_PROGRESS" [], inState "COMPLETED" []])], []⟩

/-- The job is polled twice, with a pause of one second between the polls. -/
theorem polling_law_sample :
    Settings.default.check = .ok .default ∧
      ((await .default ⟨.text "1", .text "a"⟩ () onceInProgress).trace.calls =
          List.replicate 2 (details, [("JobId", .text "1")]) ∧
        (await .default ⟨.text "1", .text "a"⟩ () onceInProgress).trace.pauses =
          [Settings.default.pollInterval]) := by
  have hcheck : Settings.default.check = .ok .default :=
    Settings.check_eq_ok_iff.mpr ⟨rfl, Settings.passes_default⟩
  have hfirst : ∀ i < 1, FindsPending (onceInProgress.nth details i) := by
    intro i hi
    obtain rfl := Nat.lt_one_iff.mp hi
    exact ⟨_, rfl, rfl⟩
  have hallowed : ∀ n ∈ Settings.default.pollBound?, 1 < n := by
    rintro n ⟨⟩
    decide
  have hsecond : ¬ FindsPending (onceInProgress.nth details 1) := by
    rintro ⟨v, hv, hsays⟩
    cases hv
    exact absurd (Value.text.inj (Except.ok.inj hsays)) (by decide)
  have htells : Tells (onceInProgress.nth details 1) := Or.inr ⟨_, rfl, nofun⟩
  obtain ⟨-, hcalls, hpauses⟩ := (polling_law hcheck).1 ⟨.text "1", .text "a"⟩ () onceInProgress 1
    hfirst hallowed hsecond htells
  exact ⟨hcheck, hcalls, hpauses⟩

end IamInventory.LastAccessed

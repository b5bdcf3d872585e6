import IamInventory.Proofs.Jobs
import IamInventory.Proofs.Tracking

/-!
# Enrichment — how the use of services comes to the resources

  Jobs are submitted for all tracked resources first. Then the jobs are worked through one after
  another, in the order of the resources: polls, pages, and the record of what they tell. So what a
  report looks like at any time is told by the *histories* of the jobs that are done: its first
  resources are enriched, one by each history, and everything else is as it was.

* **`Submission`** — a job that has been submitted, and **`History`** — a job that is done.
* **`LastAccessed.attachOne_does`** — the work for one job is done, or interrupted before it writes.
* **`LastAccessed.each_does`** — the jobs that are done, and the one that is not.
* **`LastAccessed.attach_does`** — all of it, from the first look at the resources on.
-/

namespace IamInventory.LastAccessed

open Number

/-! ## Jobs that are submitted and jobs that are done -/

/-- A job that has been submitted, and the response that told of it. -/
structure Submission where
  job : Job
  response : Value
  told : response.member "JobId" = .ok job.id

/-- The call that a job was submitted with. -/
def Submission.effect (s : Submission) : Effect :=
  .asked generate [("Arn", s.job.identifier)] (.response s.response)

/-- A job that is done: the responses that found it in progress, its first page and the pages after
    it, and what they tell. -/
structure History (settings : Settings) where
  job : Job
  waiting : List Value
  first : Value
  pages : List Value
  entries : List Value
  time : Value
  waited : Waited settings 0 waiting
  completed : Says first "COMPLETED"
  linked : Linked first pages
  last : Listing.nextMarker (pages.getLastD first) = .ok none
  held : entriesOfPages (first :: pages) = .ok entries
  latest : latest entries = .ok time

/-- The polls of a job up to one with an answer. -/
def pollEffects (settings : Settings) (job : Job) (waiting : List Value) (a : Answer) :
    List Effect :=
  waitEffects settings job settings.pollInterval waiting ++ [.asked details [("JobId", job.id)] a]

/-- The effects of a job that is done: its polls, and the calls for its pages. -/
def History.effects {settings : Settings} (h : History settings) : List Effect :=
  pollEffects settings h.job h.waiting (.response h.first) ++ pageEffects h.job h.first h.pages

/-- The record with entries and the latest use among them. -/
def enrich (entries : List Value) (time : Value) (r : Resource) : Resource :=
  (r.setMember Name.servicesLastAccessed (.list entries)).setMember Name.lastUsed time

/-- The record with what a job that is done tells. -/
def History.write {settings : Settings} (h : History settings) : Resource → Resource :=
  enrich h.entries h.time

/-- **Whether a job has completed and told of entries**, with effects. -/
def Fetched (settings : Settings) (job : Job) (entries : List Value) (l : List Effect) : Prop :=
  ∃ waiting first pages, Waited settings 0 waiting ∧ Says first "COMPLETED" ∧
    Linked first pages ∧ Listing.nextMarker (pages.getLastD first) = .ok none ∧
    entriesOfPages (first :: pages) = .ok entries ∧
    l = pollEffects settings job waiting (.response first) ++ pageEffects job first pages

/-- A job that is done has told of its entries. -/
theorem History.fetched {settings : Settings} (h : History settings) :
    Fetched settings h.job h.entries h.effects :=
  ⟨h.waiting, h.first, h.pages, h.waited, h.completed, h.linked, h.last, h.held, rfl⟩

/-- The record with entries, and the latest use as it was. -/
def half (entries : List Value) (r : Resource) : Resource :=
  r.setMember Name.servicesLastAccessed (.list entries)

/-- **What the work for one job leaves behind that ends with a fault**: nothing, or entries of which
    there is no latest use. -/
inductive Torn (settings : Settings) (job : Job) (l : List Effect) (e : Fault) :
    List (Resource → Resource) → Prop where
  | nothing : Torn settings job l e []
  | half {entries : List Value} : Fetched settings job entries l → latest entries = .error e →
      Torn settings job l e [half entries]

/-- **How the work for a job is interrupted**: by the poll that ends the waiting, or on the way from
    page to page. The effects end with the call of which the failure tells. -/
inductive Interrupted (settings : Settings) (job : Job) : List Effect → Failure → Prop where
  | poll {waiting : List Value} {a : Answer} {f : Failure} : Waited settings 0 waiting →
      Ending settings job waiting.length a (.error (.failure f)) →
      Interrupted settings job (pollEffects settings job waiting a) f
  | page {waiting pages : List Value} {first : Value} {a : Answer} {t : Trouble} :
      Waited settings 0 waiting → Says first "COMPLETED" → Linked first pages →
      Listing.nextMarker (pages.getLastD first) = .ok (some (markerOf (pages.getLastD first))) →
      a.settle details = .ok (.trouble t) →
      Interrupted settings job
        (pollEffects settings job waiting (.response first) ++
          (pageEffects job first pages ++ [askPage job (pages.getLastD first) a]))
        (t.failure details job.identifier)

/-- The failure of an interrupted job is about the entity of the job. -/
theorem Interrupted.identifier_eq {settings : Settings} {job : Job} {l : List Effect} {f : Failure}
    (h : Interrupted settings job l f) : f.identifier = job.identifier := by
  cases h with
  | page => rfl
  | poll _ h =>
    cases h with
    | trouble => rfl
    | timeout => rfl
    | failed => rfl
    | fault hu => exact absurd rfl (hu f)

/-! ## Submission -/

section Submission

variable {σ : Type} {d d' : σ} {l : List Effect}

/-- The job that the answer to a submission tells of. -/
def jobTold (identifier : Value) (a : Answer) : Except Fault Value := do
  (← a.told generate identifier).member "JobId"

/-- An answer that tells of a job is the one to a submission. -/
theorem exists_submission {identifier id : Value} {a : Answer}
    (h : jobTold identifier a = .ok id) :
    ∃ s : Submission, s.job.identifier = identifier ∧ s.job.id = id ∧
      s.effect = .asked generate [("Arn", identifier)] a := by
  cases ht : a.told generate identifier with
  | error e =>
    rw [jobTold, ht] at h
    cases h
  | ok v =>
    obtain rfl := Answer.eq_response_of_told ht
    rw [jobTold, ht] at h
    exact ⟨⟨⟨id, identifier⟩, v, h⟩, rfl, rfl, rfl⟩

/-- An answer that tells of no job is trouble, or tells of a fault that no report keeps. -/
theorem trouble_of_jobTold {identifier : Value} {a : Answer} {e : Fault}
    (h : jobTold identifier a = .error e) :
    (∃ t, a.settle generate = .ok (.trouble t) ∧
        e = .failure (t.failure generate identifier)) ∨
      ∀ {α : Type}, Unfailing (Except.error e : Except Fault α) := by
  cases ht : a.told generate identifier with
  | error x =>
    rw [jobTold, ht] at h
    cases h
    exact Answer.trouble_of_told ht
  | ok v =>
    rw [jobTold, ht] at h
    refine Or.inr fun f hf => ?_
    cases hf
    exact Unfailing.member v "JobId" f h

/-- What submitting one job does: the call for it, and the job is the one that the answer tells
    of. -/
theorem submitOne_does {identifier : Value} {r : Except Fault Value}
    (h : (submitOne identifier).Does d l r d') :
    d' = d ∧ ∃ a, l = [.asked generate [("Arn", identifier)] a] ∧ r = jobTold identifier a := by
  rw [submitOne] at h
  rcases h.bind (.call _ _ _) with ⟨e, rfl, hcall⟩ | ⟨v, d₁, l₁, l₂, rfl, hcall, hjob⟩
  · obtain ⟨a, rfl, ha, rfl⟩ := hcall.call
    refine ⟨rfl, a, rfl, ?_⟩
    rw [jobTold, ← ha]
    rfl
  · obtain ⟨a, rfl, ha, rfl⟩ := hcall.call
    have htold : jobTold identifier a = v.member "JobId" := by
      rw [jobTold, ← ha]
      rfl
    rcases hjob.bind_ofFault with ⟨e, he, rfl, rfl, rfl⟩ | ⟨id, hid, hnote⟩
    · exact ⟨rfl, a, rfl, (htold.trans he).symm⟩
    · obtain ⟨rfl, rfl, rfl⟩ := hnote.bind_note.pure
      exact ⟨rfl, a, rfl, (htold.trans hid).symm⟩

/-- **What submitting jobs does**: all of them are submitted, or those before the first one of which
    the answer does not tell. -/
theorem submit_does {identifiers : List Value} {r : Except Fault (List Value)}
    (h : (submit identifiers).Does d l r d') :
    d' = d ∧ ((∃ ss : List Submission, ss.map (·.job.identifier) = identifiers ∧
        l = ss.map Submission.effect ∧ r = .ok (ss.map (·.job.id))) ∨
      ∃ (ss : List Submission) (i : Value) (rest : List Value) (a : Answer) (e : Fault),
        identifiers = ss.map (·.job.identifier) ++ i :: rest ∧
        l = ss.map Submission.effect ++ [.asked generate [("Arn", i)] a] ∧
        jobTold i a = .error e ∧ r = .error e) := by
  induction identifiers generalizing d d' l r with
  | nil =>
    obtain ⟨rfl, rfl, rfl⟩ := Run.Does.pure h
    exact ⟨rfl, Or.inl ⟨[], rfl, rfl, rfl⟩⟩
  | cons i rest ih =>
    rw [submit, List.mapM_cons] at h
    rcases h.bind (steady_submitOne (R := fun _ _ => True) i).toLed with
      ⟨e, rfl, h₁⟩ | ⟨id, d₁, l₁, l₂, rfl, h₁, h₂⟩
    · obtain ⟨rfl, a, rfl, ha⟩ := submitOne_does h₁
      exact ⟨rfl, Or.inr ⟨[], i, rest, a, e, rfl, rfl, ha.symm, rfl⟩⟩
    · obtain ⟨rfl, a, rfl, ha⟩ := submitOne_does h₁
      -- one more submission in front of those of the rest
      obtain ⟨s, rfl, rfl, hs⟩ := exists_submission ha.symm
      rw [← hs]
      rcases h₂.bind (steady_submit (R := fun _ _ => True) rest).toLed with
        ⟨e, rfl, h₃⟩ | ⟨ids, d₂, l₃, l₄, rfl, h₃, h₄⟩
      · obtain ⟨rfl, ⟨ss, -, -, hr⟩ | ⟨ss, j, more, b, x, rfl, rfl, hb, hr⟩⟩ := ih h₃
        · cases hr
        · cases hr
          exact ⟨rfl, Or.inr ⟨s :: ss, j, more, b, e, rfl, rfl, hb, rfl⟩⟩
      · obtain ⟨rfl, ⟨ss, rfl, rfl, hr⟩ | ⟨ss, j, more, b, x, -, -, -, hr⟩⟩ := ih h₃
        · cases hr
          obtain ⟨rfl, rfl, rfl⟩ := h₄.pure
          exact ⟨rfl, Or.inl ⟨s :: ss, rfl, by rw [List.append_nil]; rfl, rfl⟩⟩
        · cases hr

end Submission

/-! ## Records -/

/-- A change of nothing but what the service sent. -/
def KeepsFields (c : Resource → Resource) : Prop :=
  ∀ r, { c r with metadata := r.metadata } = r

theorem keepsFields_setMember (name : String) (v : Value) : KeepsFields (·.setMember name v) := by
  rintro ⟨id, arn, account, region, service, kind, metadata⟩
  cases metadata <;> rfl

theorem KeepsFields.comp {f g : Resource → Resource} (hf : KeepsFields f) (hg : KeepsFields g) :
    KeepsFields fun r => g (f r) := fun r =>
  calc ({ g (f r) with metadata := r.metadata } : Resource)
    _ = { ({ g (f r) with metadata := (f r).metadata } : Resource) with metadata := r.metadata } :=
      rfl
    _ = { f r with metadata := r.metadata } := by rw [hg (f r)]
    _ = r := hf r

theorem keepsFields_enrich (entries : List Value) (time : Value) :
    KeepsFields (enrich entries time) :=
  (keepsFields_setMember _ _).comp (keepsFields_setMember _ _)

theorem Torn.keepsFields {settings : Settings} {job : Job} {l : List Effect} {e : Fault}
    {cs : List (Resource → Resource)} (h : Torn settings job l e cs) : ∀ c ∈ cs, KeepsFields c := by
  cases h with
  | nothing => exact List.forall_mem_nil _
  | half =>
    intro c hc
    rw [List.mem_singleton.mp hc]
    exact keepsFields_setMember _ _

/-- What jobs that are done write is no more than that. -/
theorem keepsFields_writes {settings : Settings} (hs : List (History settings)) :
    ∀ c ∈ hs.map History.write, KeepsFields c := by
  intro c hc
  obtain ⟨h, -, rfl⟩ := List.mem_map.mp hc
  exact keepsFields_enrich _ _

/-- **Whether a resource has been enriched** with entries and the latest use among them: it says so
    of its use, and it is as it was in its other members and in all other fields. -/
structure Enriched (entries : List Value) (time : Value) (r r' : Resource) : Prop where
  use : r'.use = (some (.list entries), some time)
  others : ∃ ms ms' : Members, r.metadata = .object ms ∧ r'.metadata = .object ms' ∧
    ∀ name, name ≠ Name.servicesLastAccessed → name ≠ Name.lastUsed →
      ms'.get? name = ms.get? name
  fields : { r' with metadata := r.metadata } = r

theorem enriched_enrich {r : Resource} (h : r.isWritable) (entries : List Value) (time : Value) :
    Enriched entries time r (enrich entries time r) where
  use := by
    rw [enrich, Resource.use_setMember_lastUsed (Resource.isWritable_setMember h _ _),
      Resource.use_setMember_servicesLastAccessed h]
  others := by
    obtain ⟨id, arn, account, region, service, kind, metadata⟩ := r
    cases metadata with
    | object ms =>
      refine ⟨ms, _, rfl, rfl, fun name hentries htime => ?_⟩
      rw [Members.get?_set, if_neg htime, Members.get?_set, if_neg hentries]
    | _ => cases h
  fields := keepsFields_enrich entries time r

/-- **What is read back of targets after jobs that are done**: the first targets have been enriched,
    each by its own job, and the others are as they were. -/
structure ReadsBack {settings : Settings} (hs : List (History settings))
    (before after : Named Resource) : Prop where
  enriched : ∀ (i : Nat) (h : History settings) (t : Value × Resource), hs[i]? = some h →
    before[i]? = some t → ∃ x, after[i]? = some (t.1, x) ∧ Enriched h.entries h.time t.2 x
  kept : ∀ i : Nat, hs.length ≤ i → after[i]? = before[i]?

theorem readsBack_alter {settings : Settings} {hs : List (History settings)} {r : Report}
    (hw : ∀ t ∈ r.targets.take hs.length, t.2.isWritable) :
    ReadsBack hs r.targets (r.alter (hs.map History.write)).targets where
  enriched := by
    intro i h t hh ht
    obtain ⟨hi, -⟩ := List.getElem?_eq_some_iff.mp hh
    obtain ⟨hi', -⟩ := List.getElem?_eq_some_iff.mp ht
    have hmem : t ∈ r.targets.take hs.length := by
      refine List.mem_of_getElem? (i := i) ?_
      rw [List.getElem?_take_of_lt hi, ht]
    refine ⟨h.write t.2, ?_, enriched_enrich (hw t hmem) h.entries h.time⟩
    rw [Report.targets_alter, List.getElem?_append_left (by simp; omega), List.getElem?_zipWith,
      ht, List.getElem?_map, hh]
    rfl
  kept := by
    intro i hi
    rw [Report.targets_alter, List.getElem?_append_right (by simp; omega), List.getElem?_drop,
      List.length_zipWith, List.length_map]
    rcases Nat.le_total hs.length r.targets.length with hle | hle
    · rw [Nat.min_eq_right hle, Nat.add_sub_cancel' hi]
    -- beyond the targets there is nothing before and after
    · rw [List.getElem?_eq_none (by omega), List.getElem?_eq_none (by omega)]

theorem write_eq (identifier : Value) (name : String) (v : Value) (d : Report) (s : Script) :
    write identifier name v d s =
      match d.write identifier name v with
      | .ok d' => ⟨.ok (), d', s, []⟩
      | .error e => ⟨.error e, d, s, []⟩ := by
  simp only [write, Run.draft, Run.ofFault, Run.redraft, bind, Run.bind]
  cases d.write identifier name v <;> rfl

theorem steady_write (identifier : Value) (name : String) (v : Value) :
    (write identifier name v).Steady fun _ _ => True := by
  refine .of_quiet fun d => ?_
  cases h : d.write identifier name v with
  | ok d' => exact ⟨.ok (), d', [], rfl, trivial, fun s => by rw [write_eq, h]⟩
  | error e => exact ⟨.error e, d, [], rfl, trivial, fun s => by rw [write_eq, h]⟩

theorem write_does {identifier : Value} {name : String} {v : Value} {d d' : Report}
    {l : List Effect} {r : Except Fault Unit} (h : (write identifier name v).Does d l r d') :
    l = [] ∧ ((r = .ok () ∧ d.write identifier name v = .ok d') ∨
      ∃ e, r = .error e ∧ d.write identifier name v = .error e ∧ d' = d) := by
  obtain ⟨s, rfl, rfl, rfl⟩ := h
  rw [write_eq]
  cases d.write identifier name v with
  | ok d' => exact ⟨rfl, Or.inl ⟨rfl, rfl⟩⟩
  | error e => exact ⟨rfl, Or.inr ⟨e, rfl, rfl, rfl⟩⟩

/-- Writes what entries tell into the record that is tracked under an identifier. -/
def record (job : Job) (entries : List Value) : Run Report Unit := do
  write job.identifier Name.servicesLastAccessed (.list entries)
  let time ← Run.ofFault (latest entries)
  write job.identifier Name.lastUsed time

/-- The work for one job is to wait, to collect, and to record. -/
theorem attachOne_eq (settings : Settings) (job : Job) :
    attachOne settings job =
      await settings job >>= fun first => collect job first >>= record job := rfl

theorem steady_record (job : Job) (entries : List Value) :
    (record job entries).Steady fun _ _ => True :=
  (steady_write _ _ _).bind fun _ => (Run.Steady.ofFault _).bind fun _ => steady_write _ _ _

theorem steady_attachOne (settings : Settings) (job : Job) :
    (attachOne settings job).Steady fun _ _ => True :=
  (steady_await settings job).bind fun first => (steady_collect job first).bind fun entries =>
    steady_record job entries

/-! ## The work for one job -/

section Work

/- The report as it was in the beginning, its resources before and after the next one, and the
changes that have been made to those before. -/
variable {r : Report} {before after : Named Resource} {i : Value} {resource : Resource}
  {cs : List (Resource → Resource)}

/-- **What recording does** for the next resource: everything is written, or the entries tell of no
    latest use and it is missing, or nothing can be written. -/
theorem record_does (hk : r.Keyed) (ht : r.targets = before ++ (i, resource) :: after)
    (hi : i.same i) (hc : cs.length = before.length) {job : Job} (hj : job.identifier = i)
    {entries : List Value} {l : List Effect} {res : Except Fault Unit} {d' : Report}
    (h : (record job entries).Does (r.alter cs) l res d') :
    l = [] ∧ ((∃ time, latest entries = .ok time ∧ resource.isWritable ∧ res = .ok () ∧
        d' = r.alter (cs ++ [enrich entries time])) ∨
      ∃ e cs', res = .error e ∧ Unfailing res ∧
        (cs' = [] ∨ latest entries = .error e ∧ cs' = [half entries]) ∧
        d' = r.alter (cs ++ cs')) := by
  subst hj
  rw [record] at h
  have hw := Report.write_alter hk ht hi hc Name.servicesLastAccessed (.list entries)
  rcases h.bind (steady_write _ _ _).toLed with ⟨e, rfl, h₁⟩ | ⟨_, d₁, l₁, l₂, rfl, h₁, h₂⟩
  · obtain ⟨rfl, ⟨he, -⟩ | ⟨x, he, hx, rfl⟩⟩ := write_does h₁
    · cases he
    · cases he
      refine ⟨rfl, Or.inr ⟨e, [], rfl, ?_, Or.inl rfl, by rw [List.append_nil]⟩⟩
      rw [hw] at hx
      split at hx <;> cases hx
      rintro f ⟨⟩
  · obtain ⟨rfl, ⟨-, hd⟩ | ⟨x, he, -, -⟩⟩ := write_does h₁
    · rw [hw] at hd
      split at hd
      · next hwritable =>
        cases hd
        rcases h₂.bind_ofFault with ⟨e, he, rfl, rfl, rfl⟩ | ⟨time, htime, h₃⟩
        -- the entries have been written, and there is no latest use to write
        · refine ⟨rfl, Or.inr ⟨e, [_], rfl, ?_, Or.inr ⟨he, rfl⟩, rfl⟩⟩
          intro f hf
          cases hf
          exact Unfailing.latest entries f he
        -- where the entries could be written, so can the latest use
        · obtain ⟨rfl, hd⟩ := write_does h₃
          rw [Report.write_alter_snoc hk ht hi hc,
            if_pos (Resource.isWritable_setMember hwritable _ _)] at hd
          rcases hd with ⟨rfl, hd⟩ | ⟨e, -, he, -⟩
          · cases hd
            exact ⟨rfl, Or.inl ⟨time, htime, hwritable, rfl, rfl⟩⟩
          · cases he
      · cases hd
    · cases he

/-- **What the work for the next resource does**: its job is done and it is enriched, or the work is
    interrupted and nothing is written, or there is a fault that no report keeps. -/
theorem attachOne_does {settings : Settings} (hk : r.Keyed)
    (ht : r.targets = before ++ (i, resource) :: after) (hi : i.same i)
    (hc : cs.length = before.length) {job : Job} (hj : job.identifier = i) {l : List Effect}
    {res : Except Fault Unit} {d' : Report}
    (h : (attachOne settings job).Does (r.alter cs) l res d') :
    (∃ h : History settings, h.job = job ∧ l = h.effects ∧ resource.isWritable ∧ res = .ok () ∧
        d' = r.alter (cs ++ [h.write])) ∨
      (∃ f, res = .error (.failure f) ∧ Interrupted settings job l f ∧ d' = r.alter cs) ∨
      ∃ e cs', res = .error e ∧ Unfailing res ∧ Torn settings job l e cs' ∧
        d' = r.alter (cs ++ cs') := by
  -- a fault that no report keeps, before anything is written
  have early {e : Fault} {l : List Effect}
      (hu : Unfailing (Except.error e : Except Fault Unit)) :
      ∃ e' cs', (Except.error e : Except Fault Unit) = .error e' ∧
        Unfailing (Except.error e : Except Fault Unit) ∧ Torn settings job l e' cs' ∧
        r.alter cs = r.alter (cs ++ cs') :=
    ⟨e, [], rfl, hu, .nothing, by rw [List.append_nil]⟩
  rw [attachOne_eq] at h
  rcases h.bind (steady_await (R := fun _ _ => True) settings job).toLed with
    ⟨e, rfl, h₁⟩ | ⟨first, d₁, l₁, l₂, rfl, h₁, h₂⟩
  · obtain ⟨rfl, waiting, a, hw, rfl, hend⟩ := await_does h₁
    -- the waiting is over without a response to collect from
    by_cases hf : ∃ f, e = .failure f
    · obtain ⟨f, rfl⟩ := hf
      exact Or.inr (Or.inl ⟨f, rfl, .poll hw hend, rfl⟩)
    · exact Or.inr (Or.inr (early fun f h => hf ⟨f, Except.error.inj h⟩))
  · obtain ⟨rfl, waiting, a, hw, rfl, hend⟩ := await_does h₁
    cases hend with
    | completed hfirst =>
      rcases h₂.bind (steady_collect (R := fun _ _ => True) job first).toLed with
        ⟨e, rfl, h₃⟩ | ⟨entries, d₂, l₃, l₄, rfl, h₃, h₄⟩
      · obtain ⟨rfl, ⟨pages, es, -, -, -, -, he⟩ | ⟨pages, a, t, hl, hn, rfl, ht', he⟩ |
          ⟨x, he, hu⟩⟩ := collect_does h₃
        · cases he
        · cases he
          exact Or.inr (Or.inl ⟨_, rfl, .page hw hfirst hl hn ht', rfl⟩)
        · cases he
          refine Or.inr (Or.inr (early fun f hf => ?_))
          cases hf
          exact hu f rfl
      · obtain ⟨rfl, ⟨pages, es, hl, hn, rfl, hes, he⟩ | ⟨pages, a, t, -, -, -, -, he⟩ |
          ⟨x, he, -⟩⟩ := collect_does h₃
        · cases he
          obtain ⟨rfl, ⟨time, htime, hwritable, rfl, rfl⟩ | ⟨e, cs', he, hu, hcs, hd⟩⟩ :=
            record_does hk ht hi hc hj h₄
          · refine Or.inl ⟨⟨job, waiting, first, pages, entries, time, hw, hfirst, hl, hn, hes,
              htime⟩, rfl, ?_, hwritable, rfl, rfl⟩
            rw [List.append_nil]
            rfl
          · refine Or.inr (Or.inr ⟨e, cs', he, hu, ?_, hd⟩)
            rw [List.append_nil]
            rcases hcs with rfl | ⟨hlatest, rfl⟩
            · exact .nothing
            · exact .half ⟨waiting, first, pages, hw, hfirst, hl, hn, hes, rfl⟩ hlatest
        · cases he
        · cases he

/-- **What the work for the next resources does**: all jobs are done, or those before one that is
    interrupted, or there is a fault that no report keeps. -/
theorem each_does {settings : Settings} (hk : r.Keyed) {next : Named Resource}
    (ht : r.targets = before ++ next) (hi : ∀ t ∈ next, t.1.same t.1)
    (hc : cs.length = before.length) {jobs : List Job}
    (hj : jobs.map Job.identifier = Named.names next) {l : List Effect} {res : Except Fault Unit}
    {d' : Report} (h : (Run.each jobs (attachOne settings)).Does (r.alter cs) l res d') :
    (∃ hs : List (History settings), hs.map History.job = jobs ∧ l = hs.flatMap History.effects ∧
        (∀ t ∈ next, t.2.isWritable) ∧ res = .ok () ∧
        d' = r.alter (cs ++ hs.map History.write)) ∨
      (∃ (hs : List (History settings)) (job : Job) (rest : List Job) (l' : List Effect)
        (f : Failure), jobs = hs.map History.job ++ job :: rest ∧
        l = hs.flatMap History.effects ++ l' ∧ (∀ t ∈ next.take hs.length, t.2.isWritable) ∧
        Interrupted settings job l' f ∧ res = .error (.failure f) ∧
        d' = r.alter (cs ++ hs.map History.write)) ∨
      ∃ (hs : List (History settings)) (job : Job) (rest : List Job) (l' : List Effect) (e : Fault)
        (cs' : List (Resource → Resource)), jobs = hs.map History.job ++ job :: rest ∧
        l = hs.flatMap History.effects ++ l' ∧ res = .error e ∧ Unfailing res ∧
        Torn settings job l' e cs' ∧ d' = r.alter (cs ++ (hs.map History.write ++ cs')) := by
  induction jobs generalizing before next cs l with
  | nil =>
    obtain rfl : next = [] := List.map_eq_nil_iff.mp hj.symm
    obtain ⟨rfl, rfl, rfl⟩ := Run.Does.pure h
    exact Or.inl ⟨[], rfl, rfl, List.forall_mem_nil _, rfl, by rw [List.map_nil, List.append_nil]⟩
  | cons job jobs ih =>
    cases next with
    | nil => cases hj
    | cons t next =>
      obtain ⟨i, resource⟩ := t
      obtain ⟨hjob, hjobs⟩ : job.identifier = i ∧ jobs.map Job.identifier = Named.names next :=
        List.cons.inj hj
      have hi₁ : i.same i := hi _ List.mem_cons_self
      -- the next resource, and then the ones after it with one more change made
      have ht' : r.targets = (before ++ [(i, resource)]) ++ next :=
        ht.trans (List.append_cons _ _ _)
      rcases h.bind (steady_attachOne settings job).toLed with
        ⟨e, rfl, h₁⟩ | ⟨_, d₁, l₁, l₂, rfl, h₁, h₂⟩
      · rcases attachOne_does hk ht hi₁ hc hjob h₁ with
          ⟨_, -, -, -, he, -⟩ | ⟨f, he, hf, rfl⟩ | ⟨x, cs', he, hu, hcs, rfl⟩
        · cases he
        · cases he
          refine Or.inr (Or.inl ⟨[], job, jobs, l, f, rfl, rfl, List.forall_mem_nil _, hf, rfl, ?_⟩)
          rw [List.map_nil, List.append_nil]
        · exact Or.inr (Or.inr ⟨[], job, jobs, l, x, cs', rfl, rfl, he, hu, hcs, rfl⟩)
      · rcases attachOne_does hk ht hi₁ hc hjob h₁ with
          ⟨g, rfl, rfl, hw, -, rfl⟩ | ⟨f, he, -, -⟩ | ⟨x, cs', he, -, -, -⟩
        · have hc' : (cs ++ [g.write]).length = (before ++ [(i, resource)]).length := by
            rw [List.length_append, List.length_append, hc]
            rfl
          rcases ih ht' (fun t ht => hi t (List.mem_cons_of_mem _ ht)) hc' hjobs h₂ with
            ⟨hs, rfl, rfl, hws, rfl, rfl⟩ | ⟨hs, job, rest, l', f, rfl, rfl, hws, hf, rfl, rfl⟩ |
            ⟨hs, job, rest, l', x, cs', rfl, rfl, he, hu, hcs, rfl⟩
          · refine Or.inl ⟨g :: hs, rfl, rfl, ?_, rfl, ?_⟩
            · exact List.forall_mem_cons.mpr ⟨hw, hws⟩
            · rw [List.map_cons, List.append_assoc, List.singleton_append]
          · refine Or.inr (Or.inl ⟨g :: hs, job, rest, l', f, rfl, ?_, ?_, hf, rfl, ?_⟩)
            · rw [List.flatMap_cons, List.append_assoc]
            · exact List.forall_mem_cons.mpr ⟨hw, hws⟩
            · rw [List.map_cons, List.append_assoc, List.singleton_append]
          · refine Or.inr (Or.inr ⟨g :: hs, job, rest, l', x, cs', rfl, ?_, he, hu, hcs, ?_⟩)
            · rw [List.flatMap_cons, List.append_assoc]
            · rw [List.map_cons, List.append_assoc, List.singleton_append, List.cons_append]
        · cases he
        · cases he

end Work

/-! ## All of the work -/

/-- Whether a target is tracked under an identifier not its own. -/
def isMismatched (t : Value × Resource) : Bool := !t.2.arn.same t.1

/-- **How the enrichment of a report ends**: with its effects, its result, and the report. -/
inductive Attached (settings : Settings) (r : Report) :
    List Effect → Except Fault Unit → Report → Prop where
  | mismatched {t : Value × Resource} : List.find? isMismatched r.targets = some t →
      Attached settings r [] (.error (.failure (mismatch t.1 t.2))) r
  | refused {ss : List Submission} {i : Value} {rest : List Value} {a : Answer} {t : Trouble} :
      List.find? isMismatched r.targets = none →
      r.tracked = ss.map (·.job.identifier) ++ i :: rest → a.settle generate = .ok (.trouble t) →
      Attached settings r (ss.map Submission.effect ++ [.asked generate [("Arn", i)] a])
        (.error (.failure (t.failure generate i))) r
  | interrupted {ss : List Submission} {hs : List (History settings)} {job : Job}
      {rest : List Job} {l : List Effect} {f : Failure} :
      List.find? isMismatched r.targets = none → ss.map (·.job.identifier) = r.tracked →
      ss.map Submission.job = hs.map History.job ++ job :: rest → Interrupted settings job l f →
      (∀ t ∈ r.targets.take hs.length, t.2.isWritable) →
      Attached settings r (ss.map Submission.effect ++ (hs.flatMap History.effects ++ l))
        (.error (.failure f)) (r.alter (hs.map History.write))
  | done {ss : List Submission} {hs : List (History settings)} :
      List.find? isMismatched r.targets = none → ss.map (·.job.identifier) = r.tracked →
      hs.map History.job = ss.map Submission.job → (∀ t ∈ r.targets, t.2.isWritable) →
      Attached settings r (ss.map Submission.effect ++ hs.flatMap History.effects) (.ok ())
        (r.alter (hs.map History.write))
  | fault {l : List Effect} {e : Fault} {cs : List (Resource → Resource)} :
      Unfailing (Except.error e : Except Fault Unit) → (∀ c ∈ cs, KeepsFields c) →
      Attached settings r l (.error e) (r.alter cs)

/-- The jobs of submissions, put together from their parts. -/
theorem zipWith_submissions (ss : List Submission) :
    List.zipWith Job.mk (ss.map (·.job.id)) (ss.map (·.job.identifier)) =
      ss.map Submission.job := by
  rw [List.zipWith_map, List.zipWith_self]

/-- The jobs of submissions for all tracked identifiers are those of the targets. -/
theorem identifiers_of_submissions {r : Report} {ss : List Submission}
    (h : ss.map (·.job.identifier) = r.tracked) :
    (ss.map Submission.job).map Job.identifier = Named.names r.targets := by
  rw [Report.names_targets, List.map_map, ← h]
  rfl

theorem checkTargets_eq (targets : Named Resource) :
    checkTargets targets =
      match List.find? isMismatched targets with
      | some t => .error (mismatch t.1 t.2)
      | none => .ok () := rfl

/-- Targets none of which is mismatched are tracked under names that are the same as themselves. -/
theorem same_self_of_matched {r : Report} (hk : r.Keyed)
    (hm : List.find? isMismatched r.targets = none) : ∀ t ∈ r.targets, t.1.same t.1 := by
  intro t ht
  have hname : t.1.isName := by
    refine hk.1 t.1 ?_
    rw [← Report.names_targets]
    exact List.mem_map_of_mem ht
  have hsame : t.2.arn.same t.1 := by
    have := List.find?_eq_none.mp hm t ht
    simpa [isMismatched] using this
  exact Value.same_self_of_same hname hsame

/-- Submits the jobs of identifiers and works them through. -/
def attachAll (settings : Settings) (identifiers : List Value) : Run Report Unit := do
  let ids ← submit identifiers
  Run.each (ids.zipWith Job.mk identifiers) (attachOne settings)
  Run.note .info .lastAccessed
    s!"Attached last-accessed details to {identifiers.length} resource(s)"

/-- There is a job for each identifier that jobs are submitted for. -/
theorem length_of_submit {σ : Type} {identifiers ids : List Value} {d : σ} {s : Script}
    (h : (submit identifiers d s).result = .ok ids) : ids.length = identifiers.length := by
  obtain ⟨-, ⟨ss, rfl, -, hr⟩ | ⟨ss, i, rest, a, e, -, -, -, hr⟩⟩ :=
    submit_does (Run.does_outcome (submit identifiers) d s)
  · obtain rfl := Except.ok.inj (h.symm.trans hr)
    rw [List.length_map, List.length_map]
  · rw [h] at hr
    cases hr

/-- The count of jobs is always right, so that nothing comes of checking it. -/
theorem attachAll_eq (settings : Settings) (identifiers : List Value) :
    attachAll settings identifiers = (do
      let ids ← submit identifiers
      Run.ofFailure (checkJobs ids identifiers)
      Run.each (ids.zipWith Job.mk identifiers) (attachOne settings)
      Run.note .info .lastAccessed
        s!"Attached last-accessed details to {identifiers.length} resource(s)") := by
  funext d s
  rw [attachAll]
  cases hids : (submit identifiers d s).result with
  | error e => rw [Run.bind_of_error hids, Run.bind_of_error hids]
  | ok ids =>
    have hcheck : Run.ofFailure (checkJobs ids identifiers) = (pure () : Run Report Unit) := by
      rw [checkJobs, if_pos (length_of_submit hids)]
      rfl
    rw [Run.bind_of_ok hids, Run.bind_of_ok hids, hcheck, pure_bind]

/-- To enrich a report is to check its targets and to work their jobs through, if there are any. -/
theorem attach_eq (settings : Settings) :
    attach settings = Run.draft >>= fun r => Run.ofFailure (checkTargets r.targets) >>= fun _ =>
      if r.targets.isEmpty then pure () else attachAll settings r.targets.names := by
  simp only [attachAll_eq]
  rfl

/-- **What the work for identifiers does**: the jobs of all of them are submitted and then worked
    through, or the jobs before the first one of which the answer does not tell. -/
theorem attachAll_submits {settings : Settings} {identifiers : List Value} {d d' : Report}
    {l : List Effect} {res : Except Fault Unit}
    (h : (attachAll settings identifiers).Does d l res d') :
    (∃ (ss : List Submission) (i : Value) (rest : List Value) (a : Answer) (e : Fault),
      identifiers = ss.map (·.job.identifier) ++ i :: rest ∧
      l = ss.map Submission.effect ++ [.asked generate [("Arn", i)] a] ∧
      jobTold i a = .error e ∧ res = .error e ∧ d' = d) ∨
    ∃ (ss : List Submission) (l' : List Effect), ss.map (·.job.identifier) = identifiers ∧
      l = ss.map Submission.effect ++ l' ∧
      (Run.each (ss.map Submission.job) (attachOne settings)).Does d l' res d' := by
  rw [attachAll] at h
  rcases h.bind (steady_submit (R := fun _ _ => True) identifiers).toLed with
    ⟨e, rfl, h₁⟩ | ⟨ids, d₁, l₁, l₂, rfl, h₁, h₂⟩
  · obtain ⟨rfl, ⟨ss, -, -, he⟩ | ⟨ss, i, rest, a, x, hi, rfl, ha, he⟩⟩ := submit_does h₁
    · cases he
    · cases he
      exact Or.inl ⟨ss, i, rest, a, e, hi, rfl, ha, rfl, rfl⟩
  · obtain ⟨rfl, ⟨ss, rfl, rfl, he⟩ | ⟨ss, i, rest, a, x, -, -, -, he⟩⟩ := submit_does h₁
    · cases he
      rw [zipWith_submissions] at h₂
      refine Or.inr ⟨ss, l₂, rfl, rfl, ?_⟩
      rcases h₂.bind (Run.Steady.each fun job _ => steady_attachOne settings job).toLed with
        ⟨e, rfl, h₃⟩ | ⟨_, d₂, l₃, l₄, rfl, h₃, h₄⟩
      · exact h₃
      -- what is noted in the end is no effect
      · obtain ⟨rfl, rfl, rfl⟩ := h₄.note
        rw [List.append_nil]
        exact h₃
    · cases he

theorem attachAll_does {settings : Settings} {r : Report} (hk : r.Keyed)
    (hm : List.find? isMismatched r.targets = none) {l : List Effect} {res : Except Fault Unit}
    {d' : Report} (h : (attachAll settings r.tracked).Does r l res d') :
    Attached settings r l res d' := by
  rcases attachAll_submits h with
    ⟨ss, i, rest, a, e, hi, rfl, ha, rfl, rfl⟩ | ⟨ss, l, hi, rfl, hwork⟩
  · rcases trouble_of_jobTold ha with ⟨t, ht, rfl⟩ | hu
    · exact .refused hm hi ht
    · have hfault {l : List Effect} : Attached settings d' l (.error e) (d'.alter []) :=
        .fault hu (List.forall_mem_nil _)
      rw [Report.alter_nil] at hfault
      exact hfault
  -- the work starts with no change made
  · have hstart : ([] : List (Resource → Resource)).length = ([] : Named Resource).length := rfl
    rcases each_does hk (List.nil_append r.targets).symm (same_self_of_matched hk hm) hstart
        (identifiers_of_submissions hi) (by rwa [Report.alter_nil]) with
      ⟨hs, hjob, rfl, hw, rfl, rfl⟩ | ⟨hs, job, rest, l', f, hjob, rfl, hw, hf, rfl, rfl⟩ |
      ⟨hs, job, rest, l', e, cs, -, -, rfl, hu, hcs, rfl⟩
    · exact .done hm hi hjob hw
    · exact .interrupted hm hi hjob hf hw
    · have hkeep : ∀ c ∈ hs.map History.write ++ cs, KeepsFields c :=
        List.forall_mem_append.mpr ⟨keepsFields_writes hs, hcs.keepsFields⟩
      exact .fault hu hkeep

/-- The enrichment of a report whose targets match goes on to its jobs. -/
theorem attach_of_matched {settings : Settings} {r : Report}
    (hm : List.find? isMismatched r.targets = none) :
    attach settings r =
      (if r.targets.isEmpty then pure () else attachAll settings r.tracked : Run Report Unit)
        r := by
  have hcheck : Run.ofFailure (checkTargets r.targets) = (pure () : Run Report Unit) := by
    rw [checkTargets_eq, hm]
    rfl
  funext s
  rw [attach_eq, ← Report.names_targets]
  simp only [bind, Run.bind, Run.draft, hcheck, pure, Run.pure, List.nil_append]

/-- The enrichment of a report of which a target does not match ends at once. -/
theorem attach_of_mismatched {settings : Settings} {r : Report} {t : Value × Resource}
    (hm : List.find? isMismatched r.targets = some t) :
    attach settings r = Run.fail (mismatch t.1 t.2) r := by
  have hcheck : Run.ofFailure (checkTargets r.targets) =
      (Run.fail (mismatch t.1 t.2) : Run Report Unit) := by
    rw [checkTargets_eq, hm]
    rfl
  funext s
  rw [attach_eq]
  simp only [bind, Run.bind, Run.draft, hcheck, Run.fail, Run.fault, List.nil_append]

/-- **The enrichment of a report** ends before any job is worked on and changes nothing, or a job
    has been submitted for each tracked resource and they are worked through. -/
theorem attach_works {settings : Settings} {r r' : Report} {l : List Effect}
    {res : Except Fault Unit} (h : (attach settings).Does r l res r') :
    (r' = r ∧ (res = .ok () → r.tracked = []) ∧
      ∀ e ∈ l, ∃ i a, e = .asked generate [("Arn", i)] a) ∨
    ∃ (ss : List Submission) (l' : List Effect),
      List.find? isMismatched r.targets = none ∧ ss.map (·.job.identifier) = r.tracked ∧
      l = ss.map Submission.effect ++ l' ∧
      (Run.each (ss.map Submission.job) (attachOne settings)).Does r l' res r' := by
  cases hm : List.find? isMismatched r.targets with
  | some t =>
    obtain ⟨rfl, rfl, rfl⟩ := (h.congr (attach_of_mismatched hm)).fault
    exact Or.inl ⟨rfl, nofun, List.forall_mem_nil _⟩
  | none =>
    have h₁ := h.congr (attach_of_matched hm)
    split at h₁
    · next hempty =>
      obtain ⟨rfl, rfl, rfl⟩ := h₁.pure
      refine Or.inl ⟨rfl, fun _ => ?_, List.forall_mem_nil _⟩
      rw [← Report.names_targets, List.isEmpty_iff.mp hempty]
      rfl
    · rcases attachAll_submits h₁ with
        ⟨ss, i, rest, a, e, -, rfl, -, rfl, rfl⟩ | ⟨ss, l', hi, rfl, hwork⟩
      · refine Or.inl ⟨rfl, nofun, List.forall_mem_append.mpr ⟨?_, ?_⟩⟩
        · intro x hx
          obtain ⟨s, -, rfl⟩ := List.mem_map.mp hx
          exact ⟨_, _, rfl⟩
        · intro x hx
          exact ⟨i, a, List.mem_singleton.mp hx⟩
      · exact Or.inr ⟨ss, l', rfl, hi, rfl, hwork⟩

/-- **What the enrichment of a report does.** -/
theorem attach_does {settings : Settings} {r : Report} (hk : r.Keyed) {l : List Effect}
    {res : Except Fault Unit} {d' : Report} (h : (attach settings).Does r l res d') :
    Attached settings r l res d' := by
  cases hm : List.find? isMismatched r.targets with
  | some t =>
    obtain ⟨rfl, rfl, rfl⟩ := (h.congr (attach_of_mismatched hm)).fault
    exact .mismatched hm
  | none =>
    have h₁ := h.congr (attach_of_matched hm)
    split at h₁
    · next hempty =>
      obtain ⟨rfl, rfl, rfl⟩ := h₁.pure
      have hnil : d'.targets = [] := List.isEmpty_iff.mp hempty
      have htracked : d'.tracked = [] := by
        rw [← Report.names_targets, hnil]
        rfl
      have hwritable : ∀ t ∈ d'.targets, t.2.isWritable := by
        rw [hnil]
        exact List.forall_mem_nil _
      -- no jobs are submitted, and none are done
      have hdone : Attached settings d' (([] : List Submission).map Submission.effect ++
          ([] : List (History settings)).flatMap History.effects) (.ok ())
          (d'.alter (([] : List (History settings)).map History.write)) :=
        .done hm htracked.symm rfl hwritable
      rw [List.map_nil, List.map_nil, Report.alter_nil] at hdone
      exact hdone
    · exact attachAll_does hk hm h₁

/-! ## A sample -/

/-- A resource that is named so, with nothing sent for it. -/
def bare (arn : String) : Resource :=
  ⟨.text arn, .text arn, .null, .null, .null, .null, .object []⟩

/-- Two resources that are tracked, and one between them that is not. -/
def sampleReport : Report :=
  ⟨[⟨bare "a", some (.text "a")⟩, ⟨bare "c", none⟩, ⟨bare "b", some (.text "b")⟩], none⟩

/-- A response that says that a job is in a state, and more. -/
def inState (state : String) (more : Members) : Answer :=
  .response (.object (("JobStatus", .text state) :: more))

/-- Answers to two jobs: the first one is in progress at first and then has two pages, and the
    second one is in a state. -/
def sampleScript (state : String) : Script :=
  ⟨[(generate, [.response (.object [("JobId", .text "1")]),
      .response (.object [("JobId", .text "2")])]),
    (details, [inState "IN_PROGRESS" [],
      inState "COMPLETED" [("ServicesLastAccessed", .list [.object []]),
        ("IsTruncated", .bool true), ("Marker", .text "m")],
      inState "COMPLETED" [("ServicesLastAccessed", .list [.object []])],
      inState state []])], []⟩

theorem keyed_sampleReport : sampleReport.Keyed := ⟨by decide +kernel, by decide +kernel⟩

/-! ## Success and failure -/

/-- **A report whose enrichment succeeds.** One job is submitted for each tracked resource, all of
    them before the first poll. Then the jobs are worked through in the same order: polls with
    nothing but the job, and pages with the marker of the response before. In the end every tracked
    resource has what its own job has told, as is read back of it, and nothing else is changed. -/
theorem attach_enriches {settings : Settings} {r : Report} (hk : r.Keyed) (s : Script)
    (h : (attach settings r s).result = .ok ()) :
    ∃ (ss : List Submission) (hs : List (History settings)),
      ss.map (·.job.identifier) = r.tracked ∧ hs.map History.job = ss.map Submission.job ∧
      s.effects (attach settings r s).trace =
        ss.map Submission.effect ++ hs.flatMap History.effects ∧
      (∀ t ∈ r.targets, t.2.isWritable) ∧
      (attach settings r s).draft = r.alter (hs.map History.write) ∧
      ReadsBack hs r.targets (attach settings r s).draft.targets := by
  have hd := Run.does_outcome (attach settings) r s
  rw [h] at hd
  generalize s.effects (attach settings r s).trace = l at hd ⊢
  generalize (attach settings r s).draft = d' at hd ⊢
  cases attach_does hk hd with
  | done _ hi hjob hw =>
    exact ⟨_, _, hi, hjob, rfl, hw, rfl, readsBack_alter fun t ht => hw t (List.mem_of_mem_take ht)⟩

/-- Both resources of the sample have what their jobs have told. -/
theorem attach_enriches_sample :
    sampleReport.Keyed ∧ (attach .default sampleReport (sampleScript "COMPLETED")).result = .ok () ∧
      ∃ hs : List (History .default), hs.map (·.job.identifier) = [.text "a", .text "b"] ∧
        (attach .default sampleReport (sampleScript "COMPLETED")).draft =
          sampleReport.alter (hs.map History.write) ∧
        ReadsBack hs sampleReport.targets
          (attach .default sampleReport (sampleScript "COMPLETED")).draft.targets := by
  have hr : (attach .default sampleReport (sampleScript "COMPLETED")).result = .ok () :=
    eq_ok_of_isOk (by decide +kernel)
  obtain ⟨ss, hs, hi, hjob, -, -, hd, hback⟩ := attach_enriches keyed_sampleReport _ hr
  refine ⟨keyed_sampleReport, hr, hs, ?_, hd, hback⟩
  have hnames : (hs.map History.job).map Job.identifier = sampleReport.tracked := by
    rw [hjob, List.map_map, ← hi]
    rfl
  rw [List.map_map] at hnames
  exact hnames

/-- **A report whose enrichment fails.** There are jobs that are done, and exactly their resources,
    the first ones, have what the jobs have told, as is read back of them. Where a resource is
    tracked under an identifier not its own, the first one is named, and nothing has been asked.
    Where a submission fails, its identifier is named, and no job has been polled. Otherwise the job
    after those that are done is interrupted, its identifier is named, and the call of which the
    failure tells is the last one. -/
theorem attach_failed {settings : Settings} {r : Report} (hk : r.Keyed) (s : Script) {f : Failure}
    (h : (attach settings r s).result = .error (.failure f)) :
    ∃ hs : List (History settings),
      (attach settings r s).draft = r.alter (hs.map History.write) ∧
      (∀ t ∈ r.targets.take hs.length, t.2.isWritable) ∧
      ReadsBack hs r.targets (attach settings r s).draft.targets ∧
      match List.find? isMismatched r.targets with
      | some t => hs = [] ∧ s.effects (attach settings r s).trace = [] ∧ f = mismatch t.1 t.2
      | none =>
        (∃ (ss : List Submission) (i : Value) (rest : List Value) (a : Answer) (t : Trouble),
          hs = [] ∧ r.tracked = ss.map (·.job.identifier) ++ i :: rest ∧
          s.effects (attach settings r s).trace =
            ss.map Submission.effect ++ [.asked generate [("Arn", i)] a] ∧
          a.settle generate = .ok (.trouble t) ∧ f = t.failure generate i) ∨
        (∃ (ss : List Submission) (job : Job) (rest : List Job) (l : List Effect),
          ss.map (·.job.identifier) = r.tracked ∧
          ss.map Submission.job = hs.map History.job ++ job :: rest ∧
          s.effects (attach settings r s).trace =
            ss.map Submission.effect ++ (hs.flatMap History.effects ++ l) ∧
          Interrupted settings job l f ∧ r.tracked[hs.length]? = some f.identifier) := by
  have hd := Run.does_outcome (attach settings) r s
  rw [h] at hd
  generalize s.effects (attach settings r s).trace = l at hd ⊢
  generalize (attach settings r s).draft = d' at hd ⊢
  cases attach_does hk hd with
  | mismatched hm =>
    refine ⟨[], ?_, List.forall_mem_nil _, ⟨nofun, fun _ _ => rfl⟩, ?_⟩
    · rw [List.map_nil, Report.alter_nil]
    · rw [hm]
      exact ⟨rfl, rfl, rfl⟩
  | refused hm hi ht =>
    refine ⟨[], ?_, List.forall_mem_nil _, ⟨nofun, fun _ _ => rfl⟩, ?_⟩
    · rw [List.map_nil, Report.alter_nil]
    · rw [hm]
      exact Or.inl ⟨_, _, _, _, _, rfl, hi, rfl, ht, rfl⟩
  | @interrupted ss hs job rest l f hm hi hjob hf hw =>
    refine ⟨hs, rfl, hw, readsBack_alter hw, ?_⟩
    rw [hm]
    refine Or.inr ⟨ss, job, rest, l, hi, hjob, rfl, hf, ?_⟩
    have htracked : r.tracked = (hs.map History.job ++ job :: rest).map Job.identifier := by
      rw [← hjob, List.map_map, ← hi]
      rfl
    rw [htracked, hf.identifier_eq, List.map_append, List.getElem?_append_right (by simp)]
    simp
  | fault hu _ => exact absurd rfl (hu f)

/-- The second job of the sample fails, and only the first resource has what its job has told. -/
theorem attach_failed_sample :
    sampleReport.Keyed ∧ ∃ f,
      (attach .default sampleReport (sampleScript "FAILED")).result = .error (.failure f) ∧
      ∃ hs : List (History .default),
        (attach .default sampleReport (sampleScript "FAILED")).draft =
          sampleReport.alter (hs.map History.write) ∧
        ReadsBack hs sampleReport.targets
          (attach .default sampleReport (sampleScript "FAILED")).draft.targets := by
  obtain ⟨f, hf⟩ := exists_of_isFailure (e := (attach .default sampleReport
    (sampleScript "FAILED")).result) (by decide +kernel)
  obtain ⟨hs, hd, -, hback, -⟩ := attach_failed keyed_sampleReport _ hf
  exact ⟨keyed_sampleReport, f, hf, hs, hd, hback⟩

end IamInventory.LastAccessed

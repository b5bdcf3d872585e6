import IamInventory.Proofs.Enumeration

/-!
# Phases — the order in which a report makes its calls

  A report makes its calls in three phases: it goes through its listing, it submits a job for
  everything that is tracked, and it works the jobs through. No phase starts before the one before
  it has ended well. Within the listing, a page is asked for only when all that there is to do about
  the items of the pages before it has been done.

* **`ReportKind.Visited`** — an item that a report has done with.
* **`LastAccessed.Submitted`**, **`LastAccessed.Stopped`** — jobs that have been submitted, for all
  identifiers or up to one.
* **`LastAccessed.attach_phases`** — the enrichment of a report submits its jobs first.
* **`ReportKind.InPhases`**, **`ReportKind.run_phases`** — the phases of a report.
-/

namespace IamInventory

/-! ## Jobs first, then polls -/

namespace LastAccessed

/-- Whether jobs have been submitted for all identifiers, one after another. -/
def Submitted (identifiers : List Value) (effects : List Effect) : Prop :=
  ∃ ss : List Submission, ss.map (·.job.identifier) = identifiers ∧
    effects = ss.map Submission.effect

/-- Whether jobs have been submitted for a first part of identifiers, and then the answer for the
    next one has told of no job. -/
def Stopped (identifiers : List Value) (effects : List Effect) : Prop :=
  ∃ (ss : List Submission) (i : Value) (rest : List Value) (a : Answer) (e : Fault),
    identifiers = ss.map (·.job.identifier) ++ i :: rest ∧
    effects = ss.map Submission.effect ++ [.asked generate [("Arn", i)] a] ∧
    jobTold i a = .error e

/-- The work for all identifiers submits their jobs, and then makes polls if all are submitted. -/
theorem attachAll_phases {settings : Settings} {identifiers : List Value} {r r' : Report}
    {l : List Effect} {res : Except Fault Unit}
    (h : (attachAll settings identifiers).Does r l res r') :
    ∃ submission polling, l = submission ++ polling ∧
      (∀ c ∈ Effect.calls submission, c.1 = generate) ∧
      (∀ c ∈ Effect.calls polling, c.1 = details) ∧
      (Submitted identifiers submission ∨
        polling = [] ∧ Stopped identifiers submission ∧ ∃ e, res = .error e) := by
  rw [attachAll] at h
  rcases h.bind (steady_submit (R := fun _ _ => True) identifiers).toLed with
    ⟨e, rfl, hsubmit⟩ | ⟨ids, d₁, l₁, l₂, rfl, hsubmit, hwork⟩
  · refine ⟨l, [], (List.append_nil l).symm, (callsOnly_submit identifiers).does hsubmit,
      List.forall_mem_nil _, Or.inr ⟨rfl, ?_, e, rfl⟩⟩
    obtain ⟨-, ⟨ss, -, -, he⟩ | ⟨ss, i, rest, a, x, hi, hl, ha, -⟩⟩ := submit_does hsubmit
    · cases he
    · exact ⟨ss, i, rest, a, x, hi, hl, ha⟩
  · have hpolls : ∀ c ∈ Effect.calls l₂, c.1 = details :=
      Run.CallsOnly.does ((Run.CallsOnly.each fun job => callsOnly_attachOne settings job).bind
        fun _ => .note _ _ _) hwork
    refine ⟨l₁, l₂, rfl, (callsOnly_submit identifiers).does hsubmit, hpolls, Or.inl ?_⟩
    obtain ⟨-, ⟨ss, hi, hl, -⟩ | ⟨ss, i, rest, a, x, -, -, -, he⟩⟩ := submit_does hsubmit
    · exact ⟨ss, hi, hl⟩
    · cases he

/-- **The enrichment of a report submits jobs first**, for what is tracked and in its order, and
    then makes polls if all jobs are submitted. -/
theorem attach_phases {settings : Settings} {r r' : Report} {l : List Effect}
    {res : Except Fault Unit} (hm : List.find? isMismatched r.targets = none)
    (h : (attach settings).Does r l res r') :
    ∃ submission polling, l = submission ++ polling ∧
      (∀ c ∈ Effect.calls submission, c.1 = generate) ∧
      (∀ c ∈ Effect.calls polling, c.1 = details) ∧
      (Submitted r.tracked submission ∨
        polling = [] ∧ Stopped r.tracked submission ∧ ∃ e, res = .error e) := by
  have hmatched := h.congr (attach_of_matched hm)
  split at hmatched
  · next hempty =>
    obtain ⟨rfl, -, -⟩ := hmatched.pure
    refine ⟨[], [], rfl, List.forall_mem_nil _, List.forall_mem_nil _, Or.inl ⟨[], ?_, rfl⟩⟩
    rw [← Report.names_targets, List.isEmpty_iff.mp hempty]
    rfl
  · exact attachAll_phases hmatched

/-- Where nothing is tracked, the enrichment of a report does nothing. -/
theorem attach_untracked {settings : Settings} {r r' : Report} {l : List Effect}
    {res : Except Fault Unit} (hr : r.tracked = []) (h : (attach settings).Does r l res r') :
    l = [] := by
  have htargets : r.targets = [] := by
    rw [← Report.names_targets] at hr
    exact List.map_eq_nil_iff.mp hr
  have hm : List.find? isMismatched r.targets = none := by rw [htargets, List.find?_nil]
  have hmatched := h.congr (attach_of_matched hm)
  rw [htargets] at hmatched
  exact hmatched.pure.1

end LastAccessed

/-! ## What reports track -/

/-- Whether two drafts track the same. -/
def Draft.TracksSame (d d' : Draft) : Prop := d'.report.tracked = d.report.tracked

instance : IsPreorder Draft Draft.TracksSame where
  refl _ := rfl
  trans _ _ _ h k := Eq.trans k h

/-- Whether all that a report tracks is tracked under its own name, which is a text. -/
def Report.Matched (r : Report) : Prop :=
  ∀ t ∈ r.targets, ∃ name, t.1 = .text name ∧ t.2.arn = .text name

namespace Report

theorem matched_empty : empty.Matched := List.forall_mem_nil _

theorem targets_extend (r : Report) (rs : List Resource) : (r.extend rs).targets = r.targets := by
  simp [extend, targets, List.filterMap_append, List.filterMap_map]

theorem matched_add {r r' : Report} {resource : Resource} (hr : r.Matched)
    (hname : ∃ name, resource.arn = .text name)
    (h : r.add resource (some resource.arn) = .ok r') : r'.Matched := by
  obtain ⟨name, hname⟩ := hname
  obtain ⟨-, rfl⟩ := add_eq_ok_iff.mp h
  intro t ht
  rw [targets, List.filterMap_append] at ht
  rcases List.mem_append.mp ht with ht | ht
  · exact hr t ht
  · obtain rfl : t = (resource.arn, resource) := List.mem_singleton.mp ht
    exact ⟨name, hname, hname⟩

/-- In a report in which all is tracked under its own name, no target is mismatched. -/
theorem Matched.find?_eq_none {r : Report} (h : r.Matched) :
    List.find? LastAccessed.isMismatched r.targets = none := by
  refine List.find?_eq_none.mpr fun t ht => ?_
  obtain ⟨name, hidentifier, harn⟩ := h t ht
  rw [LastAccessed.isMismatched, hidentifier, harn, Value.same_text]
  simp

end Report

/-- Whether a draft tracks all under its own name if another one does. -/
def Draft.StaysMatched (d d' : Draft) : Prop := d.report.Matched → d'.report.Matched

instance : IsPreorder Draft Draft.StaysMatched where
  refl _ := id
  trans _ _ _ h k := k ∘ h

namespace ReportKind

open LastAccessed

/-- A report on instance profiles tracks nothing. -/
theorem tracksSame_profiles (session : Session) (path : Value) :
    (profiles.enumerate session path).Steady Draft.TracksSame :=
  .visit fun item =>
    (steady_visit_of (fun h => absurd rfl h) (fun d rs => d.report.tracked_extend rs)
      (fun _ _ => rfl) session item).bind fun _ => .pure _

/-- **A report tracks all under its own name.** -/
theorem staysMatched_enumerate (kind : ReportKind) (session : Session) (path : Value) :
    (kind.enumerate session path).Steady Draft.StaysMatched := by
  have hextend (d : Draft) (rs : List Resource) :
      d.StaysMatched { d with report := d.report.extend rs } := by
    intro hd
    rw [Report.Matched, Report.targets_extend]
    exact hd
  exact .visit fun item =>
    (steady_visit_of (fun _ _ _ _ hname hadd hd => Report.matched_add hd hname hadd) hextend
      (fun _ _ => id) session item).bind fun _ => .pure _

/-! ## Items that are done with -/

/-- **An item that a report has done with**, from a draft to another one, and what has been called
    about it. -/
structure Visited (kind : ReportKind) (session : Session) where
  item : Value
  before : Draft
  effects : List Effect
  after : Draft
  done : (kind.visit session item).Does before effects (.ok ()) after

/-- How items that are done with tell of the work for them. -/
def Visited.telling (kind : ReportKind) (session : Session) :
    Telling Draft (Visited kind session) :=
  ⟨item, effects, fun v _ => v.after⟩

theorem covers_visited (kind : ReportKind) (session : Session) :
    (Visited.telling kind session).Covers (kind.handle session) :=
  covers_handle fun hvisit => ⟨⟨_, _, _, _, hvisit⟩, rfl, rfl, rfl⟩

theorem apart_visited {kind : ReportKind} {session : Session} (path : Value)
    (v : Visited kind session) :
    (kind.listing path).Apart ((Visited.telling kind session).effects v) := by
  intro c hc heq
  have hinner : c.1 ∈ kind.inner := (callsOnly_visit kind session v.item).does v.done c hc
  rw [heq, action_listing] at hinner
  exact outer_not_mem_inner kind hinner

theorem callsOnly_enumerate (kind : ReportKind) (session : Session) (path : Value) :
    (kind.enumerate session path).CallsOnly fun action =>
      action = kind.outer ∨ action ∈ kind.inner := by
  refine .visit (Or.inl (action_listing kind path)) fun item => ?_
  exact ((callsOnly_visit kind session item).mono fun _ => Or.inr).bind fun _ => .pure _

/-- **Enumeration is lazy**, and where it ends well, the listing has been drained. -/
theorem enumerate_lazy {kind : ReportKind} {session : Session} {path : Value} {d d' : Draft}
    {l : List Effect} {r : Except Fault Demand}
    (h : (kind.enumerate session path).Does d l r d') :
    (kind.listing path).Lazy (Visited.telling kind session) l ∧
      ∀ demand, r = .ok demand →
        ∃ vs, (kind.listing path).Drained (Visited.telling kind session) vs l [] := by
  obtain ⟨paged, ps, hgone⟩ := enumerate_does (covers_visited kind session) h
  refine ⟨hgone.isLazy (apart_visited path) (callsOnly_handle kind session path), ?_⟩
  rintro demand rfl
  obtain ⟨hpages, rfl, -⟩ := hgone.pages (wantsAll_handle kind session)
  exact ⟨_, paged, ps, hpages, rfl, (List.append_nil _).symm⟩

/-! ## The phases of a report -/

variable {σ : Type}

/-- A report whose client cannot be built has no effects. -/
theorem effects_run_of_error {kind : ReportKind} {session : Session} {path : Value} {d : σ}
    {s : Script} {e : Fault}
    (h : session.settings.clientOptions (.text Settings.defaultTag) = .error e) :
    (kind.run session path).effects d s = [] := by
  simp only [Run.effects, run, Session.client, buildClient, Run.ofFault, bind, Run.bind, h]
  rfl

/-- A report that is kept of a survey that has failed has an error, and the resources of the
    survey. -/
theorem kept_of_error {e : Fault} {draft : Draft} {report : Report}
    (h : kept (.error e) draft = .ok report) :
    report.error ≠ none ∧ report.resources = draft.report.resources := by
  cases e with
  | failure f =>
    cases h
    refine ⟨fun hnone => ?_, rfl⟩
    rw [Report.fail, Option.or_eq_none_iff] at hnone
    cases hnone.2
  | _ => cases h

/-- **How a report keeps its phases**: the listing, which has come to an outcome, the submission of
    jobs, and the polls for them. -/
structure InPhases (kind : ReportKind) (session : Session) (path : Value)
    (listed : Outcome Draft Demand) (result : Except Fault Report)
    (listing submission polling : List Effect) : Prop where
  listing_calls : ∀ c ∈ Effect.calls listing, c.1 = kind.outer ∨ c.1 ∈ kind.inner
  submission_calls : ∀ c ∈ Effect.calls submission, c.1 = generate
  polling_calls : ∀ c ∈ Effect.calls polling, c.1 = details
  /-- What comes before a page is whole pages, with all their items done with. -/
  isLazy : (kind.listing path).Lazy (Visited.telling kind session) listing
  /-- Where the listing fails, nothing else is called, and the resources are as they were listed. -/
  failed : ∀ e, listed.result = .error e → submission = [] ∧ polling = [] ∧
    ∀ report, result = .ok report →
      report.error ≠ none ∧ report.resources = listed.draft.report.resources
  /-- Where the listing ends well, its last page has been reached. -/
  drained : ∀ demand, listed.result = .ok demand →
    ∃ vs, (kind.listing path).Drained (Visited.telling kind session) vs listing []
  once : listed.draft.report.tracked.Pairwise fun i j => i.same j = false
  /-- Then there is a job for all that is tracked, in its order; or the report fails at one, and
      there are no polls. -/
  submitted : ∀ demand, listed.result = .ok demand →
    Submitted listed.draft.report.tracked submission ∨
      polling = [] ∧ Stopped listed.draft.report.tracked submission ∧
        ∀ report, result = .ok report → report.error ≠ none
  untracked : kind = profiles → submission = [] ∧ polling = []

section InPhases

variable {kind : ReportKind} {session : Session} {path : Value} {s : Script}
  {result : Except Fault Report}

/-- Where the listing fails, the other phases are empty. -/
theorem inPhases_of_error {e : Fault}
    (hlisted : (kind.enumerate session path start s).result = .error e)
    (hfailed : ∀ report, result = .ok report → report.error ≠ none ∧
      report.resources = (kind.enumerate session path start s).draft.report.resources) :
    kind.InPhases session path (kind.enumerate session path start s) result
      ((kind.enumerate session path).effects start s) [] [] := by
  have hdoes := Run.does_outcome (kind.enumerate session path) start s
  have hkeyed := ((steady_enumerate kind session path).grows start s).keyed Report.keyed_empty
  have hbad {demand : Demand} : (kind.enumerate session path start s).result ≠ .ok demand := by
    rw [hlisted]
    exact nofun
  exact {
    listing_calls := (callsOnly_enumerate kind session path).does hdoes
    submission_calls := List.forall_mem_nil _
    polling_calls := List.forall_mem_nil _
    isLazy := (enumerate_lazy hdoes).1
    failed := fun _ _ => ⟨rfl, rfl, hfailed⟩
    drained := fun _ h => absurd h hbad
    once := hkeyed.2
    submitted := fun _ h => absurd h hbad
    untracked := fun _ => ⟨rfl, rfl⟩ }

/-- Where the listing ends well, the other phases are those of the enrichment. -/
theorem inPhases_of_ok {demand : Demand} {l : List Effect} {r : Except Fault Unit}
    {report' : Report} (hlisted : (kind.enumerate session path start s).result = .ok demand)
    (hattach : (attach session.settings).Does (kind.enumerate session path start s).draft.report l r
      report')
    (hfailed : ∀ e, r = .error e → ∀ report, result = .ok report → report.error ≠ none) :
    ∃ submission polling, l = submission ++ polling ∧
      kind.InPhases session path (kind.enumerate session path start s) result
        ((kind.enumerate session path).effects start s) submission polling := by
  have hdoes := Run.does_outcome (kind.enumerate session path) start s
  obtain ⟨hlazy, hdrained⟩ := enumerate_lazy hdoes
  have hkeyed := ((steady_enumerate kind session path).grows start s).keyed Report.keyed_empty
  have hmatched := (staysMatched_enumerate kind session path).grows start s Report.matched_empty
  obtain ⟨submission, polling, rfl, hsubmission, hpolling, hjobs⟩ :=
    attach_phases hmatched.find?_eq_none hattach
  have hgood {e : Fault} : (kind.enumerate session path start s).result ≠ .error e := by
    rw [hlisted]
    exact nofun
  have huntracked (hkind : kind = profiles) : submission = [] ∧ polling = [] := by
    subst hkind
    have htracked := (tracksSame_profiles session path).grows start s
    exact List.append_eq_nil_iff.mp (attach_untracked htracked hattach)
  exact ⟨submission, polling, rfl, {
    listing_calls := (callsOnly_enumerate kind session path).does hdoes
    submission_calls := hsubmission
    polling_calls := hpolling
    isLazy := hlazy
    failed := fun _ h => absurd h hgood
    drained := hdrained
    once := hkeyed.2
    submitted := fun _ _ => hjobs.imp_right fun ⟨hnone, hstopped, e, he⟩ =>
      ⟨hnone, hstopped, hfailed e he⟩
    untracked := huntracked }⟩

end InPhases

end ReportKind

end IamInventory

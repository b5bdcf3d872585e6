import Mathlib.Data.List.Forall2
import IamInventory.Proofs.Interruption
import IamInventory.Proofs.Listings

/-!
# Enumeration — what a report does before and after its listing is done

  A report goes through its listing, and if nothing fails there, it looks up the use of what it has
  tracked. The calls about an item are of other actions than the one of the listing, and those for
  the use of services are of two more, so that each call of a report tells which part of it makes
  the call.

* **`ReportKind.callsOnly_visit`**, **`LastAccessed.callsOnly_attach`** — which actions the parts
  call.
* **`ReportKind.survey_parts`** — the effects and the result of a survey, by its parts.
* **`ReportKind.run_course`** — how a report comes about.
* **`alterEntries_blocks`** — what the enrichment leaves of resources with their parts.
* **`ReportKind.run_histories`**, **`ReportKind.run_told`** — a report told by stories of its items.
-/

namespace IamInventory

namespace LastAccessed

theorem callsOnly_attach (settings : Settings) :
    (attach settings).CallsOnly fun action => action = generate ∨ action = details := by
  rw [attach_eq]
  refine Run.CallsOnly.draft.bind fun r => (Run.CallsOnly.ofFailure _).bind fun _ => ?_
  split
  · exact .pure ()
  · refine Run.CallsOnly.bind ((callsOnly_submit _).mono fun _ => Or.inl) fun ids => ?_
    refine Run.CallsOnly.bind ?_ fun _ => .note _ _ _
    exact .each fun job => (callsOnly_attachOne settings job).mono fun _ => Or.inr

/-- **What there is of an enrichment** that ends well or with a failure: the jobs that are done have
    been written back, and these are all jobs if it ends well. -/
theorem Attached.exists_histories {settings : Settings} {r r' : Report} {l : List Effect}
    {res : Except Fault Unit} (h : Attached settings r l res r')
    (hres : ∀ e, res = .error e → ∃ f, e = .failure f) :
    ∃ hs : List (History settings), r' = r.alter (hs.map History.write) ∧
      (res = .ok () → hs.length = r.tracked.length) := by
  cases h with
  | mismatched => exact ⟨[], (Report.alter_nil r).symm, nofun⟩
  | refused => exact ⟨[], (Report.alter_nil r).symm, nofun⟩
  | @interrupted ss hs => exact ⟨hs, rfl, nofun⟩
  | @done ss hs _ hi hjob =>
    refine ⟨hs, rfl, fun _ => ?_⟩
    rw [← hi, List.length_map, ← List.length_map Submission.job, ← hjob, List.length_map]
  | @fault l e cs hu =>
    obtain ⟨f, rfl⟩ := hres e rfl
    exact absurd rfl (hu f)

end LastAccessed

/-! ## Resources with their parts -/

/-- The draft with more entries in its report. -/
def Draft.enter (d : Draft) (es : List Entry) : Draft :=
  { d with report := { d.report with entries := d.report.entries ++ es } }

theorem Draft.enter_enter (d : Draft) (es more : List Entry) :
    (d.enter es).enter more = d.enter (es ++ more) := by
  rw [enter, enter, enter, ← List.append_assoc]

/-- The entries of a resource that is tracked under its name, and of parts of it that are not. -/
def blockEntries (record : Resource) (parts : List Resource) : List Entry :=
  ⟨record, some record.arn⟩ :: parts.map fun part => ⟨part, none⟩

theorem resources_blockEntries (record : Resource) (parts : List Resource) :
    (blockEntries record parts).map Entry.resource = record :: parts := by
  rw [blockEntries, List.map_cons, List.map_map]
  exact congrArg _ (List.map_id parts)

/-- Resources that are not tracked stay as they are. -/
theorem alterEntries_parts (parts : List Resource) (es : List Entry)
    (cs : List (Resource → Resource)) :
    Report.alterEntries (parts.map (fun part => ⟨part, none⟩) ++ es) cs =
      parts.map (fun part => ⟨part, none⟩) ++ Report.alterEntries es cs := by
  induction parts with
  | nil => rfl
  | cons part parts ih =>
    rw [List.map_cons, List.cons_append, Report.alterEntries_none, ih, List.cons_append]

/-- Whether a record is another one but for what the service sent. -/
def Resource.Agrees (r base : Resource) : Prop := { r with metadata := base.metadata } = base

theorem Resource.Agrees.refl (r : Resource) : r.Agrees r := rfl

theorem Resource.Agrees.arn_eq {r base : Resource} (h : r.Agrees base) : r.arn = base.arn := by
  have harn := congrArg Resource.arn h
  exact harn

/-- **Changes to resources with their parts** leave the parts, and of the resources everything but
    what the service sent. -/
theorem alterEntries_blocks {α : Type} (record : α → Resource) (parts : α → List Resource)
    (as : List α) {cs : List (Resource → Resource)} (hcs : ∀ c ∈ cs, LastAccessed.KeepsFields c) :
    ∃ records, List.Forall₂ (fun a r => r.Agrees (record a)) as records ∧
      Report.alterEntries (as.flatMap fun a => blockEntries (record a) (parts a)) cs =
        (List.zipWith (fun a r => blockEntries r (parts a)) as records).flatten := by
  induction as generalizing cs with
  | nil => cases cs <;> exact ⟨[], .nil, rfl⟩
  | cons a as ih =>
    rw [List.flatMap_cons, blockEntries, List.cons_append]
    -- a resource without a change of its own is as it was
    have step (r : Resource) (hr : r.Agrees (record a)) {rest : List (Resource → Resource)}
        (hrest : ∀ c ∈ rest, LastAccessed.KeepsFields c) :
        ∃ records, List.Forall₂ (fun a r => r.Agrees (record a)) (a :: as) records ∧
          ⟨r, some (record a).arn⟩ :: Report.alterEntries
            ((parts a).map (fun part => ⟨part, none⟩) ++
              as.flatMap fun a => blockEntries (record a) (parts a)) rest =
          (List.zipWith (fun a r => blockEntries r (parts a)) (a :: as) records).flatten := by
      obtain ⟨records, hsame, hentries⟩ := ih hrest
      refine ⟨r :: records, .cons hr hsame, ?_⟩
      rw [alterEntries_parts, hentries, List.zipWith_cons_cons, List.flatten_cons, blockEntries,
        hr.arn_eq, List.cons_append]
    cases cs with
    | nil =>
      have h := step (record a) (.refl _) hcs
      rwa [Report.alterEntries_nil] at h ⊢
    | cons c cs =>
      obtain ⟨hc, hcs⟩ := List.forall_mem_cons.mp hcs
      exact step (c (record a)) (hc (record a)) hcs

/-- **What is tracked among resources with their parts** is the resources. -/
theorem targets_blocks {α : Type} (parts : α → List Resource) (as : List α)
    (records : List Resource) (h : as.length = records.length) :
    ((List.zipWith (fun a r => blockEntries r (parts a)) as records).flatten.filterMap fun e =>
      e.tracked.map fun i => (i, e.resource)) = records.map fun r => (r.arn, r) := by
  induction as generalizing records with
  | nil =>
    obtain rfl := List.length_eq_zero_iff.mp h.symm
    rfl
  | cons a as ih =>
    obtain ⟨r, records, rfl⟩ := List.exists_cons_of_length_eq_add_one h.symm
    rw [List.zipWith_cons_cons, List.flatten_cons, List.filterMap_append,
      ih records (Nat.succ.inj h), blockEntries]
    simp

theorem resources_blocks {α : Type} (parts : α → List Resource) (as : List α)
    (records : List Resource) :
    (List.zipWith (fun a r => blockEntries r (parts a)) as records).flatten.map Entry.resource =
      (List.zipWith (fun a r => r :: parts a) as records).flatten := by
  rw [List.map_flatten, List.map_zipWith]
  simp only [resources_blockEntries]

/-- **Changes to resources without parts** leave of them everything but what the service sent. -/
theorem agrees_alterEntries {α : Type} (record : α → Resource) (as : List α)
    {cs : List (Resource → Resource)} (hcs : ∀ c ∈ cs, LastAccessed.KeepsFields c) :
    List.Forall₂ (fun a r => r.Agrees (record a)) as
      ((Report.alterEntries (as.flatMap fun a => blockEntries (record a) []) cs).map
        Entry.resource) := by
  obtain ⟨records, hagree, haltered⟩ := alterEntries_blocks record (fun _ => []) as hcs
  have hrecords : (List.zipWith (fun (_ : α) (r : Resource) => [r]) as records).flatten =
      records := by
    clear haltered hcs
    induction hagree with
    | nil => rfl
    | cons _ _ ih => rw [List.zipWith_cons_cons, List.flatten_cons, ih, List.singleton_append]
  rw [haltered, resources_blocks, hrecords]
  exact hagree

namespace ReportKind

open LastAccessed

/-! ## The work for one item -/

/-- What tracking a resource does: it is entered under its name, or nothing is done. -/
theorem track_does {resource : Resource} {d d' : Draft} {l : List Effect} {r : Except Fault Unit}
    (h : (track resource).Does d l r d') :
    l = [] ∧ ((∃ e, r = .error e ∧ d' = d) ∨
      r = .ok () ∧ d' = d.enter [⟨resource, some resource.arn⟩]) := by
  obtain ⟨s, rfl, rfl, rfl⟩ := h
  rw [track_eq]
  cases hadd : d.report.add resource (some resource.arn) with
  | error e => exact ⟨rfl, Or.inl ⟨e, rfl, rfl⟩⟩
  | ok report =>
    obtain ⟨-, rfl⟩ := Report.add_eq_ok_iff.mp hadd
    exact ⟨rfl, Or.inr ⟨rfl, rfl⟩⟩

/-- What a report does about an item: it is visited, and more are wanted. -/
def handle (kind : ReportKind) (session : Session) (item : Value) : Run Draft Demand := do
  kind.visit session item
  pure .more

theorem enumerate_eq (kind : ReportKind) (session : Session) (path : Value) :
    kind.enumerate session path = (kind.listing path).visit (kind.handle session) := rfl

theorem steady_handle (kind : ReportKind) (session : Session) (item : Value) :
    (kind.handle session item).Steady Draft.Grows :=
  (steady_visit kind session item).bind fun _ => .pure _

theorem handle_does {kind : ReportKind} {session : Session} {item : Value} {d d' : Draft}
    {l : List Effect} {r : Except Fault Demand} (h : (kind.handle session item).Does d l r d') :
    ∃ r', (kind.visit session item).Does d l r' d' ∧ r = r'.map fun _ => .more := by
  rw [handle] at h
  rcases h.bind (steady_visit kind session item).toLed with
    ⟨e, rfl, hvisit⟩ | ⟨a, d₁, l₁, l₂, rfl, hvisit, hpure⟩
  · exact ⟨.error e, hvisit, rfl⟩
  · obtain ⟨rfl, rfl, rfl⟩ := hpure.pure
    rw [List.append_nil]
    exact ⟨.ok a, hvisit, rfl⟩

/-- Stories that tell of what is done about an item tell of the listing of the items. -/
theorem covers_handle {α : Type} {kind : ReportKind} {session : Session} {t : Telling Draft α}
    (h : ∀ {item d d' l}, (kind.visit session item).Does d l (.ok ()) d' →
      ∃ a, t.item a = item ∧ t.effects a = l ∧ t.put a d = d') :
    t.Covers (kind.handle session) := by
  intro item d d' l hhandle
  obtain ⟨r, hvisit, hr⟩ := handle_does hhandle
  cases r with
  | error e => cases hr
  | ok a => exact h hvisit

theorem wantsAll_handle (kind : ReportKind) (session : Session) :
    Listing.WantsAll (kind.handle session) := by
  intro item d d' l r h
  obtain ⟨r', -, rfl⟩ := handle_does h
  cases r' <;> exact nofun

theorem window_listing (kind : ReportKind) (path : Value) :
    (kind.listing path).window = .whole := by
  cases kind <;> rfl

/-- The actions that a report calls about an item. -/
def inner : ReportKind → List Action
  | users => [⟨"list_access_keys"⟩, ⟨"get_access_key_last_used"⟩]
  | policies => [⟨"list_policy_versions"⟩, ⟨"get_policy_version"⟩]
  | _ => []

theorem callsOnly_accessKeys {σ : Type} (session : Session) (userName : Value) :
    (accessKeys session userName : Run σ (List Resource)).CallsOnly (· ∈ users.inner) :=
  .gather (List.mem_cons_self) fun item =>
    (Run.CallsOnly.ofFault _).bind fun _ => (Run.CallsOnly.ofFault _).bind fun _ =>
      (Run.CallsOnly.call (by decide) _ _).bind fun _ => (Run.CallsOnly.ofFault _).bind fun _ =>
        (Run.CallsOnly.ofFault _).bind fun _ => .pure _

theorem callsOnly_policyVersions {σ : Type} (session : Session) (policy : Value) :
    (policyVersions session policy : Run σ (List Resource)).CallsOnly (· ∈ policies.inner) :=
  .gather (List.mem_cons_self) fun item =>
    (Run.CallsOnly.ofFault _).bind fun _ => (Run.CallsOnly.call (by decide) _ _).bind fun _ =>
      (Run.CallsOnly.ofFault _).bind fun _ => (Run.CallsOnly.ofFault _).bind fun _ =>
        (Run.CallsOnly.ofFault _).bind fun _ => (Run.CallsOnly.ofFailure _).bind fun _ => .pure _

theorem callsOnly_track {P : Action → Prop} (resource : Resource) :
    (track resource).CallsOnly P :=
  Run.CallsOnly.draft.bind fun _ => (Run.CallsOnly.ofFault _).bind fun _ => .redraft _

/-- **About an item, a report calls no other actions** than those that belong to its kind. -/
theorem callsOnly_visit (kind : ReportKind) (session : Session) (item : Value) :
    (kind.visit session item).CallsOnly (· ∈ kind.inner) := by
  refine (Run.CallsOnly.ofFault _).bind fun resource => ?_
  cases kind with
  | users =>
    exact (callsOnly_track _).bind fun _ => (Run.CallsOnly.ofFault _).bind fun _ =>
      (callsOnly_accessKeys session _).bind fun _ => .redraft _
  | groups => exact callsOnly_track _
  | roles =>
    exact (Run.CallsOnly.ofFault _).bind fun _ => (Run.CallsOnly.ofFault _).bind fun _ =>
      callsOnly_track _
  | policies =>
    exact (callsOnly_policyVersions session _).bind fun _ => (callsOnly_track _).bind fun _ =>
      .redraft _
  | profiles =>
    exact (Run.CallsOnly.ofFault _).bind fun _ => (Run.CallsOnly.ofFault _).bind fun _ => .redraft _

/-- The action that a report lists its items with. -/
def outer : ReportKind → Action
  | users => ⟨"list_users"⟩
  | groups => ⟨"list_groups"⟩
  | roles => ⟨"list_roles"⟩
  | policies => ⟨"list_policies"⟩
  | profiles => ⟨"list_instance_profiles"⟩

theorem action_listing (kind : ReportKind) (path : Value) :
    (kind.listing path).action = kind.outer := by
  cases kind <;> rfl

theorem outer_not_mem_inner (kind : ReportKind) : kind.outer ∉ kind.inner := by
  cases kind <;> decide

/-- What is called about an item is apart from the listing. -/
theorem callsOnly_handle (kind : ReportKind) (session : Session) (path item : Value) :
    (kind.handle session item).CallsOnly (· ≠ (kind.listing path).action) := by
  refine Run.CallsOnly.bind ((callsOnly_visit kind session item).mono fun action hin heq => ?_)
    fun _ => .pure _
  rw [heq, action_listing] at hin
  exact outer_not_mem_inner kind hin

/-- What enumeration does, told by stories: pages, and where it ends early, one that is broken. -/
theorem enumerate_does {α : Type} {kind : ReportKind} {session : Session} {path : Value}
    {t : Telling Draft α} (ht : t.Covers (kind.handle session)) {d d' : Draft} {l : List Effect}
    {r : Except Fault Demand} (h : (kind.enumerate session path).Does d l r d') :
    ∃ paged ps, Listing.Gone (kind.listing path) paged (kind.handle session) t
      (kind.listing path).first d ps l r d' := by
  rw [enumerate_eq] at h
  exact Listing.visit_does (steady_handle kind session) ht h

/-! ## The parts of a report -/

variable {σ : Type}

theorem effects_conclude (kind : ReportKind) (result : Except Fault Unit) (draft : Draft) (d : σ)
    (s s' : Script) : s'.effects (kind.conclude result draft d s).trace = [] := by
  cases result with
  | ok a => rfl
  | error e => cases e <;> rfl

/-- The effects of a report whose client can be built are those of its survey. -/
theorem effects_run (kind : ReportKind) {session : Session} (path : Value) (d : σ) (s : Script)
    {options : ClientOptions}
    (h : session.settings.clientOptions (.text Settings.defaultTag) = .ok options) :
    s.effects (kind.run session path d s).trace =
      s.effects (kind.survey session path start s).trace := by
  have hclient : (session.client (.text iam) : Run σ Unit) d s =
      ⟨.ok (), d, s, [.built (.text iam) session.region options]⟩ := by
    simp only [Session.client, buildClient, Run.ofFault, Run.emit, bind, Run.bind, h,
      List.nil_append]
  rw [run_eq, Run.bind_of_ok (by rw [hclient]), hclient]
  simp only [Run.attempt, bind, Run.bind]
  have hend := effects_conclude kind (kind.survey session path start s).result
    (kind.survey session path start s).draft d (kind.survey session path start s).left
  rw [Script.effects_append, Script.effects_append, hend, List.append_nil]
  rfl

/-- **The parts of a survey**: the listing, and if it ends well, the enrichment of what it has come
    to. -/
theorem survey_parts (kind : ReportKind) (session : Session) (path : Value) (s : Script) :
    (∃ e, (kind.enumerate session path start s).result = .error e ∧
        s.effects (kind.survey session path start s).trace =
          s.effects (kind.enumerate session path start s).trace ∧
        (kind.survey session path start s).result = .error e ∧
        (kind.survey session path start s).draft = (kind.enumerate session path start s).draft) ∨
      ∃ demand l r report, (kind.enumerate session path start s).result = .ok demand ∧
        (attach session.settings).Does (kind.enumerate session path start s).draft.report l r
          report ∧
        s.effects (kind.survey session path start s).trace =
          s.effects (kind.enumerate session path start s).trace ++ l ∧
        (kind.survey session path start s).result = r ∧
        (kind.survey session path start s).draft =
          { (kind.enumerate session path start s).draft with report } := by
  rw [survey_eq]
  cases hr : (kind.enumerate session path start s).result with
  | error e =>
    rw [Run.bind_of_error hr]
    exact Or.inl ⟨e, rfl, rfl, rfl, rfl⟩
  | ok demand =>
    have hleft := (steady_enumerate kind session path).left start s
    rw [Run.bind_of_ok hr, Script.effects_append, ← hleft]
    exact Or.inr ⟨demand, _, _, _, rfl, Run.does_outcome (attach session.settings) _ _, rfl, rfl,
      rfl⟩

/-- **How a report comes about.** Either its listing fails, and the report is what has come together
    by then; or the listing ends well, and what it has come to is enriched, as far as that goes. The
    resources that have been put off are there only if nothing has failed, and then the jobs of all
    tracked resources are done. -/
theorem run_course {kind : ReportKind} {session : Session} {path : Value} {d : σ} {s : Script}
    {report : Report} (h : (kind.run session path d s).result = .ok report) :
    ∃ (l : List Effect) (draft : Draft), draft.report.error = none ∧
      ((∃ f, (kind.enumerate session path).Does start l (.error (.failure f)) draft ∧
          s.effects (kind.run session path d s).trace = l ∧ report = draft.report.fail f) ∨
        ∃ (demand : Demand) (l' : List Effect) (hs : List (History session.settings)),
          (kind.enumerate session path).Does start l (.ok demand) draft ∧
          s.effects (kind.run session path d s).trace = l ++ l' ∧
          (∀ c ∈ Effect.calls l', c.1 = generate ∨ c.1 = details) ∧
          (hs.length = draft.report.tracked.length ∧
              report = (draft.report.alter (hs.map History.write)).extend draft.deferred ∨
            ∃ f, report = (draft.report.alter (hs.map History.write)).fail f)) := by
  cases ho : session.settings.clientOptions (.text Settings.defaultTag) with
  | error e =>
    rw [run_of_error ho] at h
    cases h
  | ok options =>
    have hgrows := (steady_enumerate kind session path).grows start s
    have hdoes := Run.does_outcome (kind.enumerate session path) start s
    rw [(run_of_ok kind path d s ho).2] at h
    rw [effects_run kind path d s ho]
    refine ⟨s.effects (kind.enumerate session path start s).trace, _, hgrows.error, ?_⟩
    rcases survey_parts kind session path s with ⟨e, hr, heffects, hresult, hdraft⟩ |
      ⟨demand, l', r, report', hr, hattach, heffects, hresult, hdraft⟩
    · rw [hr] at hdoes
      rw [hresult, hdraft] at h
      cases e with
      | failure f =>
        cases h
        exact Or.inl ⟨f, hdoes, heffects, rfl⟩
      | _ => cases h
    · rw [hr] at hdoes
      rw [hresult, hdraft] at h
      have hattached := attach_does (hgrows.keyed Report.keyed_empty) hattach
      have hcalls := (callsOnly_attach session.settings).does hattach
      cases r with
      | ok a =>
        obtain ⟨hs, rfl, hlength⟩ := hattached.exists_histories nofun
        cases h
        exact Or.inr ⟨demand, l', hs, hdoes, heffects, hcalls, Or.inl ⟨hlength rfl, rfl⟩⟩
      | error e =>
        cases e with
        | failure f =>
          obtain ⟨hs, rfl, -⟩ :=
            hattached.exists_histories fun e he => ⟨f, (Except.error.inj he).symm⟩
          cases h
          exact Or.inr ⟨demand, l', hs, hdoes, heffects, hcalls, Or.inr ⟨f, rfl⟩⟩
        | _ => cases h

/-- The calls for the use of services are apart from the listing. -/
theorem apart_of_calls (kind : ReportKind) (path : Value) {l : List Effect}
    (h : ∀ c ∈ Effect.calls l, c.1 = generate ∨ c.1 = details) : (kind.listing path).Apart l := by
  intro c hc heq
  rw [action_listing] at heq
  rcases h c hc with h | h
  · rw [h] at heq
    cases kind <;> exact absurd heq (by decide)
  · rw [h] at heq
    cases kind <;> exact absurd heq (by decide)

/-- **A report told by stories of its items**, one for each item of a first part of the listing, and
    by histories of jobs. The report has no error if all of the listing is there and nothing has
    failed afterwards. If it has one, either no item is left without a story, or the next one has
    failed with that error. The entries are what the stories make of the report, with what the jobs
    that are done tell written back. If there is no error, the jobs of all tracked resources are
    done, and what has been put off comes behind. -/
theorem run_histories {α : Type} {kind : ReportKind} {session : Session} {path : Value}
    {t : Telling Draft α} (ht : t.Covers (kind.handle session))
    (hapart : ∀ a, (kind.listing path).Apart (t.effects a)) {d : σ} {s : Script} {report : Report}
    (h : (kind.run session path d s).result = .ok report) :
    ∃ (stories : List α) (rest : List Effect) (draft : Draft)
      (hs : List (History session.settings)),
      (kind.listing path).nested ((kind.run session path).effects d s) =
        stories.flatMap t.effects ++ rest ∧
      (report.error = none ∧ draft = t.tell stories start ∧
          hs.length = draft.report.tracked.length ∧
          (kind.listing path).listed ((kind.run session path).effects d s) =
            stories.map t.item ∧
          (kind.listing path).Drained t stories ((kind.run session path).effects d s) rest ∧
          report.entries =
            Report.alterEntries draft.report.entries (hs.map History.write) ++
              draft.deferred.map (fun part => ⟨part, none⟩) ∨
        ∃ f, report.error = some f ∧
          report.entries = Report.alterEntries draft.report.entries (hs.map History.write) ∧
          ((kind.listing path).listed ((kind.run session path).effects d s) = stories.map t.item ∧
              draft = t.tell stories start ∨
            ∃ item more, (kind.listing path).listed ((kind.run session path).effects d s) =
                stories.map t.item ++ item :: more ∧
              (kind.visit session item).Does (t.tell stories start) rest (.error (.failure f))
                draft)) := by
  have heffects : (kind.run session path).effects d s =
      s.effects (kind.run session path d s).trace := rfl
  obtain ⟨l, draft, herror, ⟨f, hfailed, hl, rfl⟩ |
    ⟨demand, l', hs, hdone, hl, hcalls, hreport⟩⟩ := run_course h
  · rw [heffects, hl]
    obtain ⟨paged, ps, hgone⟩ := enumerate_does ht hfailed
    obtain ⟨stories, rest, inner, hlisted, hnested, hend⟩ := hgone.failed
      (window_listing kind path) hapart (callsOnly_handle kind session path)
    have hentries : (draft.report.fail f).entries = Report.alterEntries draft.report.entries [] :=
      (Report.alterEntries_nil _).symm
    have hfail : (draft.report.fail f).error = some f := by
      rw [Report.fail, herror, Option.none_or]
    refine ⟨stories, inner, draft, [], hnested, Or.inr ⟨f, hfail, hentries, ?_⟩⟩
    rcases hend with ⟨rfl, -, rfl⟩ | ⟨item, more, rfl, hitem⟩
    · rw [List.append_nil] at hlisted
      exact Or.inl ⟨hlisted, rfl⟩
    · obtain ⟨r, hvisit, hr⟩ := handle_does hitem
      cases r with
      | ok a => cases hr
      | error e =>
        cases hr
        exact Or.inr ⟨item, more, hlisted, hvisit⟩
  · rw [heffects, hl]
    obtain ⟨paged, ps, hgone⟩ := enumerate_does ht hdone
    obtain ⟨hpages, rfl, rfl⟩ := hgone.pages (wantsAll_handle kind session)
    have hrest := apart_of_calls kind path hcalls
    have hdrained : (kind.listing path).Drained t (ps.flatMap PageRecord.stories) _ l' :=
      ⟨paged, ps, hpages, rfl, rfl⟩
    have hlisted := hdrained.listed_eq (window_listing kind path) hapart hrest
    refine ⟨_, l', t.tell (ps.flatMap PageRecord.stories) start, hs,
      hdrained.nested_eq hapart hrest, ?_⟩
    rcases hreport with ⟨hlength, rfl⟩ | ⟨f, rfl⟩
    · exact Or.inl ⟨herror, rfl, hlength, hlisted, hdrained, rfl⟩
    · refine Or.inr ⟨f, ?_, rfl, Or.inl ⟨hlisted, rfl⟩⟩
      show ((Telling.tell t _ start).report.error).or (some f) = some f
      rw [herror, Option.none_or]

/-- The same, for what is known of all changes of what the service sent. -/
theorem run_told {α : Type} {kind : ReportKind} {session : Session} {path : Value}
    {t : Telling Draft α} (ht : t.Covers (kind.handle session))
    (hapart : ∀ a, (kind.listing path).Apart (t.effects a)) {d : σ} {s : Script} {report : Report}
    (h : (kind.run session path d s).result = .ok report) :
    ∃ (stories : List α) (rest : List Effect) (draft : Draft) (cs : List (Resource → Resource)),
      (kind.listing path).nested ((kind.run session path).effects d s) =
        stories.flatMap t.effects ++ rest ∧
      (∀ c ∈ cs, KeepsFields c) ∧
      (report.error = none ∧ draft = t.tell stories start ∧
          (kind.listing path).listed ((kind.run session path).effects d s) =
            stories.map t.item ∧
          (kind.listing path).Drained t stories ((kind.run session path).effects d s) rest ∧
          report.entries = Report.alterEntries draft.report.entries cs ++
            draft.deferred.map (fun part => ⟨part, none⟩) ∨
        ∃ f, report.error = some f ∧
          report.entries = Report.alterEntries draft.report.entries cs ∧
          ((kind.listing path).listed ((kind.run session path).effects d s) = stories.map t.item ∧
              draft = t.tell stories start ∨
            ∃ item more, (kind.listing path).listed ((kind.run session path).effects d s) =
                stories.map t.item ++ item :: more ∧
              (kind.visit session item).Does (t.tell stories start) rest (.error (.failure f))
                draft)) := by
  obtain ⟨stories, rest, draft, hs, hnested, hcase⟩ := run_histories ht hapart h
  refine ⟨stories, rest, draft, _, hnested, keepsFields_writes hs, hcase.imp_left ?_⟩
  rintro ⟨herror, hdraft, -, hlisted, hdrained, hentries⟩
  exact ⟨herror, hdraft, hlisted, hdrained, hentries⟩

end ReportKind

end IamInventory

import IamInventory.Survey
import IamInventory.Proofs.Enrichment
import IamInventory.Proofs.Injection

/-!
# Interruption — reports that trouble breaks off

  Whichever call of a report meets with trouble, the report ends with it: the call is the last one,
  and the failure of the call is the error of the report. What has come together by then depends on
  where the call stands. Among the calls of the listing it is a first part of what the listing
  would have come to. Among those for the use of services it is all of that, with the first
  resources enriched, as many as had their jobs done.

  Both are told in the same way, by the report before the enrichment and by two lists of changes:
  those that were made before the trouble, and those that it has kept from being made.

* **`Recorded`** — an item with the record that is made of it.
* **`ReportKind.steady_visit_of`** — what the work for an item keeps, whatever that is.
* **`ReportKind.steady_enumerate`** — the listing of a report only adds to it.
* **`LastAccessed.attach_breaks`** — the enrichment of a report breaks between two jobs.
* **`ReportKind.survey_breaks`** — both together.
* **`ReportKind.run_interrupted`** — a report with one answer changed to trouble.
-/

namespace IamInventory

/-! ## Drafts that grow -/

/-- Whether a draft has come from another one by adding to its report. -/
structure Draft.Grows (d d' : Draft) : Prop where
  entries : d.report.entries <+: d'.report.entries
  error : d'.report.error = d.report.error
  keyed : d.report.Keyed → d'.report.Keyed

instance : IsPreorder Draft Draft.Grows where
  refl _ := ⟨List.prefix_rfl, rfl, id⟩
  trans _ _ _ h k :=
    ⟨h.entries.trans k.entries, k.error.trans h.error, fun hk => k.keyed (h.keyed hk)⟩

theorem Draft.grows_add {d : Draft} {report : Report} {resource : Resource}
    {identifier : Option Value} (h : d.report.add resource identifier = .ok report) :
    d.Grows { d with report } := by
  have hkeyed (hk : d.report.Keyed) : report.Keyed := Report.keyed_add hk h
  obtain ⟨-, rfl⟩ := Report.add_eq_ok_iff.mp h
  exact ⟨List.prefix_append _ _, rfl, hkeyed⟩

theorem Draft.grows_extend (d : Draft) (rs : List Resource) :
    d.Grows { d with report := d.report.extend rs } :=
  ⟨List.prefix_append _ _, rfl, fun hk => Report.keyed_extend hk rs⟩

theorem Draft.grows_defer (d : Draft) (rs : List Resource) :
    d.Grows { d with deferred := d.deferred ++ rs } :=
  ⟨List.prefix_rfl, rfl, id⟩

/-! ## Resources of items -/

/-- An item with the record that is made of it, by the name of the item. -/
structure Recorded (session : Session) where
  item : Value
  name : Value
  record : Resource
  named : item.member "Arn" = .ok name
  made : Resource.ofItem session name item = .ok record

theorem exists_recorded {session : Session} {item : Value} {record : Resource}
    (h : (do Resource.ofItem session (← item.member "Arn") item) = .ok record) :
    ∃ x : Recorded session, x.item = item ∧ x.record = record := by
  cases hname : item.member "Arn" with
  | error e =>
    rw [hname] at h
    cases h
  | ok name =>
    rw [hname] at h
    exact ⟨⟨item, name, record, hname, h⟩, rfl, rfl⟩

/-- The name of a record that is made of an item is a text. -/
theorem Recorded.exists_arn_eq {session : Session} (x : Recorded session) :
    ∃ name, x.record.arn = .text name := by
  have hmade := x.made
  simp only [Resource.ofItem] at hmade
  cases hname : Arn.parse x.name with
  | error f =>
    rw [hname] at hmade
    cases hmade
  | ok arn =>
    cases hmembers : itemMembers x.item with
    | error e =>
      rw [hname, hmembers] at hmade
      cases hmade
    | ok metadata =>
      rw [hname, hmembers] at hmade
      exact ⟨arn.text, congrArg Resource.arn (Except.ok.inj hmade).symm⟩

/-! ## Listings of reports -/

theorem steady_accessKey (session : Session) (item : Value) :
    (accessKey session item : Run (List Resource) Resource).Steady fun _ _ => True :=
  (Run.Steady.ofFault _).bind fun _ => (Run.Steady.ofFault _).bind fun _ =>
    (Run.Steady.call _ _ _).bind fun _ => (Run.Steady.ofFault _).bind fun _ =>
      (Run.Steady.ofFault _).bind fun _ => .pure _

theorem steady_policyVersion (session : Session) (policy item : Value) :
    (policyVersion session policy item : Run (List Resource) Resource).Steady fun _ _ => True :=
  (Run.Steady.ofFault _).bind fun _ => (Run.Steady.call _ _ _).bind fun _ =>
    (Run.Steady.ofFault _).bind fun _ => (Run.Steady.ofFault _).bind fun _ =>
      (Run.Steady.ofFault _).bind fun _ => (Run.Steady.ofFailure _).bind fun _ => .pure _

namespace ReportKind

theorem track_eq (resource : Resource) (d : Draft) (s : Script) :
    track resource d s =
      match d.report.add resource (some resource.arn) with
      | .ok report => ⟨.ok (), { d with report }, s, []⟩
      | .error e => ⟨.error e, d, s, []⟩ := by
  simp only [track, Run.draft, Run.ofFault, Run.redraft, bind, Run.bind]
  cases d.report.add resource (some resource.arn) <;> rfl

theorem steady_track {R : Draft → Draft → Prop} [IsPreorder Draft R] {resource : Resource}
    (h : ∀ (d : Draft) report, d.report.add resource (some resource.arn) = .ok report →
      R d { d with report }) : (track resource).Steady R := by
  refine .of_quiet fun d => ?_
  cases hadd : d.report.add resource (some resource.arn) with
  | ok report =>
    exact ⟨.ok (), { d with report }, [], rfl, h d report hadd, fun s => by rw [track_eq, hadd]⟩
  | error e => exact ⟨.error e, d, [], rfl, Std.Refl.refl d, fun s => by rw [track_eq, hadd]⟩

/-- **What a report makes of an item** is to track a resource under its name, which is a text, and
    to put resources into the report or off to its end. What all of that keeps, the work for an
    item keeps, and it breaks at its calls. -/
theorem steady_visit_of {R : Draft → Draft → Prop} [IsPreorder Draft R] {kind : ReportKind}
    (htrack : kind ≠ profiles → ∀ (d : Draft) (resource : Resource) (report : Report),
      (∃ name, resource.arn = .text name) →
      d.report.add resource (some resource.arn) = .ok report → R d { d with report })
    (hextend : ∀ (d : Draft) rs, R d { d with report := d.report.extend rs })
    (hdefer : ∀ (d : Draft) rs, R d { d with deferred := d.deferred ++ rs })
    (session : Session) (item : Value) : (kind.visit session item).Steady R := by
  refine Run.Steady.bind_ofFault fun resource hmade => ?_
  obtain ⟨x, -, rfl⟩ := exists_recorded hmade
  have hname := x.exists_arn_eq
  cases kind with
  | users =>
    exact (steady_track fun d report => htrack nofun d x.record report hname).bind fun _ =>
      (Run.Steady.ofFault _).bind fun _ =>
        (Run.Steady.gather fun v => steady_accessKey session v).bind fun keys =>
          .redraft fun d => hdefer d keys
  | groups => exact steady_track fun d report => htrack nofun d x.record report hname
  | roles =>
    exact (Run.Steady.ofFault _).bind fun _ => (Run.Steady.ofFault _).bind fun _ =>
      steady_track fun d report => htrack nofun d _ report hname
  | policies =>
    exact (Run.Steady.gather fun v => steady_policyVersion session _ v).bind fun versions =>
      (steady_track fun d report => htrack nofun d x.record report hname).bind fun _ =>
        .redraft fun d => hextend d versions
  | profiles =>
    exact (Run.Steady.ofFault _).bind fun _ => (Run.Steady.ofFault _).bind fun _ =>
      .redraft fun d => hextend d _

/-- **What a report makes of an item only adds to it**, and breaks at its calls. -/
theorem steady_visit (kind : ReportKind) (session : Session) (item : Value) :
    (kind.visit session item).Steady Draft.Grows :=
  steady_visit_of (fun _ _ _ _ _ => Draft.grows_add) Draft.grows_extend Draft.grows_defer session
    item

/-- Goes through the listing of a report. -/
def enumerate (kind : ReportKind) (session : Session) (path : Value) : Run Draft Demand :=
  (kind.listing path).visit fun item => do
    kind.visit session item
    pure .more

/-- A report is to go through its listing and then to look up the use of what is tracked. -/
theorem survey_eq (kind : ReportKind) (session : Session) (path : Value) :
    kind.survey session path = kind.enumerate session path >>= fun _ =>
      Run.within Draft.report (fun report d => { d with report })
        (LastAccessed.attach session.settings) := rfl

/-- **The listing of a report only adds to it**, and breaks at its calls. -/
theorem steady_enumerate (kind : ReportKind) (session : Session) (path : Value) :
    (kind.enumerate session path).Steady Draft.Grows :=
  .visit fun item => (steady_visit kind session item).bind fun _ => .pure _

end ReportKind

/-! ## The use of services -/

namespace LastAccessed

/-- Whether a report has some changes made to another one, and a third one has these and more. -/
def Behind (r d' d : Report) : Prop :=
  ∃ cs cs' : List (Resource → Resource), (∀ c ∈ cs ++ cs', KeepsFields c) ∧ d' = r.alter cs ∧
    d = r.alter (cs ++ cs')

theorem record_silent {job : Job} {entries : List Value} {d d' : Report} {l : List Effect}
    {r : Except Fault Unit} (h : (record job entries).Does d l r d') : l = [] := by
  rw [record] at h
  rcases h.bind (steady_write _ _ _).toLed with ⟨e, -, h₁⟩ | ⟨_, d₁, l₁, l₂, rfl, h₁, h₂⟩
  · exact (write_does h₁).1
  · rw [(write_does h₁).1, List.nil_append]
    rcases h₂.bind_ofFault with ⟨e, -, -, hl, -⟩ | ⟨time, -, h₃⟩
    · exact hl
    · exact (write_does h₃).1

/-- **The work for one job breaks before anything is written.** -/
theorem attachOne_breaks (settings : Settings) (job : Job) (d : Report) :
    (attachOne settings job).Breaks d fun _ d' => d' = d := by
  have hawait : (await settings job : Run Report Value).Steady (· = ·) := steady_await settings job
  have hcollect (first : Value) : (collect job first : Run Report (List Value)).Steady (· = ·) :=
    steady_collect job first
  rw [attachOne_eq]
  refine .bind hawait.toLed (hawait.breaks_same d) (fun _ _ => id) fun s first _ => ?_
  rw [← hawait.grows d s]
  -- what is recorded in the end makes no call, so that it cannot break
  exact .bind (hcollect first).toLed ((hcollect first).breaks_same d) (fun _ _ h _ => h)
    fun s entries _ => .of_silent record_silent

section Work

variable {r : Report} {before : Named Resource} {cs : List (Resource → Resource)}

/-- Whatever becomes of the next resources, it is more changes. -/
theorem each_draft {settings : Settings} (hk : r.Keyed) {next : Named Resource}
    (ht : r.targets = before ++ next) (hi : ∀ t ∈ next, t.1.same t.1)
    (hc : cs.length = before.length) {jobs : List Job}
    (hj : jobs.map Job.identifier = Named.names next) (s : Script) :
    ∃ cs', (∀ c ∈ cs', KeepsFields c) ∧
      (Run.each jobs (attachOne settings) (r.alter cs) s).draft = r.alter (cs ++ cs') := by
  rcases each_does hk ht hi hc hj (Run.does_outcome _ _ s) with
    ⟨hs, -, -, -, -, hd⟩ | ⟨hs, job, rest, l', f, -, -, -, -, -, hd⟩ |
    ⟨hs, job, rest, l', e, cs', -, -, -, -, hcs, hd⟩
  · exact ⟨_, keepsFields_writes hs, hd⟩
  · exact ⟨_, keepsFields_writes hs, hd⟩
  · exact ⟨_, List.forall_mem_append.mpr ⟨keepsFields_writes hs, hcs.keepsFields⟩, hd⟩

/-- **The work for the next resources breaks between two of them.** -/
theorem each_breaks {settings : Settings} (hk : r.Keyed) {next : Named Resource}
    (ht : r.targets = before ++ next) (hi : ∀ t ∈ next, t.1.same t.1)
    (hc : cs.length = before.length) (hcs : ∀ c ∈ cs, KeepsFields c) {jobs : List Job}
    (hj : jobs.map Job.identifier = Named.names next) :
    (Run.each jobs (attachOne settings)).Breaks (r.alter cs) fun s d' =>
      Behind r d' (Run.each jobs (attachOne settings) (r.alter cs) s).draft := by
  induction jobs generalizing before next cs with
  | nil => exact .of_silent fun h => (Run.Does.pure h).1
  | cons job jobs ih =>
    cases next with
    | nil => cases hj
    | cons t next =>
      obtain ⟨i, resource⟩ := t
      obtain ⟨hjob, hjobs⟩ : job.identifier = i ∧ jobs.map Job.identifier = Named.names next :=
        List.cons.inj hj
      have hi₁ : i.same i := hi _ List.mem_cons_self
      have ht' : r.targets = (before ++ [(i, resource)]) ++ next :=
        ht.trans (List.append_cons _ _ _)
      refine .bind (steady_attachOne settings job).toLed (attachOne_breaks settings job _) ?_ ?_
      -- within the next job nothing is written, and more changes would have come
      · rintro s d' rfl
        obtain ⟨cs', hcs', hd⟩ := each_draft hk ht hi hc hj s
        exact ⟨cs, cs', List.forall_mem_append.mpr ⟨hcs, hcs'⟩, rfl, hd⟩
      -- after it, there is one change more
      · intro s _ hr
        rcases attachOne_does hk ht hi₁ hc hjob
            (Run.does_outcome (attachOne settings job) _ s) with
          ⟨h, -, -, -, -, hd⟩ | ⟨f, he, -, -⟩ | ⟨x, cs', he, -, -, -⟩
        · have hc' : (cs ++ [h.write]).length = (before ++ [(i, resource)]).length := by
            rw [List.length_append, List.length_append, hc]
            rfl
          have hcs' : ∀ c ∈ cs ++ [h.write], KeepsFields c := by
            refine List.forall_mem_append.mpr ⟨hcs, fun c hc => ?_⟩
            rw [List.mem_singleton.mp hc]
            exact keepsFields_enrich _ _
          have hrest := ih ht' (fun t ht => hi t (List.mem_cons_of_mem _ ht)) hc' hcs' hjobs
          rw [hd]
          refine hrest.imp ?_
          rintro s₁ d' hb rfl
          show Behind r _ ((attachOne settings job >>= fun _ => Run.each jobs (attachOne settings))
            (r.alter cs) s).draft
          rw [Run.bind_of_ok hr, hd]
          exact hb
        · rw [hr] at he
          cases he
        · rw [hr] at he
          cases he

end Work

/-- Whatever becomes of a report that is to be enriched, it is changes. -/
theorem Attached.draft_eq {settings : Settings} {r d' : Report} {l : List Effect}
    {res : Except Fault Unit} (h : Attached settings r l res d') :
    ∃ cs, (∀ c ∈ cs, KeepsFields c) ∧ d' = r.alter cs := by
  cases h with
  | mismatched => exact ⟨[], List.forall_mem_nil _, (Report.alter_nil r).symm⟩
  | refused => exact ⟨[], List.forall_mem_nil _, (Report.alter_nil r).symm⟩
  | interrupted => exact ⟨_, keepsFields_writes _, rfl⟩
  | done => exact ⟨_, keepsFields_writes _, rfl⟩
  | fault _ hcs => exact ⟨_, hcs, rfl⟩

/-- Working the jobs through, and noting that it is done, breaks between two jobs. -/
theorem each_note_breaks {settings : Settings} {r : Report} (hk : r.Keyed)
    (hm : List.find? isMismatched r.targets = none) {jobs : List Job}
    (hj : jobs.map Job.identifier = r.tracked) (message : String) :
    (Run.each jobs (attachOne settings) >>= fun _ =>
      Run.note .info .lastAccessed message).Breaks r fun s d' =>
        Behind r d' ((Run.each jobs (attachOne settings) >>= fun _ =>
          Run.note .info .lastAccessed message) r s).draft := by
  rw [← Report.names_targets] at hj
  have hstart : ([] : List (Resource → Resource)).length = ([] : Named Resource).length := rfl
  have heach : (Run.each jobs (attachOne settings)).Breaks (r.alter []) _ :=
    each_breaks hk (List.nil_append r.targets).symm (same_self_of_matched hk hm) hstart
      (List.forall_mem_nil _) hj
  rw [Report.alter_nil] at heach
  refine .bind (Run.Steady.each fun job _ => steady_attachOne settings job).toLed heach ?_
    fun s _ _ => .of_silent fun h => h.note.1
  intro s d' h
  cases hr : (Run.each jobs (attachOne settings) r s).result with
  | error e =>
    rw [Run.bind_of_error hr]
    exact h
  | ok a =>
    rw [Run.bind_of_ok hr]
    exact h

theorem attachAll_breaks {settings : Settings} {r : Report} (hk : r.Keyed)
    (hm : List.find? isMismatched r.targets = none) :
    (attachAll settings r.tracked).Breaks r fun s d' =>
      Behind r d' (attachAll settings r.tracked r s).draft := by
  have hsubmit : (submit r.tracked : Run Report (List Value)).Steady (· = ·) := steady_submit _
  refine .bind hsubmit.toLed (hsubmit.breaks_same r) ?_ fun s ids hids => ?_
  -- while jobs are submitted, there are no changes yet
  · rintro s d' rfl
    obtain ⟨cs, hcs, hd⟩ :=
      (attachAll_does hk hm (Run.does_outcome (attachAll settings d'.tracked) d' s)).draft_eq
    exact ⟨[], cs, hcs, (Report.alter_nil d').symm, hd⟩
  · have hsame := hsubmit.grows r s
    obtain ⟨-, ⟨ss, hi, -, he⟩ | ⟨ss, i, rest, a, x, -, -, -, he⟩⟩ :=
      submit_does (Run.does_outcome (submit r.tracked) r s)
    · rw [hids] at he
      cases he
      have hj : (List.zipWith Job.mk (ss.map (·.job.id)) r.tracked).map Job.identifier =
          r.tracked := by
        rw [← hi, zipWith_submissions, List.map_map]
        rfl
      rw [← hsame]
      refine (each_note_breaks hk hm hj _).imp ?_
      rintro s₁ d' hb rfl
      rw [attachAll, Run.bind_of_ok hids, ← hsame]
      exact hb
    · rw [hids] at he
      cases he

/-- **The enrichment of a report breaks between two jobs**: some of the changes have been made that
    would have been made without the trouble. -/
theorem attach_breaks {settings : Settings} {r : Report} (hk : r.Keyed) :
    (attach settings).Breaks r fun s d' => Behind r d' (attach settings r s).draft := by
  cases hm : List.find? isMismatched r.targets with
  | some t =>
    refine .congr (attach_of_mismatched hm) ?_
    exact .of_silent fun h => h.fault.1
  | none =>
    have hattach : attach settings r =
        (if r.targets.isEmpty then pure () else attachAll settings r.tracked : Run Report Unit) r :=
      attach_of_matched hm
    refine .congr hattach ?_
    simp only [hattach]
    split
    · exact .of_silent fun h => h.pure.1
    · exact attachAll_breaks hk hm

end LastAccessed

/-! ## Reports that are cut short -/

namespace Report

open LastAccessed

/-- **Whether a report is cut short**: it is a first part of what has come from another report by
    some changes, and a third report has come from that one by these changes and more. -/
def Cut (e cut whole : Report) : Prop :=
  ∃ cs cs' : List (Resource → Resource), (∀ c ∈ cs ++ cs', KeepsFields c) ∧
    cut.entries <+: (e.alter cs).entries ∧ cut.error = e.error ∧ whole = e.alter (cs ++ cs')

/-- With more changes made, an entry is as it was with fewer ones, or it was unchanged by these. -/
theorem getElem?_alterEntries_append (es : List Entry) (cs cs' : List (Resource → Resource))
    (n : Nat) :
    (alterEntries es cs)[n]? = (alterEntries es (cs ++ cs'))[n]? ∨
      (alterEntries es cs)[n]? = es[n]? := by
  induction es generalizing cs n with
  | nil => cases cs <;> exact Or.inr (by simp [alterEntries])
  | cons e es ih =>
    obtain ⟨resource, tracked⟩ := e
    cases tracked with
    | none =>
      cases n with
      | zero => exact Or.inr (by simp)
      | succ n => simpa using ih cs n
    | some i =>
      cases cs with
      | nil => exact Or.inr (by simp)
      | cons c cs =>
        cases n with
        | zero => exact Or.inl rfl
        | succ n =>
          rcases ih cs n with h | h
          · exact Or.inl h
          · exact Or.inr h

/-- Changes of what the service sent leave the other fields of every entry. -/
theorem getElem?_alterEntries {cs : List (Resource → Resource)} (hcs : ∀ c ∈ cs, KeepsFields c)
    {es : List Entry} {n : Nat} {e : Entry} (h : es[n]? = some e) :
    ∃ e', (alterEntries es cs)[n]? = some e' ∧
      { e'.resource with metadata := e.resource.metadata } = e.resource := by
  induction es generalizing cs n with
  | nil => cases h
  | cons x es ih =>
    obtain ⟨resource, tracked⟩ := x
    cases tracked with
    | none =>
      rw [alterEntries_none]
      cases n with
      | zero =>
        cases h
        exact ⟨_, rfl, rfl⟩
      | succ n => exact ih hcs h
    | some i =>
      cases cs with
      | nil =>
        rw [alterEntries_nil]
        exact ⟨e, h, rfl⟩
      | cons c cs =>
        obtain ⟨hc, hcs⟩ := List.forall_mem_cons.mp hcs
        cases n with
        | zero =>
          cases h
          exact ⟨_, rfl, hc resource⟩
        | succ n => exact ih hcs h

/-- **The resources of a report that is cut short** are those of the whole report, but for what the
    service sent, and that is as in the whole report or as it was before the changes. -/
theorem Cut.resource {e cut whole : Report} (h : e.Cut cut whole) {n : Nat} {r : Resource}
    (hr : cut.resources[n]? = some r) :
    ∃ before after, e.resources[n]? = some before ∧ whole.resources[n]? = some after ∧
      { r with metadata := after.metadata } = after ∧
      (r.metadata = after.metadata ∨ r.metadata = before.metadata) := by
  obtain ⟨cs, cs', hcs, hprefix, -, rfl⟩ := h
  have hcs₁ : ∀ c ∈ cs, KeepsFields c := fun c hc => hcs c (List.mem_append_left _ hc)
  rw [resources, List.getElem?_map, Option.map_eq_some_iff] at hr
  obtain ⟨x, hx, rfl⟩ := hr
  have hx₁ : (alterEntries e.entries cs)[n]? = some x := by
    obtain ⟨rest, hrest⟩ := hprefix
    show (e.alter cs).entries[n]? = some x
    rw [← hrest, List.getElem?_append_left (List.getElem?_eq_some_iff.mp hx).1]
    exact hx
  have hn : n < e.entries.length := by
    rw [← length_alterEntries e.entries cs]
    exact (List.getElem?_eq_some_iff.mp hx₁).1
  have hb : e.entries[n]? = some e.entries[n] := List.getElem?_eq_getElem hn
  generalize e.entries[n] = b at hb
  obtain ⟨a, ha, hafields⟩ := getElem?_alterEntries hcs hb
  obtain ⟨x', hx', hxfields⟩ := getElem?_alterEntries hcs₁ hb
  obtain rfl : x = x' := Option.some.inj (hx₁.symm.trans hx')
  refine ⟨b.resource, a.resource, ?_, ?_, ?_, ?_⟩
  · rw [resources, List.getElem?_map, hb, Option.map_some]
  · show ((alterEntries e.entries (cs ++ cs')).map Entry.resource)[n]? = some a.resource
    rw [List.getElem?_map, ha, Option.map_some]
  · calc ({ x.resource with metadata := a.resource.metadata } : Resource)
      _ = { ({ x.resource with metadata := b.resource.metadata } : Resource) with
            metadata := a.resource.metadata } := rfl
      _ = { ({ a.resource with metadata := b.resource.metadata } : Resource) with
            metadata := a.resource.metadata } := by rw [hxfields, hafields]
      _ = a.resource := rfl
  · rcases getElem?_alterEntries_append e.entries cs cs' n with h | h
    · rw [hx₁, ha] at h
      exact Or.inl (congrArg (·.resource.metadata) (Option.some.inj h))
    · rw [hx₁, hb] at h
      exact Or.inr (congrArg (·.resource.metadata) (Option.some.inj h))

end Report

namespace ReportKind

open LastAccessed

/-- The draft that a report starts with. -/
def start : Draft := ⟨Report.empty, []⟩

/-- A report has come from its listing by changes. -/
theorem survey_draft (kind : ReportKind) (session : Session) (path : Value) (s : Script) :
    ∃ cs, (∀ c ∈ cs, KeepsFields c) ∧ (kind.survey session path start s).draft.report =
      (kind.enumerate session path start s).draft.report.alter cs := by
  have hgrows := (steady_enumerate kind session path).grows start s
  rw [survey_eq]
  cases hr : (kind.enumerate session path start s).result with
  | error e =>
    rw [Run.bind_of_error hr]
    exact ⟨[], List.forall_mem_nil _, (Report.alter_nil _).symm⟩
  | ok a =>
    rw [Run.bind_of_ok hr]
    exact (attach_does (hgrows.keyed Report.keyed_empty) (Run.does_outcome
      (attach session.settings) _ (kind.enumerate session path start s).left)).draft_eq

/-- **A report breaks at its calls**: it is cut short. -/
theorem survey_breaks (kind : ReportKind) (session : Session) (path : Value) :
    (kind.survey session path).Breaks start fun s d' =>
      (kind.enumerate session path start s).draft.report.Cut d'.report
        (kind.survey session path start s).draft.report := by
  have hsteady := steady_enumerate kind session path
  rw [survey_eq]
  refine .bind (P := fun s d' => d'.Grows (kind.enumerate session path start s).draft)
    hsteady.toLed (hsteady.breaks start) ?_ ?_
  -- in the listing, the report has a first part of what it would have had, unchanged
  · intro s d' hd
    obtain ⟨cs, hcs, hdraft⟩ := survey_draft kind session path s
    refine ⟨[], cs, hcs, ?_, hd.error.symm, hdraft⟩
    rw [Report.alter_nil]
    exact hd.entries
  -- after it, the report has all of that, and some of the changes
  · intro s a hr
    have hk := (hsteady.grows start s).keyed Report.keyed_empty
    refine Run.Breaks.within (attach_breaks hk) ?_
    rintro s₁ t ⟨cs, cs', hcs, rfl, hd⟩ rfl
    refine ⟨cs, cs', hcs, List.prefix_rfl, rfl, ?_⟩
    rw [Run.bind_of_ok hr]
    exact hd

variable {σ : Type}

/-- What a report makes of the end of its survey: a failure is kept in it. -/
def kept (result : Except Fault Unit) (draft : Draft) : Except Fault Report :=
  match result with
  | .ok () => .ok (draft.report.extend draft.deferred)
  | .error (.failure f) => .ok (draft.report.fail f)
  | .error e => .error e

/-- Ends a report when its survey has come to an end. -/
def conclude (kind : ReportKind) (result : Except Fault Unit) (draft : Draft) : Run σ Report :=
  match result with
  | .ok () => do
    let report := draft.report.extend draft.deferred
    Run.note .info .reports
      ("Report " ++ kind.name ++ s!" produced {report.entries.length} resource(s)")
    pure report
  | .error (.failure f) => do
    let count := draft.report.entries.length
    Run.note .warning .reports
      ("Report " ++ kind.name ++ s!" failed after {count} resource(s): " ++ f.message)
    pure (draft.report.fail f)
  | .error e => Run.fault e

theorem run_eq (kind : ReportKind) (session : Session) (path : Value) :
    (kind.run session path : Run σ Report) = session.client (.text iam) >>= fun _ =>
      Run.attempt start (kind.survey session path) >>= fun p => kind.conclude p.1 p.2 := rfl

theorem conclude_eq (kind : ReportKind) (result : Except Fault Unit) (draft : Draft) (d : σ)
    (s : Script) :
    ∃ t, Trace.calls t = [] ∧ kind.conclude result draft d s = ⟨kept result draft, d, s, t⟩ := by
  cases result with
  | ok a => exact ⟨_, rfl, rfl⟩
  | error e => cases e <;> exact ⟨_, rfl, rfl⟩

/-- **A report whose client can be built** makes the calls of its survey, and is what that has come
    to. -/
theorem run_of_ok (kind : ReportKind) {session : Session} (path : Value) (d : σ) (s : Script)
    {options : ClientOptions}
    (h : session.settings.clientOptions (.text Settings.defaultTag) = .ok options) :
    (kind.run session path d s).trace.calls = (kind.survey session path start s).trace.calls ∧
      (kind.run session path d s).result =
        kept (kind.survey session path start s).result
          (kind.survey session path start s).draft := by
  obtain ⟨t, ht, hc⟩ := conclude_eq kind (kind.survey session path start s).result
    (kind.survey session path start s).draft d (kind.survey session path start s).left
  have hclient : (session.client (.text iam) : Run σ Unit) d s =
      ⟨.ok (), d, s, [.built (.text iam) session.region options]⟩ := by
    simp only [Session.client, buildClient, Run.ofFault, Run.emit, bind, Run.bind, h,
      List.nil_append]
  rw [run_eq, Run.bind_of_ok (by rw [hclient]), hclient]
  simp only [Run.attempt, bind, Run.bind, hc, and_true]
  rw [Trace.calls_append, Trace.calls_append, ht, List.append_nil]
  rfl

/-- A report with settings that no client can be built with has no result. -/
theorem run_of_error {kind : ReportKind} {session : Session} {path : Value} {d : σ} {s : Script}
    {e : Fault} (h : session.settings.clientOptions (.text Settings.defaultTag) = .error e) :
    (kind.run session path d s).result = .error e := by
  simp only [run, Session.client, buildClient, Run.ofFault, bind, Run.bind, h]

/-- What is kept of a survey has its resources in front. -/
theorem prefix_of_kept {result : Except Fault Unit} {draft : Draft} {report : Report}
    (h : kept result draft = .ok report) : draft.report.resources <+: report.resources := by
  simp only [kept] at h
  split at h
  · cases h
    rw [Report.resources_extend]
    exact List.prefix_append _ _
  · cases h
    exact List.prefix_rfl
  · cases h

/-- **A report with one answer changed to trouble.** It is still a report, with the failure of the
    call as its error, and the call is the last one. Its resources are the first ones of the
    report without the trouble, but for what the service sent; and that is as in the report without
    the trouble, or as the listing has found it. -/
theorem run_interrupted {kind : ReportKind} {session : Session} {path : Value} {d : σ} {s : Script}
    {report : Report} (h : (kind.run session path d s).result = .ok report) {n : Nat}
    {c : Action × Members} (hc : (kind.run session path d s).trace.calls[n]? = some c) {a : Answer}
    (ha : a.Raises) {s' : Script}
    (hs : s' = s.setAnswer c.1
      (((kind.run session path d s).trace.calls.take n).countP fun k => k.1 = c.1) a) :
    ∃ (cut : Report) (f : Failure),
      (kind.run session path d s').result = .ok cut ∧ cut.error = some f ∧
      f.kind = .transport a.code ∧ f.operation = .text c.1.name ∧
      (kind.run session path d s').trace.calls =
        (kind.run session path d s).trace.calls.take (n + 1) ∧
      ∀ (m : Nat) (r : Resource), cut.resources[m]? = some r → ∃ before after,
        (kind.enumerate session path start s).draft.report.resources[m]? = some before ∧
        report.resources[m]? = some after ∧ { r with metadata := after.metadata } = after ∧
        (r.metadata = after.metadata ∨ r.metadata = before.metadata) := by
  cases ho : session.settings.clientOptions (.text Settings.defaultTag) with
  | error e =>
    rw [run_of_error ho] at h
    cases h
  | ok options =>
    obtain ⟨hcalls, hresult⟩ := run_of_ok kind path d s ho
    obtain ⟨hcalls', hresult'⟩ := run_of_ok kind path d s' ho
    rw [hcalls] at hc hs ⊢
    obtain ⟨t, ht, hcode⟩ := a.settle_of_raises ha c.1
    obtain ⟨hlast, ⟨i, hfailed⟩, hcut⟩ := (survey_breaks kind session path).injected hc ht hs
    rw [hfailed] at hresult'
    refine ⟨_, t.failure c.1 i, hresult', ?_, congrArg _ hcode, rfl, hcalls'.trans hlast, ?_⟩
    · obtain ⟨cs, cs', -, -, herror, -⟩ := hcut
      have hnone : (kind.enumerate session path start s).draft.report.error = none :=
        ((steady_enumerate kind session path).grows start s).error
      show ((kind.survey session path start s').draft.report.error).or _ = _
      rw [herror, hnone, Option.none_or]
    · intro m r hr
      obtain ⟨before, after, hbefore, hafter, hfields, hmetadata⟩ := hcut.resource hr
      refine ⟨before, after, hbefore, ?_, hfields, hmetadata⟩
      obtain ⟨more, hmore⟩ := prefix_of_kept (hresult.symm.trans h)
      rw [← hmore, List.getElem?_append_left (List.getElem?_eq_some_iff.mp hafter).1]
      exact hafter

/-- A session with the settings where nothing else is said. -/
def sampleSession : Session := ⟨.text "123456789012", .text "eu-west-1", .default⟩

/-- Answers to a report on one group, whose job is done at the first poll. -/
def groupScript : Script :=
  ⟨[(⟨"list_groups"⟩, [.response (.object [("Groups", .list [.object
      [("Arn", .text "arn:aws:iam::123456789012:group/staff")]])])]),
    (generate, [.response (.object [("JobId", .text "1")])]),
    (details, [inState "COMPLETED" []])], []⟩

/-- An error report of the service with nothing but a code. -/
def throttled : Answer :=
  .rejected (.object [("Error", .object [("Code", .text "Throttling")])])

theorem raises_throttled : throttled.Raises := by
  constructor
  · rintro v hv
    cases hv
    exact ⟨_, rfl⟩
  · rintro v hv
    cases hv

/-- The submission of the only job of a report is throttled. -/
theorem run_interrupted_groups : ∃ report c,
    (groups.run sampleSession .null () groupScript).result = .ok report ∧
      (groups.run sampleSession .null () groupScript).trace.calls[1]? = some c ∧
      throttled.Raises ∧ ∃ s' cut f, (groups.run sampleSession .null () s').result = .ok cut ∧
        cut.error = some f ∧ f.kind = .transport (.text "Throttling") ∧
        f.operation = .text c.1.name := by
  have hok : (groups.run sampleSession .null () groupScript).result.isOk := by decide +kernel
  have hsome : (groups.run sampleSession .null () groupScript).trace.calls[1]?.isSome := by
    decide +kernel
  obtain ⟨c, hc⟩ := Option.isSome_iff_exists.mp hsome
  cases h : (groups.run sampleSession .null () groupScript).result with
  | error e =>
    rw [h] at hok
    cases hok
  | ok report =>
    obtain ⟨cut, f, hr, he, hkind, hoperation, -⟩ := run_interrupted h hc raises_throttled rfl
    exact ⟨report, c, rfl, hc, raises_throttled, _, cut, f, hr, he, hkind, hoperation⟩

end ReportKind

end IamInventory

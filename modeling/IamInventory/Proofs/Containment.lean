import IamInventory.Proofs.Completeness
import IamInventory.Proofs.Phases
import IamInventory.Proofs.UserKeys

/-!
# Containment — reports that keep every failure to themselves

  The service may reject a call, send a document that cannot be decoded or a name that is no ARN, or
  let a job fail. None of it leaves a report: the report has the failure as its error. What could
  leave it is an answer without the parts that are asked of it, so that reports are safe where all
  answers are complete.

  More may be known of the answers, and more may be asked of the records of a report. The contract
  of a report is therefore made on *terms*, which say what is promised of the answers, what is kept
  of the records, and why the one leads to the other.

* **`Terms`** — a promise of answers and a property of records.
* **`Terms.yields_enumerate`**, **`Terms.yields_attach`** — the contracts of the parts of a report.
* **`Terms.yields_run`** — a report on any terms ends well, and its records are as asked for.
* **`ReportKind.run_contained`** — the error of a report on complete answers.
-/

namespace IamInventory

open LastAccessed

/-! ## Terms -/

/-- **Terms** on which the reports of a session are made: what is promised of the answers, what is
    kept of the records, and that records which are made of such answers are of this kind. -/
structure Terms (session : Session) where
  answers : Promise
  records : Resource → Prop
  complete : ∀ (action : Action) (a : Answer), answers action a → a.Complete action
  unscripted : ∀ action, answers action Script.unscripted
  writable : ∀ r, records r → r.isWritable
  made : ∀ (kind : ReportKind) (item : Members) (r : Resource),
    answers.Item kind.outer kind.itemsName item → kind.Makes session item r → records r
  looked : ∀ (item : Members) (k : KeyLookup session),
    answers.Item ⟨"list_access_keys"⟩ "AccessKeyMetadata" item → k.item = .object item →
    answers ⟨"get_access_key_last_used"⟩ (.response k.response) → records k.resource
  decoded : ∀ (item : Members) (policy : Value) (x : VersionLookup session policy),
    answers.Item ⟨"list_policy_versions"⟩ "Versions" item → x.item = .object item →
    answers ⟨"get_policy_version"⟩ (.response x.response) → records x.resource
  entered : ∀ (r : Resource) (entries : List Members), records r →
    (∀ entry ∈ entries, answers.Item details "ServicesLastAccessed" entry) →
    records (r.setMember Name.servicesLastAccessed (.list (entries.map .object)))
  used : ∀ (r : Resource) (time : Value), records r → time.IsDate →
    records (r.setMember Name.lastUsed time)

namespace Terms

variable {session : Session} {σ : Type}

/-- Whether an entry of a report is as asked for: what is tracked is so under its own name. -/
def KeepsEntry (T : Terms session) (e : Entry) : Prop :=
  T.records e.resource ∧
    ∀ i, e.tracked = some i → ∃ name, i = .text name ∧ e.resource.arn = .text name

/-- Whether a report that has not ended is as asked for. -/
def KeepsReport (T : Terms session) (r : Report) : Prop :=
  r.error = none ∧ ∀ e ∈ r.entries, T.KeepsEntry e

/-- Whether the draft of a report is as asked for. -/
def KeepsDraft (T : Terms session) (d : Draft) : Prop :=
  T.KeepsReport d.report ∧ ∀ r ∈ d.deferred, T.records r

variable (T : Terms session)

/-! ### Items -/

/-- An item of a report's listing has the members that are asked of it. -/
theorem exists_member {kind : ReportKind} (name : String) {item : Members}
    (h : T.answers.Item kind.outer kind.itemsName item) (hname : name ∈ kind.needs) :
    ∃ v, item.get? name = some v ∧ (Value.object item).member name = .ok v :=
  Members.member_of_has
    (h.of_lists (T.complete _) (fun _ hms => hms.items _ kind.needs_mem rfl) name hname)

/-- **The record of an item** of a report's listing. -/
theorem ends_record {kind : ReportKind} {item : Members}
    (h : T.answers.Item kind.outer kind.itemsName item) :
    Ends Fault.IsReported (kind.Makes session item) (kind.record session (.object item)) := by
  obtain ⟨name, -, hname⟩ := T.exists_member _ h kind.arn_mem_needs
  rw [ReportKind.record, hname]
  refine Ends.bind (Q := fun _ => True) trivial fun name _ => ?_
  refine (Resource.ends_ofItem session name item).bind ?_
  rintro r ⟨arn, rfl⟩
  cases kind with
  | users => exact .entity (by decide) (by decide)
  | groups => exact .entity (by decide) (by decide)
  | policies => exact .entity (by decide) (by decide)
  | roles =>
    obtain ⟨id, hget, hid⟩ := T.exists_member "RoleId" h (by decide)
    refine (ends_decodeTrust (item.erase "ResponseMetadata") _).bind ?_
    rintro members ⟨document, hdocument, rfl⟩
    rw [hid]
    exact .role hget hdocument
  | profiles =>
    obtain ⟨id, hget, hid⟩ :=
      T.exists_member "InstanceProfileId" h (by decide)
    have hroles : item.ListsObjects "Roles" :=
      h.of_lists (T.complete _) fun ms hms => hms.roles rfl
    rw [hid]
    refine Ends.bind (Q := (· = id)) (by exact rfl) ?_
    rintro id rfl
    refine Ends.bind (Q := fun v => v = (item.get? "Roles").getD (.list []) ∧
      ∃ roles : List Members, v = .list (roles.map .object)) ⟨rfl, ?_⟩ ?_
    · cases hv : item.get? "Roles" with
      | none => exact ⟨[], rfl⟩
      | some v => exact hroles v hv
    · rintro v ⟨hheld, roles, rfl⟩
      refine Ends.bind (Q := (· = roles.map Value.object)) (by exact rfl) ?_
      rintro vs rfl
      exact (ends_profileRoles roles).bind fun decoded hdecoded =>
        .profile hget hheld.symm hdecoded

/-! ### Calls -/

/-- What a call yields: a response that is promised, and fits. -/
theorem yields_call (action : Action) (arguments : Members) (identifier : Value) {I : σ → Prop} :
    (call action arguments identifier : Run σ Value).Yields T.answers Fault.IsReported I fun v =>
      ∃ ms : Members, v = .object ms ∧ ms.Fits action ∧ T.answers action (.response v) := by
  refine .call (T.unscripted action) (fun a ha => ?_) arguments
  refine ((T.complete action a ha).told identifier).self.mono ?_
  rintro v ⟨hv, ms, rfl, hms⟩
  obtain rfl := Answer.eq_response_of_told hv
  exact ⟨ms, rfl, hms, ha⟩

/-- A listing of items that are asked for something is served. -/
theorem served (row : Action × String × List String) (hrow : row ∈ Members.needed)
    (hmain : row.1.mainItems? = some row.2.1) (arguments : Members) (identifier : Value) :
    (⟨row.1, .text row.2.1, arguments, identifier, .whole⟩ : Listing).Served T.answers
      Fault.IsReported row.2.1 where
  whole := rfl
  named := rfl
  main := hmain
  unscripted := T.unscripted row.1
  trouble t := ⟨_, rfl, trivial, Failure.isReadable_of_texts (Or.inr rfl) rfl⟩
  told a ha := by
    refine ((T.complete row.1 a ha).told identifier).mono ?_
    rintro v ⟨ms, rfl, hms⟩
    exact ⟨ms, rfl, (hms.items row hrow rfl).objects⟩

/-! ### Access keys and versions -/

theorem yields_accessKey {item : Members}
    (h : T.answers.Item ⟨"list_access_keys"⟩ "AccessKeyMetadata" item)
    {I : List Resource → Prop} :
    (accessKey session (.object item)).Yields T.answers Fault.IsReported I T.records := by
  have hid : ∃ id, item.get? "AccessKeyId" = some id ∧
      (Value.object item).member "AccessKeyId" = .ok id :=
    Members.member_of_has (h.of_lists (T.complete _)
      (fun _ hms => hms.items (_, "AccessKeyMetadata", ["AccessKeyId"]) (by decide) rfl) _
      List.mem_cons_self)
  obtain ⟨id, -, hid⟩ := hid
  rw [accessKey, hid]
  refine Run.Yields.bind (Q := (· = id)) (.ofFault rfl) ?_
  rintro id rfl
  refine Run.Yields.bind (Q := (· = item.erase "ResponseMetadata")) (.ofFault rfl) ?_
  rintro metadata rfl
  refine (T.yields_call _ _ _).bind ?_
  rintro v ⟨ms, rfl, hms, hresponse⟩
  refine Run.Yields.bind (Q := (· = (ms.get? Name.accessKeyLastUsed).getD .null))
    (.ofFault rfl) ?_
  rintro found rfl
  obtain ⟨use, htold⟩ := exists_use ((hms.use rfl).getD)
  rw [htold]
  refine Run.Yields.bind (Q := (· = use)) (.ofFault rfl) ?_
  rintro use rfl
  exact .pure (T.looked item ⟨.object item, id, _, .object ms, _, use, hid, rfl, rfl, htold⟩ h rfl
    hresponse)

theorem yields_policyVersion {policy : Value} {item : Members}
    (h : T.answers.Item ⟨"list_policy_versions"⟩ "Versions" item) {I : List Resource → Prop} :
    (policyVersion session policy (.object item)).Yields T.answers Fault.IsReported I
      T.records := by
  have hversion : ∃ version, item.get? "VersionId" = some version ∧
      (Value.object item).member "VersionId" = .ok version :=
    Members.member_of_has (h.of_lists (T.complete _)
      (fun _ hms => hms.items (_, "Versions", ["VersionId"]) (by decide) rfl) _
      List.mem_cons_self)
  obtain ⟨version, -, hversion⟩ := hversion
  rw [policyVersion, hversion]
  refine Run.Yields.bind (Q := (· = version)) (.ofFault rfl) ?_
  rintro version rfl
  refine (T.yields_call _ _ _).bind ?_
  rintro v ⟨ms, rfl, hms, hresponse⟩
  obtain ⟨found, hfound⟩ := hms.version rfl
  have hheld : (Value.object ms).member "PolicyVersion" = .ok (.object found) := by
    simp only [Value.member, hfound]
  rw [hheld]
  refine Run.Yields.bind (Q := (· = Value.object found)) (.ofFault rfl) ?_
  rintro found' rfl
  refine Run.Yields.bind (Q := (· = found.erase "ResponseMetadata")) (.ofFault rfl) ?_
  rintro metadata rfl
  refine Run.Yields.bind (Q := (· = (found.get? Name.document).getD .null)) (.ofFault rfl) ?_
  rintro raw rfl
  refine Run.Yields.bind (.ofFault (Policy.ends_decode _ _)) fun document hdocument => ?_
  exact .pure (T.decoded item policy ⟨.object item, version, .object ms, .object found, _, _,
    document, hversion, hheld, rfl, rfl, hdocument⟩ h rfl hresponse)

theorem yields_accessKeys (userName : Value) {I : σ → Prop} :
    (accessKeys session userName : Run σ (List Resource)).Yields T.answers Fault.IsReported I
      fun keys => ∀ key ∈ keys, T.records key :=
  .gather (steady_accessKey session)
    (T.served (⟨"list_access_keys"⟩, "AccessKeyMetadata", ["AccessKeyId"]) (by decide)
      (by decide) _ _)
    fun _ hitem => T.yields_accessKey hitem

theorem yields_policyVersions (policy : Value) {I : σ → Prop} :
    (policyVersions session policy : Run σ (List Resource)).Yields T.answers Fault.IsReported I
      fun versions => ∀ version ∈ versions, T.records version :=
  .gather (steady_policyVersion session policy)
    (T.served (⟨"list_policy_versions"⟩, "Versions", ["VersionId"]) (by decide)
      (by decide) _ _)
    fun _ hitem => T.yields_policyVersion hitem

/-! ### Items and their listing -/

theorem keepsReport_extend {r : Report} {rs : List Resource} (h : T.KeepsReport r)
    (hrs : ∀ x ∈ rs, T.records x) : T.KeepsReport (r.extend rs) := by
  refine ⟨h.1, fun e he => ?_⟩
  rcases List.mem_append.mp he with he | he
  · exact h.2 e he
  · obtain ⟨x, hx, rfl⟩ := List.mem_map.mp he
    exact ⟨hrs x hx, nofun⟩

/-- Tracking a resource is a failure only if its name is tracked already. -/
theorem yields_track {record : Resource} (hrecord : T.records record)
    (hname : ∃ name, record.arn = .text name) :
    (ReportKind.track record).Yields T.answers Fault.IsReported T.KeepsDraft fun _ => True := by
  intro d s hd hs
  obtain ⟨name, hname⟩ := hname
  rw [ReportKind.track_eq]
  cases hadd : d.report.add record (some record.arn) with
  | ok report =>
    obtain ⟨-, rfl⟩ := Report.add_eq_ok_iff.mp hadd
    refine ⟨trivial, ⟨⟨hd.1.1, fun e he => ?_⟩, hd.2⟩, hs⟩
    rcases List.mem_append.mp he with he | he
    · exact hd.1.2 e he
    · rw [List.mem_singleton.mp he]
      refine ⟨hrecord, fun i hi => ⟨name, ?_, hname⟩⟩
      rw [← Option.some.inj hi, hname]
  | error e =>
    refine ⟨?_, hd, hs⟩
    rw [Report.add, hname] at hadd
    simp only [Value.isName, Bool.not_true, Bool.false_eq_true, if_false] at hadd
    split at hadd
    · cases hadd
      exact ⟨_, rfl, rfl, Failure.isReadable_of_texts (Or.inr rfl) rfl⟩
    · cases hadd

/-- What a report does with the record of an item. -/
theorem yields_enter {kind : ReportKind} {item : Members} {record : Resource}
    (h : T.answers.Item kind.outer kind.itemsName item) (hrecord : T.records record)
    (hname : ∃ name, record.arn = .text name) :
    (kind.enter session (.object item) record).Yields T.answers Fault.IsReported T.KeepsDraft
      fun _ => True := by
  cases kind with
  | users =>
    obtain ⟨userName, -, huser⟩ := T.exists_member "UserName" h (by decide)
    refine (T.yields_track hrecord hname).bind fun _ _ => ?_
    rw [huser]
    refine Run.Yields.bind (Q := fun _ => True) (.ofFault trivial) fun userName _ => ?_
    refine (T.yields_accessKeys userName).bind fun keys hkeys => .redraft fun d hd => ?_
    refine ⟨hd.1, fun r hr => ?_⟩
    rcases List.mem_append.mp hr with hr | hr
    · exact hd.2 r hr
    · exact hkeys r hr
  | groups => exact T.yields_track hrecord hname
  | roles => exact T.yields_track hrecord hname
  | policies =>
    refine (T.yields_policyVersions record.arn).bind fun versions hversions => ?_
    refine (T.yields_track hrecord hname).bind fun _ _ => .redraft fun d hd => ?_
    exact ⟨T.keepsReport_extend hd.1 hversions, hd.2⟩
  | profiles =>
    refine .redraft fun d hd => ⟨T.keepsReport_extend hd.1 fun r hr => ?_, hd.2⟩
    rw [List.mem_singleton.mp hr]
    exact hrecord

/-- **The listing of a report**, on any terms. -/
theorem yields_enumerate (kind : ReportKind) (path : Value) :
    (kind.enumerate session path).Yields T.answers Fault.IsReported T.KeepsDraft
      fun _ => True := by
  obtain ⟨arguments, identifier, hlisting⟩ := kind.listing_eq path
  have hserved := T.served _ kind.needs_mem (by cases kind <;> decide) arguments identifier
  rw [ReportKind.enumerate_eq, hlisting]
  refine .visit (ReportKind.steady_handle kind session) hserved fun item hitem => ?_
  rw [ReportKind.handle, ReportKind.visit_eq]
  refine Run.Yields.bind (Q := fun _ => True) ?_ fun _ _ => .pure trivial
  exact (Run.Yields.ofFault (T.ends_record hitem)).bind fun record hrecord =>
    T.yields_enter hitem (T.made kind item record hitem hrecord) hrecord.exists_arn

/-! ### The use of services -/

theorem yields_submit (identifiers : List Value) {I : σ → Prop} :
    (submit identifiers : Run σ (List Value)).Yields T.answers Fault.IsReported I
      fun _ => True := by
  refine (Run.Yields.mapM (R := fun _ => True) fun identifier _ => ?_).mono fun _ _ => trivial
  refine (T.yields_call _ _ _).bind ?_
  rintro v ⟨ms, rfl, hms, -⟩
  obtain ⟨job, -, hjob⟩ := Members.member_of_has (hms.job rfl)
  rw [hjob]
  refine Run.Yields.bind (Q := fun _ => True) (.ofFault trivial) fun job _ => ?_
  exact (Run.Yields.note _ _ _).bind fun _ _ => .pure trivial

/-- A poll finds the job completed, or in progress, or is a failure of the job. -/
theorem yields_poll (settings : Settings) (job : Job) (p : Polling) {I : σ → Prop} :
    (poll settings job p : Run σ (Polling ⊕ Value)).Yields T.answers Fault.IsReported I
      (Sum.elim (fun _ => True) fun v => ∃ ms : Members, v = .object ms ∧ ms.Fits details ∧
        T.answers details (.response v)) := by
  rw [poll_eq]
  refine (T.yields_call _ _ _).bind ?_
  rintro v ⟨ms, rfl, hms, hresponse⟩
  refine Run.Yields.bind (Q := fun _ => True) (.ofFault trivial) fun status _ => ?_
  split
  · exact .pure ⟨ms, rfl, hms, hresponse⟩
  · split
    · dsimp only
      split
      · exact .fail ⟨_, rfl, trivial, Failure.isReadable_of_texts (Or.inr rfl) rfl⟩
      · exact (Run.Yields.note _ _ _).bind fun _ _ => (Run.Yields.emit _).bind fun _ _ =>
          .pure trivial
    · have hnamed : details.name ≠ "" := by decide
      refine Run.Yields.bind (Q := fun _ => True) (.ofFault ?_) fun detail _ =>
        .fail ⟨_, rfl, trivial, Failure.isReadable_of_operation rfl hnamed⟩
      -- what the response tells of an error is an object, or nothing
      refine Ends.bind (Q := (· = (ms.get? "Error").getD .null)) (by exact rfl) ?_
      rintro error rfl
      rcases (hms.error rfl).getD with herror | ⟨error, herror⟩
      · rw [herror]
        exact trivial
      · rw [herror]
        cases (Value.object error).truthy <;> exact trivial

theorem yields_await (settings : Settings) (job : Job) {I : σ → Prop} :
    (await settings job : Run σ Value).Yields T.answers Fault.IsReported I fun v =>
      ∃ ms : Members, v = .object ms ∧ ms.Fits details ∧ T.answers details (.response v) :=
  .loop (productive_poll settings job) (fun p _ => T.yields_poll settings job p)
    (B := fun _ => True) trivial

/-- Whether values are entries of responses that may come. -/
def KeepsEntries (T : Terms session) (vs : List Value) : Prop :=
  ∃ entries : List Members, vs = entries.map .object ∧
    ∀ entry ∈ entries, T.answers.Item details "ServicesLastAccessed" entry

theorem ends_entriesOf {ms : Members} (hms : ms.Fits details)
    (hresponse : T.answers details (.response (.object ms))) :
    Ends Fault.IsReported T.KeepsEntries (entriesOf (.object ms)) := by
  obtain ⟨entries, hentries, hpromised⟩ := (hms.entries rfl).objects.items hresponse
  have hheld : entriesOf (.object ms) = .ok (entries.map .object) := by
    show ((ms.get? "ServicesLastAccessed").getD (.list [])).items = _
    rw [hentries]
    rfl
  rw [hheld]
  exact ⟨entries, rfl, hpromised⟩

theorem yields_collect (job : Job) {first : Members} (hfirst : first.Fits details)
    (hresponse : T.answers details (.response (.object first))) {I : σ → Prop} :
    (collect job (.object first) : Run σ (List Value)).Yields T.answers Fault.IsReported I
      T.KeepsEntries := by
  refine (Run.Yields.ofFault (T.ends_entriesOf hfirst hresponse)).bind fun entries hentries => ?_
  refine Run.Yields.loop (B := fun sofar : Value × List Value =>
    (∃ ms : Members, sofar.1 = .object ms) ∧ T.KeepsEntries sofar.2)
    (productive_nextPage job) ?_ ⟨⟨first, rfl⟩, hentries⟩
  rintro ⟨page, sofar⟩ ⟨⟨ms, rfl⟩, hsofar⟩
  rw [nextPage_eq]
  refine Run.Yields.bind (Q := fun _ => True) (.ofFault trivial) fun marker _ => ?_
  cases marker with
  | none => exact .pure hsofar
  | some marker =>
    refine (T.yields_call _ _ _).bind ?_
    rintro v ⟨next, rfl, hnext, hpromised⟩
    refine (Run.Yields.ofFault (T.ends_entriesOf hnext hpromised)).bind fun more hmore => ?_
    obtain ⟨entries, rfl, hentries⟩ := hsofar
    obtain ⟨others, rfl, hothers⟩ := hmore
    refine .pure ⟨⟨next, rfl⟩, entries ++ others, List.map_append.symm, fun entry hentry => ?_⟩
    rcases List.mem_append.mp hentry with hentry | hentry
    · exact hentries entry hentry
    · exact hothers entry hentry

/-- Writing a member into a record of a report that is as asked for leaves it so. -/
theorem yields_write (identifier : Value) (name : String) (v : Value)
    (h : ∀ r, T.records r → T.records (r.setMember name v)) :
    (write identifier name v).Yields T.answers Fault.IsReported T.KeepsReport
      fun _ => True := by
  intro d s hd hs
  have hwritable : d.targets.any (fun t => t.1.same identifier && !t.2.isWritable) = false := by
    refine List.any_eq_false.mpr fun t ht => ?_
    obtain ⟨e, he, htarget⟩ := List.mem_filterMap.mp ht
    obtain ⟨i, -, rfl⟩ := Option.map_eq_some_iff.mp htarget
    simp [T.writable _ (hd.2 e he).1]
  rw [write_eq, Report.write, hwritable, if_neg Bool.false_ne_true]
  refine ⟨trivial, ⟨hd.1, fun e he => ?_⟩, hs⟩
  obtain ⟨e, hmem, rfl⟩ := List.mem_map.mp he
  obtain ⟨hrecord, hname⟩ := hd.2 e hmem
  split
  · refine ⟨h _ hrecord, fun i hi => ?_⟩
    obtain ⟨text, hi, harn⟩ := hname i hi
    have hkept := congrArg Resource.arn (keepsFields_setMember name v e.resource)
    exact ⟨text, hi, hkept.trans harn⟩
  · exact ⟨hrecord, hname⟩

theorem yields_attachOne (job : Job) :
    (attachOne session.settings job).Yields T.answers Fault.IsReported T.KeepsReport
      fun _ => True := by
  rw [attachOne_eq]
  refine (T.yields_await session.settings job).bind ?_
  rintro v ⟨first, rfl, hfirst, hresponse⟩
  refine (T.yields_collect job hfirst hresponse).bind ?_
  rintro vs ⟨entries, rfl, hentries⟩
  have hdated (entry : Members) (h : entry ∈ entries) : entry.IsDated :=
    (hentries entry h).of_lists (T.complete _) fun ms hms => hms.entries rfl
  refine (T.yields_write _ _ _ fun r hr => T.entered r entries hr hentries).bind fun _ _ => ?_
  refine (Run.Yields.ofFault (ends_latest hdated)).bind fun time htime => ?_
  exact T.yields_write _ _ _ fun r hr => T.used r time hr htime

/-- The targets of a report that is as asked for match. -/
theorem KeepsReport.checkTargets_eq {T : Terms session} {r : Report}
    (h : T.KeepsReport r) : checkTargets r.targets = .ok () := by
  have hmatched : r.Matched := by
    intro t ht
    obtain ⟨e, he, htarget⟩ := List.mem_filterMap.mp ht
    obtain ⟨i, hi, rfl⟩ := Option.map_eq_some_iff.mp htarget
    obtain ⟨name, rfl, harn⟩ := (h.2 e he).2 i hi
    exact ⟨name, rfl, harn⟩
  rw [LastAccessed.checkTargets_eq, hmatched.find?_eq_none]

/-- **The enrichment of a report**, on any terms. -/
theorem yields_attach :
    (attach session.settings).Yields T.answers Fault.IsReported T.KeepsReport
      fun _ => True := by
  rw [attach_eq]
  refine Run.Yields.draft.bind fun r hr => ?_
  have hcheck : Run.ofFailure (checkTargets r.targets) = (pure () : Run Report Unit) := by
    rw [hr.checkTargets_eq]
    rfl
  rw [hcheck, pure_bind]
  split
  · exact .pure trivial
  · refine (T.yields_submit _).bind fun ids _ => ?_
    refine Run.Yields.bind (Q := fun _ => True) ?_ fun _ _ => .note _ _ _
    exact .each (B := fun _ => True) (fun _ _ => trivial) fun job _ => T.yields_attachOne job

/-! ### Reports -/

theorem yields_survey (kind : ReportKind) (path : Value) :
    (kind.survey session path).Yields T.answers Fault.IsReported T.KeepsDraft fun _ => True := by
  rw [ReportKind.survey_eq]
  exact (T.yields_enumerate kind path).bind fun _ _ =>
    .within (fun _ hd => hd.1) (fun _ _ hd ht => ⟨ht, hd.2⟩) T.yields_attach

/-- Whether a report that has ended is as asked for: its error is one that reports keep. -/
def KeepsWhole (T : Terms session) (r : Report) : Prop :=
  (∀ f, r.error = some f → f.IsReported) ∧ ∀ x ∈ r.resources, T.records x

theorem keeps_resources {r : Report} (h : T.KeepsReport r) : ∀ x ∈ r.resources, T.records x := by
  intro x hx
  obtain ⟨e, he, rfl⟩ := List.mem_map.mp hx
  exact (h.2 e he).1

/-- What is made of the end of a survey is a report as asked for. -/
theorem yields_conclude {kind : ReportKind} {result : Except Fault Unit} {draft : Draft}
    (hresult : Ends Fault.IsReported (fun _ => True) result) (hdraft : T.KeepsDraft draft)
    {I : σ → Prop} :
    (kind.conclude result draft : Run σ Report).Yields T.answers (fun _ => False) I
      T.KeepsWhole := by
  cases result with
  | ok a =>
    refine (Run.Yields.note _ _ _).bind fun _ _ => .pure ⟨fun f hf => ?_, ?_⟩
    · have hnone : draft.report.error = some f := hf
      rw [hdraft.1.1] at hnone
      cases hnone
    · exact T.keeps_resources (T.keepsReport_extend hdraft.1 hdraft.2)
  | error e =>
    obtain ⟨f, rfl, hf⟩ := hresult
    refine (Run.Yields.note _ _ _).bind fun _ _ => .pure ⟨fun g hg => ?_, ?_⟩
    · have hor : draft.report.error.or (some f) = some g := hg
      rw [hdraft.1.1] at hor
      cases hor
      exact hf
    · exact T.keeps_resources (r := draft.report) hdraft.1

/-- **A report on any terms** ends well, and is as asked for. -/
theorem yields_run (kind : ReportKind) (path : Value) {options : ClientOptions}
    (hoptions : session.settings.clientOptions (.text Settings.defaultTag) = .ok options)
    {I : σ → Prop} :
    (kind.run session path : Run σ Report).Yields T.answers (fun _ => False) I T.KeepsWhole := by
  rw [ReportKind.run_eq, Session.client, buildClient, hoptions]
  refine Run.Yields.bind (Q := fun _ => True) ?_ fun _ _ => ?_
  · exact Run.Yields.bind (Q := fun _ => True) (.ofFault trivial) fun _ _ => .emit _
  · have hstart : T.KeepsDraft ReportKind.start :=
      ⟨⟨rfl, List.forall_mem_nil _⟩, List.forall_mem_nil _⟩
    refine (Run.Yields.attempt hstart (T.yields_survey kind path)).bind ?_
    rintro ⟨result, draft⟩ ⟨hresult, hdraft⟩
    exact T.yields_conclude hresult hdraft

/-- The terms on which nothing is known of the answers but that they are complete. -/
def plain (session : Session) : Terms session where
  answers := Answer.Complete
  records := (·.isWritable)
  complete _ _ := id
  unscripted := Answer.complete_unscripted
  writable _ := id
  made _ _ _ _ h := by cases h <;> rfl
  looked _ _ _ _ _ := rfl
  decoded _ _ _ _ _ _ := rfl
  entered _ _ h _ := Resource.isWritable_setMember h _ _
  used _ _ h _ := Resource.isWritable_setMember h _ _

end Terms

/-! ## Containment -/

/-- Whether clients have the retry mode of settings. -/
def Settings.HasRetryMode (s : Settings) : Prop :=
  ∃ mode ∈ retryModes, s.clientRetryMode = .text mode

theorem Settings.HasRetryMode.exists_options {s : Settings} (h : s.HasRetryMode) (tag : Value) :
    ∃ options, s.clientOptions tag = .ok options := by
  obtain ⟨mode, hmem, hmode⟩ := h
  have hany : (retryModes.any fun mode => s.raw.clientRetryMode.same (.text mode)) = true := by
    refine List.any_eq_true.mpr ⟨mode, hmem, ?_⟩
    show s.clientRetryMode.same (.text mode) = true
    rw [hmode, Value.same_text, beq_self_eq_true]
  rw [Settings.clientOptions, RawSettings.clientOptions, if_pos hany]
  exact ⟨_, rfl⟩

namespace ReportKind

variable {σ : Type}

/-- **A report keeps every failure to itself** where the answers are complete: it has a result, and
    its error is one of those that reports keep. Before the use of services is looked up, every
    resource is tracked under its own name, and there is always a job for each of them. -/
theorem run_contained (kind : ReportKind) {session : Session} (path : Value) {d : σ} {s : Script}
    (hmode : session.settings.HasRetryMode) (hs : s.Answers Answer.Complete) :
    (∃ report, (kind.run session path d s).result = .ok report ∧
        ∀ f, report.error = some f → f.IsReported) ∧
      checkTargets (kind.enumerate session path start s).draft.report.targets = .ok () ∧
      ∀ (identifiers ids : List Value) (r : Report) (s' : Script),
        (submit identifiers r s').result = .ok ids → checkJobs ids identifiers = .ok () := by
  refine ⟨?_, ?_, ?_⟩
  · obtain ⟨options, hoptions⟩ := hmode.exists_options (.text Settings.defaultTag)
    obtain ⟨hresult, -, -⟩ := (Terms.plain session).yields_run kind path hoptions
      (I := fun _ => True) d s trivial hs
    obtain ⟨report, hreport, hwhole⟩ := hresult.exists_eq_ok
    exact ⟨report, hreport, hwhole.1⟩
  · have hstart : (Terms.plain session).KeepsDraft start :=
      ⟨⟨rfl, List.forall_mem_nil _⟩, List.forall_mem_nil _⟩
    obtain ⟨-, hdraft, -⟩ := (Terms.plain session).yields_enumerate kind path start s hstart hs
    exact hdraft.1.checkTargets_eq
  · intro identifiers ids r s' h
    rw [checkJobs, if_pos (length_of_submit h)]

/-- Answers to a report on two groups, the second of which has no name that is an ARN. -/
def malformedScript : Script :=
  ⟨[(⟨"list_groups"⟩, [.response (.object [("Groups", .list
    ([[("Arn", .text "arn:aws:iam::123456789012:group/staff")], [("Arn", .int 5)]].map
      Value.object))])])], []⟩

theorem answers_malformedScript : malformedScript.Answers Answer.Complete := by
  intro q hq a ha
  obtain rfl := List.mem_singleton.mp hq
  obtain rfl := List.mem_singleton.mp ha
  refine ⟨_, rfl, Members.fits_page (⟨"list_groups"⟩, "Groups", ["Arn"]) (by decide)
    (by decide) fun item hitem v hv => ?_⟩
  rcases List.mem_pair.mp hitem with rfl | rfl <;> cases hv

/-- The malformed name is the error of the report. -/
theorem run_contained_malformed :
    sampleSession.settings.HasRetryMode ∧ malformedScript.Answers Answer.Complete ∧
      ∃ report, (groups.run sampleSession .null () malformedScript).result = .ok report ∧
        report.error.isSome ∧ ∀ f, report.error = some f → f.IsReported := by
  have hmode : sampleSession.settings.HasRetryMode := ⟨"standard", by decide, rfl⟩
  obtain ⟨⟨report, hreport, herror⟩, -, -⟩ :=
    run_contained groups .null (d := ()) hmode answers_malformedScript
  refine ⟨hmode, answers_malformedScript, report, hreport, ?_, herror⟩
  have hsome : ((groups.run sampleSession .null () malformedScript).result.toOption.bind
      Report.error).isSome := by decide +kernel
  rw [hreport] at hsome
  exact hsome

end ReportKind

end IamInventory

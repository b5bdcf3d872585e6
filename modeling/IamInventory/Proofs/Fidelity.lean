import IamInventory.Proofs.Phases
import IamInventory.Proofs.Portraits
import IamInventory.Proofs.UserKeys

/-!
# Fidelity — the records of a report and the items of its listing

  Whatever a report comes to, its records are the items of a first part of its listing, one by one
  and in their order, and each of them portrays its item. Besides these a report holds nothing but
  access keys of users and versions of policies. An item that cannot be read has no record, and the
  report has an error then.

* **`Made`** — an item with its record, and with what comes behind the record.
* **`ReportKind.visit_enters`** — what the work for an item enters.
* **`ReportKind.mains`** — the records of a report that stand for items.
* **`ReportKind.run_portrays`** — these records and the items of the listing.
-/

namespace IamInventory

open LastAccessed

/-! ## Items that have been entered -/

/-- What is put into a report without being tracked. -/
def untracked (r : Resource) : Entry := ⟨r, none⟩

theorem targets_untracked (rs : List Resource) :
    (rs.map untracked).filterMap (fun e => e.tracked.map fun i => (i, e.resource)) = [] := by
  rw [List.filterMap_map]
  exact List.filterMap_eq_nil_iff.mpr fun r _ => rfl

namespace ReportKind

/-- **Whether a resource belongs to an item** without being its record: an access key of a user, or
    a version of a policy. -/
def IsPart (kind : ReportKind) (r : Resource) : Prop :=
  kind = users ∧ r.kind = .text "access-key" ∨ kind = policies ∧ r.kind = .text "policy-version"

/-- The entry of the record of an item. All but instance profiles are tracked. -/
def mainEntry (kind : ReportKind) (record : Resource) : Entry :=
  ⟨record, if kind = profiles then none else some record.arn⟩

theorem mainEntry_of_ne {kind : ReportKind} (hkind : kind ≠ profiles) (record : Resource) :
    kind.mainEntry record = ⟨record, some record.arn⟩ := by
  rw [mainEntry, if_neg hkind]

end ReportKind

/-- **An item with its record**, and with the resources that come behind it. -/
structure Made (kind : ReportKind) (session : Session) where
  item : Value
  record : Resource
  parts : List Resource
  made : kind.record session item = .ok record
  isPart : ∀ part ∈ parts, kind.IsPart part

/-- **An item that is done with**: it has been entered, resources have been put off for it, and
    calls have been made about it. -/
structure Done (kind : ReportKind) (session : Session) extends Made kind session where
  keys : List Resource
  effects : List Effect
  isKey : ∀ key ∈ keys, kind.IsPart key
  asked : ∀ c ∈ Effect.calls effects, c.1 ∈ kind.inner

variable {kind : ReportKind} {session : Session}

/-- The entries of an item. -/
def Made.entries (m : Made kind session) : List Entry :=
  kind.mainEntry m.record :: m.parts.map untracked

namespace Done

/-- An item that has been entered and for which nothing is put off. -/
def ofMade (m : Made kind session) (l : List Effect) (h : ∀ c ∈ Effect.calls l, c.1 ∈ kind.inner) :
    Done kind session :=
  ⟨m, [], l, List.forall_mem_nil _, h⟩

/-- How items that are done with tell of the work for them. -/
def telling (kind : ReportKind) (session : Session) : Telling Draft (Done kind session) :=
  ⟨(·.item), effects, fun x d => { d.enter x.entries with deferred := d.deferred ++ x.keys }⟩

theorem tell_telling (xs : List (Done kind session)) (d : Draft) :
    (telling kind session).tell xs d =
      { d.enter (xs.flatMap (·.entries)) with deferred := d.deferred ++ xs.flatMap keys } := by
  induction xs generalizing d with
  | nil =>
    rw [List.flatMap_nil, List.flatMap_nil, Draft.enter, List.append_nil, List.append_nil]
    rfl
  | cons x xs ih =>
    rw [List.flatMap_cons, List.flatMap_cons, ← Draft.enter_enter, ← List.append_assoc]
    exact ih { d.enter x.entries with deferred := d.deferred ++ x.keys }

theorem put_ofMade (m : Made kind session) (l : List Effect)
    (h : ∀ c ∈ Effect.calls l, c.1 ∈ kind.inner) (d : Draft) :
    (telling kind session).put (ofMade m l h) d = d.enter m.entries := by
  show { d.enter m.entries with deferred := d.deferred ++ [] } = d.enter m.entries
  rw [List.append_nil]
  rfl

end Done

namespace ReportKind

/-- Reports that leave an item as it is make the record of it that its ARN gives. -/
theorem record_of_recorded (hroles : kind ≠ roles) (hprofiles : kind ≠ profiles)
    (x : Recorded session) : kind.record session x.item = .ok x.record := by
  rw [record, x.named]
  show (Resource.ofItem session x.name x.item >>= _) = _
  rw [x.made]
  cases kind with
  | roles => exact absurd rfl hroles
  | profiles => exact absurd rfl hprofiles
  | _ => rfl

/-- The item of a record that is tracked, with what is behind it. -/
def madeOfRecorded (hroles : kind ≠ roles) (hprofiles : kind ≠ profiles) (x : Recorded session)
    (parts : List Resource) (h : ∀ part ∈ parts, kind.IsPart part) : Made kind session :=
  ⟨x.item, x.record, parts, record_of_recorded hroles hprofiles x, h⟩

/-- A record that is tracked is entered, or nothing is done. -/
theorem enters_of_track {item : Value} {record : Resource} (hprofiles : kind ≠ profiles)
    (hmade : kind.record session item = .ok record) {d d' : Draft} {l : List Effect}
    {r : Except Fault Unit} (h : (track record).Does d l r d') :
    (∃ e, r = .error e ∧ d' = d) ∨ ∃ x : Done kind session, x.item = item ∧ x.effects = l ∧
      (Done.telling kind session).put x d = d' ∧ r = .ok () := by
  obtain ⟨rfl, ⟨e, rfl, rfl⟩ | ⟨rfl, rfl⟩⟩ := track_does h
  · exact Or.inl ⟨e, rfl, rfl⟩
  · have hnone : ∀ c ∈ Effect.calls [], c.1 ∈ kind.inner := List.forall_mem_nil _
    refine Or.inr ⟨.ofMade ⟨item, record, [], hmade, List.forall_mem_nil _⟩ [] hnone, rfl, rfl, ?_,
      rfl⟩
    rw [Done.put_ofMade, Made.entries, mainEntry_of_ne hprofiles]
    rfl

/-- **What the work for an item enters**: its record with what belongs to it, and resources that
    are put off. Where the work fails, the record may have been entered. -/
theorem visit_enters {item : Value} {d d' : Draft} {l : List Effect} {r : Except Fault Unit}
    (h : (kind.visit session item).Does d l r d') :
    (∃ e, r = .error e ∧
        (d' = d ∨ ∃ m : Made kind session, m.item = item ∧ d' = d.enter m.entries)) ∨
      ∃ x : Done kind session, x.item = item ∧ x.effects = l ∧
        (Done.telling kind session).put x d = d' ∧ r = .ok () := by
  have hasked : ∀ c ∈ Effect.calls l, c.1 ∈ kind.inner := (callsOnly_visit kind session item).does h
  cases kind with
  | users =>
    -- a user is entered first, and may be all that is left of the work
    rcases visit_users_does h with ⟨e, rfl, rfl | ⟨x, rfl, rfl⟩⟩ | ⟨u, rfl, rfl, rfl, rfl⟩
    · exact Or.inl ⟨e, rfl, Or.inl rfl⟩
    · exact Or.inl ⟨e, rfl, Or.inr
        ⟨madeOfRecorded nofun nofun x [] (List.forall_mem_nil _), rfl, rfl⟩⟩
    · have hkeys : ∀ key ∈ u.keys, users.IsPart key := by
        intro key hkey
        obtain ⟨k, -, rfl⟩ := List.mem_map.mp hkey
        exact Or.inl ⟨rfl, rfl⟩
      exact Or.inr ⟨⟨madeOfRecorded nofun nofun u.toRecorded [] (List.forall_mem_nil _), u.keys,
        u.effects, hkeys, hasked⟩, rfl, rfl, rfl, rfl⟩
  | policies =>
    rcases visit_policies_does h with ⟨e, rfl, rfl⟩ | ⟨b, rfl, rfl, rfl, rfl⟩
    · exact Or.inl ⟨e, rfl, Or.inl rfl⟩
    · have hversions : ∀ version ∈ b.versions, policies.IsPart version := by
        intro version hversion
        obtain ⟨x, -, rfl⟩ := List.mem_map.mp hversion
        exact Or.inr ⟨rfl, rfl⟩
      exact Or.inr ⟨.ofMade (madeOfRecorded nofun nofun b.toRecorded b.versions hversions)
        b.effects hasked, rfl, rfl, Done.put_ofMade _ _ _ _, rfl⟩
  | profiles =>
    rw [visit_eq] at h
    rcases h.bind_ofFault with ⟨e, -, rfl, -, rfl⟩ | ⟨record, hmade, s, rfl, rfl, rfl⟩
    · exact Or.inl ⟨e, rfl, Or.inl rfl⟩
    · exact Or.inr ⟨.ofMade ⟨item, record, [], hmade, List.forall_mem_nil _⟩ _ hasked, rfl, rfl,
        Done.put_ofMade _ _ _ _, rfl⟩
  | groups =>
    rw [visit_eq] at h
    rcases h.bind_ofFault with ⟨e, -, rfl, -, rfl⟩ | ⟨record, hmade, htrack⟩
    · exact Or.inl ⟨e, rfl, Or.inl rfl⟩
    · exact (enters_of_track (by decide) hmade htrack).imp_left fun ⟨e, he, hd⟩ =>
        ⟨e, he, Or.inl hd⟩
  | roles =>
    rw [visit_eq] at h
    rcases h.bind_ofFault with ⟨e, -, rfl, -, rfl⟩ | ⟨record, hmade, htrack⟩
    · exact Or.inl ⟨e, rfl, Or.inl rfl⟩
    · exact (enters_of_track (by decide) hmade htrack).imp_left fun ⟨e, he, hd⟩ =>
        ⟨e, he, Or.inl hd⟩

theorem covers_done (kind : ReportKind) (session : Session) :
    (Done.telling kind session).Covers (kind.handle session) := by
  refine covers_handle fun hvisit => ?_
  rcases visit_enters hvisit with ⟨e, he, -⟩ | ⟨x, hitem, heffects, hput, -⟩
  · cases he
  · exact ⟨x, hitem, heffects, hput⟩

/-- What is called about an item is apart from the listing of items. -/
theorem apart_done (path : Value) (x : Done kind session) :
    (kind.listing path).Apart ((Done.telling kind session).effects x) := by
  intro c hc heq
  have hinner : c.1 ∈ kind.inner := x.asked c hc
  rw [heq, action_listing] at hinner
  exact outer_not_mem_inner kind hinner

/-! ## What has been entered -/

theorem entries_telling (xs : List (Done kind session)) :
    ((Done.telling kind session).tell xs start).report.entries =
      (xs.map Done.toMade).flatMap Made.entries := by
  rw [Done.tell_telling, List.flatMap_map]
  rfl

/-- Where a report fails, the items that have been entered are a first part of those that have been
    listed: the one at which it fails may be among them. -/
theorem made_at_failure {xs : List (Done kind session)} {listed : List Value} {rest : List Effect}
    {f : Failure} {draft : Draft}
    (h : listed = xs.map (Done.telling kind session).item ∧
        draft = (Done.telling kind session).tell xs start ∨
      ∃ item more, listed = xs.map (Done.telling kind session).item ++ item :: more ∧
        (kind.visit session item).Does ((Done.telling kind session).tell xs start) rest
          (.error (.failure f)) draft) :
    ∃ (ms : List (Made kind session)) (more : List Value), listed = ms.map Made.item ++ more ∧
      draft.report.entries = ms.flatMap Made.entries := by
  have hxs := entries_telling xs
  have hitems : xs.map (Done.telling kind session).item = (xs.map Done.toMade).map Made.item := by
    rw [List.map_map]
    rfl
  rcases h with ⟨rfl, rfl⟩ | ⟨item, more, rfl, hvisit⟩
  · exact ⟨_, [], by rw [List.append_nil, hitems], hxs⟩
  · rcases visit_enters hvisit with ⟨e, -, rfl | ⟨m, rfl, rfl⟩⟩ | ⟨x, -, -, -, he⟩
    · exact ⟨_, item :: more, by rw [hitems], hxs⟩
    · refine ⟨xs.map Done.toMade ++ [m], more, ?_, ?_⟩
      · rw [hitems, List.map_append, List.append_assoc]
        rfl
      · rw [List.flatMap_append, ← hxs, List.flatMap_singleton]
        rfl
    · cases he

variable {σ : Type}

/-- **What a report has entered**: the items of a first part of its listing, with what the jobs that
    are done tell written back, and behind them what has been put off. If the report has no error,
    it is all of the listing, and the jobs of all that is tracked are done. -/
theorem run_entries {path : Value} {d : σ} {s : Script} {report : Report}
    (h : (kind.run session path d s).result = .ok report) :
    ∃ (ms : List (Made kind session)) (more : List Value) (hs : List (History session.settings))
      (late : List Resource),
      (kind.listing path).listed ((kind.run session path).effects d s) = ms.map Made.item ++ more ∧
      report.entries = Report.alterEntries (ms.flatMap Made.entries) (hs.map History.write) ++
        late.map untracked ∧
      (∀ r ∈ late, kind.IsPart r) ∧
      (report.error = none →
        more = [] ∧ hs.length = ((ms.flatMap Made.entries).filterMap Entry.tracked).length) := by
  obtain ⟨xs, rest, draft, hs, -, hcase⟩ :=
    run_histories (covers_done kind session) (apart_done path) h
  rcases hcase with ⟨-, rfl, hlength, hlisted, -, hentries⟩ | ⟨f, herror, hentries, hend⟩
  · rw [Report.tracked, entries_telling] at hlength
    rw [entries_telling] at hentries
    refine ⟨_, [], hs, _, ?_, hentries, ?_, fun _ => ⟨rfl, hlength⟩⟩
    · rw [hlisted, List.append_nil, List.map_map]
      rfl
    · rw [Done.tell_telling]
      intro r hr
      obtain ⟨x, -, hkey⟩ := List.mem_flatMap.mp hr
      exact x.isKey r hkey
  · obtain ⟨ms, more, hlisted, hdraft⟩ := made_at_failure hend
    rw [hdraft] at hentries
    refine ⟨ms, more, hs, [], hlisted, ?_, List.forall_mem_nil _, fun hnone => ?_⟩
    · rw [hentries, List.map_nil, List.append_nil]
    · rw [hnone] at herror
      cases herror

/-! ## The records of a report -/

/-- **The records of a report that stand for items**: what is tracked, and everything in a report on
    instance profiles, which tracks nothing. -/
def mains (kind : ReportKind) (report : Report) : List Resource :=
  match kind with
  | profiles => report.resources
  | _ => report.targets.map Prod.snd

end ReportKind

/-- What is tracked of items is their records. -/
theorem targets_made (hkind : kind ≠ .profiles) (ms : List (Made kind session)) :
    (⟨ms.flatMap Made.entries, none⟩ : Report).targets =
      ms.map fun m => (m.record.arn, m.record) := by
  rw [Report.targets]
  induction ms with
  | nil => rfl
  | cons m ms ih =>
    have hmain : Made.entries m = [⟨m.record, some m.record.arn⟩] ++ m.parts.map untracked := by
      rw [Made.entries, ReportKind.mainEntry_of_ne hkind]
      rfl
    rw [List.flatMap_cons, List.filterMap_append, ih, hmain, List.filterMap_append,
      targets_untracked]
    rfl

/-- **The targets of an altered report** have one change each, as far as there are changes. -/
theorem Report.forall₂_targets_alter (r : Report) (cs : List (Resource → Resource)) :
    List.Forall₂ (fun t t' : Value × Resource => (∃ c ∈ cs, t'.2 = c t.2) ∨
      cs.length < r.targets.length ∧ t'.2 = t.2) r.targets (r.alter cs).targets := by
  rw [targets_alter]
  generalize r.targets = ts
  induction ts generalizing cs with
  | nil =>
    rw [List.zipWith_nil_left, List.drop_nil]
    exact .nil
  | cons t ts ih =>
    cases cs with
    | nil => exact List.forall₂_same.mpr fun _ _ => Or.inr ⟨Nat.succ_pos _, rfl⟩
    | cons c cs =>
      refine .cons (Or.inl ⟨c, List.mem_cons_self, rfl⟩) ((ih cs).imp fun u u' hu => ?_)
      rcases hu with ⟨c', hc', hu⟩ | ⟨hlt, hu⟩
      · exact Or.inl ⟨c', List.mem_cons_of_mem c hc', hu⟩
      · exact Or.inr ⟨Nat.succ_lt_succ hlt, hu⟩

/-- What is not tracked in an altered report is as it was. -/
theorem mem_of_mem_alterEntries {es : List Entry} {cs : List (Resource → Resource)} {e : Entry}
    (h : e ∈ Report.alterEntries es cs) (he : e.tracked = none) : e ∈ es := by
  fun_induction Report.alterEntries es cs with
  | case1 es => exact h
  | case2 => exact h
  | case3 resource es c cs ih =>
    rcases List.mem_cons.mp h with rfl | h
    · exact List.mem_cons_self
    · exact List.mem_cons_of_mem _ (ih h)
  | case4 resource i es c cs ih =>
    rcases List.mem_cons.mp h with rfl | h
    · cases he
    · exact List.mem_cons_of_mem _ (ih h)

/-- Where nothing is tracked, nothing is changed. -/
theorem alterEntries_of_untracked {es : List Entry} (h : ∀ e ∈ es, e.tracked = none)
    (cs : List (Resource → Resource)) : Report.alterEntries es cs = es := by
  induction es with
  | nil => cases cs <;> rfl
  | cons e es ih =>
    obtain ⟨hnone, hes⟩ := List.forall_mem_cons.mp h
    obtain ⟨resource, tracked⟩ := e
    obtain rfl : tracked = none := hnone
    rw [Report.alterEntries_none, ih hes]

namespace ReportKind

/-- What a report tracks portrays its items, and is enriched if there is a job for each of them. -/
theorem portrays_targets (hkind : kind ≠ profiles) (ms : List (Made kind session))
    {settings : Settings} (hs : List (History settings)) :
    List.Forall₂ (fun v r => kind.IsPortrait session v r ∧ (ms.length = hs.length → r.IsEnriched))
      (ms.map Made.item)
      ((Report.alter ⟨ms.flatMap Made.entries, none⟩ (hs.map History.write)).targets.map
        Prod.snd) := by
  have hchanged := Report.forall₂_targets_alter ⟨ms.flatMap Made.entries, none⟩
    (hs.map History.write)
  rw [targets_made hkind] at hchanged
  rw [List.forall₂_map_left_iff] at hchanged ⊢
  rw [List.forall₂_map_right_iff]
  refine hchanged.imp fun m t ht => ?_
  obtain ⟨item, arn, hitem, hportrait⟩ := record_portrays m.made
  rcases ht with ⟨c, hc, ht⟩ | ⟨hlt, ht⟩
  · obtain ⟨history, -, rfl⟩ := List.mem_map.mp hc
    obtain ⟨hstill, hrich⟩ := hportrait.write hkind history
    rw [ht]
    exact ⟨⟨item, arn, hitem, hstill⟩, fun _ => hrich⟩
  · rw [ht]
    refine ⟨⟨item, arn, hitem, hportrait⟩, fun hlength => absurd hlt ?_⟩
    rw [List.length_map, List.length_map, hlength]
    exact Nat.lt_irrefl _

/-- Nothing belongs to an instance profile. -/
theorem not_isPart_profiles (r : Resource) : ¬ profiles.IsPart r := by
  rintro (⟨h, -⟩ | ⟨h, -⟩)
  · cases h
  · cases h

theorem eq_nil_of_isPart_profiles {rs : List Resource} (h : ∀ r ∈ rs, profiles.IsPart r) :
    rs = [] :=
  List.eq_nil_iff_forall_not_mem.mpr fun r hr => not_isPart_profiles r (h r hr)

/-- What is entered of instance profiles is their records. -/
theorem entries_profiles (ms : List (Made profiles session)) :
    ms.flatMap Made.entries = ms.map fun m => untracked m.record := by
  induction ms with
  | nil => rfl
  | cons m ms ih =>
    rw [List.flatMap_cons, ih, Made.entries, eq_nil_of_isPart_profiles m.isPart]
    rfl

section Entered

variable {ms : List (Made kind session)} {settings : Settings} {hs : List (History settings)}
  {late : List Resource} {report : Report}

/-- **The records that stand for items** portray them, and are enriched if there is a job for each
    of them. -/
theorem portrays_mains (hlate : ∀ r ∈ late, kind.IsPart r)
    (h : report.entries = Report.alterEntries (ms.flatMap Made.entries) (hs.map History.write) ++
      late.map untracked) :
    List.Forall₂ (fun v r => kind.IsPortrait session v r ∧
        (kind ≠ profiles → ms.length = hs.length → r.IsEnriched))
      (ms.map Made.item) (kind.mains report) := by
  by_cases hkind : kind = profiles
  · subst hkind
    have hresources : report.resources = ms.map Made.record := by
      rw [Report.resources, h, eq_nil_of_isPart_profiles hlate, List.map_nil, List.append_nil,
        entries_profiles, alterEntries_of_untracked, List.map_map]
      · rfl
      · intro e he
        obtain ⟨m, -, rfl⟩ := List.mem_map.mp he
        rfl
    rw [mains, hresources, List.forall₂_map_left_iff, List.forall₂_map_right_iff]
    exact List.forall₂_same.mpr fun m _ => ⟨record_portrays m.made, fun hne => absurd rfl hne⟩
  · have htargets : report.targets =
        (Report.alter ⟨ms.flatMap Made.entries, none⟩ (hs.map History.write)).targets := by
      rw [Report.targets, h, List.filterMap_append, targets_untracked, List.append_nil]
      rfl
    have hmains : kind.mains report = report.targets.map Prod.snd := by
      cases kind with
      | profiles => exact absurd rfl hkind
      | _ => rfl
    rw [hmains, htargets]
    exact (portrays_targets hkind ms hs).imp fun v r hr => ⟨hr.1, fun _ => hr.2⟩

/-- Besides the records that stand for items, there is what belongs to them. -/
theorem isPart_of_untracked (hlate : ∀ r ∈ late, kind.IsPart r)
    (h : report.entries = Report.alterEntries (ms.flatMap Made.entries) (hs.map History.write) ++
      late.map untracked) {e : Entry} (he : e ∈ report.entries) (hnone : e.tracked = none) :
    kind = profiles ∨ kind.IsPart e.resource := by
  refine or_iff_not_imp_left.mpr fun hkind => ?_
  rw [h] at he
  rcases List.mem_append.mp he with he | he
  · obtain ⟨m, -, he⟩ := List.mem_flatMap.mp (mem_of_mem_alterEntries he hnone)
    rw [Made.entries, mainEntry_of_ne hkind] at he
    rcases List.mem_cons.mp he with rfl | he
    · cases hnone
    · obtain ⟨part, hpart, rfl⟩ := List.mem_map.mp he
      exact m.isPart part hpart
  · obtain ⟨r, hr, rfl⟩ := List.mem_map.mp he
    exact hlate r hr

end Entered

/-- There is as much tracked as there are items. -/
theorem length_tracked (hkind : kind ≠ profiles) (ms : List (Made kind session)) :
    ((ms.flatMap Made.entries).filterMap Entry.tracked).length = ms.length := by
  have hnames := Report.names_targets ⟨ms.flatMap Made.entries, none⟩
  rw [targets_made hkind] at hnames
  show (Report.tracked ⟨ms.flatMap Made.entries, none⟩).length = ms.length
  rw [← hnames, Named.names, List.length_map, List.length_map]

/-- **The records of a report are the items of its listing.** Those that stand for items portray
    them, one by one and in their order, from the first item on; besides them there are only access
    keys of users and versions of policies. A report without an error has a record for each item
    that has been listed, on whatever page, and has looked up its use of services if it does so at
    all. An item that cannot be read has no record, and then the report has an error. -/
theorem run_portrays {path : Value} {d : σ} {s : Script} {report : Report}
    (h : (kind.run session path d s).result = .ok report) :
    ∃ items more : List Value,
      (kind.listing path).listed ((kind.run session path).effects d s) = items ++ more ∧
      List.Forall₂ (kind.IsPortrait session) items (kind.mains report) ∧
      (∀ e ∈ report.entries, e.tracked = none → kind = profiles ∨ kind.IsPart e.resource) ∧
      (report.error = none →
        more = [] ∧ (kind ≠ profiles → ∀ r ∈ kind.mains report, r.IsEnriched)) ∧
      ∀ item : Members, kind.IsUnreadable item →
        .object item ∈ (kind.listing path).listed ((kind.run session path).effects d s) →
        .object item ∉ items ∧ report.error ≠ none := by
  obtain ⟨ms, more, hs, late, hlisted, hentries, hlate, hwhole⟩ := run_entries h
  have hmains := portrays_mains hlate hentries
  have hportraits : List.Forall₂ (kind.IsPortrait session) (ms.map Made.item) (kind.mains report) :=
    hmains.imp fun _ _ hr => hr.1
  refine ⟨ms.map Made.item, more, hlisted, hportraits,
    fun e he => isPart_of_untracked hlate hentries he, fun hnone => ?_, fun item hitem hmem => ?_⟩
  · obtain ⟨hmore, hlength⟩ := hwhole hnone
    refine ⟨hmore, fun hkind r hr => ?_⟩
    rw [length_tracked hkind] at hlength
    obtain ⟨-, -, hrich⟩ := (exists_of_forall₂ hmains).2 r hr
    exact hrich hkind hlength.symm
  · have hnot : Value.object item ∉ ms.map Made.item := by
      intro hin
      obtain ⟨r, hr⟩ := (exists_of_forall₂ hportraits).1 _ hin
      exact hr.readable hitem
    refine ⟨hnot, fun hnone => hnot ?_⟩
    rwa [hlisted, (hwhole hnone).1, List.append_nil] at hmem

/-- Answers to a report on two roles, of which the second one has a trust policy that cannot be
    decoded. -/
def roleScript : Script :=
  ⟨[(⟨"list_roles"⟩, [
      .response (.object [("Roles", .list [.object [("Path", .text "/"),
          ("Arn", .text "arn:aws:iam::123456789012:role/admin"), ("RoleId", .text "r1"),
          ("AssumeRolePolicyDocument", .text "%7B%22Id%22%3A2%7D")]]),
        ("IsTruncated", .bool true), ("Marker", .text "m")]),
      .response (.object [("Roles", .list [.object [
          ("Arn", .text "arn:aws:iam::123456789012:role/guest"), ("RoleId", .text "r2"),
          ("AssumeRolePolicyDocument", .text "%7B")]])])])], []⟩

/-- The first role of the sample has a record, and the second one has none. -/
theorem run_portrays_roles : ∃ report,
    (roles.run sampleSession .null () roleScript).result = .ok report ∧ report.error ≠ none ∧
      ∃ items more : List Value,
        (roles.listing .null).listed ((roles.run sampleSession .null).effects () roleScript) =
          items ++ more ∧
        items.length = 1 ∧ more.length = 1 ∧
        List.Forall₂ (roles.IsPortrait sampleSession) items (roles.mains report) := by
  have hok : (roles.run sampleSession .null () roleScript).result.toOption.map
      (fun report => (report.isOk, (roles.mains report).length)) = some (false, 1) := by
    decide +kernel
  have htwo : ((roles.listing .null).listed
      ((roles.run sampleSession .null).effects () roleScript)).length = 2 := by decide +kernel
  cases h : (roles.run sampleSession .null () roleScript).result with
  | error e =>
    rw [h] at hok
    cases hok
  | ok report =>
    rw [h] at hok
    obtain ⟨herror, hone⟩ := Prod.mk.inj (Option.some.inj hok)
    obtain ⟨items, more, hlisted, hportraits, -⟩ := run_portrays h
    have hitems : items.length = 1 := hportraits.length_eq.trans hone
    rw [hlisted, List.length_append, hitems] at htwo
    refine ⟨report, rfl, fun hnone => ?_, items, more, hlisted, hitems, Nat.succ.inj
      ((Nat.add_comm _ _).trans htwo), hportraits⟩
    rw [Report.isOk, hnone] at herror
    cases herror

end ReportKind

end IamInventory

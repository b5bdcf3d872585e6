import Mathlib.Data.List.Nodup
import IamInventory.Inventory
import IamInventory.Proofs.Containment
import IamInventory.Proofs.Spelling

/-!
# Collection — reports that run in turn

  Names are looked at before any report runs: the first one that no report has is refused, and
  nothing has happened then. Otherwise each report that is asked for runs once, on the answers that
  the ones before it have left. Since a report keeps its failures to itself, none of them keeps the
  ones after it from running.

* **`Inventory.keys`** — which reports names ask for.
* **`Inventory.InTurn`** — reports one after another, each on the answers that are left.
* **`Inventory.collect_inTurn`** — what comes of a list of names.
-/

namespace IamInventory

/-- A report shows nothing while it runs. -/
theorem ReportKind.callsOnly_run {σ : Type} (kind : ReportKind) (session : Session)
    (path : Value) : (kind.run session path : Run σ Report).CallsOnly fun _ => True := by
  have hsurvey : (kind.survey session path).CallsOnly fun _ => True := by
    rw [ReportKind.survey_eq]
    exact ((callsOnly_enumerate kind session path).mono fun _ _ => trivial).bind fun _ =>
      .within ((LastAccessed.callsOnly_attach session.settings).mono fun _ _ => trivial)
  rw [ReportKind.run_eq, Session.client, buildClient]
  refine Run.CallsOnly.bind ((Run.CallsOnly.ofFault _).bind fun _ => .emit ?_) fun _ => ?_
  · exact trivial
  refine (Run.CallsOnly.attempt hsurvey).bind ?_
  rintro ⟨result, draft⟩
  cases result with
  | ok a => exact (Run.CallsOnly.note _ _ _).bind fun _ => .pure _
  | error e =>
    cases e with
    | failure f => exact (Run.CallsOnly.note _ _ _).bind fun _ => .pure _
    | _ => exact .fault _

namespace Inventory

/-! ## Names of reports -/

/-- Whether a report has a name, in its normal spelling. -/
def IsRegistered (name : String) : Prop := ∃ kind : ReportKind, kind.name = Registry.normal name

/-- **The keys of names**: their normal spellings, each where it comes first; the names of all
    reports where there are no names. -/
def keys (names : List String) : List String :=
  if names = [] then ReportKind.all.map ReportKind.name
  else (names.map Registry.normal).eraseDups

theorem name_injective {kind kind' : ReportKind} (h : kind.name = kind'.name) : kind = kind' := by
  revert h
  cases kind <;> cases kind' <;> decide

/-- The names of reports are in their normal spelling. -/
theorem normal_name (kind : ReportKind) : Registry.normal kind.name = kind.name := by
  cases kind <;> decide +kernel

/-- The report of a name is the one that has its normal spelling. -/
theorem find?_kinds (name : String) :
    kinds.find? name = ReportKind.all.find? fun kind => kind.name == Registry.normal name := by
  have hlist (ks : List ReportKind) (key : String) :
      Named.find? (ks.map fun kind => (.text kind.name, kind)) (.text key) =
        ks.find? fun kind => kind.name == key := by
    induction ks with
    | nil => rfl
    | cons kind ks ih =>
      rw [List.map_cons, Named.find?, Value.same_text, List.find?_cons, ih]
      cases kind.name == key <;> rfl
  exact hlist ReportKind.all _

theorem find?_kinds_eq_some {name : String} {kind : ReportKind}
    (h : kind.name = Registry.normal name) : kinds.find? name = some kind := by
  have hself : ∀ kind ∈ ReportKind.all,
      (ReportKind.all.find? fun kind' => kind'.name == kind.name) = some kind := by decide
  rw [find?_kinds, ← h]
  exact hself kind (by cases kind <;> decide)

theorem contains_kinds_iff (name : String) :
    kinds.contains (.text name) = true ↔ IsRegistered name := by
  rw [Registry.contains, Option.isSome_iff_exists]
  constructor
  · rintro ⟨kind, hkind⟩
    rw [find?_kinds] at hkind
    exact ⟨kind, by simpa using List.find?_some hkind⟩
  · rintro ⟨kind, h⟩
    exact ⟨kind, find?_kinds_eq_some h⟩

/-- What is run under the name of a report is the report. -/
theorem runReport_name {σ : Type} (kind : ReportKind) (session : Session) (path : Value) :
    (runReport (.text kind.name) session path : Run σ Report) = kind.run session path := by
  have hkind : kindOf (.text kind.name) = .ok kind := by
    rw [kindOf, find?_kinds_eq_some (normal_name kind).symm]
  rw [runReport, hkind, Run.ofFault_ok, pure_bind]

/-! ## Keys -/

theorem contains_normal_iff (name : String) :
    kinds.contains (.text (Registry.normal name)) = true ↔ IsRegistered name := by
  rw [contains_kinds_iff, IsRegistered, Registry.normal_normal, IsRegistered]

theorem keyOf_of_isRegistered {name : String} (h : IsRegistered name) :
    keyOf (.text name) = .ok (Registry.normal name) := by
  rw [keyOf, if_pos ((contains_normal_iff name).mpr h)]

theorem keyOf_of_not_isRegistered {name : String} (h : ¬ IsRegistered name) :
    keyOf (.text name) = .error (unknown (.text name)) := by
  rw [keyOf, if_neg fun hcontains => h ((contains_normal_iff name).mp hcontains)]

theorem mapM_keyOf {names : List String} (h : ∀ name ∈ names, IsRegistered name) :
    (names.map .text).mapM keyOf = .ok (names.map Registry.normal) := by
  induction names with
  | nil => rfl
  | cons name names ih =>
    obtain ⟨hname, hnames⟩ := List.forall_mem_cons.mp h
    rw [List.map_cons, List.mapM_cons, keyOf_of_isRegistered hname, ih hnames]
    rfl

theorem mapM_keyOf_of_not_isRegistered {before after : List String} {name : String}
    (hbefore : ∀ n ∈ before, IsRegistered n) (hname : ¬ IsRegistered name) :
    ((before ++ name :: after).map .text).mapM keyOf = .error (unknown (.text name)) := by
  induction before with
  | nil =>
    rw [List.nil_append, List.map_cons, List.mapM_cons, keyOf_of_not_isRegistered hname]
    rfl
  | cons n before ih =>
    obtain ⟨hn, hbefore⟩ := List.forall_mem_cons.mp hbefore
    rw [List.cons_append, List.map_cons, List.mapM_cons, keyOf_of_isRegistered hn, ih hbefore]
    rfl

theorem keysOf_eq {names : List String} (h : ∀ name ∈ names, IsRegistered name) :
    keysOf (names.map .text) = .ok (keys names) := by
  cases names with
  | nil =>
    have hall : ∀ name ∈ ReportKind.all.map ReportKind.name, IsRegistered name := by
      intro name hname
      obtain ⟨kind, -, rfl⟩ := List.mem_map.mp hname
      exact ⟨kind, (normal_name kind).symm⟩
    have hrequested : requested [] = (ReportKind.all.map ReportKind.name).map .text := rfl
    have hkeys : ((ReportKind.all.map ReportKind.name).map Registry.normal).eraseDups =
        ReportKind.all.map ReportKind.name := by decide +kernel
    rw [List.map_nil, keysOf, hrequested, mapM_keyOf hall]
    exact congrArg Except.ok hkeys
  | cons name names =>
    have hrequested : requested ((name :: names).map .text) = (name :: names).map .text := rfl
    rw [keysOf, hrequested, mapM_keyOf h]
    rfl

theorem nodup_eraseDups (names : List String) : names.eraseDups.Nodup := by
  cases names with
  | nil => exact List.nodup_nil
  | cons name names =>
    rw [List.eraseDups_cons, List.nodup_cons]
    refine ⟨fun hmem => ?_, nodup_eraseDups _⟩
    have hkept := (List.mem_filter.mp (List.mem_eraseDups.mp hmem)).2
    simp at hkept
termination_by names.length
decreasing_by exact Nat.lt_succ_of_le (List.length_filter_le _ _)

/-- **Names ask for reports**, for each of them once. -/
theorem exists_kinds {names : List String} (h : ∀ name ∈ names, IsRegistered name) :
    ∃ kinds : List ReportKind, kinds.map ReportKind.name = keys names ∧ kinds.Nodup := by
  have hnodup : (keys names).Nodup := by
    rw [keys]
    split
    · decide
    · exact nodup_eraseDups _
  have hkeys : ∀ key ∈ keys names, ∃ kind : ReportKind, kind.name = key := by
    intro key hkey
    rw [keys] at hkey
    split at hkey
    · obtain ⟨kind, -, hkind⟩ := List.mem_map.mp hkey
      exact ⟨kind, hkind⟩
    · obtain ⟨name, hname, rfl⟩ := List.mem_map.mp (List.mem_eraseDups.mp hkey)
      exact h name hname
  obtain ⟨kinds, hkinds⟩ : ∃ kinds : List ReportKind, kinds.map ReportKind.name = keys names := by
    generalize keys names = ks at hkeys
    induction ks with
    | nil => exact ⟨[], rfl⟩
    | cons key ks ih =>
      obtain ⟨⟨kind, rfl⟩, hrest⟩ := List.forall_mem_cons.mp hkeys
      obtain ⟨kinds, rfl⟩ := ih hrest
      exact ⟨kind :: kinds, rfl⟩
  exact ⟨kinds, hkinds, List.Nodup.of_map _ (hkinds ▸ hnodup)⟩

/-! ## Reports in turn -/

/-- **Reports that run in turn**, each once and below one path: each of them runs on the answers
    that the ones before it have left, whatever has become of those. -/
inductive InTurn {σ : Type} (session : Session) (path : Value) (d : σ) :
    List ReportKind → Script → Inventory → Script → Trace → Prop where
  | nil {s : Script} : InTurn session path d [] s [] s []
  | cons {kind : ReportKind} {kinds : List ReportKind} {s s₁ s₂ : Script} {report : Report}
      {inventory : Inventory} {t t' : Trace} :
      runReport (.text kind.name) session path d s = ⟨.ok report, d, s₁, t⟩ →
      InTurn session path d kinds s₁ inventory s₂ t' →
      InTurn session path d (kind :: kinds) s ((.text kind.name, report) :: inventory) s₂ (t ++ t')

variable {σ : Type} {session : Session} {path : Value} {d : σ}

theorem InTurn.names_eq {kinds : List ReportKind} {s left : Script} {inventory : Inventory}
    {trace : Trace} (h : InTurn session path d kinds s inventory left trace) :
    Named.names inventory = kinds.map fun kind => .text kind.name := by
  induction h with
  | nil => rfl
  | cons _ _ ih => exact congrArg _ ih

/-- Reports that run in turn are what running their keys comes to. -/
theorem InTurn.runAll_eq {kinds : List ReportKind} {s left : Script} {inventory : Inventory}
    {trace : Trace} (h : InTurn session path d kinds s inventory left trace) :
    runAll session path (kinds.map ReportKind.name) d s = ⟨.ok inventory, d, left, trace⟩ := by
  induction h with
  | nil => rfl
  | @cons kind kinds s s₁ s₂ report inventory t t' hrun _ ih =>
    have hresult : (runReport (.text kind.name) session path d s).result = .ok report := by
      rw [hrun]
    rw [List.map_cons, runAll, Run.bind_of_ok hresult, hrun]
    have hrest : (runAll session path (kinds.map ReportKind.name) d s₁).result = .ok inventory := by
      rw [ih]
    rw [Run.bind_of_ok hrest, ih]
    exact congrArg (Outcome.mk _ _ _) (congrArg (t ++ ·) (List.append_nil t'))

/-- Reports that run in turn come to one inventory only. -/
theorem InTurn.inventory_eq {kinds : List ReportKind} {s left left' : Script}
    {inventory inventory' : Inventory} {trace trace' : Trace}
    (h : InTurn session path d kinds s inventory left trace)
    (h' : InTurn session path d kinds s inventory' left' trace') : inventory = inventory' := by
  have hresult := congrArg Outcome.result (h.runAll_eq.symm.trans h'.runAll_eq)
  exact Except.ok.inj hresult

/-- Reports show nothing while they run. -/
theorem InTurn.isWork {kinds : List ReportKind} {s left : Script} {inventory : Inventory}
    {trace : Trace} (h : InTurn session path d kinds s inventory left trace) :
    ∀ e ∈ trace, e.IsWork fun _ => True := by
  induction h with
  | nil => exact List.forall_mem_nil _
  | @cons kind kinds s s₁ s₂ report inventory t t' hrun _ ih =>
    have hwork := kind.callsOnly_run session path d s
    rw [← runReport_name, hrun] at hwork
    exact List.forall_mem_append.mpr ⟨hwork, ih⟩

/-- **Reports on any terms run in turn**, and all of them are as asked for. -/
theorem exists_inTurn (T : Terms session) (path : Value) {options : ClientOptions}
    (hoptions : session.settings.clientOptions (.text Settings.defaultTag) = .ok options)
    (kinds : List ReportKind) {s : Script} (hs : s.Answers T.answers) :
    ∃ inventory left trace, InTurn session path d kinds s inventory left trace ∧
      ∀ p ∈ inventory, T.KeepsWhole p.2 := by
  induction kinds generalizing s with
  | nil => exact ⟨[], s, [], .nil, List.forall_mem_nil _⟩
  | cons kind kinds ih =>
    obtain ⟨hresult, hdraft, hleft⟩ :=
      T.yields_run kind path hoptions (I := fun x : σ => x = d) d s rfl hs
    obtain ⟨report, hreport, hwhole⟩ := hresult.exists_eq_ok
    obtain ⟨inventory, left, trace, hinTurn, hall⟩ := ih hleft
    have hrun : runReport (.text kind.name) session path d s =
        ⟨.ok report, d, (kind.run session path d s).left, (kind.run session path d s).trace⟩ := by
      rw [runReport_name, ← hreport]
      exact congrArg (Outcome.mk _ · _ _) hdraft
    exact ⟨_, _, _, .cons hrun hinTurn, List.forall_mem_cons.mpr ⟨hwhole, hall⟩⟩

theorem collect_of_keysOf {names : List Value} {ks : List String} (h : keysOf names = .ok ks) :
    (collect names session path : Run σ Inventory) = runAll session path ks := by
  rw [collect, h, Run.ofFault_ok, pure_bind]

/-- What names come to if the reports that they ask for run in turn. -/
theorem InTurn.collect_eq {names : List String} (hnames : ∀ name ∈ names, IsRegistered name)
    {kinds : List ReportKind} (hkinds : kinds.map ReportKind.name = keys names) {s left : Script}
    {inventory : Inventory} {trace : Trace}
    (h : InTurn session path d kinds s inventory left trace) :
    collect (names.map .text) session path d s = ⟨.ok inventory, d, left, trace⟩ := by
  rw [collect_of_keysOf (keysOf_eq hnames), ← hkinds, h.runAll_eq]

/-! ## Failures -/

theorem isOk_iff (inventory : Inventory) :
    isOk inventory = true ↔ ∀ p ∈ inventory, p.2.error = none := by
  simp only [isOk, List.all_eq_true, Report.isOk, Option.isNone_iff_eq_none]

/-- **The failures of an inventory** are those of its reports that have not ended well, in order. -/
theorem forall₂_failures (inventory : Inventory) :
    List.Forall₂ (fun p f => f.1 = p.1 ∧ p.2.error.map Failure.message = some f.2)
      (inventory.filter fun p => !p.2.isOk)
      (inventory.filterMap fun p => p.2.error.map fun f => (p.1, f.message)) := by
  induction inventory with
  | nil => exact .nil
  | cons p inventory ih =>
    rw [List.filter_cons, List.filterMap_cons, Report.isOk]
    cases herror : p.2.error with
    | none => exact ih
    | some f => exact .cons ⟨rfl, by rw [herror]; rfl⟩ ih

/-! ## Names and what comes of them -/

/-- **What comes of a list of names.** The first one that no report has is refused, before anything
    has been done. If there is none, and all answers are complete, the reports that are asked for
    run in turn, each of them once; the inventory is fine if all of them are, and it tells the
    failures of those that are not. -/
theorem collect_inTurn (path : Value) {names : List String} {s : Script} :
    (∀ before name after, names = before ++ name :: after →
      (∀ n ∈ before, IsRegistered n) → ¬ IsRegistered name →
      collect (names.map .text) session path d s = ⟨.error (unknown (.text name)), d, s, []⟩) ∧
    ((∀ name ∈ names, IsRegistered name) → session.settings.HasRetryMode →
      s.Answers Answer.Complete →
      ∃ kinds inventory left trace,
        collect (names.map .text) session path d s = ⟨.ok inventory, d, left, trace⟩ ∧
        Named.names inventory = (keys names).map .text ∧
        kinds.map ReportKind.name = keys names ∧ kinds.Nodup ∧
        InTurn session path d kinds s inventory left trace ∧
        (isOk inventory = true ↔ ∀ p ∈ inventory, p.2.error = none) ∧
        ∃ told, failures inventory = .ok told ∧
          List.Forall₂ (fun p f => f.1 = p.1 ∧ p.2.error.map Failure.message = some f.2)
            (inventory.filter fun p => !p.2.isOk) told) := by
  constructor
  · rintro before name after rfl hbefore hname
    have hkeys : keysOf ((before ++ name :: after).map .text) = .error (unknown (.text name)) := by
      have hrequested : requested ((before ++ name :: after).map .text) =
          (before ++ name :: after).map .text := by cases before <;> rfl
      rw [keysOf, hrequested, mapM_keyOf_of_not_isRegistered hbefore hname]
      rfl
    rw [collect, hkeys]
    rfl
  · intro hnames hmode hs
    obtain ⟨options, hoptions⟩ := hmode.exists_options (.text Settings.defaultTag)
    obtain ⟨kinds, hkinds, hnodup⟩ := exists_kinds hnames
    obtain ⟨inventory, left, trace, hinTurn, hwhole⟩ :=
      exists_inTurn (d := d) (Terms.plain session) path hoptions kinds hs
    have hreadable : ∀ p ∈ inventory, ∀ f, p.2.error = some f → f.isReadable :=
      fun p hp f hf => ((hwhole p hp).1 f hf).readable
    refine ⟨kinds, inventory, left, trace, hinTurn.collect_eq hnames hkinds, ?_, hkinds, hnodup,
      hinTurn, isOk_iff inventory, _, failures_eq hreadable, forall₂_failures inventory⟩
    rw [hinTurn.names_eq, ← hkinds, List.map_map]
    rfl

/-- A name that no report has, and one name in two spellings whose report fails. -/
theorem collect_inTurn_groups :
    collect (["Groups", "nobody", "roles"].map .text) ReportKind.sampleSession .null ()
        ReportKind.malformedScript =
      ⟨.error (unknown (.text "nobody")), (), ReportKind.malformedScript, []⟩ ∧
    ReportKind.sampleSession.settings.HasRetryMode ∧
    ReportKind.malformedScript.Answers Answer.Complete ∧
    ∃ kinds inventory left trace,
      collect ([" Groups", "GROUPS"].map .text) ReportKind.sampleSession .null ()
          ReportKind.malformedScript = ⟨.ok inventory, (), left, trace⟩ ∧
        kinds.map ReportKind.name = ["groups"] ∧
        InTurn ReportKind.sampleSession .null () kinds ReportKind.malformedScript inventory left
          trace ∧
        isOk inventory = false := by
  have hgroups : ∀ name ∈ ["Groups", " Groups", "GROUPS"], IsRegistered name := by
    have hnormal : ∀ name ∈ ["Groups", " Groups", "GROUPS"], Registry.normal name = "groups" := by
      decide +kernel
    exact fun name hname => ⟨.groups, (hnormal name hname).symm⟩
  have hnobody : ¬ IsRegistered "nobody" := by
    rintro ⟨kind, h⟩
    have hnormal : Registry.normal "nobody" = "nobody" := by decide +kernel
    rw [hnormal] at h
    cases kind <;> exact absurd h (by decide)
  have hmode : ReportKind.sampleSession.settings.HasRetryMode := ⟨"standard", by decide, rfl⟩
  have hnames : ∀ name ∈ [" Groups", "GROUPS"], IsRegistered name :=
    fun name hname => hgroups name (List.mem_cons_of_mem _ hname)
  have hbefore : ∀ name ∈ ["Groups"], IsRegistered name :=
    fun name hname => hgroups name (List.mem_singleton.mp hname ▸ List.mem_cons_self)
  obtain ⟨kinds, inventory, left, trace, hrun, -, hkinds, -, hinTurn, -, -⟩ :=
    (collect_inTurn .null (d := ())).2 hnames hmode ReportKind.answers_malformedScript
  refine ⟨(collect_inTurn _).1 ["Groups"] "nobody" ["roles"] rfl hbefore hnobody, hmode,
    ReportKind.answers_malformedScript, kinds, inventory, left, trace, hrun, ?_, hinTurn, ?_⟩
  · have hkeys : keys [" Groups", "GROUPS"] = ["groups"] := by decide +kernel
    rw [hkinds, hkeys]
  · have hfailed : ((collect ([" Groups", "GROUPS"].map .text) ReportKind.sampleSession .null ()
        ReportKind.malformedScript : Outcome Unit Inventory).result.toOption.map isOk) =
          some false := by decide +kernel
    rw [hrun] at hfailed
    exact Option.some.inj hfailed

end Inventory

end IamInventory

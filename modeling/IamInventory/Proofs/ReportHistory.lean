import IamInventory.Proofs.Histories
import IamInventory.Proofs.Tracking

/-!
# Histories of reports — what has been added, tracked and recorded

  A report grows step by step: a resource is added, tracked or not, many are added at once, or a
  failure is recorded. A step is refused if it tracks what is no name, or what is tracked already,
  and then nothing has been added either. So the resources and what is tracked stay in step with
  each other: a report holds what two collections hold that are kept apart and changed one after the
  other.

* **`Report.Step`** — a step, and **`Report.ofSteps`** — the report that a history comes to.
* **`Report.step_eq_error_iff`** — the steps that are refused.
* **`Report.Books`** — two collections and a slot; **`Report.step_books`** — a step changes them as
  it changes the report.
* **`Report.history_told`** — resources, targets and failure after every history.
-/

namespace IamInventory

/-- What is no name is no number either, and so it is not the same as a name. -/
theorem Value.same_eq_false {v w : Value} (hv : v.isName) (hw : w.isName = false) :
    v.same w = false := by
  have hplace : w.place? = none := by
    cases w <;> first
      | exact Bool.noConfusion hw
      | rfl
  cases v <;> cases w <;> first
    | exact Bool.noConfusion hv
    | exact Bool.noConfusion hw
    | (simp only [same, hplace]
       generalize Value.place? _ = p
       cases p <;> rfl)

theorem Value.isName_of_same {v w : Value} (hv : v.isName) (h : v.same w) : w.isName := by
  refine Bool.of_not_eq_false fun hw => ?_
  rw [same_eq_false hv hw] at h
  cases h

namespace Report

/-! ## Steps -/

/-- A step in the history of a report. -/
inductive Step where
  | add (resource : Resource) (identifier : Option Value)
  | extend (resources : List Resource)
  | fail (f : Failure)

namespace Step

/-- The resources that a step adds. -/
def resources : Step → List Resource
  | .add resource _ => [resource]
  | .extend resources => resources
  | .fail _ => []

/-- What a step tracks: the resource under its identifier. -/
def target? : Step → Option (Value × Resource)
  | .add resource identifier => identifier.map fun i => (i, resource)
  | .extend _ => none
  | .fail _ => none

/-- The failure that a step is about. -/
def failure? : Step → Option Failure
  | .add _ _ => none
  | .extend _ => none
  | .fail f => some f

/-- The entries that a step adds. -/
def entries : Step → List Entry
  | .add resource identifier => [⟨resource, identifier⟩]
  | .extend resources => resources.map fun resource => ⟨resource, none⟩
  | .fail _ => []

theorem map_resource_entries (s : Step) : s.entries.map Entry.resource = s.resources := by
  cases s with
  | add resource identifier => rfl
  | extend resources => exact (List.map_map).trans (List.map_id resources)
  | fail f => rfl

theorem filterMap_target_entries (s : Step) :
    (s.entries.filterMap fun e => e.tracked.map fun i => (i, e.resource)) = s.target?.toList := by
  cases s with
  | add resource identifier => cases identifier <;> rfl
  | extend resources => simp [entries, target?]
  | fail f => rfl

end Step

/-- **What a step makes of a report**, unless it is refused. -/
def step (r : Report) : Step → Except Fault Report
  | .add resource identifier => r.add resource identifier
  | .extend resources => .ok (r.extend resources)
  | .fail f => .ok (r.fail f)

/-- **The report that steps come to**, starting from the one without resources. -/
def ofSteps (steps : List Step) : Report := History.after step empty steps

/-- The steps that are accepted on the way. -/
def accepted (steps : List Step) : List Step := History.accepted step empty steps

/-- **A step that is not refused** adds its entries to a report. -/
theorem entries_of_step {r r' : Report} {s : Step} (h : r.step s = .ok r') :
    r'.entries = r.entries ++ s.entries := by
  cases s with
  | add resource identifier =>
    obtain ⟨-, rfl⟩ := add_eq_ok_iff.mp h
    rfl
  | extend resources =>
    cases h
    rfl
  | fail f =>
    cases h
    exact (List.append_nil _).symm

theorem resources_of_step {r r' : Report} {s : Step} (h : r.step s = .ok r') :
    r'.resources = r.resources ++ s.resources := by
  rw [resources, entries_of_step h, List.map_append, Step.map_resource_entries]
  rfl

theorem targets_of_step {r r' : Report} {s : Step} (h : r.step s = .ok r') :
    r'.targets = r.targets ++ s.target?.toList := by
  rw [targets, entries_of_step h, List.filterMap_append, Step.filterMap_target_entries]
  rfl

theorem error_of_step {r r' : Report} {s : Step} (h : r.step s = .ok r') :
    r'.error = r.error.or s.failure? := by
  cases s with
  | add resource identifier =>
    obtain ⟨-, rfl⟩ := add_eq_ok_iff.mp h
    exact Option.or_none.symm
  | extend resources =>
    cases h
    exact Option.or_none.symm
  | fail f =>
    cases h
    rfl

theorem keyed_step {r r' : Report} {s : Step} (hr : r.Keyed) (h : r.step s = .ok r') :
    r'.Keyed := by
  cases s with
  | add resource identifier => exact keyed_add hr h
  | extend resources =>
    cases h
    exact keyed_extend hr resources
  | fail f =>
    cases h
    exact hr

/-- **The steps that are refused**: those that track what is no name, and those that track what is
    tracked already. -/
theorem step_eq_error_iff {r : Report} {s : Step} {e : Fault} :
    r.step s = .error e ↔ ∃ resource i, s = .add resource (some i) ∧
      ((i.isName = false ∧ e = .mistyped) ∨
        (i.isName = true ∧ r.tracks i = true ∧ e = .failure (alreadyTracked i))) := by
  constructor
  · intro h
    cases s with
    | add resource identifier =>
      cases identifier with
      | none => cases h
      | some i =>
        refine ⟨resource, i, rfl, ?_⟩
        simp only [step, add] at h
        by_cases hname : i.isName
        · by_cases htracked : r.tracks i
          · simp only [hname, htracked, Bool.not_true, Bool.false_eq_true, if_false, if_true] at h
            exact Or.inr ⟨hname, htracked, (Except.error.inj h).symm⟩
          · simp only [hname, htracked, Bool.not_true, Bool.false_eq_true, if_false] at h
            cases h
        · simp only [hname, Bool.not_false, if_true] at h
          exact Or.inl ⟨Bool.eq_false_iff.mpr hname, (Except.error.inj h).symm⟩
    | extend resources => cases h
    | fail f => cases h
  · rintro ⟨resource, i, rfl, ⟨hname, rfl⟩ | ⟨hname, htracked, rfl⟩⟩
    · simp [step, add, hname]
    · simp [step, add, hname, htracked]

/-! ## Two collections and a slot -/

/-- What a report holds, in collections that are kept apart: its resources, and what is tracked. -/
structure Books where
  resources : List Resource
  targets : Named Resource
  error : Option Failure

/-- The resources, the targets and the failure of a report. -/
def books (r : Report) : Books := ⟨r.resources, r.targets, r.error⟩

namespace Books

/-- Nothing in either collection. -/
def empty : Books := ⟨[], [], none⟩

/-- Books with one more resource in the collection of resources. -/
def append (b : Books) (resource : Resource) : Books :=
  { b with resources := b.resources ++ [resource] }

/-- Books with a resource put under an identifier in the collection of what is tracked. -/
def track (b : Books) (i : Value) (resource : Resource) : Except Fault Books :=
  if !i.isName then .error .mistyped
  else if (b.targets.find? i).isSome then .error (.failure (alreadyTracked i))
  else .ok { b with targets := b.targets.put i resource }

/-- **What a step makes of books**: a resource is tracked first, if it is to be, and then added. -/
def step (b : Books) : Step → Except Fault Books
  | .add resource none => .ok (b.append resource)
  | .add resource (some i) => (b.track i resource).map fun b => b.append resource
  | .extend resources => .ok { b with resources := b.resources ++ resources }
  | .fail f => .ok (if b.error.isNone then { b with error := some f } else b)

end Books

theorem isSome_find?_targets (r : Report) (i : Value) :
    (r.targets.find? i).isSome = r.tracks i := by
  rw [Named.isSome_find?, names_targets, tracks]

/-- **A step changes the books of a report as it changes the report**, and it is refused there if it
    is refused here. -/
theorem step_books (r : Report) (s : Step) : r.books.step s = (r.step s).map books := by
  cases h : r.step s with
  | error e =>
    obtain ⟨resource, i, rfl, ⟨hname, rfl⟩ | ⟨hname, htracked, rfl⟩⟩ := step_eq_error_iff.mp h
    · show (r.books.track i resource).map _ = _
      rw [Books.track, hname]
      rfl
    · show (r.books.track i resource).map _ = _
      rw [Books.track, hname, books, isSome_find?_targets, htracked]
      rfl
  | ok r' =>
    have hbooks : r'.books = ⟨r.resources ++ s.resources, r.targets ++ s.target?.toList,
        r.error.or s.failure?⟩ := by
      rw [books, resources_of_step h, targets_of_step h, error_of_step h]
    show _ = Except.ok r'.books
    rw [hbooks]
    cases s with
    | add resource identifier =>
      cases identifier with
      | none => simp [Books.step, Books.append, books, Step.resources, Step.target?, Step.failure?]
      | some i =>
        have hadd : r.add resource (some i) = .ok r' := h
        obtain ⟨hname, htracked⟩ := (add_eq_ok_iff.mp hadd).1 i rfl
        -- nothing is tracked under the identifier yet, so what is put there comes last
        have hfind : r.targets.find? i = none := by
          rw [← Option.not_isSome_iff_eq_none, isSome_find?_targets, htracked]
          exact Bool.false_ne_true
        have htrack : r.books.track i resource =
            .ok ⟨r.resources, r.targets ++ [(i, resource)], r.error⟩ := by
          rw [Books.track, hname, books, hfind, Named.put_of_find?_eq_none hfind]
          rfl
        rw [Books.step, htrack]
        simp [Except.map, Books.append, Step.resources, Step.target?, Step.failure?]
    | extend resources => simp [Books.step, books, Step.resources, Step.target?, Step.failure?]
    | fail f =>
      cases herror : r.error <;>
        simp [Books.step, books, Step.resources, Step.target?, Step.failure?, herror]

/-! ## Histories -/

/-- **What a report tells of steps**: their resources, what they track, and the first failure that
    one of them is about. -/
structure Tells (r : Report) (steps : List Step) : Prop where
  resources : r.resources = steps.flatMap Step.resources
  targets : r.targets = steps.filterMap Step.target?
  error : r.error = steps.findSome? Step.failure?
  keyed : r.Keyed

/-- **A report tells of one more step** after it. -/
theorem Tells.step {r r' : Report} {steps : List Step} {s : Step} (hr : r.Tells steps)
    (h : r.step s = .ok r') : r'.Tells (steps ++ [s]) where
  resources := by
    rw [resources_of_step h, hr.resources, List.flatMap_append, List.flatMap_singleton]
  targets := by
    rw [targets_of_step h, hr.targets, List.filterMap_append]
    cases hs : s.target? <;> simp [hs]
  error := by
    rw [error_of_step h, hr.error, List.findSome?_append]
    cases hs : s.failure? <;> simp [hs]
  keyed := keyed_step hr.keyed h

/-- **A report tells of the steps that have been accepted** on the way to it. -/
theorem tells_ofSteps (steps : List Step) : (ofSteps steps).Tells (accepted steps) :=
  History.tells ⟨rfl, rfl, rfl, keyed_empty⟩ (fun _ _ _ _ hr h => hr.step h) steps

/-- No step about a failure is refused. -/
theorem findSome?_accepted (r : Report) (steps : List Step) :
    (History.accepted step r steps).findSome? Step.failure? = steps.findSome? Step.failure? := by
  induction steps generalizing r with
  | nil => rfl
  | cons s steps ih =>
    cases h : r.step s with
    | ok r' => rw [History.accepted_cons_of_ok h, List.findSome?_cons, List.findSome?_cons, ih]
    | error e =>
      obtain ⟨resource, i, rfl, -⟩ := step_eq_error_iff.mp h
      rw [History.accepted_cons_of_error h, ih]
      rfl

/-- What is tracked is among the resources, in the same order. -/
theorem sublist_resources (r : Report) : (r.targets.map Prod.snd).Sublist r.resources := by
  rw [resources, targets]
  induction r.entries with
  | nil => exact .slnil
  | cons e entries ih =>
    obtain ⟨resource, tracked⟩ := e
    cases tracked with
    | none => exact ih.cons resource
    | some i => exact ih.cons_cons resource

/-- **Tracking fails** if what is tracked already is the same as the identifier, and only then. -/
theorem Keyed.step_add_eq_iff {r : Report} (hr : r.Keyed) (resource : Resource) (i : Value) :
    r.step (.add resource (some i)) = .error (.failure (alreadyTracked i)) ↔
      ∃ t ∈ r.targets, t.1.same i := by
  have htracks : r.tracks i = true ↔ ∃ t ∈ r.targets, t.1.same i = true := by
    rw [tracks, ← names_targets, Named.names, List.any_map, List.any_eq_true]
    rfl
  rw [← htracks, step_eq_error_iff]
  constructor
  · rintro ⟨resource', i', hs, ⟨-, he⟩ | ⟨-, htracked, he⟩⟩
    · cases he
    · cases hs
      exact htracked
  · intro htracked
    obtain ⟨j, hj, hsame⟩ := List.any_eq_true.mp htracked
    exact ⟨resource, i, rfl, .inr ⟨Value.isName_of_same (hr.1 j hj) hsame, htracked, rfl⟩⟩

/-- **What a report holds after every history.** Its resources are those of the accepted steps, one
    step after the other, and its targets are what these steps have tracked: under identifiers no
    two of which are the same, and with resources that stand in the same order among the resources.
    Its failure is the first one that a step is about, and stays. A step that tracks fails if an
    accepted one has tracked under the same identifier, and only then; and a step that is refused,
    for this or because its identifier is no name, leaves everything as it was. Two collections that
    are kept apart and a slot hold the same after the same steps. -/
theorem history_told (steps : List Step) :
    (ofSteps steps).resources = (accepted steps).flatMap Step.resources ∧
    (ofSteps steps).targets = (accepted steps).filterMap Step.target? ∧
    (ofSteps steps).targets.names.Pairwise (fun i j => i.same j = false) ∧
    ((ofSteps steps).targets.map Prod.snd).Sublist (ofSteps steps).resources ∧
    (ofSteps steps).error = steps.findSome? Step.failure? ∧
    (∀ f more, (ofSteps steps).error = some f → (ofSteps (steps ++ more)).error = some f) ∧
    (∀ resource i, (ofSteps steps).step (.add resource (some i)) =
        .error (.failure (alreadyTracked i)) ↔
      ∃ t ∈ (accepted steps).filterMap Step.target?, t.1.same i) ∧
    (∀ s e, (ofSteps steps).step s = .error e → ofSteps (steps ++ [s]) = ofSteps steps ∧
      ∃ resource i, s = .add resource (some i) ∧
        (i.isName = false ∨ e = .failure (alreadyTracked i))) ∧
    (ofSteps steps).books = History.after Books.step Books.empty steps := by
  have htells := tells_ofSteps steps
  have herror (steps : List Step) : (ofSteps steps).error = steps.findSome? Step.failure? := by
    rw [(tells_ofSteps steps).error]
    exact findSome?_accepted empty steps
  refine ⟨htells.resources, htells.targets, ?_, sublist_resources _, herror steps, ?_, ?_, ?_,
    History.view_after step_books empty steps⟩
  · rw [names_targets]
    exact htells.keyed.2
  · intro f more hf
    rw [herror] at hf ⊢
    rw [List.findSome?_append, hf]
    rfl
  · intro resource i
    rw [← htells.targets]
    exact htells.keyed.step_add_eq_iff resource i
  · intro s e he
    refine ⟨History.after_append_of_error he, ?_⟩
    obtain ⟨resource, i, rfl, ⟨hname, -⟩ | ⟨-, -, rfl⟩⟩ := step_eq_error_iff.mp he
    · exact ⟨resource, i, rfl, .inl hname⟩
    · exact ⟨resource, i, rfl, .inr rfl⟩

end Report

end IamInventory

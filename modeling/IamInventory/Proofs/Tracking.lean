import IamInventory.Report

/-!
# Tracking — reports as mappings from identifiers to resources

  What a report tracks is a mapping: every identifier is a name, and no two are the same. Names are
  told apart by what they denote, so the mapping is one only because "the same" is symmetric, and
  because whatever is the same as some value is the same as itself (the undefined number is not).

  The use of tracked resources is learnt in the order in which they are tracked, and some of it may
  be missing in the end. `Report.alter` says what such a report looks like: the first resources of
  the mapping are changed, one change each, and everything else is as it was.

* **`Report.Keyed`** — what a report tracks is a mapping; `Report.keyed_add` and
  `Report.keyed_ofTargets` make it one.
* **`Report.targets_alter`** — the mapping of an altered report.
* **`Report.update_alter`** — one more change is a change under the next identifier.
-/

namespace IamInventory

open Number

namespace Value

/-! ## The same value -/

/-- Whether two places are there and the same one. -/
def samePlaces : Option Place → Option Place → Bool
  | some p, some q => p.same q
  | _, _ => false

theorem samePlaces_comm (p q : Option Place) : samePlaces p q = samePlaces q p := by
  cases p with
  | none => cases q <;> rfl
  | some p =>
    cases q with
    | none => rfl
    | some q => cases p <;> cases q <;> simp only [samePlaces, Place.same, Bool.beq_comm]

theorem samePlaces_self {p q : Option Place} (h : samePlaces p q) : samePlaces q q := by
  cases q with
  | none => cases p <;> cases h
  | some q =>
    cases q with
    | undefined =>
      cases p with
      | none => cases h
      | some p => cases p <;> cases h
    | «at» c d => simp only [samePlaces, Place.same, beq_self_eq_true, Bool.and_self]

theorem isSome_place?_real (x : Binary64) : (Value.real x).place?.isSome := by
  cases x <;> rfl

/-- A number and a name are the same if their places are. -/
theorem same_eq_samePlaces {v w : Value} (hw : w.isName)
    (h : v.place?.isSome ∨ w.place?.isSome) : v.same w = samePlaces v.place? w.place? := by
  cases v <;> cases w <;> first
    | exact Bool.noConfusion hw
    | exact h.elim (fun h => Bool.noConfusion h) fun h => Bool.noConfusion h
    | (simp only [same]
       generalize Value.place? _ = p
       generalize Value.place? _ = q
       cases p <;> cases q <;> rfl)

theorem same_comm {v w : Value} (hv : v.isName) (hw : w.isName) : v.same w = w.same v := by
  by_cases h : v.place?.isSome ∨ w.place?.isSome
  · rw [same_eq_samePlaces hw h, same_eq_samePlaces hv h.symm, samePlaces_comm]
  · cases v <;> cases w <;> first
      | exact Bool.noConfusion hv
      | exact Bool.noConfusion hw
      | exact absurd (Or.inl rfl) h
      | exact absurd (Or.inr rfl) h
      | exact absurd (Or.inl (isSome_place?_real _)) h
      | exact absurd (Or.inr (isSome_place?_real _)) h
      | rfl
      | simp only [same, Timestamp.same, Bool.beq_comm]

/-- A name that is the same as anything is the same as itself. -/
theorem same_self_of_same {v w : Value} (hw : w.isName) (h : v.same w) : w.same w := by
  by_cases hp : w.place?.isSome
  · rw [same_eq_samePlaces hw (.inr hp)] at h ⊢
    exact samePlaces_self h
  · cases w <;> first
      | exact Bool.noConfusion hw
      | exact absurd rfl hp
      | exact absurd (isSome_place?_real _) hp
      | simp only [same, Timestamp.same, beq_self_eq_true, Bool.and_self]

end Value

namespace Report

/-! ## Mappings -/

/-- **What a report tracks is a mapping**: every identifier is a name, and no two are the same. -/
def Keyed (r : Report) : Prop :=
  (∀ i ∈ r.tracked, i.isName) ∧ r.tracked.Pairwise fun i j => i.same j = false

theorem keyed_empty : empty.Keyed := ⟨List.forall_mem_nil _, .nil⟩

theorem names_targets (r : Report) : r.targets.names = r.tracked := by
  rw [Named.names, targets, tracked]
  rw [List.map_filterMap]
  congr 1
  funext e
  cases e.tracked <;> rfl

theorem keyed_extend {r : Report} (h : r.Keyed) (rs : List Resource) : (r.extend rs).Keyed := by
  rw [Keyed, tracked_extend]
  exact h

theorem keyed_snoc {r : Report} {resource : Resource} {i : Value} (h : r.Keyed) (hi : i.isName)
    (hn : r.tracks i = false) :
    ({ r with entries := r.entries ++ [⟨resource, some i⟩] } : Report).Keyed := by
  have ht : ({ r with entries := r.entries ++ [⟨resource, some i⟩] } : Report).tracked =
      r.tracked ++ [i] := by
    simp [tracked]
  rw [Keyed, ht]
  refine ⟨?_, List.pairwise_append.mpr ⟨h.2, List.pairwise_singleton _ _, ?_⟩⟩
  · intro j hj
    rcases List.mem_append.mp hj with hj | hj
    · exact h.1 j hj
    · exact (List.mem_singleton.mp hj) ▸ hi
  · intro j hj k hk
    rw [List.mem_singleton.mp hk]
    simpa using List.any_eq_false.mp hn j hj

/-- **Adding a resource** is to put it behind the others. It asks of an identifier to be a name, and
    not to be tracked. -/
theorem add_eq_ok_iff {r r' : Report} {resource : Resource} {identifier : Option Value} :
    r.add resource identifier = .ok r' ↔
      (∀ i ∈ identifier, i.isName ∧ r.tracks i = false) ∧
        r' = { r with entries := r.entries ++ [⟨resource, identifier⟩] } := by
  constructor
  · intro h
    cases identifier with
    | none =>
      cases h
      exact ⟨nofun, rfl⟩
    | some i =>
      simp only [add] at h
      split at h
      · cases h
      · next hi =>
        split at h
        · cases h
        · next hn =>
          cases h
          refine ⟨?_, rfl⟩
          rintro j ⟨⟩
          exact ⟨by simpa using hi, by simpa using hn⟩
  · rintro ⟨hidentifier, rfl⟩
    cases identifier with
    | none => rfl
    | some i =>
      obtain ⟨hi, hn⟩ := hidentifier i rfl
      simp [add, hi, hn]

/-- **Adding a resource leaves a mapping a mapping.** -/
theorem keyed_add {r r' : Report} {resource : Resource} {identifier : Option Value}
    (h : r.Keyed) (hr : r.add resource identifier = .ok r') : r'.Keyed := by
  obtain ⟨hidentifier, rfl⟩ := add_eq_ok_iff.mp hr
  cases identifier with
  | none => exact keyed_extend h [resource]
  | some i =>
    obtain ⟨hi, hn⟩ := hidentifier i rfl
    exact keyed_snoc h hi hn

theorem names_put (entries : Named Resource) (name : Value) (resource : Resource) :
    (entries.put name resource).names =
      if entries.names.any (·.same name) then entries.names else entries.names ++ [name] := by
  have cons (e : Value × Resource) (l : Named Resource) : Named.names (e :: l) = e.1 :: l.names :=
    rfl
  induction entries with
  | nil => rfl
  | cons e rest ih =>
    cases he : e.1.same name with
    | true => simp only [Named.put, he, if_true, cons, List.any_cons, Bool.true_or]
    | false =>
      simp only [Named.put, he, Bool.false_eq_true, if_false, cons, List.any_cons, ih,
        Bool.false_or]
      split <;> rfl

/-- **Resources given under names are a mapping.** -/
theorem keyed_ofTargets {targets : List (Value × Resource)} {r : Report}
    (h : ofTargets targets = .ok r) : r.Keyed := by
  -- putting in one pair after another keeps the names apart
  have step (ps : List (Value × Resource)) (hps : ∀ p ∈ ps, p.1.isName) (es : Named Resource)
      (hes : (∀ i ∈ es.names, i.isName) ∧ es.names.Pairwise fun i j => i.same j = false) :
      (∀ i ∈ (ps.foldl (fun es p => es.put p.1 p.2) es).names, i.isName) ∧
        (ps.foldl (fun es p => es.put p.1 p.2) es).names.Pairwise fun i j => i.same j = false := by
    induction ps generalizing es with
    | nil => exact hes
    | cons p ps ih =>
      refine ih (fun q hq => hps q (List.mem_cons_of_mem _ hq)) (es.put p.1 p.2) ?_
      rw [names_put]
      split
      · exact hes
      · next hn =>
        refine ⟨?_, List.pairwise_append.mpr ⟨hes.2, List.pairwise_singleton _ _, ?_⟩⟩
        · intro i hi
          rcases List.mem_append.mp hi with hi | hi
          · exact hes.1 i hi
          · exact (List.mem_singleton.mp hi) ▸ hps p List.mem_cons_self
        · intro i hi j hj
          rw [List.mem_singleton.mp hj]
          simpa using List.any_eq_false.mp (Bool.eq_false_iff.mpr hn) i hi
  rw [ofTargets] at h
  split at h
  · next hall =>
    cases h
    have hnames :
        (⟨(Named.ofPairs targets).map fun t => ⟨t.2, some t.1⟩, none⟩ : Report).tracked =
          (Named.ofPairs targets).names := by
      rw [tracked, List.filterMap_map]
      exact congrFun List.filterMap_eq_map (Named.ofPairs targets)
    rw [Keyed, hnames]
    exact step targets (fun p hp => List.all_eq_true.mp hall p hp) [] ⟨List.forall_mem_nil _, .nil⟩
  · cases h

/-! ## Altered reports -/

/-- Entries of which the tracked ones are changed, one change each, as far as there are changes. -/
def alterEntries : List Entry → List (Resource → Resource) → List Entry
  | es, [] => es
  | [], _ :: _ => []
  | ⟨resource, none⟩ :: es, c :: cs => ⟨resource, none⟩ :: alterEntries es (c :: cs)
  | ⟨resource, some i⟩ :: es, c :: cs => ⟨c resource, some i⟩ :: alterEntries es cs

/-- **The report with its first tracked resources changed**, one change each; every other resource
    is as it was. -/
def alter (r : Report) (cs : List (Resource → Resource)) : Report :=
  { r with entries := alterEntries r.entries cs }

@[simp] theorem alterEntries_nil (es : List Entry) : alterEntries es [] = es := by
  cases es <;> rfl

@[simp] theorem alterEntries_none (resource : Resource) (es : List Entry)
    (cs : List (Resource → Resource)) :
    alterEntries (⟨resource, none⟩ :: es) cs = ⟨resource, none⟩ :: alterEntries es cs := by
  cases cs <;> simp [alterEntries]

@[simp] theorem alter_nil (r : Report) : r.alter [] = r := by simp [alter]

theorem length_alterEntries (es : List Entry) (cs : List (Resource → Resource)) :
    (alterEntries es cs).length = es.length := by
  fun_induction alterEntries es cs <;> simp_all

theorem tracked_alter (r : Report) (cs : List (Resource → Resource)) :
    (r.alter cs).tracked = r.tracked := by
  simp only [alter, tracked]
  fun_induction alterEntries r.entries cs <;> simp_all

theorem keyed_alter {r : Report} (h : r.Keyed) (cs : List (Resource → Resource)) :
    (r.alter cs).Keyed := by
  rw [Keyed, tracked_alter]
  exact h

/-- **The mapping of an altered report**: the first resources are changed. -/
theorem targets_alter (r : Report) (cs : List (Resource → Resource)) :
    (r.alter cs).targets =
      List.zipWith (fun t c => (t.1, c t.2)) r.targets cs ++ r.targets.drop cs.length := by
  simp only [alter, targets]
  fun_induction alterEntries r.entries cs <;> simp_all

/-- Where the mapping of a report is split, the one of the altered report is split likewise. -/
theorem targets_alter_of_split {r : Report} {before after : Named Resource}
    {t : Value × Resource} (ht : r.targets = before ++ t :: after)
    {cs : List (Resource → Resource)} (hc : cs.length = before.length) :
    (r.alter cs).targets =
        List.zipWith (fun t c => (t.1, c t.2)) before cs ++ t :: after ∧
      ∀ c, (r.alter (cs ++ [c])).targets =
        List.zipWith (fun t c => (t.1, c t.2)) before cs ++ (t.1, c t.2) :: after := by
  constructor
  · rw [targets_alter, ht, hc, List.drop_left,
      ← List.append_nil cs, List.zipWith_append hc.symm, List.append_nil, List.zipWith_nil_right,
      List.append_nil]
  · intro c
    rw [targets_alter, ht, List.zipWith_append hc.symm]
    simp [hc]

/-! ## One more change -/

/-- Where a mapping is split at an identifier, the others are not the same as it. -/
theorem Keyed.ne_of_split {r : Report} (h : r.Keyed) {before after : List Value} {i : Value}
    (ht : r.tracked = before ++ i :: after) :
    (∀ j ∈ before, j.same i = false) ∧ ∀ j ∈ after, j.same i = false := by
  obtain ⟨hn, hp⟩ := h
  rw [ht] at hn hp
  obtain ⟨-, hp, hb⟩ := List.pairwise_append.mp hp
  refine ⟨fun j hj => hb j hj i List.mem_cons_self, fun j hj => ?_⟩
  rw [Value.same_comm (hn j (by simp [hj])) (hn i (by simp))]
  exact (List.pairwise_cons.mp hp).1 j hj

/-- The change of an entry that is tracked under an identifier. -/
def updateEntry (i : Value) (f : Resource → Resource) (e : Entry) : Entry :=
  if e.tracked.any (·.same i) then { e with resource := f e.resource } else e

/-- Entries none of which is tracked under an identifier have nothing to change under it. -/
theorem map_updateEntry_of_ne {es : List Entry} {i : Value} {f : Resource → Resource}
    (h : ∀ j ∈ es.filterMap Entry.tracked, j.same i = false) : es.map (updateEntry i f) = es := by
  induction es with
  | nil => rfl
  | cons e es ih =>
    obtain ⟨resource, tracked⟩ := e
    cases tracked with
    | none => simpa [updateEntry] using ih (by simpa using h)
    | some j =>
      rw [List.filterMap_cons] at h
      have hj : j.same i = false := h j List.mem_cons_self
      simpa [updateEntry, hj] using ih fun k hk => h k (List.mem_cons_of_mem _ hk)

theorem map_updateEntry_alterEntries {es : List Entry} {before after : List Value} {i : Value}
    (ht : es.filterMap Entry.tracked = before ++ i :: after) (hi : i.same i)
    (hb : ∀ j ∈ before, j.same i = false) (ha : ∀ j ∈ after, j.same i = false)
    {cs : List (Resource → Resource)} (hc : cs.length = before.length) (f : Resource → Resource) :
    (alterEntries es cs).map (updateEntry i f) = alterEntries es (cs ++ [f]) := by
  -- the changes go to the entries that are tracked, so that the two lists shrink together
  induction es generalizing before cs with
  | nil => simp at ht
  | cons e es ih =>
    obtain ⟨resource, tracked⟩ := e
    cases tracked with
    | none =>
      have := ih (by simpa using ht) hb hc
      simpa [updateEntry] using this
    | some j =>
      rw [List.filterMap_cons] at ht
      cases before with
      | nil =>
        obtain ⟨rfl, hes⟩ : j = i ∧ es.filterMap Entry.tracked = after := List.cons.inj ht
        obtain rfl := List.length_eq_zero_iff.mp hc
        have := map_updateEntry_of_ne (f := f) (hes ▸ ha)
        simp [alterEntries, updateEntry, hi, this]
      | cons k before =>
        obtain ⟨rfl, hes⟩ : j = k ∧ es.filterMap Entry.tracked = before ++ i :: after :=
          List.cons.inj ht
        obtain ⟨c, cs, rfl⟩ := List.exists_cons_of_length_eq_add_one hc
        have hj : j.same i = false := hb j List.mem_cons_self
        have := ih hes (fun k hk => hb k (List.mem_cons_of_mem _ hk)) (Nat.succ.inj hc)
        simpa [alterEntries, updateEntry, hj] using this

/-- **A change under the next identifier is one more change.** -/
theorem update_alter {r : Report} (h : r.Keyed) {before after : List Value} {i : Value}
    (ht : r.tracked = before ++ i :: after) (hi : i.same i) {cs : List (Resource → Resource)}
    (hc : cs.length = before.length) (f : Resource → Resource) :
    (r.alter cs).update i f = r.alter (cs ++ [f]) := by
  obtain ⟨hb, ha⟩ := h.ne_of_split ht
  have := map_updateEntry_alterEntries ht hi hb ha hc f
  rw [update, alter]
  exact congrArg (fun es => ({ r with entries := es } : Report)) this

theorem update_update (r : Report) (i : Value) (f g : Resource → Resource) :
    (r.update i f).update i g = r.update i fun resource => g (f resource) := by
  simp only [update]
  simp only [List.map_map]
  congr 2
  funext e
  by_cases he : e.tracked.any (·.same i) <;> simp [he]

/-- Two changes under the next identifier are one change. -/
theorem update_alter_snoc {r : Report} (h : r.Keyed) {before after : List Value} {i : Value}
    (ht : r.tracked = before ++ i :: after) (hi : i.same i) {cs : List (Resource → Resource)}
    (hc : cs.length = before.length) (f g : Resource → Resource) :
    (r.alter (cs ++ [f])).update i g = r.alter (cs ++ [fun resource => g (f resource)]) := by
  rw [← update_alter h ht hi hc, update_update, update_alter h ht hi hc]

/-- Writing under an identifier looks at its own resource only. -/
theorem write_of_split {r : Report} (h : r.Keyed) {before after : Named Resource} {i : Value}
    {resource : Resource} (ht : r.targets = before ++ (i, resource) :: after) (hi : i.same i)
    (name : String) (v : Value) :
    r.write i name v =
      if resource.isWritable then .ok (r.update i (·.setMember name v)) else .error .mistyped := by
  have hs : r.tracked = before.names ++ i :: after.names := by
    rw [← names_targets, ht]
    simp [Named.names]
  obtain ⟨hb, ha⟩ := h.ne_of_split hs
  have others {l : Named Resource} (hl : ∀ j ∈ l.names, j.same i = false) :
      (l.any fun t => t.1.same i && !t.2.isWritable) = false := by
    refine List.any_eq_false.mpr fun t ht => ?_
    simp [hl t.1 (List.mem_map_of_mem ht)]
  have hany : (r.targets.any fun t => t.1.same i && !t.2.isWritable) = !resource.isWritable := by
    rw [ht, List.any_append, List.any_cons, others hb, others ha, hi, Bool.true_and, Bool.or_false,
      Bool.false_or]
  rw [write, hany]
  cases resource.isWritable <;> rfl

/-- **Writing under the next identifier is one more change**, if the resource can be written. -/
theorem write_alter {r : Report} (h : r.Keyed) {before after : Named Resource} {i : Value}
    {resource : Resource} (ht : r.targets = before ++ (i, resource) :: after) (hi : i.same i)
    {cs : List (Resource → Resource)} (hc : cs.length = before.length) (name : String)
    (v : Value) :
    (r.alter cs).write i name v =
      if resource.isWritable then .ok (r.alter (cs ++ [(·.setMember name v)]))
      else .error .mistyped := by
  have hs : r.tracked = before.names ++ i :: after.names := by
    rw [← names_targets, ht]
    simp [Named.names]
  rw [write_of_split (keyed_alter h cs) (targets_alter_of_split ht hc).1 hi,
    update_alter h hs hi (by simpa [Named.names] using hc)]

/-- Writing again under the next identifier is no other change. -/
theorem write_alter_snoc {r : Report} (h : r.Keyed) {before after : Named Resource} {i : Value}
    {resource : Resource} (ht : r.targets = before ++ (i, resource) :: after) (hi : i.same i)
    {cs : List (Resource → Resource)} (hc : cs.length = before.length)
    (c : Resource → Resource) (name : String) (v : Value) :
    (r.alter (cs ++ [c])).write i name v =
      if (c resource).isWritable then .ok (r.alter (cs ++ [fun x => (c x).setMember name v]))
      else .error .mistyped := by
  have hs : r.tracked = before.names ++ i :: after.names := by
    rw [← names_targets, ht]
    simp [Named.names]
  rw [write_of_split (keyed_alter h _) ((targets_alter_of_split ht hc).2 c) hi,
    update_alter_snoc h hs hi (by simpa [Named.names] using hc)]

end Report

theorem Resource.isWritable_setMember {r : Resource} (h : r.isWritable) (name : String)
    (v : Value) : (r.setMember name v).isWritable := by
  cases hm : r.metadata <;> simp_all [isWritable, setMember]

/-! ## What a record says of its use -/

namespace Resource

/-- **What a resource says of its use**: of each service, and the latest one. -/
def use (r : Resource) : Option Value × Option Value :=
  match r.metadata with
  | .object ms => (Members.get? ms Name.servicesLastAccessed, Members.get? ms Name.lastUsed)
  | _ => (none, none)

theorem use_setMember_servicesLastAccessed {r : Resource} (h : r.isWritable) (v : Value) :
    (r.setMember Name.servicesLastAccessed v).use = (some v, r.use.2) := by
  obtain ⟨id, arn, account, region, service, kind, metadata⟩ := r
  cases metadata with
  | object ms =>
    have hne : ¬ Name.lastUsed = Name.servicesLastAccessed := by decide
    simp only [use, setMember, Members.get?_set, if_true, if_neg hne]
  | _ => cases h

theorem use_setMember_lastUsed {r : Resource} (h : r.isWritable) (v : Value) :
    (r.setMember Name.lastUsed v).use = (r.use.1, some v) := by
  obtain ⟨id, arn, account, region, service, kind, metadata⟩ := r
  cases metadata with
  | object ms =>
    have hne : ¬ Name.servicesLastAccessed = Name.lastUsed := by decide
    simp only [use, setMember, Members.get?_set, if_true, if_neg hne]
  | _ => cases h

end Resource

end IamInventory

import IamInventory.Proofs.PageMarkers
import IamInventory.Proofs.WriteBack

/-!
# Order of entries — what the latest use does not depend on

  Which of the timestamps is the first depends on the order of the entries, but which instant is the
  latest does not. So the entries of a job may come in any order and in any number of pages: what
  has been put together from the pages has a latest use that denotes the same.

* **`LastAccessed.SameLatest`** — lists of entries whose latest uses denote the same, and
  **`LastAccessed.sameLatest_of_perm`** — the same entries in another order.
* **`LastAccessed.serves_inPages`** — every split of entries into pages can come.
* **`LastAccessed.latest_law`** — the latest use of entries, in any order and in any pages.
-/

namespace IamInventory.LastAccessed

/-! ## Entries in another order -/

/-- **Whether the latest uses of two lists of entries denote the same**: both can be told, and they
    are the same instant, or the same clock reading, or there are none. -/
def SameLatest (entries other : List Value) : Prop :=
  ∃ v w, latest entries = .ok v ∧ latest other = .ok w ∧ v.same w

theorem stamps_perm {entries other : List Value} (h : entries.Perm other) :
    (stamps entries).Perm (stamps other) := h.filterMap stamp?

/-- Whether entries are mixed does not depend on their order. -/
theorem Mixed.perm {entries other : List Value} (hmixed : Mixed entries)
    (h : entries.Perm other) : Mixed other := by
  obtain ⟨t, ht, u, hu, hkind⟩ := hmixed
  exact ⟨t, (stamps_perm h).subset ht, u, (stamps_perm h).subset hu, hkind⟩

/-- Entries that are not mixed have timestamps of one kind. -/
theorem isZoned_eq_of_not_mixed {entries : List Value} (h : ¬ Mixed entries) {t u : Timestamp}
    (ht : t ∈ stamps entries) (hu : u ∈ stamps entries) : t.isZoned = u.isZoned :=
  Decidable.byContradiction fun hkind => h ⟨t, ht, u, hu, hkind⟩

/-- **The order of entries does not change the instant** of their latest use. -/
theorem sameLatest_of_perm {entries other : List Value} (hentries : ∀ v ∈ entries, IsEntry v)
    (hkind : ¬ Mixed entries) (h : other.Perm entries) : SameLatest other entries := by
  have hother : ∀ v ∈ other, IsEntry v := fun v hv => hentries v (h.subset hv)
  have hstamps := stamps_perm h
  by_cases hnone : stamps entries = []
  · have hnone' : stamps other = [] := by
      rw [hnone] at hstamps
      exact hstamps.eq_nil
    exact ⟨.null, .null, latest_of_stamps_nil hother hnone', latest_of_stamps_nil hentries hnone,
      rfl⟩
  · have hsome : stamps other ≠ [] := by
      intro hnone'
      rw [hnone'] at hstamps
      exact hnone hstamps.symm.eq_nil
    obtain ⟨t, hlatest, ht⟩ := exists_latest hother hsome fun hmixed => hkind (hmixed.perm h)
    obtain ⟨u, hlatest', hu⟩ := exists_latest hentries hnone hkind
    have hzoned := isZoned_eq_of_not_mixed hkind (hstamps.subset ht.mem) hu.mem
    refine ⟨.time t, .time u, hlatest, hlatest', ?_⟩
    show t.same u = true
    exact Timestamp.same_iff.mpr ⟨hzoned, ht.instant_eq hu hstamps⟩

/-! ## Entries in pages -/

/-- A page that holds a part of entries, and that names a marker if there is another part. -/
def pageHolding (part : List Value) (others : List (List Value)) : Value :=
  .object [("IsTruncated", .bool !others.isEmpty), ("Marker", .text "next"),
    ("ServicesLastAccessed", .list part)]

/-- The pages that hold parts of entries, one page after another. -/
def pagesHolding : List (List Value) → List Answer
  | [] => []
  | part :: parts => .response (pageHolding part parts) :: pagesHolding parts

/-- The pages of some parts come after others. -/
theorem serves_pagesHolding (before : List Answer) (part : List Value)
    (parts : List (List Value)) :
    Serves ⟨[(details, before ++ pagesHolding parts)], []⟩ before.length (pageHolding part parts)
      (parts.map fun _ => .text "next") parts := by
  induction parts generalizing before part with
  | nil => exact .last rfl
  | cons next parts ih =>
    -- the next page is one more that comes before those that are left
    have hrest := ih (before ++ [.response (pageHolding next parts)]) next
    rw [← List.append_cons, List.length_append, List.length_singleton] at hrest
    exact .more rfl (Script.nth_queue before _ _) rfl hrest

/-- **Every split of entries into pages can come.** -/
theorem serves_inPages (part : List Value) (parts : List (List Value)) :
    ∃ s first markers, entriesOf first = .ok part ∧ Serves s 0 first markers parts :=
  ⟨_, pageHolding part parts, _, rfl, serves_pagesHolding [] part parts⟩

/-- **The latest use of entries.** There is none if no entry tells of a time, and only then. It is a
    fault if the entries tell of zoned and of zoneless timestamps, wherever they stand, and only
    then; and no other fault is. Else it is the first of those timestamps than which none is later.
    So entries that are not mixed have a latest use at the same instant in any order, and also if
    they come in pages, whichever of them come in which page. -/
theorem latest_law {entries : List Value} (hentries : ∀ v ∈ entries, IsEntry v) :
    (latest entries = .ok .null ↔ stamps entries = []) ∧
      (∀ e, latest entries = .error e ↔ e = .mistyped ∧ Mixed entries) ∧
      (stamps entries ≠ [] → ¬ Mixed entries →
        ∃ t, latest entries = .ok (.time t) ∧ t.IsLatest (stamps entries)) ∧
      (¬ Mixed entries → ∀ other : List Value, other.Perm entries → SameLatest other entries) ∧
      (¬ Mixed entries → ∀ (part : List Value) (parts : List (List Value)),
        (part ++ parts.flatten).Perm entries →
          (∃ s first markers, entriesOf first = .ok part ∧ Serves s 0 first markers parts) ∧
          ∀ (s : Script) (first : Value) (markers : List Value), entriesOf first = .ok part →
            Serves s 0 first markers parts → ∀ {σ : Type} (job : Job) (d : σ),
              (collect job first d s).result = .ok (part ++ parts.flatten) ∧
                SameLatest (part ++ parts.flatten) entries) := by
  refine ⟨latest_eq_null_iff hentries, ?_, exists_latest hentries, ?_, ?_⟩
  · intro e
    exact latest_eq_error_iff hentries
  · intro hkind other hperm
    exact sameLatest_of_perm hentries hkind hperm
  · intro hkind part parts hperm
    refine ⟨serves_inPages part parts, ?_⟩
    intro s first markers hfirst hserves σ job d
    have hcollect := collect_of_serves hfirst hserves job d
    exact ⟨congrArg Outcome.result hcollect, sameLatest_of_perm hentries hkind hperm⟩

/-- Both kinds of timestamps, with an entry between them that tells of none. -/
example : latest [entryAt (newYear none), .object [], entryAt (newYear (some 0))] =
    .error .mistyped := rfl

/-! ## A sample -/

/-- The moment of `newYear (some 0)`, with another offset. -/
def newYearAbroad : Timestamp := ⟨2024, 1, 1, 5, 30, 0, 0, some 19800⟩

/-- Entries with no time, and with times in three zones, two of which are the same moment. -/
def zonedEntries : List Value :=
  [.object [], entryAt (newYear (some 3600)), entryAt (newYear (some 0)),
    .object [("LastAuthenticated", .null)], entryAt newYearAbroad]

/-- The first of the two moments is the latest use. Backwards and in three pages, of which one is
    empty, it is the other one, which denotes the same. -/
theorem latest_law_zoned :
    (∀ v ∈ zonedEntries, IsEntry v) ∧ stamps zonedEntries ≠ [] ∧ ¬ Mixed zonedEntries ∧
      latest zonedEntries = .ok (.time (newYear (some 0))) ∧
      latest zonedEntries.reverse = .ok (.time newYearAbroad) ∧
      (∃ t, latest zonedEntries = .ok (.time t) ∧ t.IsLatest (stamps zonedEntries)) ∧
      SameLatest zonedEntries.reverse zonedEntries ∧
      ∃ first s markers, Serves s 0 first markers [[], zonedEntries.reverse.drop 2] ∧
        (collect ⟨.text "1", .text "a"⟩ first () s).result = .ok zonedEntries.reverse ∧
        SameLatest zonedEntries.reverse zonedEntries := by
  have hentries : ∀ v ∈ zonedEntries, IsEntry v := by
    refine List.forall_mem_cons.mpr ⟨⟨.null, rfl, Or.inl rfl⟩, ?_⟩
    refine List.forall_mem_cons.mpr ⟨isEntry_entryAt _, ?_⟩
    refine List.forall_mem_cons.mpr ⟨isEntry_entryAt _, ?_⟩
    refine List.forall_mem_cons.mpr ⟨⟨.null, rfl, Or.inl rfl⟩, ?_⟩
    exact List.forall_mem_singleton.mpr (isEntry_entryAt _)
  have hsome : stamps zonedEntries ≠ [] := List.cons_ne_nil _ _
  have hkind : ¬ Mixed zonedEntries := by
    rw [Mixed]
    decide
  have hreverse := List.reverse_perm zonedEntries
  obtain ⟨-, -, htold, hperm, hpages⟩ := latest_law hentries
  obtain ⟨⟨s, first, markers, hfirst, hserves⟩, hcollect⟩ :=
    hpages hkind (zonedEntries.reverse.take 2) [[], zonedEntries.reverse.drop 2] hreverse
  exact ⟨hentries, hsome, hkind, rfl, rfl, htold hsome hkind, hperm hkind _ hreverse,
    first, s, markers, hserves, hcollect s first markers hfirst hserves ⟨.text "1", .text "a"⟩ ()⟩

end IamInventory.LastAccessed

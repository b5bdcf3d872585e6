import IamInventory.LastAccessed

/-!
# Latest use — which of the times that entries tell of is the greatest

  An entry tells of a time or of none. Timestamps are zoned or zoneless, and those of one kind can
  be ordered. So there are three cases: no entry tells of a time, and there is no latest use;
  entries tell of timestamps of both kinds, and that is a fault wherever they stand; or the latest
  use is the first of the timestamps than which none is later.

* **`Timestamp.IsLatest`** — whether a timestamp is the latest one of some, and
  **`Timestamp.IsLatest.snoc`** — the latest one of one more.
* **`LastAccessed.IsEntry`** — whether a value is an entry, and **`LastAccessed.stamps`** — the
  timestamps that entries tell of.
* **`LastAccessed.Mixed`** — whether entries tell of timestamps of both kinds.
* **`LastAccessed.latest_cases`** — what the latest use of entries is, in the three cases.
-/

namespace IamInventory

/-! ## The latest of some timestamps -/

namespace Timestamp

/-- The later one of two timestamps, the first of them if neither is later. -/
def laterOne (best t : Timestamp) : Timestamp := if best.instant < t.instant then t else best

/-- **Whether a timestamp is the latest one of some**: none of them is later, and it is the first of
    those that denote the same. -/
structure IsLatest (t : Timestamp) (ts : List Timestamp) : Prop where
  greatest : ∀ u ∈ ts, u.instant ≤ t.instant
  first : ts.find? (fun u => u.same t) = some t

variable {best t u : Timestamp} {ts us : List Timestamp}

theorem same_iff : t.same u ↔ t.isZoned = u.isZoned ∧ t.instant = u.instant := by
  rw [same, Bool.and_eq_true, beq_iff_eq, beq_iff_eq]

theorem isZoned_laterOne (h : t.isZoned = best.isZoned) :
    (laterOne best t).isZoned = best.isZoned := by
  rw [laterOne]
  split
  · exact h
  · rfl

theorem IsLatest.mem (h : t.IsLatest ts) : t ∈ ts := List.mem_of_find?_eq_some h.first

theorem isLatest_singleton (t : Timestamp) : t.IsLatest [t] where
  greatest := List.forall_mem_singleton.mpr (Int.le_refl _)
  first := List.find?_cons_of_pos (same_iff.mpr ⟨rfl, rfl⟩)

/-- **The latest one of some timestamps and of one more** is the later one of the two. -/
theorem IsLatest.snoc (h : best.IsLatest ts) (t : Timestamp) :
    (laterOne best t).IsLatest (ts ++ [t]) := by
  by_cases hlater : best.instant < t.instant
  · have hbelow : ∀ u ∈ ts, u.instant < t.instant := fun u hu =>
      Int.lt_of_le_of_lt (h.greatest u hu) hlater
    have hnone : ts.find? (fun u => u.same t) = none := by
      rw [List.find?_eq_none]
      intro u hu hsame
      exact absurd (same_iff.mp hsame).2 (Int.ne_of_lt (hbelow u hu))
    rw [laterOne, if_pos hlater]
    constructor
    · exact List.forall_mem_append.mpr
        ⟨fun u hu => Int.le_of_lt (hbelow u hu), (isLatest_singleton t).greatest⟩
    · rw [List.find?_append, hnone, (isLatest_singleton t).first]
      rfl
  · rw [laterOne, if_neg hlater]
    constructor
    · exact List.forall_mem_append.mpr
        ⟨h.greatest, List.forall_mem_singleton.mpr (Int.not_lt.mp hlater)⟩
    · rw [List.find?_append, h.first]
      rfl

/-- **The latest ones of the same timestamps** are at the same instant, whichever come first. -/
theorem IsLatest.instant_eq (ht : t.IsLatest ts) (hu : u.IsLatest us) (h : ts.Perm us) :
    t.instant = u.instant :=
  Int.le_antisymm (hu.greatest t (h.subset ht.mem)) (ht.greatest u (h.symm.subset hu.mem))

end Timestamp

namespace LastAccessed

/-! ## Entries -/

/-- **Whether a value is an entry**: an object that tells of a time, or of none. -/
def IsEntry (v : Value) : Prop :=
  ∃ told, v.memberOr "LastAuthenticated" .null = .ok told ∧ (told = .null ∨ ∃ t, told = .time t)

/-- The timestamp that an entry tells of. -/
def stamp? (v : Value) : Option Timestamp :=
  match v.memberOr "LastAuthenticated" .null with
  | .ok (.time t) => some t
  | _ => none

/-- **The timestamps that entries tell of**, in order. -/
def stamps (entries : List Value) : List Timestamp := entries.filterMap stamp?

/-- **Whether entries tell of timestamps of both kinds**, zoned and zoneless ones. -/
def Mixed (entries : List Value) : Prop :=
  ∃ t ∈ stamps entries, ∃ u ∈ stamps entries, t.isZoned ≠ u.isZoned

/-- The times of entries are their timestamps. -/
theorem times_eq {entries : List Value} (h : ∀ v ∈ entries, IsEntry v) :
    times entries = .ok ((stamps entries).map .time) := by
  induction entries with
  | nil => rfl
  | cons v entries ih =>
    obtain ⟨⟨told, htold, hkind⟩, hentries⟩ := List.forall_mem_cons.mp h
    rw [times, htold, ih hentries]
    rcases hkind with rfl | ⟨t, rfl⟩
    · have hnone : stamp? v = none := by
        rw [stamp?, htold]
      have hstamps : stamps (v :: entries) = stamps entries := List.filterMap_cons_none hnone
      rw [hstamps]
      rfl
    · have hsome : stamp? v = some t := by
        rw [stamp?, htold]
      have hstamps : stamps (v :: entries) = t :: stamps entries := List.filterMap_cons_some hsome
      rw [hstamps]
      rfl

/-- **Entries whose timestamps are there are mixed** if one of the others is not of the kind of the
    first one. -/
theorem mixed_iff_of_cons {entries : List Value} {first : Timestamp} {ts : List Timestamp}
    (h : stamps entries = first :: ts) : Mixed entries ↔ ∃ t ∈ ts, t.isZoned ≠ first.isZoned := by
  rw [Mixed, h]
  constructor
  · rintro ⟨t, ht, u, hu, hkind⟩
    -- two timestamps that differ in kind are not both of the kind of the first one
    by_cases hfirst : t.isZoned = first.isZoned
    · rw [hfirst] at hkind
      rcases List.mem_cons.mp hu with rfl | hu
      · exact absurd rfl hkind
      · exact ⟨u, hu, hkind.symm⟩
    · rcases List.mem_cons.mp ht with rfl | ht
      · exact absurd rfl hfirst
      · exact ⟨t, ht, hfirst⟩
  · rintro ⟨t, ht, hkind⟩
    exact ⟨t, List.mem_cons_of_mem _ ht, first, List.mem_cons_self, hkind⟩

/-! ## The running maximum -/

/-- A timestamp of the kind of the greatest one so far is compared with it. -/
theorem greatest_cons_of_kind {best t : Timestamp} (h : t.isZoned = best.isZoned)
    (vs : List Value) :
    greatest (.time best) (.time t :: vs) = greatest (.time (best.laterOne t)) vs := by
  have hgreater : (Value.time t).greater? (.time best) =
      some (decide (best.instant < t.instant)) := if_pos h
  rw [greatest, hgreater, Timestamp.laterOne]
  by_cases hlater : best.instant < t.instant
  · rw [decide_eq_true hlater, if_pos hlater]
  · rw [decide_eq_false hlater, if_neg hlater]

/-- A timestamp of the other kind cannot be compared with it. -/
theorem greatest_cons_of_other {best t : Timestamp} (h : t.isZoned ≠ best.isZoned)
    (vs : List Value) : greatest (.time best) (.time t :: vs) = .error .mistyped := by
  have hgreater : (Value.time t).greater? (.time best) = none := if_neg h
  rw [greatest, hgreater]

/-- **The greatest of timestamps of one kind** is the latest one of them and of those before. -/
theorem exists_greatest {best : Timestamp} {seen ts : List Timestamp} (hseen : best.IsLatest seen)
    (hkind : ∀ t ∈ ts, t.isZoned = best.isZoned) :
    ∃ t, greatest (.time best) (ts.map .time) = .ok (.time t) ∧ t.IsLatest (seen ++ ts) := by
  induction ts generalizing best seen with
  | nil =>
    rw [List.append_nil]
    exact ⟨best, rfl, hseen⟩
  | cons t ts ih =>
    -- the best one so far is always the latest one of those that have been seen
    obtain ⟨ht, hts⟩ := List.forall_mem_cons.mp hkind
    rw [List.map_cons, greatest_cons_of_kind ht, List.append_cons]
    refine ih (hseen.snoc t) fun u hu => ?_
    rw [Timestamp.isZoned_laterOne ht]
    exact hts u hu

/-- **Timestamps of which one is of the other kind** have no greatest one, wherever it stands. -/
theorem greatest_of_other {best : Timestamp} {ts : List Timestamp}
    (h : ∃ t ∈ ts, t.isZoned ≠ best.isZoned) :
    greatest (.time best) (ts.map .time) = .error .mistyped := by
  induction ts generalizing best with
  | nil =>
    obtain ⟨t, ht, -⟩ := h
    cases ht
  | cons t ts ih =>
    rw [List.map_cons]
    by_cases hkind : t.isZoned = best.isZoned
    -- the later one of the two is of the kind of the best one, too, and the other kind is to come
    · rw [greatest_cons_of_kind hkind]
      obtain ⟨u, hu, hother⟩ := h
      rcases List.mem_cons.mp hu with rfl | hu
      · exact absurd hkind hother
      · refine ih ⟨u, hu, ?_⟩
        rw [Timestamp.isZoned_laterOne hkind]
        exact hother
    · exact greatest_cons_of_other hkind _

/-! ## The latest use -/

theorem latest_of_stamps_nil {entries : List Value} (hentries : ∀ v ∈ entries, IsEntry v)
    (h : stamps entries = []) : latest entries = .ok .null := by
  rw [latest, times_eq hentries, h]
  rfl

theorem latest_of_stamps_cons {entries : List Value} (hentries : ∀ v ∈ entries, IsEntry v)
    {first : Timestamp} {ts : List Timestamp} (h : stamps entries = first :: ts) :
    latest entries = greatest (.time first) (ts.map .time) := by
  rw [latest, times_eq hentries, h]
  rfl

/-- **What the latest use of entries is**: there is none, or it cannot be told since the entries are
    mixed, or it is the latest one of their timestamps. -/
theorem latest_cases {entries : List Value} (hentries : ∀ v ∈ entries, IsEntry v) :
    (latest entries = .ok .null ∧ stamps entries = [] ∧ ¬ Mixed entries) ∨
      (latest entries = .error .mistyped ∧ stamps entries ≠ [] ∧ Mixed entries) ∨
      ∃ t, latest entries = .ok (.time t) ∧ t.IsLatest (stamps entries) ∧ ¬ Mixed entries := by
  cases hstamps : stamps entries with
  | nil =>
    refine Or.inl ⟨latest_of_stamps_nil hentries hstamps, rfl, ?_⟩
    rintro ⟨t, ht, -⟩
    rw [hstamps] at ht
    cases ht
  | cons first ts =>
    right
    rw [latest_of_stamps_cons hentries hstamps, mixed_iff_of_cons hstamps]
    by_cases hother : ∃ t ∈ ts, t.isZoned ≠ first.isZoned
    · exact Or.inl ⟨greatest_of_other hother, List.cons_ne_nil _ _, hother⟩
    · have hkind : ∀ t ∈ ts, t.isZoned = first.isZoned := fun t ht =>
        Decidable.byContradiction fun hne => hother ⟨t, ht, hne⟩
      obtain ⟨t, ht, hlatest⟩ := exists_greatest (Timestamp.isLatest_singleton first) hkind
      exact Or.inr ⟨t, ht, hlatest, hother⟩

/-- **Entries without a latest use are mixed.** -/
theorem mixed_of_latest {entries : List Value} (hentries : ∀ v ∈ entries, IsEntry v) {e : Fault}
    (h : latest entries = .error e) : e = .mistyped ∧ Mixed entries := by
  rcases latest_cases hentries with ⟨hlatest, -, -⟩ | ⟨hlatest, -, hmixed⟩ | ⟨t, hlatest, -, -⟩
  · rw [hlatest] at h
    cases h
  · rw [hlatest] at h
    cases h
    exact ⟨rfl, hmixed⟩
  · rw [hlatest] at h
    cases h

/-- **Entries have no latest use** if none of them tells of a time, and only then. -/
theorem latest_eq_null_iff {entries : List Value} (hentries : ∀ v ∈ entries, IsEntry v) :
    latest entries = .ok .null ↔ stamps entries = [] := by
  refine ⟨?_, latest_of_stamps_nil hentries⟩
  intro h
  rcases latest_cases hentries with ⟨-, hnone, -⟩ | ⟨hlatest, -, -⟩ | ⟨t, hlatest, -, -⟩
  · exact hnone
  · rw [hlatest] at h
    cases h
  · rw [hlatest] at h
    cases h

/-- **The latest use cannot be told** if the entries are mixed, and only then. -/
theorem latest_eq_error_iff {entries : List Value} (hentries : ∀ v ∈ entries, IsEntry v)
    {e : Fault} : latest entries = .error e ↔ e = .mistyped ∧ Mixed entries := by
  refine ⟨mixed_of_latest hentries, ?_⟩
  rintro ⟨rfl, hmixed⟩
  rcases latest_cases hentries with ⟨-, -, hkind⟩ | ⟨hlatest, -, -⟩ | ⟨t, -, -, hkind⟩
  · exact absurd hmixed hkind
  · exact hlatest
  · exact absurd hmixed hkind

/-- **The latest use is the latest one of the timestamps**, if there are some, of one kind. -/
theorem exists_latest {entries : List Value} (hentries : ∀ v ∈ entries, IsEntry v)
    (hsome : stamps entries ≠ []) (hkind : ¬ Mixed entries) :
    ∃ t, latest entries = .ok (.time t) ∧ t.IsLatest (stamps entries) := by
  rcases latest_cases hentries with ⟨-, hnone, -⟩ | ⟨-, -, hmixed⟩ | ⟨t, hlatest, ht, -⟩
  · exact absurd hnone hsome
  · exact absurd hmixed hkind
  · exact ⟨t, hlatest, ht⟩

end LastAccessed

end IamInventory

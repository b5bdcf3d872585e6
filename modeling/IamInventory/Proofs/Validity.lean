import IamInventory.Proofs.Startup

/-!
# Validity — what is known of settings, however they are made

  Settings are made of given values or of an environment, they are changed, and a command line
  overrides some of them. Whichever way it is, the rules are checked on the settings that come out,
  and these are refused in words where a rule objects. What is not refused satisfies each rule, but
  for the undefined number: a rule rejects what is less, and that number is less than nothing.

* **`RawSettings.Suits`** — the values that are meant for a setting.
* **`RawSettings.ends_replace`** — what comes of settings that are given or changed.
* **`RawSettings.Attempt`** — every way to make settings.
* **`RawSettings.Attempt.upholds`** — an attempt upholds the rules, or is refused in words.
-/

namespace IamInventory

open Number

namespace RawSettings

/-! ## Given values -/

/-- The names of the settings that have to be numbers. -/
def numberNames : List String :=
  ["poll_interval", "poll_backoff", "max_poll_interval", "boto_max_attempts"]

/-- **Whether a value is meant for the setting of a name**: any number, where the setting is one.
    Polls may have no bound. -/
structure Suits (name : String) (v : Value) : Prop where
  known : name ∈ names
  number : name ∈ numberNames → v.IsNumber
  polls : name = "max_poll_attempts" → v = .null ∨ v.IsNumber

theorem mem_of_get? {ms : Members} {name : String} {v : Value} (h : ms.get? name = some v) :
    (name, v) ∈ ms := by
  induction ms with
  | nil => cases h
  | cons m ms ih =>
    rw [Members.get?] at h
    by_cases hm : m.1 = name
    · rw [if_pos hm] at h
      obtain rfl := Option.some.inj h
      rw [← hm]
      exact List.mem_cons_self
    · rw [if_neg hm] at h
      exact List.mem_cons_of_mem _ (ih h)

section Given

variable {given : Members} (h : ∀ m ∈ given, Suits m.1 m.2)

include h

theorem isNumber_getD {name : String} (hname : name ∈ numberNames) {v : Value}
    (hv : v.IsNumber) : ((given.get? name).getD v).IsNumber := by
  cases hget : given.get? name with
  | none => exact hv
  | some w => exact (h _ (mem_of_get? hget)).number hname

theorem polls_getD {v : Value} (hv : v = .null ∨ v.IsNumber) :
    (given.get? "max_poll_attempts").getD v = .null ∨
      ((given.get? "max_poll_attempts").getD v).IsNumber := by
  cases hget : given.get? "max_poll_attempts" with
  | none => exact hv
  | some w => exact (h _ (mem_of_get? hget)).polls rfl

/-- **Settings with some of them replaced** uphold the rules, or are refused in words. -/
theorem ends_replace {s : RawSettings} (hs : s.HasNumbers) :
    Ends Fault.IsInvalid Upheld (s.replace given) := by
  have hknown : (given.names.any fun name => name ∉ names) = false := by
    rw [List.any_eq_false]
    intro name hname
    obtain ⟨m, hm, rfl⟩ := List.mem_map.mp hname
    simpa using (h m hm).known
  rw [replace, hknown, if_neg Bool.false_ne_true]
  refine (ends_check ⟨?_, ?_, ?_, ?_, ?_⟩).mono ?_
  · exact isNumber_getD h (by decide) hs.interval
  · exact isNumber_getD h (by decide) hs.backoff
  · exact isNumber_getD h (by decide) hs.greatest
  · exact polls_getD h hs.polls
  · exact isNumber_getD h (by decide) hs.tries
  · rintro t ⟨rfl, hupheld⟩
    exact hupheld

end Given

/-- Integers that no floating-point number tells apart are in order all the same. -/
example : (ofMembers [("poll_interval", .int 9007199254740993),
    ("max_poll_interval", .int 9007199254740992)]).toOption.isNone := by
  decide +kernel

/-! ## Every way to make settings -/

open CommandLine in
/-- **Attempts to make settings**: of given values, of an environment, by changes to settings that
    have been made, and of an environment and a command line. -/
inductive Attempt : Except Fault RawSettings → Prop
  | given {given : Members} (h : ∀ m ∈ given, Suits m.1 m.2) : Attempt (ofMembers given)
  | environment {env : Environment} (h : env.AreTexts) :
      Attempt ((Settings.ofEnvironment env).map Settings.raw)
  | change {s : RawSettings} {changes : Members} (hs : Attempt (.ok s))
      (h : ∀ m ∈ changes, m.2 = .null ∨ Suits m.1 m.2) : Attempt (s.change changes)
  | asked {env : Environment} {a : Arguments} (h : env.AreTexts) (ha : a.pollInterval ≠ .blank) :
      Attempt ((resolveSettings env a).map Settings.raw)

theorem upheld_default : default.Upheld := (Settings.passes_iff _).mp Settings.passes_default

/-- Settings that pass uphold the rules as values. -/
theorem ends_raw {r : Except Fault Settings}
    (h : Ends Fault.IsInvalid (fun s => s.HasCounts ∧ s.Passes) r) :
    Ends Fault.IsInvalid Upheld (r.map Settings.raw) := by
  cases r with
  | error e => exact h
  | ok s => exact (Settings.passes_iff s).mp h.2

/-- **An attempt upholds the rules, or is refused in words**: each rule is satisfied by the settings
    that come out, unless one of its numbers is undefined. -/
theorem Attempt.upholds {r : Except Fault RawSettings} (h : Attempt r) :
    Ends Fault.IsInvalid Upheld r := by
  induction h with
  | given h => exact ends_replace h upheld_default.hasNumbers
  | environment h => exact ends_raw (Settings.ends_ofEnvironment h)
  | change hs h ih =>
    have hupheld : Upheld _ := ih
    refine ends_replace (fun m hm => ?_) hupheld.hasNumbers
    obtain ⟨hmem, hnull⟩ := List.mem_filter.mp hm
    refine (h m hmem).resolve_left fun heq => ?_
    rw [heq] at hnull
    cases hnull
  | asked h ha => exact ends_raw (CommandLine.ends_resolveSettings h ha)

/-- An environment in which the undefined number is the factor of the interval. -/
def undefinedEnvironment : Environment := [("IAM_DUMP_POLL_BACKOFF", .text "nan")]

/-- The undefined number gets past the rule on what has to be at least one. -/
theorem Attempt.upholds_undefined :
    Attempt ((Settings.ofEnvironment undefinedEnvironment).map Settings.raw) ∧
    ∃ s, (Settings.ofEnvironment undefinedEnvironment).map Settings.raw = .ok s ∧
      s.pollBackoff = .real .nan ∧ s.Upheld := by
  have htexts : undefinedEnvironment.AreTexts := by
    intro m hm
    obtain rfl := List.mem_singleton.mp hm
    exact ⟨"nan", rfl⟩
  have hattempt : Attempt ((Settings.ofEnvironment undefinedEnvironment).map Settings.raw) :=
    .environment htexts
  have hbackoff : (Settings.ofEnvironment undefinedEnvironment).toOption.map
      Settings.pollBackoff = some .nan := by decide +kernel
  generalize Settings.ofEnvironment undefinedEnvironment = r at hattempt hbackoff ⊢
  refine ⟨hattempt, ?_⟩
  cases r with
  | error e => cases hbackoff
  | ok s =>
    have hnan : s.pollBackoff = .nan := Option.some.inj hbackoff
    exact ⟨s.raw, rfl, congrArg Value.real hnan, Attempt.upholds hattempt⟩

end RawSettings

end IamInventory

import IamInventory.CommandLine
import IamInventory.Proofs.Collection
import IamInventory.Proofs.JsonReading
import IamInventory.Proofs.Printing
import IamInventory.Proofs.Rules

/-!
# Startup — what the program has before it runs reports

  Three things come before the reports. The words of the command line are read, and what is asked
  for is then among the choices that there are. The settings are made of the environment and of what
  is asked for, and either pass or are refused in words. The session is resolved, or there is
  something to say for why it is not, and nothing but the account has been asked for.

* **`Arguments.isChosen_of_parse`** — what is asked for is among the choices.
* **`RawSettings.ends_check`** — settings with numbers uphold the rules, or are refused in words.
* **`CommandLine.ends_resolveSettings`** — so do those of the environment and the arguments.
* **`CommandLine.yields_openSession`** — a session that is not resolved, with the words for it.
-/

namespace IamInventory

open Number

/-! ## Arguments -/

namespace Arguments

/-- **Whether what is asked for is among the choices**: reports that there are, and a level of
    records, unless a blank stands for it. -/
structure IsChosen (a : Arguments) : Prop where
  reports : ∀ names, a.reports = some names → ∀ name ∈ names, name ∈ Inventory.sortedNames
  level : a.logLevel = .blank ∨ ∃ level ∈ logLevels, a.logLevel = .value level

theorem isChosen_default : default.IsChosen := ⟨nofun, Or.inr ⟨Log.defaultLevel, by decide, rfl⟩⟩

theorem mem_of_choice {f : Flag} {choices : List String} {s t : String}
    (h : choice f choices s = .ok t) : t ∈ choices := by
  rw [choice] at h
  split at h
  · next hmem =>
    cases h
    exact hmem
  · cases h

/-- A value of an option with choices is a blank, or one of them. -/
theorem given_choice {f : Flag} {choices : List String} {s : String} {g : Given String}
    (h : given (choice f choices) s = .ok g) : g = .blank ∨ ∃ t ∈ choices, g = .value t := by
  rw [given] at h
  split at h
  · cases h
    exact Or.inl rfl
  · cases hchoice : choice f choices s with
    | error e =>
      rw [hchoice] at h
      cases h
    | ok t =>
      rw [hchoice] at h
      cases h
      exact Or.inr ⟨t, mem_of_choice hchoice, rfl⟩

/-- The value of an option keeps what is asked for among the choices. -/
theorem isChosen_setValue {a a' : Arguments} {f : Flag} {s : String} (h : a.IsChosen)
    (hset : setValue a f s = .ok a') : a'.IsChosen := by
  cases f with
  | help => cases hset
  | reports =>
    obtain ⟨g, hgiven, heq⟩ := Json.bind_eq_ok_iff.mp hset
    cases heq
    refine ⟨fun names hnames name hname => ?_, h.level⟩
    cases hnames
    rcases given_choice hgiven with rfl | ⟨t, ht, rfl⟩
    · cases hname
    · exact List.mem_singleton.mp hname ▸ ht
  | logLevel =>
    obtain ⟨g, hgiven, heq⟩ := Json.bind_eq_ok_iff.mp hset
    cases heq
    exact ⟨h.reports, given_choice hgiven⟩
  | _ =>
    obtain ⟨g, -, heq⟩ := Json.bind_eq_ok_iff.mp hset
    cases heq
    exact ⟨h.reports, h.level⟩

theorem isChosen_addReport {a a' : Arguments} {s : String} (h : a.IsChosen)
    (hadd : addReport a s = .ok a') : a'.IsChosen := by
  obtain ⟨name, hname, heq⟩ := Json.bind_eq_ok_iff.mp hadd
  cases heq
  refine ⟨fun names hnames n hn => ?_, h.level⟩
  cases hnames
  rcases List.mem_append.mp hn with hn | hn
  · cases hreports : a.reports with
    | none =>
      rw [hreports] at hn
      cases hn
    | some names =>
      rw [hreports] at hn
      exact h.reports names hreports n hn
  · rw [List.mem_singleton.mp hn]
    exact mem_of_choice hname

/-- Reading words keeps what is asked for among the choices. -/
theorem isChosen_read {naming : Bool} {a a' : Arguments} {extra rest : List String}
    {words : List Word} (h : a.IsChosen) (hread : read naming a extra words = .ok (a', rest)) :
    a'.IsChosen := by
  fun_induction read naming a extra words with
  | case1 naming a extra =>
    cases hread
    exact h
  | case2 a extra s words ih =>
    obtain ⟨a₁, hadd, hrest⟩ := Json.bind_eq_ok_iff.mp hread
    exact ih a₁ (isChosen_addReport h hadd) hrest
  | case3 naming a extra s words hnaming ih => exact ih h hread
  | case4 naming a extra s words ih => exact ih h hread
  | case5 => cases hread
  | case6 naming a extra f s words ih =>
    obtain ⟨a₁, hset, hrest⟩ := Json.bind_eq_ok_iff.mp hread
    exact ih a₁ (isChosen_setValue h hset) hrest
  | case7 => cases hread
  | case8 naming a extra words ih =>
    refine ih ⟨fun names hnames => ?_, h.level⟩ hread
    cases hnames
    exact List.forall_mem_nil _
  | case9 naming a extra f s words _ _ ih =>
    obtain ⟨a₁, hset, hrest⟩ := Json.bind_eq_ok_iff.mp hread
    exact ih a₁ (isChosen_setValue h hset) hrest
  | case10 => cases hread

/-- **What is asked for is among the choices.** -/
theorem isChosen_of_parse {words : List String} {a : Arguments} (h : parse words = .ok a) :
    a.IsChosen := by
  obtain ⟨classified, -, h⟩ := Json.bind_eq_ok_iff.mp h
  obtain ⟨⟨a', extra⟩, hread, h⟩ := Json.bind_eq_ok_iff.mp h
  dsimp only at h
  split at h
  · cases h
    exact isChosen_read isChosen_default hread
  · cases h

/-- Reports that are among the choices are registered. -/
theorem IsChosen.isRegistered {a : Arguments} (h : a.IsChosen) :
    ∀ name ∈ a.reports.getD [], Inventory.IsRegistered name := by
  intro name hname
  cases hreports : a.reports with
  | none =>
    rw [hreports] at hname
    cases hname
  | some names =>
    rw [hreports] at hname
    have hsorted := h.reports names hreports name hname
    rw [Inventory.sortedNames, List.mem_mergeSort] at hsorted
    obtain ⟨kind, -, rfl⟩ := List.mem_map.mp hsorted
    exact ⟨kind, (Inventory.normal_name kind).symm⟩

/-- Records are shown from the level on that is among the choices. -/
theorem IsChosen.exists_setup {a : Arguments} (h : a.IsChosen) (hlevel : a.logLevel ≠ .blank) :
    ∃ setup, Log.setUpNamed (CommandLine.passedOn a.logLevel) = .ok setup := by
  rcases h.level with hblank | ⟨level, hmem, hvalue⟩
  · exact absurd hblank hlevel
  · have hlevels : ∀ level ∈ logLevels, (Log.setUp level).toOption.isSome := by
      decide +kernel
    rw [hvalue]
    cases hsetup : Log.setUp level with
    | ok setup => exact ⟨setup, hsetup⟩
    | error e =>
      have hsome := hlevels level hmem
      rw [hsetup] at hsome
      cases hsome

end Arguments

/-! ## Settings -/

/-- Whether a fault is an input that is not valid. -/
def Fault.IsInvalid (e : Fault) : Prop := ∃ message, e = .invalid message

/-- Whether all variables of an environment are texts. -/
def Members.AreTexts (ms : Members) : Prop := ∀ m ∈ ms, ∃ s, m.2 = .text s

/-- Whether settings have numbers where the rules compare them, or no bound is set for polls. -/
structure RawSettings.HasNumbers (s : RawSettings) : Prop where
  interval : s.pollInterval.IsNumber
  backoff : s.pollBackoff.IsNumber
  greatest : s.maxPollInterval.IsNumber
  polls : s.maxPollAttempts = .null ∨ s.maxPollAttempts.IsNumber
  tries : s.clientMaxAttempts.IsNumber

/-- What upholds the rules has numbers where they are compared. -/
theorem RawSettings.Upheld.hasNumbers {s : RawSettings} (h : s.Upheld) : s.HasNumbers where
  interval := Value.isNumber_of_worth h.interval
  backoff := Value.isNumber_of_worth h.backoff
  greatest := h.number
  polls := h.polls.imp_right Value.isNumber_of_worth
  tries := Value.isNumber_of_worth h.tries

namespace Settings

/-- Whether the bounds of settings are integers, or none is set for polls. -/
structure HasCounts (s : Settings) : Prop where
  polls : s.maxPollAttempts = .null ∨ ∃ n, s.maxPollAttempts = .int n
  tries : ∃ n, s.clientMaxAttempts = .int n

theorem HasCounts.hasNumbers {s : Settings} (h : s.HasCounts) : s.raw.HasNumbers where
  interval := Value.isNumber_real s.pollInterval
  backoff := Value.isNumber_real s.pollBackoff
  greatest := Value.isNumber_real s.maxPollInterval
  polls := by
    refine h.polls.imp_right fun ⟨n, hn⟩ => ?_
    show s.maxPollAttempts.IsNumber
    rw [hn]
    exact Value.isNumber_int n
  tries := by
    obtain ⟨n, hn⟩ := h.tries
    show s.clientMaxAttempts.IsNumber
    rw [hn]
    exact Value.isNumber_int n

theorem Passes.hasNumbers {s : Settings} (h : s.Passes) : s.raw.HasNumbers :=
  ((passes_iff s).mp h).hasNumbers

theorem isInvalid_of_objection? {rs : List Rule} (h : ∀ r ∈ rs, r.objects.isSome) {e : Fault}
    (he : objection? rs = some e) : e.IsInvalid := by
  fun_induction objection? rs with
  | case1 => cases he
  | case2 words rest ih => exact ih (fun r hr => h r (List.mem_cons_of_mem _ hr)) he
  | case3 words rest =>
    cases he
    exact ⟨_, rfl⟩
  | case4 words rest =>
    have hsome := h _ List.mem_cons_self
    cases hsome

end Settings

/-- **Settings with numbers uphold the rules, or are refused in words.** -/
theorem RawSettings.ends_check {s : RawSettings} (h : s.HasNumbers) :
    Ends Fault.IsInvalid (fun t => t = s ∧ s.Upheld) s.check := by
  have hrules : ∀ r ∈ s.rules, r.objects.isSome := by
    have hpolls : (if s.maxPollAttempts.isNull then some false
        else s.maxPollAttempts.isBelow? 1).isSome := by
      rcases h.polls with hnull | hnumber
      · rw [hnull]
        rfl
      · split
        · rfl
        · exact hnumber.isSome_isBelow? 1
    simp only [rules, List.forall_mem_cons]
    exact ⟨h.interval.isSome_isBelow? 0, h.backoff.isSome_isBelow? 1,
      h.interval.isSome_greater?_iff.mpr h.greatest, hpolls, h.tries.isSome_isBelow? 1,
      List.forall_mem_nil _⟩
  cases hcheck : s.check with
  | ok t => exact check_eq_ok_iff.mp hcheck
  | error e =>
    rw [check] at hcheck
    split at hcheck
    · next hobjection =>
      cases hcheck
      exact Settings.isInvalid_of_objection? hrules hobjection
    · cases hcheck

namespace Settings

/-- **Settings with numbers pass, or are refused in words.** -/
theorem ends_check {s : Settings} (h : s.raw.HasNumbers) :
    Ends Fault.IsInvalid (fun t => t = s ∧ s.Passes) s.check := by
  rw [check]
  exact (RawSettings.ends_check h).bind fun _ hupheld => ⟨rfl, (passes_iff s).mpr hupheld.2⟩

/-- A count in a text is an integer, if the text says one. -/
theorem exists_readCount (s : String) :
    ∃ v?, readCount (.text s) = .ok v? ∧ ∀ v, v? = some v → ∃ n, v = .int n := by
  refine ⟨_, rfl, fun v hv => ?_⟩
  obtain ⟨n, -, rfl⟩ := Option.map_eq_some_iff.mp hv
  exact ⟨n, rfl⟩

/-- A bound on polls in a text is an integer, or there is none. -/
theorem exists_readAttempts (s : String) :
    ∃ v?, readAttempts (.text s) = .ok v? ∧
      ∀ v, v? = some v → v = .null ∨ ∃ n, v = .int n := by
  rw [readAttempts]
  generalize Text.lower (Text.strip s) = word
  by_cases hword : word ∈ unboundedWords
  · rw [if_pos hword]
    refine ⟨_, rfl, fun v hv => ?_⟩
    cases hv
    exact Or.inl rfl
  · rw [if_neg hword]
    obtain ⟨v?, hread, h⟩ := exists_readCount s
    exact ⟨v?, hread, fun v hv => Or.inr (h v hv)⟩

section Environment

variable {env : Environment} (henv : env.AreTexts)

include henv

theorem variableValue_cases (name : String) :
    variableValue env name = .null ∨ ∃ s, variableValue env name = .text s := by
  have hget (name : String) : env.get name = .null ∨ ∃ s, env.get name = .text s := by
    induction env with
    | nil => exact Or.inl rfl
    | cons m ms ih =>
      obtain ⟨⟨s, hs⟩, hms⟩ := List.forall_mem_cons.mp henv
      by_cases hm : m.1 = name
      · exact Or.inr ⟨s, by rw [Members.get, Members.get?, if_pos hm, hs]; rfl⟩
      · rw [Members.get, Members.get?, if_neg hm]
        exact ih hms
  rw [variableValue]
  rcases hget (variableStart ++ name) with hnull | ⟨s, hs⟩
  · rw [hnull]
    exact Or.inl rfl
  · rw [hs]
    split
    · exact Or.inl rfl
    · exact Or.inr ⟨s, rfl⟩

/-- A variable says something of a kind, or is refused in words, or is not there. -/
theorem ends_readVariable {α : Type} {read : Value → Except Fault (Option α)} {Q : α → Prop}
    (hread : ∀ s, ∃ a?, read (.text s) = .ok a? ∧ ∀ a, a? = some a → Q a)
    {default : α} (hdefault : Q default) (name : String) :
    Ends Fault.IsInvalid Q (readVariable env name read default) := by
  rw [readVariable]
  rcases variableValue_cases henv name with hnull | ⟨s, hs⟩
  · rw [hnull]
    exact hdefault
  · obtain ⟨a?, ha?, hkind⟩ := hread s
    rw [hs, ha?]
    cases a? with
    | none => exact ⟨_, rfl⟩
    | some a => exact hkind a rfl

theorem ends_readReal (default : Binary64) (name : String) :
    Ends Fault.IsInvalid (fun _ => True) (readVariable env name Value.real? default) :=
  ends_readVariable henv (fun _ => ⟨_, rfl, fun _ _ => trivial⟩) trivial name

theorem ends_readTries {default : Value} (hdefault : ∃ n, default = .int n) (name : String) :
    Ends Fault.IsInvalid (fun v => ∃ n, v = .int n) (readVariable env name readCount default) :=
  ends_readVariable henv exists_readCount hdefault name

theorem ends_readPolls (name : String) :
    Ends Fault.IsInvalid (fun v => v = .null ∨ ∃ n, v = .int n)
      (readVariable env name readAttempts default.maxPollAttempts) :=
  ends_readVariable henv exists_readAttempts (Or.inr ⟨120, rfl⟩) name

/-- **An environment of texts makes settings, or is refused in words.** -/
theorem ends_ofEnvironment :
    Ends Fault.IsInvalid (fun s => s.HasCounts ∧ s.Passes) (ofEnvironment env) := by
  rw [ofEnvironment]
  refine (ends_readPolls henv _).bind fun polls hpolls => ?_
  refine (ends_readReal henv _ _).bind fun interval _ => ?_
  refine (ends_readReal henv _ _).bind fun backoff _ => ?_
  refine (ends_readReal henv _ _).bind fun greatest _ => ?_
  refine (ends_readTries henv ⟨5, rfl⟩ _).bind fun tries htries => ?_
  refine (ends_readTries henv ⟨30, rfl⟩ _).bind fun readTimeout _ => ?_
  refine (ends_readTries henv ⟨10, rfl⟩ _).bind fun connectTimeout _ => ?_
  have hcounts {s : Settings} (hp : s.maxPollAttempts = polls) (ht : s.clientMaxAttempts = tries) :
      s.HasCounts := ⟨hp ▸ hpolls, ht ▸ htries⟩
  refine (ends_check (hcounts rfl rfl).hasNumbers).mono ?_
  rintro s ⟨rfl, hpasses⟩
  exact ⟨hcounts rfl rfl, hpasses⟩

end Environment

end Settings

namespace CommandLine

/-- **Settings that do not pass are refused in words**, where no blank stands for an interval. -/
theorem ends_resolveSettings {environment : Environment} {a : Arguments}
    (henv : environment.AreTexts) (hpoll : a.pollInterval ≠ .blank) :
    Ends Fault.IsInvalid (fun s => s.HasCounts ∧ s.Passes) (resolveSettings environment a) := by
  refine (Settings.ends_ofEnvironment henv).bind fun s ⟨hs, _⟩ => ?_
  have hraised : ∃ raised, raisedInterval a s = .ok raised := by
    rw [raisedInterval]
    cases hinterval : a.pollInterval with
    | absent => exact ⟨none, rfl⟩
    | blank => exact absurd hinterval hpoll
    | value x => exact ⟨_, rfl⟩
  obtain ⟨raised, hraised⟩ := hraised
  rw [hraised]
  have hpolls : ((askedAttempts a).map .int).getD s.maxPollAttempts = .null ∨
      ∃ n, ((askedAttempts a).map .int).getD s.maxPollAttempts = .int n := by
    cases askedAttempts a with
    | none => exact hs.polls
    | some n => exact Or.inr ⟨n, rfl⟩
  refine Ends.bind (Q := fun _ => True) trivial fun greatest _ => ?_
  have hfirst : Settings.HasCounts { s with
      pollInterval := a.pollInterval.value?.getD s.pollInterval
      maxPollInterval := greatest.getD s.maxPollInterval
      maxPollAttempts := ((askedAttempts a).map .int).getD s.maxPollAttempts } :=
    ⟨hpolls, hs.tries⟩
  refine (Settings.ends_check hfirst.hasNumbers).bind ?_
  rintro s' ⟨rfl, hpasses⟩
  split
  · have hsecond : Settings.HasCounts { s with
        pollInterval := a.pollInterval.value?.getD s.pollInterval
        maxPollInterval := greatest.getD s.maxPollInterval
        maxPollAttempts := .null } := ⟨Or.inl rfl, hs.tries⟩
    refine (Settings.ends_check hsecond.hasNumbers).mono ?_
    rintro s' ⟨rfl, hpasses'⟩
    exact ⟨hsecond, hpasses'⟩
  · exact ⟨hfirst, hpasses⟩

/-! ## Sessions -/

/-- Whether there are words for a fault for which the account is not known. -/
def HasWords (e : Fault) : Prop := ∃ message, unresolved? e = some message

theorem ends_clientOptions (settings : Settings) :
    Ends HasWords (fun options => settings.clientOptions (.text Settings.defaultTag) = .ok options)
      (settings.clientOptions (.text Settings.defaultTag)) := by
  cases hoptions : settings.clientOptions (.text Settings.defaultTag) with
  | ok options => exact rfl
  | error e =>
    rw [Settings.clientOptions, RawSettings.clientOptions] at hoptions
    split at hoptions
    · cases hoptions
    · cases hoptions
      exact ⟨_, rfl⟩

section Session

variable {I : Unit → Prop}

theorem yields_buildClient {P : Promise} (service region : Value) (settings : Settings) :
    (buildClient service region settings : Run Unit Unit).Yields P HasWords I fun _ =>
      ∃ options, settings.clientOptions (.text Settings.defaultTag) = .ok options :=
  (Run.Yields.ofFault (ends_clientOptions settings)).bind fun options hoptions =>
    (Run.Yields.emit _).mono fun _ _ => ⟨options, hoptions⟩

/-- The response that tells who is calling tells the account. -/
theorem yields_whoAmI :
    (call Session.whoAmI [] .null : Run Unit Value).Yields Answer.Printable HasWords I fun v =>
      ∃ account, v.member "Account" = .ok account := by
  refine .call (Answer.printable_unscripted _) (fun answer hanswer => ?_) _
  refine ((hanswer.1.told .null).self.weaken ?_).mono ?_
  · rintro e ⟨f, rfl, -⟩
    exact ⟨f.message, rfl⟩
  · rintro v ⟨hv, ms, rfl, -⟩
    obtain rfl := Answer.eq_response_of_told hv
    obtain ⟨account, -, haccount⟩ := Members.member_of_has ((hanswer.2 ms rfl).account rfl)
    exact ⟨account, haccount⟩

/-- **A session that is not resolved** comes with the words for it, and one that is has settings
    with which clients can be built. -/
theorem yields_openSession (world : Surroundings) (a : Arguments) (settings : Settings) :
    (openSession world a settings).Yields Answer.Printable HasWords I fun session =>
      ∃ options, session.settings.clientOptions (.text Settings.defaultTag) = .ok options := by
  refine (Run.Yields.emit _).bind fun _ _ => ?_
  split
  · refine (yields_buildClient _ _ settings).bind fun _ hoptions => ?_
    refine yields_whoAmI.bind ?_
    rintro identity ⟨account, haccount⟩
    rw [haccount]
    exact Run.Yields.bind (Q := fun _ => True) (.ofFault trivial) fun _ _ => .pure hoptions
  · refine Run.Yields.bind (Q := fun _ => True) (.ofFault trivial) fun text _ => ?_
    exact .ofFault (e := .error _) ⟨_, rfl⟩

end Session

/-- Before the reports nothing is asked for but the account. -/
theorem callsOnly_openSession (world : Surroundings) (a : Arguments) (settings : Settings) :
    (openSession world a settings).CallsOnly (· = Session.whoAmI) := by
  refine Run.CallsOnly.bind (.emit ?_) fun _ => ?_
  · exact trivial
  split
  · refine Run.CallsOnly.bind ((Run.CallsOnly.ofFault _).bind fun _ => .emit ?_) fun _ => ?_
    · exact trivial
    exact (Run.CallsOnly.self _ _ _).bind fun _ => (Run.CallsOnly.ofFault _).bind fun _ => .pure _
  · exact (Run.CallsOnly.ofFault _).bind fun _ => .fault _

end CommandLine

end IamInventory

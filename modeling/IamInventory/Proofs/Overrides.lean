import IamInventory.Proofs.Extended
import IamInventory.Proofs.Program

/-!
# Overrides — what the command line makes of the settings

  An interval and a bound on polls may be asked for on the command line. Both are taken as they are,
  zeros too, and neither meets a limit of the environment: the greatest interval is raised to the
  one that is asked for, and no polls mean that there is no bound. What is below zero is refused,
  and then nothing is done but to say so.

* **`Arguments.IsAllowed`** — what is asked for is not below zero.
* **`Arguments.Applies`** — settings with what is asked for.
* **`CommandLine.exists_applies`** — what is allowed is applied.
* **`CommandLine.run_applies`** — what becomes of the program.
-/

namespace IamInventory

open Number

/-! ## What is asked for -/

namespace Arguments

/-- **Whether what is asked for is allowed**: neither the interval nor the count of polls is below
    zero. -/
structure IsAllowed (a : Arguments) : Prop where
  interval : ∀ p, a.pollInterval = .value p → ∃ x ∈ p.extended?, .ofInt 0 ≤ x
  polls : ∀ n, a.maxPollAttempts = .value n → 0 ≤ n

/-- **Settings with what is asked for**, and as they were in everything else. -/
structure Applies (a : Arguments) (s t : Settings) : Prop where
  interval : t.pollInterval = a.pollInterval.value?.getD s.pollInterval
  kept : a.pollInterval.value? = none → t.maxPollInterval = s.maxPollInterval
  raised : ∀ p, a.pollInterval.value? = some p →
    (t.maxPollInterval = p ∨ t.maxPollInterval = s.maxPollInterval) ∧
      ∀ x ∈ p.extended?, ∀ y ∈ s.maxPollInterval.extended?,
        t.maxPollInterval.extended? = some (max x y)
  bounded : ∀ n, a.maxPollAttempts.value? = some n → 0 < n → t.maxPollAttempts = .int n
  unbounded : a.maxPollAttempts.value? = some 0 → t.maxPollAttempts = .null
  unasked : a.maxPollAttempts.value? = none → t.maxPollAttempts = s.maxPollAttempts
  backoff : t.pollBackoff = s.pollBackoff
  tries : t.clientMaxAttempts = s.clientMaxAttempts
  retryMode : t.clientRetryMode = s.clientRetryMode
  readTimeout : t.clientReadTimeout = s.clientReadTimeout
  connectTimeout : t.clientConnectTimeout = s.clientConnectTimeout

end Arguments

/-- An option that has a value was given that value. -/
theorem Given.eq_value_of_value? {α : Type} {g : Given α} {x : α} (h : g.value? = some x) :
    g = .value x := by
  cases g with
  | value y => rw [Option.some.inj h]
  | _ => cases h

/-! ## Intervals -/

namespace Number.Binary64

theorem less_irrefl (a : Binary64) : a.less a = false := by
  rw [Bool.eq_false_iff]
  intro h
  obtain ⟨x, hx, y, hy, hlt⟩ := (less_iff a a).mp h
  obtain rfl := Option.some.inj (hx.symm.trans hy)
  exact lt_irrefl x hlt

/-- The greater of two numbers is not less than the first. -/
theorem greater_less (a b : Binary64) : (a.greater b).less a = false := by
  rw [greater]
  by_cases h : a.less b
  · rw [if_pos h, Bool.eq_false_iff]
    intro hba
    obtain ⟨x, hx, y, hy, hxy⟩ := (less_iff a b).mp h
    obtain ⟨y', hy', x', hx', hyx⟩ := (less_iff b a).mp hba
    obtain rfl := Option.some.inj (hx.symm.trans hx')
    obtain rfl := Option.some.inj (hy.symm.trans hy')
    exact lt_asymm hxy hyx
  · rw [if_neg h, less_irrefl]

end Number.Binary64

/-! ## Checks -/

namespace Settings

variable {s : Settings}

/-- Settings that come from an environment pass. -/
theorem passes_of_ofEnvironment {env : Environment} (h : ofEnvironment env = .ok s) :
    s.Passes := by
  rw [ofEnvironment] at h
  iterate 7
    obtain ⟨_, -, h⟩ := Json.bind_eq_ok_iff.mp h
  obtain ⟨rfl, hpasses⟩ := check_eq_ok_iff.mp h
  exact hpasses

/-- An environment with no variables leaves the default settings. -/
theorem ofEnvironment_nil : ofEnvironment [] = .ok default := by
  have hread {α : Type} (name : String) (read : Value → Except Fault (Option α)) (v : α) :
      readVariable [] name read v = .ok v := rfl
  have hmode : (variableValue [] "BOTO_RETRY_MODE").truthy = false := rfl
  -- the default numbers stay closed: nothing here depends on them
  obtain ⟨s, hs⟩ : ∃ s, s = default := ⟨default, rfl⟩
  have hpasses : s.Passes := by
    rw [hs]
    exact passes_default
  rw [ofEnvironment, ← hs]
  simp only [hread, hmode, bind, Except.bind]
  exact check_eq_ok_iff.mpr ⟨rfl, hpasses⟩

end Settings

/-! ## Settings -/

namespace CommandLine

variable {environment : Environment} {a : Arguments} {s : Settings}

/-- The settings that are checked first: zero polls are not asked for yet. -/
def firstSettings (a : Arguments) (s : Settings) : Settings :=
  { s with
    pollInterval := a.pollInterval.value?.getD s.pollInterval
    maxPollInterval := (a.pollInterval.value?.map (·.greater s.maxPollInterval)).getD
      s.maxPollInterval
    maxPollAttempts := ((askedAttempts a).map .int).getD s.maxPollAttempts }

/-- **The settings are made in two checks**, the second one only where zero polls are asked for. -/
theorem resolveSettings_eq (henv : Settings.ofEnvironment environment = .ok s)
    (hblank : a.pollInterval ≠ .blank) :
    resolveSettings environment a = (Settings.check (firstSettings a s) >>= fun t =>
      if a.maxPollAttempts = .value 0 then Settings.check { t with maxPollAttempts := .null }
      else .ok t) := by
  have hraised : raisedInterval a s =
      .ok (a.pollInterval.value?.map (·.greater s.maxPollInterval)) := by
    rw [raisedInterval]
    cases hpoll : a.pollInterval with
    | absent => rfl
    | blank => exact absurd hpoll hblank
    | value p => rfl
  rw [resolveSettings, henv]
  simp only [bind, Except.bind, hraised]
  rfl

/-- A count of polls that is asked for, other than zero, is the bound that is checked first. -/
theorem polls_of_asked {n : Int} (h : a.maxPollAttempts = .value n) (hzero : n ≠ 0)
    (s : Settings) : (firstSettings a s).maxPollAttempts = .int n := by
  have hasked : askedAttempts a = some n := by
    rw [askedAttempts, h]
    show Option.filter _ (some n) = _
    rw [Option.filter_some, if_pos (decide_eq_true hzero)]
  rw [firstSettings, hasked]
  rfl

theorem polls_of_unasked (h : a.maxPollAttempts.value? = none) (s : Settings) :
    (firstSettings a s).maxPollAttempts = s.maxPollAttempts := by
  rw [firstSettings, askedAttempts, h]
  rfl

theorem polls_of_zero (h : a.maxPollAttempts = .value 0) (s : Settings) :
    (firstSettings a s).maxPollAttempts = s.maxPollAttempts := by
  rw [firstSettings, askedAttempts, h]
  rfl

/-- The greatest interval is kept where no interval is asked for. -/
theorem kept_firstSettings (h : a.pollInterval.value? = none) (s : Settings) :
    (firstSettings a s).maxPollInterval = s.maxPollInterval := by
  rw [firstSettings, h]
  rfl

/-- The greatest interval is the greater of what it was and the interval that is asked for. -/
theorem raised_firstSettings {p : Binary64} (h : a.pollInterval.value? = some p) (s : Settings) :
    ((firstSettings a s).maxPollInterval = p ∨
      (firstSettings a s).maxPollInterval = s.maxPollInterval) ∧
    ∀ x ∈ p.extended?, ∀ y ∈ s.maxPollInterval.extended?,
      (firstSettings a s).maxPollInterval.extended? = some (max x y) := by
  have hmax : (firstSettings a s).maxPollInterval = p.greater s.maxPollInterval := by
    rw [firstSettings, h]
    rfl
  rw [hmax]
  refine ⟨?_, fun x hx y hy => Binary64.extended?_greater hx hy⟩
  rw [Binary64.greater]
  split
  · exact Or.inr rfl
  · exact Or.inl rfl

/-- The first check has numbers to compare. -/
theorem hasNumbers_firstSettings (hpasses : s.Passes) (a : Arguments) :
    (firstSettings a s).raw.HasNumbers := by
  have hnumbers := hpasses.hasNumbers
  refine ⟨Value.isNumber_real _, hnumbers.backoff, Value.isNumber_real _, ?_, hnumbers.tries⟩
  show ((askedAttempts a).map .int).getD s.maxPollAttempts = .null ∨
    (((askedAttempts a).map .int).getD s.maxPollAttempts).IsNumber
  cases askedAttempts a with
  | none => exact hnumbers.polls
  | some n => exact Or.inr (Value.isNumber_int n)

/-- **What passes the first check is allowed.** -/
theorem isAllowed_of_passes (hnan : a.pollInterval ≠ .value .nan)
    (h : (firstSettings a s).Passes) : a.IsAllowed where
  interval := by
    intro p hp
    have hless := h.interval
    rw [firstSettings, hp] at hless
    have hsides := (Binary64.less_integer_eq_false_iff Binary64.extended?_zero).mp hless
    exact hsides.resolve_left fun heq => hnan (heq ▸ hp)
  polls := by
    intro n hn
    by_cases hzero : n = 0
    · exact hzero.ge
    · have hpolls := h.polls
      rw [polls_of_asked hn hzero, Value.isBelow?_int, Option.some.injEq,
        decide_eq_false_iff_not] at hpolls
      rcases hpolls with hnull | hbelow
      · cases hnull
      · omega

section Applied

variable (hpasses : s.Passes)

include hpasses

/-- An interval that is not below zero is not more than the greatest one that it raises. -/
theorem greatest_firstSettings :
    (firstSettings a s).maxPollInterval.less (firstSettings a s).pollInterval = false := by
  rw [firstSettings]
  cases a.pollInterval.value? with
  | none => exact hpasses.greatest
  | some p => exact Binary64.greater_less p s.maxPollInterval

theorem interval_firstSettings (hallowed : a.IsAllowed) :
    (firstSettings a s).pollInterval.less (.ofInt 0) = false := by
  rw [firstSettings]
  cases hpoll : a.pollInterval with
  | value p =>
    have hinterval := hallowed.interval p hpoll
    exact (Binary64.less_integer_eq_false_iff Binary64.extended?_zero).mpr (Or.inr hinterval)
  | _ => exact hpasses.interval

theorem polls_firstSettings (hallowed : a.IsAllowed) :
    (firstSettings a s).maxPollAttempts = .null ∨
      (firstSettings a s).maxPollAttempts.isBelow? 1 = some false := by
  cases hpolls : a.maxPollAttempts with
  | value n =>
    by_cases hzero : n = 0
    · subst hzero
      rw [polls_of_zero hpolls]
      exact hpasses.polls
    · have hn : ¬ n < 1 := by
        have := hallowed.polls n hpolls
        omega
      rw [polls_of_asked hpolls hzero, Value.isBelow?_int, decide_eq_false hn]
      exact Or.inr rfl
  | _ =>
    rw [polls_of_unasked (by rw [hpolls]; rfl)]
    exact hpasses.polls

/-- **What is allowed passes the first check.** -/
theorem passes_firstSettings (hallowed : a.IsAllowed) : (firstSettings a s).Passes where
  interval := interval_firstSettings hpasses hallowed
  backoff := hpasses.backoff
  greatest := greatest_firstSettings hpasses
  polls := polls_firstSettings hpasses hallowed
  tries := hpasses.tries

end Applied

section Overridden

variable (henv : Settings.ofEnvironment environment = .ok s) (hblank : a.pollInterval ≠ .blank)

include henv hblank

/-- **What is allowed is applied.** -/
theorem exists_applies (hallowed : a.IsAllowed) :
    ∃ t, resolveSettings environment a = .ok t ∧ a.Applies s t := by
  have hpasses := Settings.passes_of_ofEnvironment henv
  have hfirst := passes_firstSettings hpasses hallowed
  rw [resolveSettings_eq henv hblank, Settings.check_eq_ok_iff.mpr ⟨rfl, hfirst⟩]
  by_cases hzero : a.maxPollAttempts = .value 0
  · -- the second check has no bound on polls to object to
    have hsecond : Settings.Passes { firstSettings a s with maxPollAttempts := .null } :=
      { hfirst with polls := Or.inl rfl }
    refine ⟨{ firstSettings a s with maxPollAttempts := .null }, ?_, ?_⟩
    · show (if a.maxPollAttempts = .value 0 then _ else _) = _
      rw [if_pos hzero]
      exact Settings.check_eq_ok_iff.mpr ⟨rfl, hsecond⟩
    · have hvalue : a.maxPollAttempts.value? = some 0 := by rw [hzero]; rfl
      refine ⟨rfl, fun h => kept_firstSettings h s, fun _ h => raised_firstSettings h s, ?_,
        fun _ => rfl, ?_, rfl, rfl, rfl, rfl, rfl⟩
      · intro n hn hpos
        obtain rfl := Option.some.inj (hvalue.symm.trans hn)
        exact absurd hpos (lt_irrefl _)
      · intro hnone
        rw [hvalue] at hnone
        cases hnone
  · refine ⟨firstSettings a s, ?_, ?_⟩
    · show (if a.maxPollAttempts = .value 0 then _ else _) = _
      rw [if_neg hzero]
    · refine ⟨rfl, fun h => kept_firstSettings h s, fun _ h => raised_firstSettings h s, ?_, ?_,
        fun hnone => polls_of_unasked hnone s, rfl, rfl, rfl, rfl, rfl⟩
      · intro n hn hpos
        exact polls_of_asked (Given.eq_value_of_value? hn) (by omega) s
      · intro hn
        exact absurd (Given.eq_value_of_value? hn) hzero

/-- **What is not allowed is refused**, in words. -/
theorem refuses_of_not_isAllowed (hnan : a.pollInterval ≠ .value .nan)
    (hallowed : ¬ a.IsAllowed) :
    ∃ message, resolveSettings environment a = .error (.invalid message) := by
  have hpasses := Settings.passes_of_ofEnvironment henv
  have hends := Settings.ends_check (hasNumbers_firstSettings hpasses a)
  rw [resolveSettings_eq henv hblank]
  cases hcheck : Settings.check (firstSettings a s) with
  | error e =>
    rw [hcheck] at hends
    obtain ⟨message, rfl⟩ := hends
    exact ⟨message, rfl⟩
  | ok t =>
    obtain ⟨-, hfirst⟩ := Settings.check_eq_ok_iff.mp hcheck
    exact absurd (isAllowed_of_passes hnan hfirst) hallowed

end Overridden

end CommandLine

/-! ## The program -/

namespace Run

variable {σ α β : Type}

/-- A result of two runs, one after the other, is one of the second with a result of the first. -/
theorem exists_of_bind_ok {m : Run σ α} {f : α → Run σ β} {d : σ} {s : Script}
    {b : β} (h : ((m >>= f) d s).result = .ok b) :
    ∃ v, (m d s).result = .ok v ∧ (f v (m d s).draft (m d s).left).result = .ok b := by
  cases hm : (m d s).result with
  | error e =>
    rw [bind_of_error hm] at h
    cases h
  | ok v =>
    rw [bind_result hm] at h
    exact ⟨v, rfl, h⟩

/-- What a run does comes before what is done with its result. -/
theorem trace_prefix_bind (m : Run σ α) (f : α → Run σ β) (d : σ) (s : Script) :
    (m d s).trace <+: ((m >>= f) d s).trace := by
  cases hm : (m d s).result with
  | error e =>
    have hsame : ((m >>= f) d s).trace = (m d s).trace := by rw [bind_of_error hm]
    exact hsame ▸ List.prefix_rfl
  | ok v =>
    rw [bind_trace hm]
    exact List.prefix_append _ _

end Run

namespace CommandLine

section Work

variable {world : Surroundings} {settings : Settings} {script : Script}

/-- What the program does with settings, up to its inventory: the session is resolved with them,
    and the reports run with the session. -/
def work (world : Surroundings) (a : Arguments) (settings : Settings) : Run Unit Inventory := do
  let session ← openSession world a settings
  Inventory.collect ((a.reports.getD []).map .text) session (passedOn a.pathPrefix)

/-- **The session keeps the settings** with which it is resolved. -/
theorem settings_of_openSession {session : Session}
    (h : (openSession world a settings () script).result = .ok session) :
    session.settings = settings := by
  obtain ⟨-, -, h⟩ := Run.exists_of_bind_ok h
  dsimp only at h
  split at h
  · obtain ⟨-, -, h⟩ := Run.exists_of_bind_ok h
    obtain ⟨identity, -, h⟩ := Run.exists_of_bind_ok h
    obtain ⟨account, -, h⟩ := Run.exists_of_bind_ok h
    cases h
    rfl
  · obtain ⟨text, -, h⟩ := Run.exists_of_bind_ok h
    cases h

/-- The credentials are opened before anything else. -/
theorem opened_mem_openSession (world : Surroundings) (a : Arguments) (settings : Settings)
    (script : Script) : .opened (passedOn a.profile) (passedOn a.region) ∈
      (openSession world a settings () script).trace := by
  have hfirst : (Run.emit (.opened (passedOn a.profile) (passedOn a.region)) : Run Unit Unit)
      () script = ⟨.ok (), (), script, [.opened (passedOn a.profile) (passedOn a.region)]⟩ := rfl
  refine (Run.trace_prefix_bind _ _ () script).subset ?_
  rw [hfirst]
  exact List.mem_singleton_self _

/-- **Where the settings pass, the program starts with its work.** -/
theorem work_prefix_execute (h : resolveSettings world.environment a = .ok settings) :
    (work world a settings () script).trace <+: (execute world a () script).trace := by
  rw [execute_eq h, Run.bind_trace (by rw [attempt_eq]), attempt_eq]
  dsimp only
  cases hsession : (openSession world a settings () script).result with
  | error e =>
    rw [work, Run.bind_of_error hsession]
    exact List.prefix_append _ _
  | ok session =>
    rw [work, Run.bind_trace hsession, proceed, Run.bind_trace (by rw [attempt_eq]), attempt_eq]
    dsimp only
    rw [← List.append_assoc]
    exact List.prefix_append _ _

end Work

/-- **Whether an ending is that of a program that goes on with settings**: the credentials are
    opened, the session is resolved with the settings, and the reports run with the session. -/
structure GoesOn (world : Surroundings) (a : Arguments) (script : Script) (settings : Settings)
    (e : Ending) : Prop where
  opens : .opened (passedOn a.profile) (passedOn a.region) ∈ e.trace
  works : (work world a settings () script).trace <+: e.trace
  keeps : ∀ session, (openSession world a settings () script).result = .ok session →
    session.settings = settings

/-- Whether an ending is that of a program that complains, and does nothing else. -/
def Refuses (e : Ending) : Prop :=
  e.code = .ok 1 ∧ ∃ message, e.trace = [.complained ("Error: " ++ message ++ "\n")]

theorem Refuses.not_opens {e : Ending} (h : Refuses e) (profile region : Value) :
    .opened profile region ∉ e.trace := by
  obtain ⟨-, message, htrace⟩ := h
  rw [htrace]
  intro hmem
  cases List.mem_singleton.mp hmem

/-- **What the command line makes of the settings of an environment.** The program goes on if and
    only if what is asked for is not below zero, and complains otherwise. It goes on with what is
    asked for, and with the greatest interval raised to the interval; zero polls are no bound. -/
theorem run_applies (world : Surroundings) {words : List String} {a : Arguments}
    (hparse : Arguments.parse words = .ok a) (hlevel : a.logLevel ≠ .blank)
    (hblank : a.pollInterval ≠ .blank) (hnan : a.pollInterval ≠ .value .nan) {s : Settings}
    (henv : Settings.ofEnvironment world.environment = .ok s) (script : Script) :
    (.opened (passedOn a.profile) (passedOn a.region) ∈ (run world words script).trace ↔
        a.IsAllowed) ∧
      (¬ a.IsAllowed → Refuses (run world words script)) ∧
      (a.IsAllowed → ∃ t, a.Applies s t ∧ GoesOn world a script t (run world words script)) := by
  have hrefuses : ¬ a.IsAllowed → Refuses (run world words script) := by
    intro hallowed
    obtain ⟨message, hmessage⟩ := refuses_of_not_isAllowed henv hblank hnan hallowed
    have hrun := run_of_invalid hparse hlevel hmessage script
    exact ⟨hrun.1, message, hrun.2⟩
  have happlies : a.IsAllowed →
      ∃ t, a.Applies s t ∧ GoesOn world a script t (run world words script) := by
    intro hallowed
    obtain ⟨t, ht, happlies⟩ := exists_applies henv hblank hallowed
    obtain ⟨threshold, hrun⟩ := run_eq hparse hlevel world script
    have hworks : (work world a t () script).trace <+: (run world words script).trace := by
      rw [hrun]
      exact work_prefix_execute ht
    have hopens : (openSession world a t () script).trace <+: (work world a t () script).trace :=
      Run.trace_prefix_bind _ _ () script
    refine ⟨t, happlies, ?_, hworks, fun session => settings_of_openSession⟩
    exact hworks.subset (hopens.subset (opened_mem_openSession world a t script))
  refine ⟨⟨fun hopened => ?_, fun hallowed => ?_⟩, hrefuses, happlies⟩
  · by_contra hallowed
    exact (hrefuses hallowed).not_opens _ _ hopened
  · obtain ⟨t, -, hgoes⟩ := happlies hallowed
    exact hgoes.opens

/-- The words that ask for an interval above the greatest one of the default settings, and for
    polls without a bound. -/
def patientWords : List String := ["--poll-interval", "20", "--max-poll-attempts", "0"]

/-- What these words ask for. -/
def patientArguments : Arguments :=
  { Arguments.default with pollInterval := .value (.ofInt 20), maxPollAttempts := .value 0 }

theorem parse_patientWords : Arguments.parse patientWords = .ok patientArguments := by
  have hwords : patientWords.mapM Arguments.classify = .ok
      [.option .pollInterval none, .plain "20", .option .maxPollAttempts none, .plain "0"] := by
    rfl
  have hinterval : readBinary64? "20" = some (.ofInt 20) := by decide +kernel
  have hpolls : readInteger? "0" = some 0 := by decide +kernel
  have hfirst : Arguments.setValue Arguments.default .pollInterval "20" =
      .ok { Arguments.default with pollInterval := .value (.ofInt 20) } := by
    rw [Arguments.setValue, Arguments.given, if_neg (by decide), Arguments.readAs, hinterval]
    rfl
  have hsecond : Arguments.setValue { Arguments.default with pollInterval := .value (.ofInt 20) }
      .maxPollAttempts "0" = .ok patientArguments := by
    rw [Arguments.setValue, Arguments.given, if_neg (by decide), Arguments.readAs, hpolls]
    rfl
  have hread : Arguments.read false Arguments.default []
      [.option .pollInterval none, .plain "20", .option .maxPollAttempts none, .plain "0"] =
      .ok (patientArguments, []) := by
    refine Json.bind_eq_ok_iff.mpr ⟨_, hfirst, ?_⟩
    exact Json.bind_eq_ok_iff.mpr ⟨_, hsecond, rfl⟩
  refine Json.bind_eq_ok_iff.mpr ⟨_, hwords, ?_⟩
  exact Json.bind_eq_ok_iff.mpr ⟨_, hread, rfl⟩

theorem isAllowed_patientArguments : patientArguments.IsAllowed where
  interval := by
    intro p hp
    obtain rfl : .ofInt 20 = p := by
      injection hp
    have hless : (Binary64.ofInt 20).less (.ofInt 0) = false := by decide +kernel
    have hdefined : Binary64.ofInt 20 ≠ .nan := by decide +kernel
    have hsides := (Binary64.less_integer_eq_false_iff Binary64.extended?_zero).mp hless
    exact hsides.resolve_left hdefined
  polls := by
    intro n hn
    obtain rfl : 0 = n := by
      injection hn
    exact le_refl 0

/-- Both are honoured: the greatest interval is raised, and polls have no bound. -/
theorem run_applies_patient :
    Arguments.parse patientWords = .ok patientArguments ∧
    patientArguments.logLevel ≠ .blank ∧ patientArguments.pollInterval ≠ .blank ∧
    patientArguments.pollInterval ≠ .value .nan ∧
    Settings.ofEnvironment sampleWorld.environment = .ok Settings.default ∧
    ∃ t, GoesOn sampleWorld patientArguments sampleScript t
        (run sampleWorld patientWords sampleScript) ∧
      t.pollInterval = .ofInt 20 ∧ t.maxPollInterval = .ofInt 20 ∧ t.maxPollAttempts = .null := by
  have hlevel : patientArguments.logLevel ≠ .blank := by decide
  have hblank : patientArguments.pollInterval ≠ .blank := nofun
  have hnan : patientArguments.pollInterval ≠ .value .nan := by
    intro h
    have hvalue : Binary64.ofInt 20 = .nan := by injection h
    exact absurd hvalue (by decide +kernel)
  have henv : Settings.ofEnvironment sampleWorld.environment = .ok Settings.default :=
    Settings.ofEnvironment_nil
  obtain ⟨-, -, happlied⟩ :=
    run_applies sampleWorld parse_patientWords hlevel hblank hnan henv sampleScript
  obtain ⟨t, happlies, hgoes⟩ := happlied isAllowed_patientArguments
  have hvalue : patientArguments.pollInterval.value? = some (.ofInt 20) := by
    rw [patientArguments, Given.value?]
  have hinterval : t.pollInterval = .ofInt 20 := by
    rw [happlies.interval, hvalue, Option.getD_some]
  refine ⟨parse_patientWords, hlevel, hblank, hnan, henv, t, hgoes, hinterval, ?_,
    happlies.unbounded rfl⟩
  -- the greatest interval is one of the two, and it is not the lesser
  obtain ⟨heither, hmax⟩ := happlies.raised (.ofInt 20) hvalue
  refine heither.resolve_right fun hcap => ?_
  have hless : Settings.default.maxPollInterval.less (.ofInt 20) = true := by decide +kernel
  obtain ⟨y, hy, x, hx, hlt⟩ := (Binary64.less_iff _ _).mp hless
  have hgreatest := hmax x hx y hy
  rw [hcap, hy, max_eq_left hlt.le] at hgreatest
  exact hlt.ne (Option.some.inj hgreatest)

end CommandLine

end IamInventory

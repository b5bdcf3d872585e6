import IamInventory.Text.Casing
import IamInventory.Value.Numeric
import IamInventory.Value.Order

/-!
# Settings — how jobs are polled and how clients retry

  Settings have defaults, may be given by name, may be read from the variables of an environment,
  and may be changed one by one. What is given stays as it is, an integer is not made a
  floating-point number, and every way to make settings checks the same rules on the values
  themselves. A rule that compares with the undefined number does not object, and one that compares
  with null cannot tell. What only a client looks at is passed on as it is given.

  An environment and a command line say floating-point numbers for the intervals between polls, and
  jobs are polled by those.

* **`RawSettings.check`**, **`Settings.check`** — settings that no rule objects to.
* **`RawSettings.ofMembers`**, **`RawSettings.change`** — settings from values by name, and with
  changes.
* **`Settings.ofEnvironment`** — the settings of an environment.
* **`RawSettings.clientOptions`** — what a client is built with.
-/

namespace IamInventory

open Number

/-- Settings as they are given: each of them is a value, of any kind. -/
structure RawSettings where
  pollInterval : Value
  pollBackoff : Value
  maxPollInterval : Value
  maxPollAttempts : Value
  clientMaxAttempts : Value
  clientRetryMode : Value
  clientReadTimeout : Value
  clientConnectTimeout : Value

/-- How jobs are polled and how clients retry. The intervals between polls are floating-point
    numbers; the bound on polls is a number, or null for none. -/
structure Settings where
  pollInterval : Binary64
  pollBackoff : Binary64
  maxPollInterval : Binary64
  maxPollAttempts : Value
  clientMaxAttempts : Value
  clientRetryMode : Value
  clientReadTimeout : Value
  clientConnectTimeout : Value

/-- What a client is built with. -/
structure ClientOptions where
  maxAttempts : Value
  retryMode : Value
  readTimeout : Value
  connectTimeout : Value
  userAgent : Value

/-- The variables of an environment. -/
abbrev Environment := Members

namespace Settings

/-- The settings where nothing else is said. -/
def default : Settings where
  pollInterval := .ofInt 1
  pollBackoff := .ofRatio false 3 2
  maxPollInterval := .ofInt 10
  maxPollAttempts := .int 120
  clientMaxAttempts := .int 5
  clientRetryMode := .text "standard"
  clientReadTimeout := .int 30
  clientConnectTimeout := .int 10

/-- The settings as values. -/
def raw (s : Settings) : RawSettings where
  pollInterval := .real s.pollInterval
  pollBackoff := .real s.pollBackoff
  maxPollInterval := .real s.maxPollInterval
  maxPollAttempts := s.maxPollAttempts
  clientMaxAttempts := s.clientMaxAttempts
  clientRetryMode := s.clientRetryMode
  clientReadTimeout := s.clientReadTimeout
  clientConnectTimeout := s.clientConnectTimeout

/-! ## Rules -/

/-- A rule on settings: whether it objects, if that can be told, and its words. -/
structure Rule where
  objects : Option Bool
  words : String

/-- What the first rule finds that does not let settings pass. -/
def objection? : List Rule → Option Fault
  | [] => none
  | ⟨some false, _⟩ :: rest => objection? rest
  | ⟨some true, words⟩ :: _ => some (.invalid words)
  | ⟨none, _⟩ :: _ => some .mistyped

theorem objection?_eq_none_iff (rs : List Rule) :
    objection? rs = none ↔ ∀ r ∈ rs, r.objects = some false := by
  fun_induction objection? rs <;> simp_all

end Settings

namespace RawSettings

/-- The rules on settings, in the order in which they are checked. -/
def rules (s : RawSettings) : List Settings.Rule :=
  [⟨s.pollInterval.isBelow? 0, "poll_interval must not be negative"⟩,
   ⟨s.pollBackoff.isBelow? 1, "poll_backoff must be at least 1"⟩,
   ⟨s.pollInterval.greater? s.maxPollInterval,
     "max_poll_interval must not be smaller than poll_interval"⟩,
   ⟨if s.maxPollAttempts.isNull then some false else s.maxPollAttempts.isBelow? 1,
     "max_poll_attempts must be at least 1"⟩,
   ⟨s.clientMaxAttempts.isBelow? 1, "boto_max_attempts must be at least 1"⟩]

/-- **The settings, if no rule objects to them.** -/
def check (s : RawSettings) : Except Fault RawSettings :=
  match Settings.objection? s.rules with
  | some e => .error e
  | none => .ok s

end RawSettings

/-- **The settings, if no rule objects to their values.** -/
def Settings.check (s : Settings) : Except Fault Settings := do
  let _ ← s.raw.check
  .ok s

/-! ## Settings by name -/

namespace RawSettings

/-- The settings by name. -/
def members (s : RawSettings) : Members :=
  [("poll_interval", s.pollInterval), ("poll_backoff", s.pollBackoff),
   ("max_poll_interval", s.maxPollInterval), ("max_poll_attempts", s.maxPollAttempts),
   ("boto_max_attempts", s.clientMaxAttempts), ("boto_retry_mode", s.clientRetryMode),
   ("boto_read_timeout", s.clientReadTimeout), ("boto_connect_timeout", s.clientConnectTimeout)]

/-- The settings where nothing else is said. -/
def default : RawSettings := Settings.default.raw

/-- The names of the settings. -/
def names : List String := default.members.names

/-- The settings with some of them replaced by name. No other name is a setting. -/
def replace (s : RawSettings) (given : Members) : Except Fault RawSettings :=
  if given.names.any fun name => name ∉ names then .error .mistyped
  else check {
    pollInterval := (given.get? "poll_interval").getD s.pollInterval
    pollBackoff := (given.get? "poll_backoff").getD s.pollBackoff
    maxPollInterval := (given.get? "max_poll_interval").getD s.maxPollInterval
    maxPollAttempts := (given.get? "max_poll_attempts").getD s.maxPollAttempts
    clientMaxAttempts := (given.get? "boto_max_attempts").getD s.clientMaxAttempts
    clientRetryMode := (given.get? "boto_retry_mode").getD s.clientRetryMode
    clientReadTimeout := (given.get? "boto_read_timeout").getD s.clientReadTimeout
    clientConnectTimeout := (given.get? "boto_connect_timeout").getD s.clientConnectTimeout }

/-- **The settings of given values**, the default ones where none is given. -/
def ofMembers (given : Members) : Except Fault RawSettings := default.replace given

/-- **The settings with changes.** A change to null is none. -/
def change (s : RawSettings) (changes : Members) : Except Fault RawSettings :=
  s.replace (changes.filter fun m => !m.2.isNull)

end RawSettings

/-! ## The environment -/

namespace Settings

/-- What the names of all variables start with. -/
def variableStart : String := "IAM_DUMP_"

/-- The value of a variable; null if it is absent or an empty text. -/
def variableValue (env : Environment) (name : String) : Value :=
  match env.get (variableStart ++ name) with
  | .text "" => .null
  | v => v

/-- The value of a variable, read in one way; the default if there is none. -/
def readVariable {α : Type} (env : Environment) (name : String)
    (read : Value → Except Fault (Option α)) (default : α) : Except Fault α := do
  let raw := variableValue env name
  if raw.isNull then .ok default
  else match ← read raw with
    | some a => .ok a
    | none =>
      .error (.invalid ("Invalid value for " ++ variableStart ++ name ++ ": " ++ raw.quoted))

/-- A value as an integer, as a value. -/
def readCount (v : Value) : Except Fault (Option Value) := do .ok ((← v.integer?).map .int)

/-- The words for polling without a bound. -/
def unboundedWords : List String := ["0", "none", "unbounded"]

/-- A bound on polls: an integer, or in a text a word for none. -/
def readAttempts : Value → Except Fault (Option Value)
  | .text s =>
    if Text.lower (Text.strip s) ∈ unboundedWords then .ok (some .null) else readCount (.text s)
  | .bytes bs => readCount (.bytes bs)
  | _ => .error .partless

/-- **The settings of an environment.** -/
def ofEnvironment (env : Environment) : Except Fault Settings := do
  let maxPollAttempts ← readVariable env "MAX_POLL_ATTEMPTS" readAttempts default.maxPollAttempts
  let pollInterval ← readVariable env "POLL_INTERVAL" Value.real? default.pollInterval
  let pollBackoff ← readVariable env "POLL_BACKOFF" Value.real? default.pollBackoff
  let maxPollInterval ← readVariable env "MAX_POLL_INTERVAL" Value.real? default.maxPollInterval
  let clientMaxAttempts ←
    readVariable env "BOTO_MAX_ATTEMPTS" readCount default.clientMaxAttempts
  let clientRetryMode := variableValue env "BOTO_RETRY_MODE"
  let clientReadTimeout ←
    readVariable env "BOTO_READ_TIMEOUT" readCount default.clientReadTimeout
  let clientConnectTimeout ←
    readVariable env "BOTO_CONNECT_TIMEOUT" readCount default.clientConnectTimeout
  check {
    pollInterval, pollBackoff, maxPollInterval, maxPollAttempts, clientMaxAttempts,
    clientRetryMode := if clientRetryMode.truthy then clientRetryMode else default.clientRetryMode
    clientReadTimeout, clientConnectTimeout }

end Settings

/-! ## Clients -/

/-- The name with which a client introduces itself. -/
def Settings.defaultTag : String := "iam-dump"

/-- **What a client is built with**, under a name. -/
def RawSettings.clientOptions (s : RawSettings) (tag : Value) : Except Fault ClientOptions :=
  if retryModes.any fun mode => s.clientRetryMode.same (.text mode) then
    .ok ⟨s.clientMaxAttempts, s.clientRetryMode, s.clientReadTimeout, s.clientConnectTimeout, tag⟩
  else .error (.retryMode s.clientRetryMode)

/-- What a client is built with, under a name. -/
def Settings.clientOptions (s : Settings) (tag : Value) : Except Fault ClientOptions :=
  s.raw.clientOptions tag

end IamInventory

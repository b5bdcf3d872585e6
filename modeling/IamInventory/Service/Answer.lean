import IamInventory.Value.Order
import IamInventory.Value.Parts

/-!
# Answers — what a call of the service ends with

  A call ends with a response, or with trouble: the service rejects it with an error report, or
  the client gives up before there is an answer. Trouble has words and a code; reading it can fail
  itself, if the error report has not the shape of one.

* **`Answer.settle`** — the response of a call, or its trouble.
* **`Trouble.failure`** — trouble as the failure of a call.
-/

namespace IamInventory

/-- What can be asked of the service. -/
structure Action where
  name : String
deriving DecidableEq, Repr

/-- The words that the service's own names write in capitals throughout. -/
def initialisms : List String := ["id", "mfa", "saml", "ssh"]

/-- A word as it stands in the service's own names: with a capital, or in capitals throughout. -/
def capitalized (word : List Char) : List Char :=
  if String.ofList word ∈ initialisms then word.map Char.toUpper
  else match word with
    | [] => []
    | c :: cs => c.toUpper :: cs

/-- The service's own name for an action: its words without what stands between them. -/
def Action.apiName (a : Action) : String :=
  String.ofList ((a.name.toList.splitOn '_').flatMap capitalized)

/-- The ways in which a client gives up. -/
inductive ClientFault where
  | noCredentials
  | partialCredentials
  | noRegion
  | noProfile
  | unreachable
  | readTimeout
  | connectTimeout
  | badParameters
  | pagination
  | unspecified
deriving DecidableEq, Repr

/-- What a call ends with. -/
inductive Answer where
  | response (v : Value)
  | rejected (report : Value)
  | gaveUp (fault : ClientFault) (details : Members)
  | invalid (message : String)
deriving Inhabited

/-- Trouble with a call: in words, and the service's code for it, an empty one if the service has
    not answered. -/
structure Trouble where
  text : String
  code : Value

namespace ClientFault

/-- A detail that the words of a fault name. -/
def detail (details : Members) (name : String) : Except Fault String :=
  match details.get? name with
  | some v => .ok v.shown
  | none => .error (.missing (.text name))

/-- The words of a fault with its details. -/
def text (details : Members) : ClientFault → Except Fault String
  | .noCredentials => .ok "Unable to locate credentials"
  | .partialCredentials => do
    let provider ← detail details "provider"
    let missing ← detail details "cred_var"
    .ok ("Partial credentials found in " ++ provider ++ ", missing: " ++ missing)
  | .noRegion => .ok "You must specify a region."
  | .noProfile => do
    let profile ← detail details "profile"
    .ok ("The config profile (" ++ profile ++ ") could not be found")
  | .unreachable => do
    let url ← detail details "endpoint_url"
    .ok ("Could not connect to the endpoint URL: \"" ++ url ++ "\"")
  | .readTimeout => do
    let url ← detail details "endpoint_url"
    .ok ("Read timeout on endpoint URL: \"" ++ url ++ "\"")
  | .connectTimeout => do
    let url ← detail details "endpoint_url"
    .ok ("Connect timeout on endpoint URL: \"" ++ url ++ "\"")
  | .badParameters => do
    let report ← detail details "report"
    .ok ("Parameter validation failed:\n" ++ report)
  | .pagination => do
    let message ← detail details "message"
    .ok ("Error during pagination: " ++ message)
  | .unspecified => .ok "An unspecified error occurred"

end ClientFault

namespace Rejection

/-- What the error report says about the answer itself, if it says anything. -/
def answerPart? : Value → Except Fault (Option Value)
  | .object ms => .ok (Members.get? ms "ResponseMetadata")
  | .text s => if (s.splitOn "ResponseMetadata").length > 1 then .error .mistyped else .ok none
  | .list vs =>
    if vs.any fun v => v.same (.text "ResponseMetadata") then .error .mistyped else .ok none
  | _ => .error .mistyped

/-- The words about retries, if the client has used them all up. -/
def retryText (report : Value) : Except Fault String := do
  match ← answerPart? report with
  | none => .ok ""
  | some about =>
    if (← about.memberOr "MaxAttemptsReached" (.bool false)).truthy then
      let ms ← about.members
      match ms.get? "RetryAttempts" with
      | some n => .ok (" (reached max retries: " ++ n.shown ++ ")")
      | none => .ok ""
    else .ok ""

/-- The trouble that an error report tells of. -/
def trouble (action : Action) (report : Value) : Except Fault Trouble := do
  let retries ← retryText report
  let error ← report.memberOr "Error" (.object [])
  let code ← error.memberOr "Code" (.text "Unknown")
  let message ← error.memberOr "Message" (.text "Unknown")
  let text := "An error occurred (" ++ code.shown ++ ") when calling the " ++ action.apiName ++
    " operation" ++ retries ++ ": " ++ message.shown
  .ok ⟨text, ← error.memberOr "Code" (.text "")⟩

end Rejection

/-- What a call has settled to. -/
inductive Settled where
  | response (v : Value)
  | trouble (t : Trouble)

namespace Answer

/-- **The response of a call, or its trouble.** -/
def settle (action : Action) : Answer → Except Fault Settled
  | .response v => .ok (.response v)
  | .rejected report => (Rejection.trouble action report).map .trouble
  | .gaveUp fault details => (fault.text details).map fun s => .trouble ⟨s, .text ""⟩
  | .invalid message => .error (.invalid message)

end Answer

/-- The failure of a call that was made for an entity. -/
def Trouble.failure (t : Trouble) (action : Action) (identifier : Value) : Failure :=
  ⟨.transport t.code, .text t.text, .text action.name, identifier⟩

end IamInventory

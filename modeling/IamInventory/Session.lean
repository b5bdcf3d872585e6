import IamInventory.Run
import IamInventory.Value.Parts

/-!
# Sessions — the account that is looked at, and how it is called

  A session knows the account, the region and the settings. Clients are built from it, and calls
  of the service are made with the entity in mind that they are for, which a failure then names.

* **`call`** — the response of a call, or the failure that wraps its trouble.
* **`Session.resolve`** — the session of whoever the credentials belong to.
-/

namespace IamInventory

/-- The account that is looked at. -/
structure Session where
  account : Value
  region : Value
  settings : Settings

variable {σ : Type}

/-- **The response of a call** that is made for an entity. -/
def call (action : Action) (arguments : Members) (identifier : Value) : Run σ Value := do
  let a ← Run.answer action arguments
  match ← Run.ofFault (a.settle action) with
  | .response v => pure v
  | .trouble t => Run.fail (t.failure action identifier)

/-- Builds a client for a service in a region. -/
def buildClient (service region : Value) (settings : Settings) : Run σ Unit := do
  let options ← Run.ofFault (settings.clientOptions (.text Settings.defaultTag))
  Run.emit (.built service region options)

namespace Session

/-- The region where no other is known. -/
def defaultRegion : String := "us-east-1"

/-- Builds a client for a service from the session. -/
def client (session : Session) (service : Value) : Run σ Unit :=
  buildClient service session.region session.settings

/-- The action that tells who is calling. -/
def whoAmI : Action := ⟨"get_caller_identity"⟩

/-- **The session of whoever the credentials belong to**, in their region if they have one. -/
def resolve (region : Value) (settings : Settings) : Run σ Session := do
  let region := if region.truthy then region else .text defaultRegion
  buildClient (.text "sts") region settings
  let identity ← call whoAmI [] .null
  let account ← Run.ofFault (identity.member "Account")
  pure ⟨account, region, settings⟩

end Session

end IamInventory

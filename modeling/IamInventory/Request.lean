import IamInventory.Listing
import IamInventory.Service.Client

/-!
# Requests — calls and listings that are asked for by name

  The reports know what they call. Whoever asks from outside gives a name, which has to be one of
  the catalog or of the client's own parts, and arguments, none of which can have a name that a
  request uses itself. Everything about a request is looked at before the service is called.

* **`Request.call`** — the response of a call.
* **`Request.list`** — the first items of a listing.
-/

namespace IamInventory

/-- What is asked for: under which name, with which arguments, and for which entity. -/
structure Request where
  name : Value
  arguments : Members
  identifier : Value

namespace Request

variable {σ : Type}

/-- The names that a request for a call uses itself. -/
def callNames : List String := ["client", "method_name", "identifier"]

/-- The names that a request for a listing uses itself. -/
def listNames : List String := "result_key" :: callNames

/-- The name that every action uses itself. -/
def actionName : String := "self"

/-- Whether an argument has one of some names. -/
def uses (r : Request) (names : List String) : Bool := names.any r.arguments.has

/-- The action of the name, if the service knows one. -/
def action? (r : Request) : Option Action := Client.action? r.name

/-- What the client tells by itself to a name that is no action: a client has no part of that name,
    or a part that says so itself. -/
def told (r : Request) : Except Fault Settled :=
  match r.name with
  | .text s => (Client.tell s r.arguments).getD (.error .partless)
  | _ => .error .mistyped

/-- The action that is called under the name. -/
def called (r : Request) (a : Action) : Except Fault Action :=
  if r.uses [actionName] then .error .mistyped else .ok a

/-- The response to the name and the arguments, from the service or from the client. -/
def respond (r : Request) : Run σ Value := do
  match r.action? with
  | some a => IamInventory.call (← Run.ofFault (r.called a)) r.arguments r.identifier
  | none =>
    match ← Run.ofFault r.told with
    | .response v => pure v
    | .trouble t => Run.fail (t.failure ⟨r.name.shown⟩ r.identifier)

/-- **The response of a call.** -/
def call (r : Request) : Run σ Value :=
  if r.uses callNames then Run.fault .mistyped else r.respond

/-- A listing of a name that is no action: whether it comes in pages cannot be told, unless a script
    tells; and what a client tells by itself holds no items. -/
def listOther (r : Request) : Run σ Demand := do
  if ← Run.ofScript fun script => script.unpaged.any fun a => r.name.same (.text a.name) then do
    let v ← r.respond
    let _ ← Run.ofFault v.members
    pure .more
  else Run.fault (if r.name.isName then .missing r.name else .mistyped)

/-- The listing of an action: its arguments may have options in them. -/
def listing (r : Request) (a : Action) (key : Value) : Except Fault Listing := do
  let (window, arguments) ← match r.arguments.get? Paging.optionsName with
    | none => .ok (Window.whole, r.arguments)
    | some options => Paging.window options (r.arguments.erase Paging.optionsName)
  .ok ⟨a, key, arguments, r.identifier, window⟩

/-- **The first items of a listing**, as many as are given, or all; the draft holds those that have
    come. -/
def list (r : Request) (key : Value) (count : Option Nat) : Run (List Value) Demand := do
  if r.uses listNames then Run.fault .mistyped
  else if count = some 0 then pure .enough
  else match r.action? with
    | none => r.listOther
    | some a =>
      let a ← Run.ofFault (r.called a)
      if ← Run.isPaged a then (← Run.ofFault (r.listing a key)).take count
      else Listing.take ⟨a, key, r.arguments, r.identifier, .whole⟩ count

end Request

end IamInventory

import IamInventory.Service.Catalog
import IamInventory.Value.Named

/-!
# The client — what it tells without asking the service

  Besides the actions of the service a client has parts of its own. One of them tells whether the
  answers of an action come in pages, another one closes the client and tells nothing. The parts
  that make things tell what cannot be made; what they do make is no value, and neither are the
  parts that cannot be called at all.

* **`Client.tell`** — what a part of a client tells, if there is such a part.
-/

namespace IamInventory.Client

/-- The only argument that is given, which has to have a name. -/
def only (name : String) : Members → Except Fault Value
  | [(given, v)] => if given = name then .ok v else .error .mistyped
  | _ => .error .mistyped

/-- A value that is looked up as a name. -/
def nameOf (v : Value) : Except Fault Value := if v.isName then .ok v else .error .mistyped

/-- The action that a value names, if there is one. -/
def action? : Value → Option Action
  | .text s => if Action.isKnown ⟨s⟩ then some ⟨s⟩ else none
  | _ => none

/-- Whether the answers of an action that a value names come in pages. -/
def isPaged (v : Value) : Except Fault Bool := do
  let name ← nameOf v
  match action? name with
  | some a => .ok a.mainItems?.isSome
  | none => .error (.missing name)

/-- What a client can wait for. -/
def waits : List String :=
  ["instance_profile_exists", "policy_exists", "role_exists", "user_exists"]

/-- Whether a value names something that a client can wait for. -/
def canWait (v : Value) : Bool := waits.any fun name => v.same (.text name)

/-- The names of the arguments of a call that is signed in advance. -/
def signedNames : List String := ["ClientMethod", "Params", "ExpiresIn", "HttpMethod"]

/-- What a part of a client that makes something cannot make. -/
def trouble (words : String) (v : Value) : Settled := .trouble ⟨words ++ v.shown, .text ""⟩

/-- Whether the answers of the named action come in pages, as an answer. -/
def tellPaged (arguments : Members) : Except Fault Settled := do
  let paged ← isPaged (← only "operation_name" arguments)
  .ok (.response (.bool paged))

/-- The pages of the named action can be made only if its answers come in pages. -/
def tellPages (arguments : Members) : Except Fault Settled := do
  let v ← only "operation_name" arguments
  if ← isPaged v then .error .mistyped
  else .ok (trouble "Operation cannot be paginated: " v)

/-- A wait can be made only for what a client can wait for. -/
def tellWait (arguments : Members) : Except Fault Settled := do
  let v ← nameOf (← only "waiter_name" arguments)
  .error (if canWait v then .mistyped else .invalid ("Waiter does not exist: " ++ v.shown))

/-- A call can be signed in advance only if it is one of an action. -/
def tellSigned (arguments : Members) : Except Fault Settled := do
  if arguments.names.any fun name => name ∉ signedNames then .error .mistyped
  else match arguments.get? "ClientMethod" with
    | none => .error .mistyped
    | some v => do
      let name ← nameOf v
      match action? name with
      | some _ => .error .mistyped
      | none => .ok (trouble "Client does not have method: " name)

/-- **What a part of a client tells**, if there is such a part. -/
def tell (part : String) (arguments : Members) : Option (Except Fault Settled) :=
  match part with
  | "close" =>
    some (if arguments.isEmpty then .ok (.response .null) else .error .mistyped)
  | "can_paginate" => some (tellPaged arguments)
  | "get_paginator" => some (tellPages arguments)
  | "get_waiter" => some (tellWait arguments)
  | "generate_presigned_url" => some (tellSigned arguments)
  | "exceptions" => some (.error .mistyped)
  | "meta" => some (.error .mistyped)
  | "waiter_names" => some (.error .mistyped)
  | _ => none

end IamInventory.Client

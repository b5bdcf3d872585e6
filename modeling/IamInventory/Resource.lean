import IamInventory.Value.Parts

/-!
# Resources — the entities of an account, one record each

  A record holds the identity of an entity, where it belongs, and what the service sent for it,
  which is an object unless a record is made from outside. What is learnt about the use of the
  entity is written into the members of that object afterwards.

* **`Resource.ofFields`** — the record of given fields; `Resource.ofFields_fields` says that the
  fields of a record give the record back.
* **`Resource.setMember`** — a record with one member written.
* **`itemMembers`** — the members of what the service sent, without those about the answer itself.
-/

namespace IamInventory

/-! ## Names of the members that this library writes -/

namespace Name

/-- The latest use. -/
def lastUsed : String := "LastUsed"

/-- The use of each service. -/
def servicesLastAccessed : String := "ServiceLastAccessed"

/-- The latest use of an access key, as the service tells it. -/
def accessKeyLastUsed : String := "AccessKeyLastUsed"

/-- The document of a policy version. -/
def document : String := "Document"

/-- The document that says who may take on a role. -/
def trustPolicy : String := "AssumeRolePolicyDocument"

end Name

/-- The record of an entity. -/
structure Resource where
  id : Value
  arn : Value
  account : Value
  region : Value
  service : Value
  kind : Value
  metadata : Value
deriving Inhabited

namespace Resource

/-! ## Fields by name -/

/-- The fields of a record by name. -/
def fields (r : Resource) : Members :=
  [("id", r.id), ("arn", r.arn), ("account_id", r.account), ("region", r.region),
   ("service", r.service), ("type", r.kind), ("metadata", r.metadata)]

/-- The names of the fields. -/
def fieldNames : List String :=
  ["id", "arn", "account_id", "region", "service", "type", "metadata"]

/-- The field of a name, which has to be given. -/
def required (given : Members) (name : String) : Except Fault Value :=
  match given.get? name with
  | some v => .ok v
  | none => .error .mistyped

/-- **The record of given fields.** All of them have to be given but what the service sent, and no
    other name is a field. -/
def ofFields (given : Members) : Except Fault Resource := do
  if given.names.any fun name => name ∉ fieldNames then .error .mistyped
  else .ok {
    id := ← required given "id"
    arn := ← required given "arn"
    account := ← required given "account_id"
    region := ← required given "region"
    service := ← required given "service"
    kind := ← required given "type"
    metadata := (given.get? "metadata").getD (.object []) }

/-- The fields of a record give the record back. -/
theorem ofFields_fields (r : Resource) : ofFields r.fields = .ok r := rfl

/-! ## Members of what the service sent -/

/-- The latest use of the entity, null if none is known. -/
def lastUsed (r : Resource) : Except Fault Value := r.metadata.memberOr Name.lastUsed .null

/-- The use of each service, null if nothing is known. -/
def servicesLastAccessed (r : Resource) : Except Fault Value :=
  r.metadata.memberOr Name.servicesLastAccessed .null

/-- Whether members can be written into the record. -/
def isWritable (r : Resource) : Bool :=
  match r.metadata with
  | .object _ => true
  | _ => false

/-- The record with one member written, if members can be written into it. -/
def setMember (r : Resource) (name : String) (v : Value) : Resource :=
  match r.metadata with
  | .object ms => { r with metadata := .object (Members.set ms name v) }
  | _ => r

/-- The calendar form of the latest use, nothing if none is known. -/
def lastUsedText? (r : Resource) : Except Fault (Option String) := do
  match ← r.lastUsed with
  | .time t => .ok (some t.text)
  | v => if v.truthy then .error .partless else .ok none

end Resource

/-- **The members of what the service sent for an entity**, without those about the answer. -/
def itemMembers (item : Value) : Except Fault Members := do
  .ok ((← item.members).erase "ResponseMetadata")

end IamInventory

import IamInventory.Resource

/-!
# Reports — resources in order, and how a listing ended

  A report collects resources in the order in which they are found. Some of them are *tracked*
  under an identifier: their use is looked up later, and no identifier is tracked twice, whichever
  way it is spelled. The first failure that is recorded stays.

* **`Report.add`** — a report with one more resource, tracked or not.
* **`Report.targets`** — the tracked resources with their identifiers.
* **`Report.update`** — a report with the resource tracked under an identifier changed.
-/

namespace IamInventory

/-- A resource of a report, and the identifier under which it is tracked, if it is. -/
structure Entry where
  resource : Resource
  tracked : Option Value
deriving Inhabited

/-- The resources found by a listing, and the failure that ended it, if one did. -/
structure Report where
  entries : List Entry
  error : Option Failure
deriving Inhabited

namespace Report

/-- The report without resources. -/
def empty : Report := ⟨[], none⟩

/-- The resources in order. -/
def resources (r : Report) : List Resource := r.entries.map Entry.resource

/-- The tracked resources with their identifiers, in order. -/
def targets (r : Report) : Named Resource :=
  r.entries.filterMap fun e => e.tracked.map fun identifier => (identifier, e.resource)

/-- The identifiers that are tracked, in order. -/
def tracked (r : Report) : List Value := r.entries.filterMap Entry.tracked

/-- Whether an identifier is tracked. -/
def tracks (r : Report) (identifier : Value) : Bool := r.tracked.any (·.same identifier)

/-- Whether no failure has been recorded. -/
def isOk (r : Report) : Bool := r.error.isNone

/-- The failure of tracking an identifier twice. -/
def alreadyTracked (identifier : Value) : Failure :=
  ⟨.correlation, .text "identifier is already tracked by another resource", .text "track",
    identifier⟩

/-- **The report with one more resource**, tracked under an identifier if one is given, which has
    to be a name. -/
def add (r : Report) (resource : Resource) (identifier : Option Value) : Except Fault Report :=
  match identifier with
  | none => .ok { r with entries := r.entries ++ [⟨resource, none⟩] }
  | some i =>
    if !i.isName then .error .mistyped
    else if r.tracks i then .error (.failure (alreadyTracked i))
    else .ok { r with entries := r.entries ++ [⟨resource, some i⟩] }

/-- The report with more resources, none of them tracked. -/
def extend (r : Report) (resources : List Resource) : Report :=
  { r with entries := r.entries ++ resources.map fun resource => ⟨resource, none⟩ }

/-- The report with a failure recorded, unless there is one already. -/
def fail (r : Report) (f : Failure) : Report := { r with error := r.error.or (some f) }

/-- **The report with the resource tracked under an identifier changed.** -/
def update (r : Report) (identifier : Value) (change : Resource → Resource) : Report :=
  { r with entries := r.entries.map fun e =>
      if e.tracked.any (·.same identifier) then { e with resource := change e.resource } else e }

/-- The report with one member written into the resource tracked under an identifier. -/
def write (r : Report) (identifier : Value) (name : String) (v : Value) : Except Fault Report :=
  if r.targets.any fun t => t.1.same identifier && !t.2.isWritable then .error .mistyped
  else .ok (r.update identifier (·.setMember name v))

/-- The report that tracks resources under identifiers, which have to be names: one that is given
    twice keeps its first place and its last resource. -/
def ofTargets (targets : List (Value × Resource)) : Except Fault Report :=
  if targets.all fun t => t.1.isName then
    .ok ⟨(Named.ofPairs targets).map fun t => ⟨t.2, some t.1⟩, none⟩
  else .error .mistyped

theorem resources_extend (r : Report) (rs : List Resource) :
    (r.extend rs).resources = r.resources ++ rs := by
  simp [extend, resources, Function.comp_def]

theorem tracked_extend (r : Report) (rs : List Resource) : (r.extend rs).tracked = r.tracked := by
  simp [extend, tracked, List.filterMap_append, List.filterMap_map]

end Report

end IamInventory

import IamInventory.Proofs.Contracts
import IamInventory.Proofs.Enumeration
import IamInventory.Proofs.LatestUse

/-!
# Completeness — what is asked of answers, and what is made of them

  Reports take answers apart without a schema, so an answer has to have the parts that they ask for.
  An answer is *complete* if it has: the items of a listing are objects with their names, the
  response for a version holds the version, an entry is dated by timestamps that can be compared.
  What stands in the parts may be anything, also what is no ARN or no document.

  Of complete answers everything can be made, or it ends with a failure that a report keeps. Each
  part of the work has one lemma here that says so, and what its result is.

* **`Answer.Complete`** — answers with the parts that are asked of them.
* **`Failure.IsReported`** — the failures that reports keep.
* **`ReportKind.Makes`** — what the records of items look like.
* **`ReportKind.visit_eq`** — the work for an item is to make its record and to enter it.
-/

namespace IamInventory

open LastAccessed

/-! ## Failures that reports keep -/

/-- Whether a failure is one that a report may end with: trouble with a call, a document or a name
    that cannot be decoded, a job that does not complete, or an entity that is tracked already. It
    can be put into words. -/
structure Failure.IsReported (f : Failure) : Prop where
  kind : match f.kind with
    | .transport _ => True
    | .decoding => True
    | .malformedArn => True
    | .jobFailed => True
    | .jobTimeout => True
    | .correlation => f.operation = .text "track"
    | .general => False
  readable : f.isReadable

/-- A failure of an operation with a name can be put into words, whatever the details are. -/
theorem Failure.isReadable_of_operation {f : Failure} {name : String}
    (h : f.operation = .text name) (hname : name ≠ "") : f.isReadable := by
  have htruthy : f.operation.truthy = true := by
    rw [h]
    exact bne_iff_ne.mpr hname
  have hshown : f.operation.shown = name := by
    rw [h]
    rfl
  have hheading : f.heading ≠ "" := by
    rw [heading, htruthy, hshown]
    cases f.identifier.truthy with
    | true =>
      simp [hname]
    | false => simpa using hname
  have htext : f.operation.isText = true := by
    rw [h]
    rfl
  rw [isReadable, htext, Bool.or_true, Bool.true_and, Bool.or_eq_true, bne_iff_ne]
  exact Or.inl hheading

/-- Whether a fault is such a failure. -/
def Fault.IsReported (e : Fault) : Prop := ∃ f, e = .failure f ∧ f.IsReported

/-! ## Complete answers -/

namespace Members

/-- Whether what stands under a name, if it is there, is a list of objects of some kind. -/
def Lists (ms : Members) (key : String) (B : Members → Prop) : Prop :=
  ∀ v, ms.get? key = some v →
    ∃ items : List Members, v = .list (items.map .object) ∧ ∀ item ∈ items, B item

/-- Whether what stands under a name, if it is there, is null or an object. -/
def HoldsObject (ms : Members) (name : String) : Prop :=
  ∀ v, ms.get? name = some v → v = .null ∨ ∃ members : Members, v = .object members

/-- Whether the latest use in an entry, if it is there, is null or a timestamp with an offset. -/
def IsDated (entry : Members) : Prop :=
  ∀ v, entry.get? "LastAuthenticated" = some v → v = .null ∨ ∃ t, v = .time t ∧ t.isZoned

/-- The listings of reports: the name of their items, and the members that each item has to have. -/
def needed : List (Action × String × List String) :=
  [(⟨"list_users"⟩, "Users", ["Arn", "UserName"]),
   (⟨"list_groups"⟩, "Groups", ["Arn"]),
   (⟨"list_roles"⟩, "Roles", ["Arn", "RoleId"]),
   (⟨"list_policies"⟩, "Policies", ["Arn"]),
   (⟨"list_instance_profiles"⟩, "InstanceProfiles", ["Arn", "InstanceProfileId"]),
   (⟨"list_access_keys"⟩, "AccessKeyMetadata", ["AccessKeyId"]),
   (⟨"list_policy_versions"⟩, "Versions", ["VersionId"])]

/-- **Whether the members of a response to an action are those that are asked of it.** -/
structure Fits (ms : Members) (action : Action) : Prop where
  items : ∀ row ∈ needed, action = row.1 →
    ms.Lists row.2.1 fun item => ∀ name ∈ row.2.2, item.has name
  roles : action = ⟨"list_instance_profiles"⟩ →
    ms.Lists "InstanceProfiles" (·.ListsObjects "Roles")
  use : action = ⟨"get_access_key_last_used"⟩ → ms.HoldsObject Name.accessKeyLastUsed
  version : action = ⟨"get_policy_version"⟩ →
    ∃ found : Members, ms.get? "PolicyVersion" = some (.object found)
  job : action = generate → ms.has "JobId"
  error : action = details → ms.HoldsObject "Error"
  entries : action = details → ms.Lists "ServicesLastAccessed" IsDated

theorem Lists.objects {ms : Members} {key : String} {B : Members → Prop} (h : ms.Lists key B) :
    ms.ListsObjects key := by
  intro v hv
  obtain ⟨items, rfl, -⟩ := h v hv
  exact ⟨items, rfl⟩

theorem HoldsObject.getD {ms : Members} {name : String} (h : ms.HoldsObject name) :
    (ms.get? name).getD .null = .null ∨
      ∃ members : Members, (ms.get? name).getD .null = .object members := by
  cases hv : ms.get? name with
  | none => exact Or.inl rfl
  | some v => exact h v hv

/-- A page of a listing fits if its items have the members that are asked of them, and for instance
    profiles their roles are objects. -/
theorem fits_page (row : Action × String × List String) (hrow : row ∈ needed)
    {items : List Members} (hitems : ∀ item ∈ items, ∀ name ∈ row.2.2, item.has name)
    (hroles : ∀ item ∈ items, item.ListsObjects "Roles") :
    Members.Fits [(row.2.1, .list (items.map .object))] row.1 := by
  have hother : ∀ row ∈ needed, row.1 ∉
      [⟨"get_access_key_last_used"⟩, ⟨"get_policy_version"⟩, generate, details] := by decide
  have hlists {key : String} {B : Members → Prop} (hB : ∀ item ∈ items, B item) :
      Members.Lists [(row.2.1, .list (items.map .object))] key B := by
    intro v hv
    by_cases hkey : row.2.1 = key
    · simp only [get?, hkey, if_true, Option.some.injEq] at hv
      exact ⟨items, hv.symm, hB⟩
    · simp [get?, hkey] at hv
  refine ⟨?_, fun _ => hlists hroles, ?_, ?_, ?_, ?_, ?_⟩
  · intro row' hrow' haction
    have hsame : ∀ row ∈ needed, ∀ row' ∈ needed, row.1 = row'.1 → row = row' := by decide
    obtain rfl := hsame row hrow row' hrow' haction
    exact hlists hitems
  all_goals
    intro haction
    refine absurd ?_ (hother row hrow)
    rw [haction]
    decide

/-- An object has the members that it has. -/
theorem member_of_has {ms : Members} {name : String} (h : ms.has name) :
    ∃ v, ms.get? name = some v ∧ (Value.object ms).member name = .ok v := by
  obtain ⟨v, hv⟩ := Option.isSome_iff_exists.mp h
  refine ⟨v, hv, ?_⟩
  simp only [Value.member, hv]

end Members

/-- **Whether an answer to an action is complete**: a response with the parts that are asked of it,
    or an error that can be read. -/
def Answer.Complete (action : Action) : Answer → Prop
  | .response v => ∃ ms : Members, v = .object ms ∧ ms.Fits action
  | a => a.Raises

namespace Answer

/-- A complete answer is trouble, or it is a response that fits. -/
theorem Complete.told {action : Action} {a : Answer} (h : a.Complete action) (identifier : Value) :
    Ends Fault.IsReported (fun v => ∃ ms : Members, v = .object ms ∧ ms.Fits action)
      (a.told action identifier) := by
  have htrouble (hr : a.Raises) : Ends Fault.IsReported
      (fun v => ∃ ms : Members, v = .object ms ∧ ms.Fits action) (a.told action identifier) := by
    obtain ⟨t, ht, -⟩ := settle_of_raises hr action
    rw [Answer.told, ht]
    exact ⟨_, rfl, trivial, Failure.isReadable_of_texts (Or.inr rfl) rfl⟩
  cases a with
  | response v => exact h
  | rejected report => exact htrouble h
  | gaveUp fault text => exact htrouble h
  | invalid message => exact h.elim

theorem complete_unscripted (action : Action) : Script.unscripted.Complete action := by
  constructor
  · rintro v hv
    cases hv
    exact ⟨_, rfl⟩
  · rintro v hv
    cases hv

end Answer

/-! ## Records of items -/

namespace ReportKind

/-- The name under which the items of a report's listing come. -/
def itemsName : ReportKind → String
  | users => "Users"
  | groups => "Groups"
  | roles => "Roles"
  | policies => "Policies"
  | profiles => "InstanceProfiles"

/-- **The record of an item**: the resource that a report makes of it before it calls anything. -/
def record (kind : ReportKind) (session : Session) (item : Value) : Except Fault Resource := do
  let resource ← Resource.ofItem session (← item.member "Arn") item
  match kind with
  | roles => do
    let metadata ← decodeTrust (← itemMembers item) resource.arn
    let id ← item.member "RoleId"
    .ok { resource with id, metadata := .object metadata }
  | profiles => do
    let id ← item.member "InstanceProfileId"
    let roles ← profileRoles (← (← item.memberOr "Roles" (.list [])).items)
    .ok ({ resource with id }.setMember "Roles" (.list roles))
  | _ => .ok resource

/-- What a report does with the record of an item. -/
def enter (kind : ReportKind) (session : Session) (item : Value) (record : Resource) :
    Run Draft Unit :=
  match kind with
  | users => do
    track record
    let userName ← Run.ofFault (item.member "UserName")
    let keys ← accessKeys session userName
    Run.redraft fun d => { d with deferred := d.deferred ++ keys }
  | policies => do
    let versions ← policyVersions session record.arn
    track record
    Run.redraft fun d => { d with report := d.report.extend versions }
  | profiles => Run.redraft fun d => { d with report := d.report.extend [record] }
  | _ => track record

/-- What a report makes of an item is to make its record and to enter it. -/
theorem visit_eq (kind : ReportKind) (session : Session) (item : Value) :
    kind.visit session item =
      Run.ofFault (kind.record session item) >>= kind.enter session item := by
  cases kind <;>
    simp only [visit, record, enter, Run.ofFault_bind, Run.ofFault_ok, bind_assoc, pure_bind]

end ReportKind

/-- The resource that an ARN names, with the members of what the service sent. -/
def Resource.ofArn (session : Session) (arn : Arn) (metadata : Members) : Resource where
  id := .text arn.text
  arn := .text arn.text
  account := if arn.account = "" then session.account else .text arn.account
  region := if arn.region = "" then session.region else .text arn.region
  service := .text arn.service
  kind := .text arn.resourceType
  metadata := .object metadata

/-- Whether a value is a role with its trust policy decoded. -/
def IsDecodedRole (role : Members) (v : Value) : Prop :=
  ∃ document, Policy.decode (role.get Name.trustPolicy) (role.get "Arn") = .ok document ∧
    v = .object (role.set Name.trustPolicy document)

/-- **What the records of items look like**, by the kind of report that makes them. -/
inductive ReportKind.Makes (session : Session) (item : Members) : ReportKind → Resource → Prop where
  | entity {kind : ReportKind} {arn : Arn} : kind ≠ .roles → kind ≠ .profiles →
      Makes session item kind (.ofArn session arn (item.erase "ResponseMetadata"))
  | role {arn : Arn} {id document : Value} : item.get? "RoleId" = some id →
      Policy.decode (Members.get (item.erase "ResponseMetadata") Name.trustPolicy)
        (.text arn.text) = .ok document →
      Makes session item .roles
        { Resource.ofArn session arn
            (Members.set (item.erase "ResponseMetadata") Name.trustPolicy document) with id }
  | profile {arn : Arn} {id : Value} {roles : List Members} {decoded : List Value} :
      item.get? "InstanceProfileId" = some id →
      (item.get? "Roles").getD (.list []) = .list (roles.map .object) →
      List.Forall₂ IsDecodedRole roles decoded →
      Makes session item .profiles
        { Resource.ofArn session arn
            (Members.set (item.erase "ResponseMetadata") "Roles" (.list decoded)) with id }

/-- The records of items are named by texts. -/
theorem ReportKind.Makes.exists_arn {session : Session} {item : Members} {kind : ReportKind}
    {r : Resource} (h : kind.Makes session item r) : ∃ name, r.arn = .text name := by
  cases h <;> exact ⟨_, rfl⟩

/-! ## Parts of answers -/

/-- Whether a value is null or a timestamp with an offset. -/
def Value.IsDate (v : Value) : Prop := v = .null ∨ ∃ t, v = .time t ∧ t.isZoned

theorem Arn.ends_parse (v : Value) :
    Ends Fault.IsReported (fun _ => True) ((Arn.parse v).mapError .failure) := by
  cases v with
  | text s =>
    rw [Arn.parse]
    cases Arn.read? s with
    | none => exact ⟨_, rfl, trivial, Failure.isReadable_of_texts (Or.inr rfl) rfl⟩
    | some arn => exact trivial
  | _ => exact ⟨_, rfl, trivial, Failure.isReadable_of_texts (Or.inr rfl) rfl⟩

/-- What cannot be decoded is a failure that is reported. -/
theorem Policy.ends_decode (raw identifier : Value) :
    Ends Fault.IsReported (fun document => Policy.decode raw identifier = .ok document)
      ((Policy.decode raw identifier).mapError .failure) := by
  rw [Policy.decode]
  cases Policy.decodeRaw raw with
  | error flaw => exact ⟨_, rfl, trivial, Failure.isReadable_of_texts (Or.inr rfl) rfl⟩
  | ok document => exact rfl

/-- **The resource of an item that is an object**, where the item is named by an ARN. -/
theorem Resource.ends_ofItem (session : Session) (name : Value) (item : Members) :
    Ends Fault.IsReported
      (fun r => ∃ arn, r = .ofArn session arn (item.erase "ResponseMetadata"))
      (Resource.ofItem session name (.object item)) :=
  (Arn.ends_parse name).bind fun arn _ => ⟨arn, rfl⟩

theorem ends_decodeTrust (role : Members) (identifier : Value) :
    Ends Fault.IsReported
      (fun members => ∃ document,
        Policy.decode (role.get Name.trustPolicy) identifier = .ok document ∧
          members = role.set Name.trustPolicy document)
      (decodeTrust role identifier) :=
  (Policy.ends_decode _ _).bind fun document h => ⟨document, h, rfl⟩

theorem ends_profileRoles (roles : List Members) :
    Ends Fault.IsReported (List.Forall₂ IsDecodedRole roles)
      (profileRoles (roles.map .object)) := by
  induction roles with
  | nil => exact .nil
  | cons role roles ih =>
    show Ends _ _ (do
      let decoded ← decodeTrust role (role.get "Arn")
      .ok (.object decoded :: (← profileRoles (roles.map .object))))
    refine (ends_decodeTrust role _).bind fun members hmembers => ?_
    obtain ⟨document, hdocument, rfl⟩ := hmembers
    exact ih.bind fun decoded hdecoded => .cons ⟨document, hdocument, rfl⟩ hdecoded

/-- What is told of the use of a key is an object, or nothing. -/
theorem exists_use {v : Value} (h : v = .null ∨ ∃ members : Members, v = .object members) :
    ∃ use, (if v.truthy then v.pairs else .ok []) = .ok use := by
  rcases h with rfl | ⟨members, rfl⟩
  · exact ⟨[], rfl⟩
  · split
    · exact ⟨members, rfl⟩
    · exact ⟨[], rfl⟩

/-- A dated entry tells of null or of a timestamp with an offset. -/
theorem Members.IsDated.told {entry : Members} (h : entry.IsDated) :
    ∃ told, (Value.object entry).memberOr "LastAuthenticated" .null = .ok told ∧ told.IsDate := by
  refine ⟨(entry.get? "LastAuthenticated").getD .null, rfl, ?_⟩
  cases hv : entry.get? "LastAuthenticated" with
  | none => exact Or.inl rfl
  | some v => exact h v hv

theorem Members.IsDated.isEntry {entry : Members} (h : entry.IsDated) :
    IsEntry (.object entry) := by
  obtain ⟨told, htold, hnull | ⟨t, ht, -⟩⟩ := h.told
  · exact ⟨told, htold, Or.inl hnull⟩
  · exact ⟨told, htold, Or.inr ⟨t, ht⟩⟩

theorem Members.IsDated.isZoned {entry : Members} (h : entry.IsDated) {t : Timestamp}
    (ht : stamp? (.object entry) = some t) : t.isZoned := by
  obtain ⟨told, htold, rfl | ⟨u, rfl, hu⟩⟩ := h.told
  · rw [stamp?, htold] at ht
    cases ht
  · rw [stamp?, htold] at ht
    cases ht
    exact hu

/-- **The latest use in dated entries** can be told, if there is one. -/
theorem ends_latest {entries : List Members} (h : ∀ entry ∈ entries, entry.IsDated) :
    Ends Fault.IsReported Value.IsDate (latest (entries.map .object)) := by
  have hentries : ∀ v ∈ entries.map Value.object, IsEntry v :=
    List.forall_mem_map.mpr fun entry hentry => (h entry hentry).isEntry
  have hzoned : ∀ t ∈ stamps (entries.map .object), t.isZoned := by
    intro t ht
    obtain ⟨v, hv, hstamp⟩ := List.mem_filterMap.mp ht
    obtain ⟨entry, hentry, rfl⟩ := List.mem_map.mp hv
    exact (h entry hentry).isZoned hstamp
  rcases latest_cases hentries with ⟨hlatest, -, -⟩ | ⟨-, -, hmixed⟩ | ⟨t, hlatest, ht, -⟩
  · rw [hlatest]
    exact Or.inl rfl
  -- timestamps with offsets are of one kind
  · obtain ⟨t, ht, u, hu, hkind⟩ := hmixed
    exact absurd ((hzoned t ht).trans (hzoned u hu).symm) hkind
  · rw [hlatest]
    exact Or.inr ⟨t, rfl, hzoned t ht.mem⟩

/-! ## Items of complete answers -/

/-- What the lists of all responses that may come hold, an item that is promised is. -/
theorem Promise.Item.holds {P : Promise} {action : Action} {key : String} {item : Members}
    (h : P.Item action key item) {B : Members → Prop}
    (hB : ∀ ms : Members, P action (.response (.object ms)) → ms.Lists key B) : B item := by
  obtain ⟨ms, items, hms, hkey, hitem⟩ := h
  obtain ⟨items', heq, hitems'⟩ := hB ms hms _ hkey
  have hsame : items = items' := by
    refine List.map_injective_iff.mpr ?_ (Value.list.inj heq)
    exact fun a b hab => Value.object.inj hab
  exact hitems' item (hsame ▸ hitem)

theorem Promise.Item.of_lists {P : Promise} {action : Action} {key : String} {item : Members}
    (h : P.Item action key item) (hP : ∀ a, P action a → a.Complete action) {B : Members → Prop}
    (hB : ∀ ms : Members, ms.Fits action → ms.Lists key B) : B item := by
  refine h.holds fun ms hms => ?_
  obtain ⟨ms', heq, hfits⟩ := hP _ hms
  cases heq
  exact hB ms hfits

namespace ReportKind

/-- The members that an item of a report's listing has to have. -/
def needs : ReportKind → List String
  | users => ["Arn", "UserName"]
  | groups => ["Arn"]
  | roles => ["Arn", "RoleId"]
  | policies => ["Arn"]
  | profiles => ["Arn", "InstanceProfileId"]

theorem needs_mem (kind : ReportKind) :
    (kind.outer, kind.itemsName, kind.needs) ∈ Members.needed := by
  cases kind <;> simp [Members.needed, outer, itemsName, needs]

theorem listing_eq (kind : ReportKind) (path : Value) :
    ∃ arguments identifier, kind.listing path =
      ⟨kind.outer, .text kind.itemsName, arguments, identifier, .whole⟩ := by
  cases kind <;> exact ⟨_, _, rfl⟩

theorem arn_mem_needs (kind : ReportKind) : "Arn" ∈ kind.needs := by
  cases kind <;> exact List.mem_cons_self

end ReportKind

end IamInventory

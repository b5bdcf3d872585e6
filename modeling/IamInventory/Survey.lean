import IamInventory.Arn
import IamInventory.LastAccessed
import IamInventory.Policy

/-!
# Surveys — what each report lists, and what it makes of an item

  A report goes through the items of one listing. Each item becomes a resource, which most reports
  track; then the use of the tracked resources is looked up. Users come with their access keys,
  which are put off to the end of the report, and policies with their versions.

* **`Resource.ofItem`** — the resource of an item.
* **`ReportKind.visit`** — what a report makes of an item.
* **`ReportKind.run`** — a report from its listing to its end, or to the failure that ends it.
-/

namespace IamInventory

variable {σ : Type}

/-- The service that reports are about. -/
def iam : String := "iam"

/-- **The resource of an item** that the service names so. What the name leaves open, the account
    and the region, is taken from the session. -/
def Resource.ofItem (session : Session) (name item : Value) : Except Fault Resource := do
  let arn ← (Arn.parse name).mapError .failure
  let metadata ← itemMembers item
  .ok {
    id := .text arn.text
    arn := .text arn.text
    account := if arn.account = "" then session.account else .text arn.account
    region := if arn.region = "" then session.region else .text arn.region
    service := .text arn.service
    kind := .text arn.resourceType
    metadata := .object metadata }

/-- The resource of an item that belongs to another one and has no name of its own to read. -/
def Resource.ofPart (session : Session) (id : Value) (arn kind : String) (metadata : Members) :
    Resource :=
  ⟨id, .text arn, session.account, session.region, .text iam, .text kind, .object metadata⟩

/-! ## Access keys -/

/-- The access key of an item of its listing, with its latest use. -/
def accessKey (session : Session) (item : Value) : Run σ Resource := do
  let id ← Run.ofFault (item.member "AccessKeyId")
  let metadata ← Run.ofFault (itemMembers item)
  let response ← call ⟨"get_access_key_last_used"⟩ [("AccessKeyId", id)] id
  let use ← Run.ofFault (response.memberOr Name.accessKeyLastUsed .null)
  let use ← Run.ofFault (if use.truthy then use.pairs else .ok [])
  pure (Resource.ofPart session id "" "access-key"
    ((metadata.set Name.accessKeyLastUsed (.object use)).set Name.lastUsed
      (use.get "LastUsedDate")))

/-- The access keys of a user. -/
def accessKeys (session : Session) (userName : Value) : Run σ (List Resource) :=
  (Listing.ofAction "list_access_keys" "AccessKeyMetadata" [("UserName", userName)]
    userName).gather (accessKey session)

/-! ## Policy versions -/

/-- The version of a policy of an item of its listing, with its document. -/
def policyVersion (session : Session) (policy item : Value) : Run σ Resource := do
  let version ← Run.ofFault (item.member "VersionId")
  let arn := policy.shown ++ ":" ++ version.shown
  let response ← call ⟨"get_policy_version"⟩
    [("PolicyArn", policy), ("VersionId", version)] (.text arn)
  let found ← Run.ofFault (response.member "PolicyVersion")
  let metadata ← Run.ofFault (itemMembers found)
  let raw ← Run.ofFault (found.memberOr Name.document .null)
  let document ← Run.ofFailure (Policy.decode raw (.text arn))
  pure (Resource.ofPart session (.text arn) arn "policy-version"
    (metadata.set Name.document document))

/-- The versions of a policy. -/
def policyVersions (session : Session) (policy : Value) : Run σ (List Resource) :=
  (Listing.ofAction "list_policy_versions" "Versions" [("PolicyArn", policy)] policy).gather
    (policyVersion session policy)

/-! ## Trust policies -/

/-- The members of a role with its trust policy decoded, for an entity. -/
def decodeTrust (role : Members) (identifier : Value) : Except Fault Members := do
  let document ← (Policy.decode (role.get Name.trustPolicy) identifier).mapError .failure
  .ok (role.set Name.trustPolicy document)

/-- The roles of an instance profile with their trust policies decoded. -/
def profileRoles : List Value → Except Fault (List Value)
  | [] => .ok []
  | v :: vs => do
    let role ← v.pairs
    let role ← decodeTrust role (role.get "Arn")
    .ok (.object role :: (← profileRoles vs))

/-! ## Reports -/

/-- The kinds of reports. -/
inductive ReportKind where
  | users
  | groups
  | roles
  | policies
  | profiles
deriving DecidableEq, Repr

/-- What a report has come to: the report, and the resources put off to its end. -/
structure Draft where
  report : Report
  deferred : List Resource

namespace ReportKind

/-- All kinds, in the order in which they run. -/
def all : List ReportKind := [users, groups, roles, policies, profiles]

/-- The name of a report. -/
def name : ReportKind → String
  | users => "users-and-access-keys"
  | groups => "groups"
  | roles => "roles"
  | policies => "policies"
  | profiles => "instance-profiles"

/-- The listing that a report goes through, of entities below a path if one is given. -/
def listing (kind : ReportKind) (path : Value) : Listing :=
  let below : Members := if path.truthy then [("PathPrefix", path)] else []
  match kind with
  | users => .ofAction "list_users" "Users" below .null
  | groups => .ofAction "list_groups" "Groups" below .null
  | roles => .ofAction "list_roles" "Roles" below .null
  | policies =>
    .ofAction "list_policies" "Policies" (("Scope", .text "Local") :: below) .null
  | profiles => .ofAction "list_instance_profiles" "InstanceProfiles" below .null

/-- Adds a resource to the report, tracked under its name. -/
def track (resource : Resource) : Run Draft Unit := do
  let report ← Run.ofFault ((← Run.draft).report.add resource (some resource.arn))
  Run.redraft fun d => { d with report }

/-- **What a report makes of an item.** -/
def visit (kind : ReportKind) (session : Session) (item : Value) : Run Draft Unit := do
  let resource ← Run.ofFault (do Resource.ofItem session (← item.member "Arn") item)
  match kind with
  | users => do
    track resource
    let userName ← Run.ofFault (item.member "UserName")
    let keys ← accessKeys session userName
    Run.redraft fun d => { d with deferred := d.deferred ++ keys }
  | groups => track resource
  | roles => do
    let metadata ← Run.ofFault (do decodeTrust (← itemMembers item) resource.arn)
    let id ← Run.ofFault (item.member "RoleId")
    track { resource with id, metadata := .object metadata }
  | policies => do
    let versions ← policyVersions session resource.arn
    track resource
    Run.redraft fun d => { d with report := d.report.extend versions }
  | profiles => do
    let id ← Run.ofFault (item.member "InstanceProfileId")
    let roles ← Run.ofFault (do
      profileRoles (← (← item.memberOr "Roles" (.list [])).items))
    let whole := { resource with id }.setMember "Roles" (.list roles)
    Run.redraft fun d => { d with report := d.report.extend [whole] }

/-- Goes through the listing, then looks up the use of what is tracked. -/
def survey (kind : ReportKind) (session : Session) (path : Value) : Run Draft Unit := do
  let _ ← (kind.listing path).visit fun item => do
    kind.visit session item
    pure .more
  Run.within Draft.report (fun report d => { d with report })
    (LastAccessed.attach session.settings)

/-- **A report to its end**, or to the failure that ends it. -/
def run (kind : ReportKind) (session : Session) (path : Value) : Run σ Report := do
  session.client (.text iam)
  let (result, draft) ← Run.attempt ⟨Report.empty, []⟩ (kind.survey session path)
  match result with
  | .ok () =>
    let report := draft.report.extend draft.deferred
    Run.note .info .reports
      ("Report " ++ kind.name ++ s!" produced {report.entries.length} resource(s)")
    pure report
  | .error (.failure f) =>
    let count := draft.report.entries.length
    Run.note .warning .reports
      ("Report " ++ kind.name ++ s!" failed after {count} resource(s): " ++ f.message)
    pure (draft.report.fail f)
  | .error e => Run.fault e

end ReportKind

end IamInventory

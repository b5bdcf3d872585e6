import IamInventory.Proofs.Enumeration

/-!
# Policy blocks — policies and their versions in a report

  A policy is recorded only when all its versions are there: their listing to its last page, the
  look-up of each of them, and their documents. So a report on policies is a sequence of *blocks*, a
  policy with its versions behind it, whatever the report comes to. An item at which something goes
  wrong has no block, nor has any item behind it.

* **`VersionLookup`** — a version that has been looked up, and **`PolicyBlock`** — a policy with all
  its versions.
* **`ReportKind.visit_policies_does`** — the work for a policy makes its block, or nothing.
* **`ReportKind.run_policies`** — a report on policies, whole or cut short.
-/

namespace IamInventory

open ReportKind LastAccessed

/-! ## Versions -/

/-- The listing of the versions of a policy. -/
def versionListing (policy : Value) : Listing :=
  .ofAction "list_policy_versions" "Versions" [("PolicyArn", policy)] policy

theorem policyVersions_eq {σ : Type} (session : Session) (policy : Value) :
    (policyVersions session policy : Run σ (List Resource)) =
      (versionListing policy).gather (policyVersion session policy) := rfl

/-- A version of a policy that has been looked up: its item in the listing of versions, and what the
    response to its own look-up holds. -/
structure VersionLookup (session : Session) (policy : Value) where
  item : Value
  version : Value
  response : Value
  found : Value
  metadata : Members
  raw : Value
  document : Value
  named : item.member "VersionId" = .ok version
  held : response.member "PolicyVersion" = .ok found
  members : itemMembers found = .ok metadata
  sent : found.memberOr Name.document .null = .ok raw
  decoded : Policy.decode raw (.text (policy.shown ++ ":" ++ version.shown)) = .ok document

namespace VersionLookup

variable {session : Session} {policy : Value}

/-- The name of the version: the one of the policy, and behind it the one of the version. -/
def arn (x : VersionLookup session policy) : String := policy.shown ++ ":" ++ x.version.shown

/-- The call that looks the version up. -/
def effects (x : VersionLookup session policy) : List Effect :=
  [.asked ⟨"get_policy_version"⟩ [("PolicyArn", policy), ("VersionId", x.version)]
    (.response x.response)]

/-- The record of the version, with its document decoded. -/
def resource (x : VersionLookup session policy) : Resource :=
  .ofPart session (.text x.arn) x.arn "policy-version" (x.metadata.set Name.document x.document)

theorem document_resource (x : VersionLookup session policy) :
    x.resource.metadata.memberOr Name.document .null = .ok x.document := by
  show Except.ok (((x.metadata.set Name.document x.document).get? Name.document).getD .null) = _
  rw [Members.get?_set, if_pos rfl, Option.getD_some]

end VersionLookup

/-- What looking up a version does: it leaves the draft alone, and makes the record of the version
    if it makes any. -/
theorem policyVersion_does {session : Session} {policy item : Value} {d d' : List Resource}
    {l : List Effect} {r : Resource} (h : (policyVersion session policy item).Does d l (.ok r) d') :
    d' = d ∧ ∃ x : VersionLookup session policy,
      x.item = item ∧ x.effects = l ∧ x.resource = r := by
  rw [policyVersion] at h
  obtain ⟨version, hnamed, h₁⟩ := h.bind_ofFault_ok
  obtain ⟨response, l', rfl, h₂⟩ := h₁.bind_call_ok
  obtain ⟨found, hheld, h₃⟩ := h₂.bind_ofFault_ok
  obtain ⟨metadata, hmembers, h₄⟩ := h₃.bind_ofFault_ok
  obtain ⟨raw, hsent, h₅⟩ := h₄.bind_ofFault_ok
  obtain ⟨document, hdecoded, h₆⟩ := h₅.bind_ofFault_ok
  obtain ⟨rfl, hr, rfl⟩ := h₆.pure
  cases hr
  have hdecoded' : Policy.decode raw (.text (policy.shown ++ ":" ++ version.shown)) =
      .ok document := by
    cases hd : Policy.decode raw (.text (policy.shown ++ ":" ++ version.shown)) with
    | error f => simp [hd, Except.mapError] at hdecoded
    | ok v => simpa [hd, Except.mapError] using hdecoded
  exact ⟨rfl, ⟨item, version, response, found, metadata, raw, document, hnamed, hheld, hmembers,
    hsent, hdecoded'⟩, rfl, rfl, rfl⟩

/-! ## Policies -/

/-- **A policy with all its versions**: its item in the listing of policies, its record, and the
    pages of the listing of its versions, each version looked up. -/
structure PolicyBlock (session : Session) extends Recorded session where
  paged : Bool
  pages : List (PageRecord (VersionLookup session record.arn))
  complete : (versionListing record.arn).Pages paged VersionLookup.item
    (versionListing record.arn).first pages none

namespace PolicyBlock

variable {session : Session}

/-- The versions, page by page. -/
def lookups (b : PolicyBlock session) : List (VersionLookup session b.record.arn) :=
  b.pages.flatMap PageRecord.stories

/-- The records of the versions. -/
def versions (b : PolicyBlock session) : List Resource := b.lookups.map VersionLookup.resource

/-- The calls for the versions: page by page, each page followed by the look-ups of its versions. -/
def effects (b : PolicyBlock session) : List Effect :=
  b.pages.flatMap ((Listing.gathering VersionLookup.item VersionLookup.effects
    VersionLookup.resource).pageEffects (versionListing b.record.arn))

/-- The entries of a block: the policy, tracked under its name, and its versions. -/
def entries (b : PolicyBlock session) : List Entry := blockEntries b.record b.versions

/-- How blocks tell of the work for policies. -/
def telling (session : Session) : Telling Draft (PolicyBlock session) :=
  ⟨(·.item), effects, fun b d => d.enter b.entries⟩

theorem tell_telling (blocks : List (PolicyBlock session)) (d : Draft) :
    (telling session).tell blocks d = d.enter (blocks.flatMap entries) := by
  induction blocks generalizing d with
  | nil =>
    rw [List.flatMap_nil, Draft.enter, List.append_nil]
    rfl
  | cons b blocks ih =>
    rw [List.flatMap_cons, ← Draft.enter_enter]
    exact ih (d.enter b.entries)

end PolicyBlock

theorem policyVersions_does {session : Session} {policy : Value} {d d' : Draft} {l : List Effect}
    {r : Except Fault (List Resource)} (h : (policyVersions session policy).Does d l r d') :
    d' = d ∧ ∀ versions, r = .ok versions →
      ∃ (paged : Bool) (pages : List (PageRecord (VersionLookup session policy))),
        (versionListing policy).Pages paged VersionLookup.item (versionListing policy).first pages
          none ∧
        l = pages.flatMap ((Listing.gathering VersionLookup.item VersionLookup.effects
          VersionLookup.resource).pageEffects (versionListing policy)) ∧
        versions = (pages.flatMap PageRecord.stories).map VersionLookup.resource := by
  rw [policyVersions_eq] at h
  exact Listing.gather_does (steady_policyVersion session policy) policyVersion_does h

namespace ReportKind

/-- **The work for a policy** makes its block, or nothing. -/
theorem visit_policies_does {session : Session} {item : Value} {d d' : Draft} {l : List Effect}
    {r : Except Fault Unit} (h : (policies.visit session item).Does d l r d') :
    (∃ e, r = .error e ∧ d' = d) ∨ ∃ b : PolicyBlock session, b.item = item ∧ b.effects = l ∧
      d.enter b.entries = d' ∧ r = .ok () := by
  rw [visit] at h
  rcases h.bind_ofFault with ⟨e, -, rfl, -, rfl⟩ | ⟨record, hmade, h₁⟩
  · exact Or.inl ⟨e, rfl, rfl⟩
  obtain ⟨x, rfl, rfl⟩ := exists_recorded hmade
  have hsteady : (policyVersions session x.record.arn).Steady Draft.Grows :=
    .gather fun v => steady_policyVersion session _ v
  rcases h₁.bind hsteady.toLed with ⟨e, rfl, hversions⟩ | ⟨versions, d₁, l₁, l₂, rfl, hversions, h₂⟩
  · exact Or.inl ⟨e, rfl, (policyVersions_does hversions).1⟩
  obtain ⟨rfl, hpages⟩ := policyVersions_does hversions
  obtain ⟨paged, pages, hcomplete, rfl, rfl⟩ := hpages versions rfl
  rcases h₂.bind (steady_track (R := fun _ _ => True) fun _ _ _ => trivial).toLed with
    ⟨e, rfl, htrack⟩ | ⟨a, d₂, l₃, l₄, rfl, htrack, h₃⟩
  · obtain ⟨-, ⟨e, -, rfl⟩ | ⟨he, -⟩⟩ := track_does htrack
    · exact Or.inl ⟨_, rfl, rfl⟩
    · cases he
  · obtain ⟨rfl, ⟨e, he, -⟩ | ⟨-, rfl⟩⟩ := track_does htrack
    · cases he
    obtain ⟨s, rfl, rfl, rfl⟩ := h₃
    exact Or.inr ⟨⟨x, paged, pages, hcomplete⟩, rfl, (List.append_nil _).symm,
      (Draft.enter_enter d₁ [_] _).symm, rfl⟩

theorem covers_policies (session : Session) :
    (PolicyBlock.telling session).Covers (policies.handle session) := by
  refine covers_handle fun hvisit => ?_
  rcases visit_policies_does hvisit with ⟨e, he, -⟩ | ⟨b, hitem, heffects, hput, -⟩
  · cases he
  · exact ⟨b, hitem, heffects, hput⟩

/-- What is called for a policy is apart from the listing of policies. -/
theorem apart_block {session : Session} (path : Value) (b : PolicyBlock session) :
    (policies.listing path).Apart ((PolicyBlock.telling session).effects b) := by
  have hlookup (x : VersionLookup session b.record.arn) :
      (policies.listing path).Apart x.effects := by
    intro c hc
    obtain rfl := List.mem_singleton.mp hc
    show (⟨"get_policy_version"⟩ : Action) ≠ policies.outer
    decide
  have hlisting : (versionListing b.record.arn).action ≠ (policies.listing path).action := by
    show (⟨"list_policy_versions"⟩ : Action) ≠ policies.outer
    decide
  exact .pages hlisting hlookup b.pages

variable {σ : Type}

/-- Answers to a report on one policy with two versions, of which the first one comes on a page of
    its own. -/
def policyScript : Script :=
  ⟨[(⟨"list_policies"⟩, [.response (.object [("Policies", .list [.object
      [("Arn", .text "arn:aws:iam::123456789012:policy/read")]])])]),
    (⟨"list_policy_versions"⟩, [
      .response (.object [("Versions", .list [.object [("VersionId", .text "v2")]]),
        ("IsTruncated", .bool true), ("Marker", .text "m")]),
      .response (.object [("Versions", .list [.object [("VersionId", .text "v1")]])])]),
    (⟨"get_policy_version"⟩, [
      .response (.object [("PolicyVersion", .object [("Document", .text "%7B%22Id%22%3A2%7D")])]),
      .response (.object [("PolicyVersion", .object [("Document", .text "%7B%7D")])])]),
    (generate, [.response (.object [("JobId", .text "1")])]),
    (details, [inState "COMPLETED" []])], []⟩

end ReportKind

end IamInventory

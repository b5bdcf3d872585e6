import IamInventory.Proofs.PolicyBlocks

/-!
# User keys — users and their access keys in a report

  A user is recorded at once, and the access keys of the user are looked up and put off: they come
  behind all users, and only if nothing fails in the whole report. So a report on users is complete,
  all users and then all keys in the order of their users, or it has users only.

* **`KeyLookup`** — an access key that has been looked up, and **`KeyedUser`** — a user with all
  access keys.
* **`ReportKind.visit_users_does`** — the work for a user, and what is left of it where it fails.
* **`ReportKind.run_users`** — a report on users, whole or cut short.
-/

namespace IamInventory

open ReportKind LastAccessed

/-! ## Access keys -/

/-- The listing of the access keys of a user. -/
def keyListing (userName : Value) : Listing :=
  .ofAction "list_access_keys" "AccessKeyMetadata" [("UserName", userName)] userName

theorem accessKeys_eq {σ : Type} (session : Session) (userName : Value) :
    (accessKeys session userName : Run σ (List Resource)) =
      (keyListing userName).gather (accessKey session) := rfl

/-- An access key that has been looked up: its item in the listing of keys, and what the response to
    its own look-up tells of its latest use. -/
structure KeyLookup (session : Session) where
  item : Value
  id : Value
  metadata : Members
  response : Value
  found : Value
  use : Members
  named : item.member "AccessKeyId" = .ok id
  members : itemMembers item = .ok metadata
  held : response.memberOr Name.accessKeyLastUsed .null = .ok found
  told : (if found.truthy then found.pairs else .ok []) = .ok use

namespace KeyLookup

variable {session : Session}

/-- The call that looks the key up. -/
def effects (k : KeyLookup session) : List Effect :=
  [.asked ⟨"get_access_key_last_used"⟩ [("AccessKeyId", k.id)] (.response k.response)]

/-- The record of the key, with its latest use. -/
def resource (k : KeyLookup session) : Resource :=
  .ofPart session k.id "" "access-key"
    ((k.metadata.set Name.accessKeyLastUsed (.object k.use)).set Name.lastUsed
      (k.use.get "LastUsedDate"))

/-- An object that has been found is the use that is told. -/
theorem use_of_object (k : KeyLookup session) {ms : Members} (h : k.found = .object ms) :
    k.use = ms := by
  have htold := k.told
  rw [h] at htold
  cases ms with
  | nil => exact (Except.ok.inj htold).symm
  | cons m ms => exact (Except.ok.inj htold).symm

/-- Where nothing has been found, no use is told. -/
theorem use_of_null (k : KeyLookup session) (h : k.found = .null) : k.use = [] := by
  have htold := k.told
  rw [h] at htold
  exact (Except.ok.inj htold).symm

theorem accessKeyLastUsed_resource (k : KeyLookup session) :
    k.resource.metadata.memberOr Name.accessKeyLastUsed .null = .ok (.object k.use) := by
  show Except.ok ((((k.metadata.set Name.accessKeyLastUsed (.object k.use)).set Name.lastUsed
    (k.use.get "LastUsedDate")).get? Name.accessKeyLastUsed).getD .null) = _
  rw [Members.get?_set, if_neg (by decide), Members.get?_set, if_pos rfl, Option.getD_some]

theorem lastUsed_resource (k : KeyLookup session) :
    k.resource.lastUsed = .ok (k.use.get "LastUsedDate") := by
  show Except.ok ((((k.metadata.set Name.accessKeyLastUsed (.object k.use)).set Name.lastUsed
    (k.use.get "LastUsedDate")).get? Name.lastUsed).getD .null) = _
  rw [Members.get?_set, if_pos rfl, Option.getD_some]

end KeyLookup

/-- What looking up an access key does: it leaves the draft alone, and makes the record of the key
    if it makes any. -/
theorem accessKey_does {session : Session} {item : Value} {d d' : List Resource} {l : List Effect}
    {r : Resource} (h : (accessKey session item).Does d l (.ok r) d') :
    d' = d ∧ ∃ k : KeyLookup session, k.item = item ∧ k.effects = l ∧ k.resource = r := by
  rw [accessKey] at h
  obtain ⟨id, hnamed, h₁⟩ := h.bind_ofFault_ok
  obtain ⟨metadata, hmembers, h₂⟩ := h₁.bind_ofFault_ok
  obtain ⟨response, l', rfl, h₃⟩ := h₂.bind_call_ok
  obtain ⟨found, hheld, h₄⟩ := h₃.bind_ofFault_ok
  obtain ⟨use, htold, h₅⟩ := h₄.bind_ofFault_ok
  obtain ⟨rfl, hr, rfl⟩ := h₅.pure
  cases hr
  exact ⟨rfl, ⟨item, id, metadata, response, found, use, hnamed, hmembers, hheld, htold⟩, rfl, rfl,
    rfl⟩

theorem accessKeys_does {session : Session} {userName : Value} {d d' : Draft} {l : List Effect}
    {r : Except Fault (List Resource)} (h : (accessKeys session userName).Does d l r d') :
    d' = d ∧ ∀ keys, r = .ok keys →
      ∃ (paged : Bool) (pages : List (PageRecord (KeyLookup session))),
        (keyListing userName).Pages paged KeyLookup.item (keyListing userName).first pages none ∧
        l = pages.flatMap ((Listing.gathering KeyLookup.item KeyLookup.effects
          KeyLookup.resource).pageEffects (keyListing userName)) ∧
        keys = (pages.flatMap PageRecord.stories).map KeyLookup.resource := by
  rw [accessKeys_eq] at h
  exact Listing.gather_does (steady_accessKey session) accessKey_does h

/-! ## Users -/

/-- **A user with all access keys**: the item in the listing of users, the record of the user, and
    the pages of the listing of the keys, each key looked up. -/
structure KeyedUser (session : Session) extends Recorded session where
  userName : Value
  paged : Bool
  pages : List (PageRecord (KeyLookup session))
  called : item.member "UserName" = .ok userName
  complete : (keyListing userName).Pages paged KeyLookup.item (keyListing userName).first pages none

namespace KeyedUser

variable {session : Session}

/-- The access keys, page by page. -/
def lookups (u : KeyedUser session) : List (KeyLookup session) := u.pages.flatMap PageRecord.stories

/-- The records of the access keys. -/
def keys (u : KeyedUser session) : List Resource := u.lookups.map KeyLookup.resource

/-- The calls for the keys: page by page, each page followed by the look-ups of its keys. -/
def effects (u : KeyedUser session) : List Effect :=
  u.pages.flatMap ((Listing.gathering KeyLookup.item KeyLookup.effects
    KeyLookup.resource).pageEffects (keyListing u.userName))

/-- The entry of a user, who is tracked under the name. -/
def entries (u : KeyedUser session) : List Entry := blockEntries u.record []

/-- How users tell of the work for them: they are entered, and their keys are put off. -/
def telling (session : Session) : Telling Draft (KeyedUser session) :=
  ⟨(·.item), effects, fun u d => { d.enter u.entries with deferred := d.deferred ++ u.keys }⟩

theorem tell_telling (users : List (KeyedUser session)) (d : Draft) :
    (telling session).tell users d =
      { d.enter (users.flatMap entries) with deferred := d.deferred ++ users.flatMap keys } := by
  induction users generalizing d with
  | nil =>
    rw [List.flatMap_nil, List.flatMap_nil, Draft.enter, List.append_nil, List.append_nil]
    rfl
  | cons u users ih =>
    rw [List.flatMap_cons, List.flatMap_cons, ← Draft.enter_enter, ← List.append_assoc]
    exact ih { d.enter u.entries with deferred := d.deferred ++ u.keys }

theorem entries_telling (users : List (KeyedUser session)) :
    ((telling session).tell users ReportKind.start).report.entries =
      (users.map toRecorded).flatMap fun x => blockEntries x.record [] := by
  rw [tell_telling, List.flatMap_map]
  rfl

end KeyedUser

namespace ReportKind

/-- **The work for a user** enters the user and puts the keys off. Where it fails, the user may have
    been entered, and no keys are put off. -/
theorem visit_users_does {session : Session} {item : Value} {d d' : Draft} {l : List Effect}
    {r : Except Fault Unit} (h : (users.visit session item).Does d l r d') :
    (∃ e, r = .error e ∧ (d' = d ∨ ∃ x : Recorded session, x.item = item ∧
        d' = d.enter (blockEntries x.record []))) ∨
      ∃ u : KeyedUser session, u.item = item ∧ u.effects = l ∧
        (KeyedUser.telling session).put u d = d' ∧ r = .ok () := by
  rw [visit] at h
  rcases h.bind_ofFault with ⟨e, -, rfl, -, rfl⟩ | ⟨record, hmade, h₁⟩
  · exact Or.inl ⟨e, rfl, Or.inl rfl⟩
  obtain ⟨x, rfl, rfl⟩ := exists_recorded hmade
  rcases h₁.bind (steady_track (R := fun _ _ => True) fun _ _ _ => trivial).toLed with
    ⟨e, rfl, htrack⟩ | ⟨a, d₁, l₁, l₂, rfl, htrack, h₂⟩
  · obtain ⟨-, ⟨e, -, rfl⟩ | ⟨he, -⟩⟩ := track_does htrack
    · exact Or.inl ⟨_, rfl, Or.inl rfl⟩
    · cases he
  obtain ⟨rfl, ⟨e, he, -⟩ | ⟨-, rfl⟩⟩ := track_does htrack
  · cases he
  -- from here on the user has been entered
  rcases h₂.bind_ofFault with ⟨e, -, rfl, -, rfl⟩ | ⟨userName, hcalled, h₃⟩
  · exact Or.inl ⟨e, rfl, Or.inr ⟨x, rfl, rfl⟩⟩
  have hsteady : (accessKeys session userName).Steady Draft.Grows :=
    .gather fun v => steady_accessKey session v
  rcases h₃.bind hsteady.toLed with ⟨e, rfl, hkeys⟩ | ⟨keys, d₂, l₃, l₄, rfl, hkeys, h₄⟩
  · exact Or.inl ⟨e, rfl, Or.inr ⟨x, rfl, (accessKeys_does hkeys).1⟩⟩
  obtain ⟨rfl, hpages⟩ := accessKeys_does hkeys
  obtain ⟨paged, pages, hcomplete, rfl, rfl⟩ := hpages keys rfl
  obtain ⟨s, rfl, rfl, rfl⟩ := h₄
  exact Or.inr ⟨⟨x, userName, paged, pages, hcalled, hcomplete⟩, rfl,
    (List.append_nil _).symm, rfl, rfl⟩

theorem covers_users (session : Session) :
    (KeyedUser.telling session).Covers (users.handle session) := by
  refine covers_handle fun hvisit => ?_
  rcases visit_users_does hvisit with ⟨e, he, -⟩ | ⟨u, hitem, heffects, hput, -⟩
  · cases he
  · exact ⟨u, hitem, heffects, hput⟩

/-- What is called for a user is apart from the listing of users. -/
theorem apart_user {session : Session} (path : Value) (u : KeyedUser session) :
    (users.listing path).Apart ((KeyedUser.telling session).effects u) := by
  have hlookup (k : KeyLookup session) : (users.listing path).Apart k.effects := by
    intro c hc
    obtain rfl := List.mem_singleton.mp hc
    show (⟨"get_access_key_last_used"⟩ : Action) ≠ users.outer
    decide
  have hlisting : (keyListing u.userName).action ≠ (users.listing path).action := by
    show (⟨"list_access_keys"⟩ : Action) ≠ users.outer
    decide
  exact .pages hlisting hlookup u.pages

/-- Where a report on users fails, the users that have been entered are those of a first part of
    what has been listed: the one at whom it fails may be among them. -/
theorem entered_at_failure {session : Session} {us : List (KeyedUser session)}
    {listed : List Value} {rest : List Effect} {f : Failure} {draft : Draft}
    (h : listed = us.map (KeyedUser.telling session).item ∧
        draft = (KeyedUser.telling session).tell us start ∨
      ∃ item more, listed = us.map (KeyedUser.telling session).item ++ item :: more ∧
        (users.visit session item).Does ((KeyedUser.telling session).tell us start) rest
          (.error (.failure f)) draft) :
    ∃ (xs : List (Recorded session)) (more : List Value), listed = xs.map Recorded.item ++ more ∧
      draft.report.entries = xs.flatMap fun x => blockEntries x.record [] := by
  have hus := KeyedUser.entries_telling us
  have hitems : us.map (KeyedUser.telling session).item =
      (us.map KeyedUser.toRecorded).map Recorded.item := by
    rw [List.map_map]
    rfl
  rcases h with ⟨rfl, rfl⟩ | ⟨item, more, rfl, hvisit⟩
  · exact ⟨_, [], by rw [List.append_nil, hitems], hus⟩
  · rcases visit_users_does hvisit with ⟨e, -, rfl | ⟨x, rfl, rfl⟩⟩ | ⟨u, -, -, -, he⟩
    · exact ⟨_, item :: more, by rw [hitems], hus⟩
    · refine ⟨us.map KeyedUser.toRecorded ++ [x], more, ?_, ?_⟩
      · rw [hitems, List.map_append, List.append_assoc]
        rfl
      · rw [List.flatMap_append, ← hus, List.flatMap_singleton]
        rfl
    · cases he

variable {σ : Type}

/-- Answers to a report on one user with two keys, of which the second one has never been used. -/
def userScript : Script :=
  ⟨[(⟨"list_users"⟩, [.response (.object [("Users", .list [.object
      [("Arn", .text "arn:aws:iam::123456789012:user/ada"), ("UserName", .text "ada")]])])]),
    (⟨"list_access_keys"⟩, [
      .response (.object [("AccessKeyMetadata", .list [.object [("AccessKeyId", .text "k1")]]),
        ("IsTruncated", .bool true), ("Marker", .text "m")]),
      .response (.object [("AccessKeyMetadata", .list [.object [("AccessKeyId", .text "k2")]])])]),
    (⟨"get_access_key_last_used"⟩, [
      .response (.object [("AccessKeyLastUsed", .object [("LastUsedDate", .text "monday")])]),
      .response (.object [("UserName", .text "ada")])]),
    (generate, [.response (.object [("JobId", .text "1")])]),
    (details, [inState "COMPLETED" []])], []⟩

end ReportKind

end IamInventory

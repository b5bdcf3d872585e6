import IamInventory.Proofs.ArnParts
import IamInventory.Proofs.Completeness
import IamInventory.Proofs.WriteBack

/-!
# Portraits — what a record keeps of its item

  The record of an item says what the name of the item says, and holds what the service sent. A
  report writes a few members itself: the trust policies that it has decoded, and the use of
  services. All other members stay, with their values and in their order, and what is new comes
  last. No part of this depends on what the service sent being complete: if there is a record at
  all, it portrays its item.

* **`Members.KeptBut`** — members that are kept but for some names; `Members.KeptBut.set` is its
  step lemma.
* **`ReportKind.Portrays`** — whether a record portrays an item.
* **`ReportKind.record_portrays`** — the record of an item portrays it.
* **`ReportKind.Portrays.write`** — and it still does so with the use of services written into it.
-/

namespace IamInventory

/-- In a correspondence, all on either side has its counterpart. -/
theorem exists_of_forall₂ {α β : Type} {R : α → β → Prop} {as : List α} {bs : List β}
    (h : List.Forall₂ R as bs) : (∀ a ∈ as, ∃ b, R a b) ∧ ∀ b ∈ bs, ∃ a, R a b := by
  induction h with
  | nil => exact ⟨List.forall_mem_nil _, List.forall_mem_nil _⟩
  | @cons a b as bs hab _ ih =>
    exact ⟨List.forall_mem_cons.mpr ⟨⟨b, hab⟩, ih.1⟩, List.forall_mem_cons.mpr ⟨⟨a, hab⟩, ih.2⟩⟩

/-- What is found in something is known of it. -/
theorem Ends.found {α : Type} (e : Except Fault α) :
    Ends (fun _ => True) (fun a => e = .ok a) e := by
  cases e with
  | error x => trivial
  | ok a => exact rfl

theorem Value.member_object_iff {ms : Members} {name : String} {v : Value} :
    (Value.object ms).member name = .ok v ↔ ms.get? name = some v := by
  rw [Value.member]
  cases ms.get? name with
  | none =>
    constructor
    · intro h
      cases h
    · intro h
      cases h
  | some w =>
    constructor
    · intro h
      rw [Except.ok.inj h]
    · intro h
      rw [Option.some.inj h]

/-! ## Members that are kept -/

namespace Members

/-- Whether a member keeps the name of another one, and its value too unless it stands under one of
    some names. -/
def Keeps (keys : List String) (m n : String × Value) : Prop :=
  n.1 = m.1 ∧ (m.1 ∉ keys → n.2 = m.2)

/-- **Whether members are kept in others** but for some names. They come first, in their order, and
    have their values unless they stand under one of the names. What comes behind them is new, and
    stands under such names only. -/
def KeptBut (ms : Members) (keys : List String) (ns : Members) : Prop :=
  ∃ kept new : Members, ns = kept ++ new ∧ List.Forall₂ (Keeps keys) ms kept ∧
    ∀ n ∈ new, n.1 ∈ keys ∧ n.1 ∉ ms.names

theorem keptBut_self (ms : Members) (keys : List String) : ms.KeptBut keys ms :=
  ⟨ms, [], (List.append_nil ms).symm, List.forall₂_same.mpr fun _ _ => ⟨rfl, fun _ => rfl⟩,
    List.forall_mem_nil _⟩

/-- Members that are set are those of before, and the one that is set. -/
theorem mem_of_mem_set {ms : Members} {name : String} {v : Value} {n : String × Value}
    (h : n ∈ ms.set name v) : n ∈ ms ∨ n = (name, v) := by
  induction ms with
  | nil => exact Or.inr (List.mem_singleton.mp h)
  | cons m ms ih =>
    rw [set] at h
    split at h
    · rcases List.mem_cons.mp h with h | h
      · exact Or.inr h
      · exact Or.inl (List.mem_cons_of_mem m h)
    · rcases List.mem_cons.mp h with rfl | h
      · exact Or.inl List.mem_cons_self
      · exact (ih h).imp_left (List.mem_cons_of_mem m)

/-- A name is set in the first part of members if it stands there. -/
theorem set_append_of_mem {ms : Members} {name : String} (h : name ∈ ms.names) (ns : Members)
    (v : Value) : Members.set (ms ++ ns) name v = ms.set name v ++ ns := by
  induction ms with
  | nil => cases h
  | cons m ms ih =>
    rw [List.cons_append, set, set]
    split
    · rfl
    · next hm =>
      rw [ih ((List.mem_cons.mp h).resolve_left (Ne.symm hm)), List.cons_append]

/-- It is set in the second part if it does not stand in the first one. -/
theorem set_append_of_not_mem {ms : Members} {name : String} (h : name ∉ ms.names) (ns : Members)
    (v : Value) : Members.set (ms ++ ns) name v = ms ++ Members.set ns name v := by
  induction ms with
  | nil => rfl
  | cons m ms ih =>
    obtain ⟨hm, hms⟩ : name ≠ m.1 ∧ name ∉ Members.names ms := List.ne_and_not_mem_of_not_mem_cons h
    rw [List.cons_append, set, if_neg (Ne.symm hm), ih hms, List.cons_append]

theorem names_of_keeps {keys : List String} {ms ns : Members}
    (h : List.Forall₂ (Keeps keys) ms ns) : ns.names = ms.names := by
  induction h with
  | nil => rfl
  | cons hmn _ ih => exact List.cons_eq_cons.mpr ⟨hmn.1, ih⟩

/-- Members that keep others still do so with one of the names set, if it stands among them. -/
theorem keeps_set {keys : List String} {ms ns : Members} (h : List.Forall₂ (Keeps keys) ms ns)
    {name : String} (hname : name ∈ keys) (hmem : name ∈ ns.names) (v : Value) :
    List.Forall₂ (Keeps keys) ms (ns.set name v) := by
  induction h with
  | nil => cases hmem
  | @cons m n ms ns hmn hrest ih =>
    rw [set]
    split
    · next hn =>
      refine .cons ⟨hn.symm.trans hmn.1, fun hm => absurd hname ?_⟩ hrest
      rwa [← hn, hmn.1]
    · next hn => exact .cons hmn (ih ((List.mem_cons.mp hmem).resolve_left (Ne.symm hn)))

/-- **Setting one of the names** keeps what is kept but for them. -/
theorem KeptBut.set {ms ns : Members} {keys : List String} (h : ms.KeptBut keys ns) {name : String}
    (hname : name ∈ keys) (v : Value) : ms.KeptBut keys (ns.set name v) := by
  obtain ⟨kept, new, rfl, hkept, hnew⟩ := h
  by_cases hmem : name ∈ kept.names
  -- the name stands among what is kept, and its value is replaced there
  · exact ⟨kept.set name v, new, set_append_of_mem hmem new v, keeps_set hkept hname hmem v, hnew⟩
  -- the name is new
  · refine ⟨kept, Members.set new name v, set_append_of_not_mem hmem new v, hkept, ?_⟩
    intro n hn
    rcases mem_of_mem_set hn with hn | rfl
    · exact hnew n hn
    · exact ⟨hname, names_of_keeps hkept ▸ hmem⟩

end Members

/-! ## What a portrait is -/

/-- Whether a record has entries of a job, and the latest use among them. -/
def Resource.IsEnriched (r : Resource) : Prop :=
  ∃ entries time, LastAccessed.latest entries = .ok time ∧ r.use = (some (.list entries), some time)

/-- Whether a record belongs where an ARN says, or where the session does if the ARN leaves that
    open. -/
structure Resource.IsPlaced (session : Session) (arn : Arn) (r : Resource) : Prop where
  service : r.service = .text arn.service
  type : r.kind = .text arn.resourceType
  account : r.account = if arn.account = "" then session.account else .text arn.account
  region : r.region = if arn.region = "" then session.region else .text arn.region

/-- Whether a value is a role that is embedded in an item, with its trust policy decoded. -/
def IsDecodedPart (v decoded : Value) : Prop :=
  ∃ role, v.pairs = .ok role ∧ IsDecodedRole role decoded

namespace ReportKind

/-- The members that a report writes itself. -/
def ownNames : ReportKind → List String
  | roles => [Name.trustPolicy, Name.servicesLastAccessed, Name.lastUsed]
  | profiles => ["Roles"]
  | _ => [Name.servicesLastAccessed, Name.lastUsed]

/-- The member of an item that identifies its record. -/
def idName : ReportKind → String
  | roles => "RoleId"
  | profiles => "InstanceProfileId"
  | _ => "Arn"

/-- **Whether a record portrays an item** that has an ARN. It is named and identified as the item
    is, and placed by the ARN. It holds all members of the item but for those about the answer and
    those that the report writes itself. These are: the trust policy of a role, decoded; the roles
    of an instance profile, each of them with nothing but its trust policy decoded; and in all other
    reports the use of services, either as the item has it or as a job has told. -/
structure Portrays (kind : ReportKind) (session : Session) (item : Members) (arn : Arn)
    (r : Resource) : Prop where
  named : item.get? "Arn" = some r.arn
  parsed : Arn.parse r.arn = .ok arn
  identified : item.get? kind.idName = some r.id
  placed : r.IsPlaced session arn
  sent : ∃ ms, r.metadata = .object ms ∧ (item.erase "ResponseMetadata").KeptBut kind.ownNames ms
  trusted : kind = roles → ∃ document,
    Policy.decode (item.get Name.trustPolicy) r.arn = .ok document ∧
      r.metadata.member Name.trustPolicy = .ok document
  embedded : kind = profiles → ∃ parts decoded,
    ((item.get? "Roles").getD (.list [])).items = .ok parts ∧
      List.Forall₂ IsDecodedPart parts decoded ∧ r.metadata.member "Roles" = .ok (.list decoded)
  used : kind ≠ profiles →
    r.use = (item.get? Name.servicesLastAccessed, item.get? Name.lastUsed) ∨ r.IsEnriched

/-- **Whether a record portrays a value** that is an item with an ARN. -/
def IsPortrait (kind : ReportKind) (session : Session) (v : Value) (r : Resource) : Prop :=
  ∃ (item : Members) (arn : Arn), v = .object item ∧ kind.Portrays session item arn r

/-- **Whether an item cannot be read**: its ARN, its own document, or that of a role in it. -/
def IsUnreadable (kind : ReportKind) (item : Members) : Prop :=
  (∃ name f, item.get? "Arn" = some name ∧ Arn.parse name = .error f) ∨
    (kind = roles ∧ ∃ flaw, Policy.decodeRaw (item.get Name.trustPolicy) = .error flaw) ∨
    kind = profiles ∧ ∃ parts part role flaw,
      ((item.get? "Roles").getD (.list [])).items = .ok parts ∧ part ∈ parts ∧
        part.pairs = .ok role ∧ Policy.decodeRaw (role.get Name.trustPolicy) = .error flaw

/-! ## The record of an item -/

theorem ends_ofItem (session : Session) (name item : Value) :
    Ends (fun _ => True) (fun r => ∃ (arn : Arn) (ms : Members), Arn.parse name = .ok arn ∧
        item = .object ms ∧ r = Resource.ofArn session arn (ms.erase "ResponseMetadata"))
      (Resource.ofItem session name item) := by
  rw [Resource.ofItem]
  cases hparse : Arn.parse name with
  | error f => trivial
  | ok arn =>
    cases item with
    | object ms => exact ⟨arn, ms, rfl, rfl, rfl⟩
    | _ => trivial

/-- The roles that are embedded in an item are decoded one by one. -/
theorem ends_parts (vs : List Value) :
    Ends (fun _ => True) (List.Forall₂ IsDecodedPart vs) (profileRoles vs) := by
  induction vs with
  | nil => exact .nil
  | cons v vs ih =>
    rw [profileRoles]
    refine (Ends.found v.pairs).bind fun role hrole => ?_
    refine ((ends_decodeTrust role _).weaken fun _ _ => trivial).bind fun decoded hdecoded => ?_
    obtain ⟨document, hdocument, rfl⟩ := hdecoded
    exact ih.bind fun ws hws => .cons ⟨role, hrole, document, hdocument, rfl⟩ hws

variable {kind : ReportKind} {session : Session} {item : Members} {arn : Arn}

/-- What is erased is none of the members that a report looks at. -/
theorem get?_erase_of_ne {name : String} (h : name ≠ "ResponseMetadata") :
    (item.erase "ResponseMetadata").get? name = item.get? name := by
  rw [Members.get?_erase, if_neg h]

/-- The record that an ARN gives is placed by it, however it is identified. -/
theorem isPlaced_ofArn (session : Session) (arn : Arn) (ms : Members) (id : Value) :
    Resource.IsPlaced session arn { Resource.ofArn session arn ms with id } :=
  ⟨rfl, rfl, rfl, rfl⟩

section OfArn

variable (hname : item.get? "Arn" = some (.text arn.text))
  (hparse : Arn.parse (.text arn.text) = .ok arn)
include hname hparse

/-- A report that leaves an item as it is portrays it. -/
theorem portrays_entity (hroles : kind ≠ roles) (hprofiles : kind ≠ profiles) :
    kind.Portrays session item arn
      (Resource.ofArn session arn (item.erase "ResponseMetadata")) where
  named := hname
  parsed := hparse
  identified := by
    cases kind with
    | roles => exact absurd rfl hroles
    | profiles => exact absurd rfl hprofiles
    | _ => exact hname
  placed := isPlaced_ofArn session arn _ _
  sent := ⟨_, rfl, Members.keptBut_self _ _⟩
  trusted := fun h => absurd h hroles
  embedded := fun h => absurd h hprofiles
  used := fun _ => Or.inl (Prod.ext (get?_erase_of_ne (by decide)) (get?_erase_of_ne (by decide)))

/-- A role is portrayed with its trust policy decoded. -/
theorem portrays_role {id document : Value} (hid : item.get? "RoleId" = some id)
    (hdocument : Policy.decode (Members.get (item.erase "ResponseMetadata") Name.trustPolicy)
      (.text arn.text) = .ok document) :
    roles.Portrays session item arn
      { Resource.ofArn session arn
          (Members.set (item.erase "ResponseMetadata") Name.trustPolicy document) with id } where
  named := hname
  parsed := hparse
  identified := hid
  placed := isPlaced_ofArn session arn _ _
  sent := ⟨_, rfl, (Members.keptBut_self _ _).set List.mem_cons_self document⟩
  trusted := fun _ => by
    refine ⟨document, ?_, ?_⟩
    · rwa [Members.get, get?_erase_of_ne (by decide)] at hdocument
    · exact Value.member_object_iff.mpr ((Members.get?_set _ _ _ _).trans (if_pos rfl))
  embedded := nofun
  used := fun _ => by
    refine Or.inl (Prod.ext ?_ ?_)
    · exact (Members.get?_set _ _ _ _).trans (get?_erase_of_ne (by decide))
    · exact (Members.get?_set _ _ _ _).trans (get?_erase_of_ne (by decide))

/-- An instance profile is portrayed with the trust policies of its roles decoded. -/
theorem portrays_profile {id : Value} {parts decoded : List Value}
    (hid : item.get? "InstanceProfileId" = some id)
    (hparts : ((item.get? "Roles").getD (.list [])).items = .ok parts)
    (hdecoded : List.Forall₂ IsDecodedPart parts decoded) :
    profiles.Portrays session item arn
      { Resource.ofArn session arn
          (Members.set (item.erase "ResponseMetadata") "Roles" (.list decoded)) with id } where
  named := hname
  parsed := hparse
  identified := hid
  placed := isPlaced_ofArn session arn _ _
  sent := ⟨_, rfl, (Members.keptBut_self _ _).set List.mem_cons_self _⟩
  trusted := nofun
  embedded := fun _ => by
    refine ⟨parts, decoded, hparts, hdecoded, ?_⟩
    exact Value.member_object_iff.mpr ((Members.get?_set _ _ _ _).trans (if_pos rfl))
  used := fun h => absurd rfl h

end OfArn

/-- **The record of an item portrays it.** -/
theorem record_portrays {kind : ReportKind} {session : Session} {v : Value} {r : Resource}
    (h : kind.record session v = .ok r) : kind.IsPortrait session v r := by
  suffices hends : Ends (fun _ => True) (kind.IsPortrait session v) (kind.record session v) by
    rwa [h] at hends
  rw [record]
  refine (Ends.found _).bind fun name hname => (ends_ofItem session name v).bind fun r hr => ?_
  obtain ⟨arn, item, hparse, rfl, rfl⟩ := hr
  obtain rfl := Arn.eq_text_of_parse hparse
  rw [Value.member_object_iff] at hname
  cases kind with
  | users => exact ⟨item, arn, rfl, portrays_entity hname hparse (by decide) (by decide)⟩
  | groups => exact ⟨item, arn, rfl, portrays_entity hname hparse (by decide) (by decide)⟩
  | policies => exact ⟨item, arn, rfl, portrays_entity hname hparse (by decide) (by decide)⟩
  | roles =>
    refine ((ends_decodeTrust (item.erase "ResponseMetadata") _).weaken fun _ _ => trivial).bind ?_
    rintro members ⟨document, hdocument, rfl⟩
    refine (Ends.found _).bind fun id hid => ?_
    exact ⟨item, arn, rfl, portrays_role hname hparse (Value.member_object_iff.mp hid) hdocument⟩
  | profiles =>
    refine (Ends.found _).bind fun id hid => ?_
    refine (Ends.found ((item.get? "Roles").getD (.list [])).items).bind fun parts hparts => ?_
    refine (ends_parts parts).bind fun decoded hdecoded => ?_
    exact ⟨item, arn, rfl,
      portrays_profile hname hparse (Value.member_object_iff.mp hid) hparts hdecoded⟩

/-- What has been decoded can be decoded. -/
theorem decodeRaw_of_decode {raw identifier document : Value}
    (h : Policy.decode raw identifier = .ok document) (flaw : Policy.Flaw) :
    Policy.decodeRaw raw ≠ .error flaw := by
  intro hraw
  rw [Policy.decode, hraw] at h
  cases h

/-- **An item that cannot be read is not portrayed.** -/
theorem IsPortrait.readable {kind : ReportKind} {session : Session} {item : Members} {r : Resource}
    (h : kind.IsPortrait session (.object item) r) : ¬ kind.IsUnreadable item := by
  obtain ⟨item, arn, heq, h⟩ := h
  cases heq
  rintro (⟨name, f, hname, hparse⟩ | ⟨hkind, flaw, hraw⟩ |
    ⟨hkind, parts, part, role, flaw, hparts, hpart, hrole, hraw⟩)
  · obtain rfl := Option.some.inj (hname.symm.trans h.named)
    rw [h.parsed] at hparse
    cases hparse
  · obtain ⟨document, hdecode, -⟩ := h.trusted hkind
    exact decodeRaw_of_decode hdecode flaw hraw
  · obtain ⟨parts', decoded, hparts', hdecoded, -⟩ := h.embedded hkind
    obtain rfl := Except.ok.inj (hparts.symm.trans hparts')
    obtain ⟨-, role', hrole', document, hdecode, -⟩ := (exists_of_forall₂ hdecoded).1 part hpart
    obtain rfl := Except.ok.inj (hrole.symm.trans hrole')
    exact decodeRaw_of_decode hdecode flaw hraw

/-! ## The use of services in a portrait -/

/-- Writing the use of services goes to the end of what the service sent. -/
theorem write_of_object {settings : Settings} (history : LastAccessed.History settings)
    {r : Resource} {ms : Members} (h : r.metadata = .object ms) :
    history.write r = { r with
      metadata := .object ((ms.set Name.servicesLastAccessed (.list history.entries)).set
        Name.lastUsed history.time) } := by
  simp only [LastAccessed.History.write, LastAccessed.enrich, Resource.setMember, h]

/-- With the use of services written into it, a record has it. -/
theorem isEnriched_write {settings : Settings} (history : LastAccessed.History settings)
    {r : Resource} (h : r.isWritable) : (history.write r).IsEnriched :=
  ⟨history.entries, history.time, history.latest, (LastAccessed.enriched_enrich h _ _).use⟩

/-- A report that looks up the use of services writes it itself. -/
theorem mem_ownNames (hkind : kind ≠ profiles) :
    Name.servicesLastAccessed ∈ kind.ownNames ∧ Name.lastUsed ∈ kind.ownNames := by
  cases kind with
  | profiles => exact absurd rfl hkind
  | _ => exact ⟨by decide, by decide⟩

/-- **A record that portrays an item** still does so with the use of services written into it. -/
theorem Portrays.write (hkind : kind ≠ profiles) {r : Resource}
    (h : kind.Portrays session item arn r) {settings : Settings}
    (history : LastAccessed.History settings) :
    kind.Portrays session item arn (history.write r) ∧ (history.write r).IsEnriched := by
  obtain ⟨ms, hms, hkept⟩ := h.sent
  have hwritable : r.isWritable := by
    rw [Resource.isWritable, hms]
  have hrich := isEnriched_write history hwritable
  obtain ⟨hentries, htime⟩ := mem_ownNames hkind
  refine ⟨?_, hrich⟩
  rw [write_of_object history hms] at hrich ⊢
  exact {
    named := h.named
    parsed := h.parsed
    identified := h.identified
    placed := ⟨h.placed.service, h.placed.type, h.placed.account, h.placed.region⟩
    sent := ⟨_, rfl, (hkept.set hentries _).set htime _⟩
    trusted := fun hroles => by
      obtain ⟨document, hdecode, hheld⟩ := h.trusted hroles
      rw [hms, Value.member_object_iff] at hheld
      refine ⟨document, hdecode, Value.member_object_iff.mpr ?_⟩
      rw [Members.get?_set, if_neg (by decide), Members.get?_set, if_neg (by decide), hheld]
    embedded := fun hprofiles => absurd hprofiles hkind
    used := fun _ => Or.inr hrich }

end ReportKind

end IamInventory

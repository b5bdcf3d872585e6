import IamInventory.Export.Table
import IamInventory.Proofs.Containment

/-!
# Printing — a table has a line for everything

  A resource has a line in the table if its identity and its kind are texts and its latest use is a
  timestamp, or unknown. Answers can be asked for more than to be complete, so that all records
  which are made of them are such resources; the terms on which reports are made then say so of
  everything that a report has found, also where it has failed.

* **`Answer.Printable`** — complete answers of which only resources with lines are made.
* **`Terms.printable`** — the terms on which they are.
* **`Export.IsTable`** — the lines of the table of an inventory.
* **`Export.printTable_emits`** — what is printed is the table.
-/

namespace IamInventory

open LastAccessed

/-! ## Runs that show something -/

namespace Run

variable {σ α β : Type}

/-- **A run shows something**: it ends with a result and does some events, whatever its draft and
    its script, and leaves both as they are. -/
def Emits (m : Run σ α) (a : α) (t : Trace) : Prop := ∀ d s, m d s = ⟨.ok a, d, s, t⟩

namespace Emits

theorem pure (a : α) : (Pure.pure a : Run σ α).Emits a [] := fun _ _ => rfl

theorem emit (e : Event) : (Run.emit e : Run σ Unit).Emits () [e] := fun _ _ => rfl

theorem bind {m : Run σ α} {f : α → Run σ β} {a : α} {b : β} {t u : Trace} (hm : m.Emits a t)
    (hf : (f a).Emits b u) : (m >>= f).Emits b (t ++ u) := by
  intro d s
  have hresult : (m d s).result = .ok a := by rw [hm d s]
  rw [bind_of_ok hresult, hm d s, hf d s]

theorem each {items : List α} {es : List Event} {body : α → Run σ Unit}
    (h : List.Forall₂ (fun a e => (body a).Emits () [e]) items es) :
    (Run.each items body).Emits () es := by
  induction h with
  | nil => exact .pure ()
  | cons ha _ ih => exact ha.bind ih

end Emits

end Run

/-! ## Resources with lines -/

/-- Whether a value is unknown or a timestamp. -/
def Value.IsMoment (v : Value) : Prop := v = .null ∨ ∃ t, v = .time t

theorem Value.IsDate.isMoment {v : Value} (h : v.IsDate) : v.IsMoment := by
  rcases h with h | ⟨t, h, -⟩
  · exact Or.inl h
  · exact Or.inr ⟨t, h⟩

/-- **Whether a resource has a line in a table**: its identity and its kind are texts, and its
    latest use is a timestamp or unknown. -/
structure Resource.IsPrintable (r : Resource) : Prop where
  id : ∃ s, r.id = .text s
  kind : ∃ s, r.kind = .text s
  used : ∃ ms : Members, r.metadata = .object ms ∧ (ms.get Name.lastUsed).IsMoment

theorem Members.get_of_has_eq_false {ms : Members} {name : String} (h : ms.has name = false) :
    ms.get name = .null := by
  rw [Members.get, Option.not_isSome_iff_eq_none.mp (Bool.eq_false_iff.mp h)]
  rfl

/-- What the service sent tells no latest use if it did not before its part about the answer was
    left out. -/
theorem Members.get_lastUsed_erase {ms : Members} (h : ms.has Name.lastUsed = false) :
    Members.get (ms.erase "ResponseMetadata") Name.lastUsed = .null := by
  refine Members.get_of_has_eq_false ?_
  rw [Members.has, Members.get?_erase, if_neg (by decide)]
  exact h

theorem Members.get_set_of_ne {ms : Members} {name key : String} {v : Value} (h : key ≠ name) :
    (ms.set name v).get key = ms.get key := by
  rw [Members.get, Members.get?_set, if_neg h, Members.get]

theorem Members.get_set_self (ms : Members) (name : String) (v : Value) :
    (ms.set name v).get name = v := by
  rw [Members.get, Members.get?_set, if_pos rfl, Option.getD_some]

/-- A resource keeps its line when a member is written, if what is written as its latest use is a
    timestamp. -/
theorem Resource.IsPrintable.setMember {r : Resource} (h : r.IsPrintable) {name : String}
    {v : Value} (hv : name = Name.lastUsed → v.IsMoment) : (r.setMember name v).IsPrintable := by
  obtain ⟨ms, hms, hused⟩ := h.used
  have hset : r.setMember name v = { r with metadata := .object (ms.set name v) } := by
    rw [Resource.setMember, hms]
  rw [hset]
  refine ⟨h.id, h.kind, ms.set name v, rfl, ?_⟩
  by_cases hname : name = Name.lastUsed
  · rw [hname, Members.get_set_self]
    exact hv hname
  · rw [Members.get_set_of_ne (Ne.symm hname)]
    exact hused

/-! ## Answers of which such resources are made -/

namespace Members

/-- The listings whose items give records their identities: the name of the items, and the member
    that does. -/
def identified : List (Action × String × String) :=
  [(⟨"list_roles"⟩, "Roles", "RoleId"),
   (⟨"list_instance_profiles"⟩, "InstanceProfiles", "InstanceProfileId"),
   (⟨"list_access_keys"⟩, "AccessKeyMetadata", "AccessKeyId")]

/-- **Whether only resources with lines are made of a response to an action**, if it fits:
    identities are texts, the service sends nothing under the name of the latest use, and the latest
    use of an access key is a timestamp or unknown. The response that tells who is calling tells the
    account. -/
structure Shows (ms : Members) (action : Action) : Prop where
  account : action = Session.whoAmI → ms.has "Account"
  ids : ∀ row ∈ identified, action = row.1 →
    ms.Lists row.2.1 fun item => ∀ id, item.get? row.2.2 = some id → ∃ s, id = .text s
  unused : ∀ kind : ReportKind, action = kind.outer →
    ms.Lists kind.itemsName fun item => item.has Name.lastUsed = false
  version : action = ⟨"get_policy_version"⟩ →
    ∀ found : Members, ms.get? "PolicyVersion" = some (.object found) →
      found.has Name.lastUsed = false
  use : action = ⟨"get_access_key_last_used"⟩ →
    ∀ use : Members, ms.get? Name.accessKeyLastUsed = some (.object use) →
      (use.get "LastUsedDate").IsMoment

end Members

/-- **Whether an answer to an action is printable**: it is complete, and only resources with lines
    are made of it. -/
def Answer.Printable (action : Action) (a : Answer) : Prop :=
  a.Complete action ∧ ∀ ms : Members, a = .response (.object ms) → ms.Shows action

theorem Answer.printable_unscripted (action : Action) :
    Answer.Printable action Script.unscripted := by
  refine ⟨Answer.complete_unscripted action, fun ms hms => ?_⟩
  cases hms

namespace Terms

variable {session : Session}

theorem printable_made {kind : ReportKind} {item : Members} {r : Resource}
    (hitem : Promise.Item Answer.Printable kind.outer kind.itemsName item)
    (h : kind.Makes session item r) : r.IsPrintable := by
  have hunused : item.has Name.lastUsed = false :=
    hitem.holds fun ms hms => (hms.2 ms rfl).unused kind rfl
  have hnull := Members.get_lastUsed_erase hunused
  cases h with
  | entity => exact ⟨⟨_, rfl⟩, ⟨_, rfl⟩, _, rfl, Or.inl hnull⟩
  | role hid =>
    have htext : ∀ id, item.get? "RoleId" = some id → ∃ s, id = .text s := hitem.holds
      fun ms hms => (hms.2 ms rfl).ids (_, "Roles", "RoleId") List.mem_cons_self rfl
    refine ⟨htext _ hid, ⟨_, rfl⟩, _, rfl, Or.inl ?_⟩
    rw [Members.get_set_of_ne (by decide)]
    exact hnull
  | profile hid =>
    have htext : ∀ id, item.get? "InstanceProfileId" = some id → ∃ s, id = .text s :=
      hitem.holds fun ms hms =>
        (hms.2 ms rfl).ids (_, "InstanceProfiles", "InstanceProfileId") (by decide) rfl
    refine ⟨htext _ hid, ⟨_, rfl⟩, _, rfl, Or.inl ?_⟩
    rw [Members.get_set_of_ne (by decide)]
    exact hnull

theorem printable_looked {item : Members} (k : KeyLookup session)
    (hitem : Promise.Item Answer.Printable ⟨"list_access_keys"⟩ "AccessKeyMetadata" item)
    (hk : k.item = .object item)
    (hresponse : Answer.Printable ⟨"get_access_key_last_used"⟩ (.response k.response)) :
    k.resource.IsPrintable := by
  have htext : ∀ id, item.get? "AccessKeyId" = some id → ∃ s, id = .text s := hitem.holds
    fun ms hms => (hms.2 ms rfl).ids (_, "AccessKeyMetadata", "AccessKeyId") (by decide) rfl
  have hid : item.get? "AccessKeyId" = some k.id := by
    have hnamed := k.named
    rw [hk, Value.member] at hnamed
    split at hnamed
    · next hget =>
      cases hnamed
      exact hget
    · cases hnamed
  obtain ⟨ms, hms, hfits⟩ := hresponse.1
  have hfound : k.found = (ms.get? Name.accessKeyLastUsed).getD .null := by
    have hheld := k.held
    rw [hms] at hheld
    exact (Except.ok.inj hheld).symm
  refine ⟨htext _ hid, ⟨_, rfl⟩, _, rfl, ?_⟩
  rw [Members.get_set_self]
  rcases (hfits.use rfl).getD with hnull | ⟨use, huse⟩
  · rw [k.use_of_null (hfound.trans hnull)]
    exact Or.inl rfl
  · rw [k.use_of_object (hfound.trans huse)]
    refine (hresponse.2 ms (by rw [hms])).use rfl use ?_
    cases hget : ms.get? Name.accessKeyLastUsed with
    | none => simp [hget] at huse
    | some v =>
      rw [hget, Option.getD_some] at huse
      rw [huse]

theorem printable_decoded {policy : Value} (x : VersionLookup session policy)
    (hresponse : Answer.Printable ⟨"get_policy_version"⟩ (.response x.response)) :
    x.resource.IsPrintable := by
  obtain ⟨ms, hms, hfits⟩ := hresponse.1
  obtain ⟨found, hfound⟩ := hfits.version rfl
  have hheld : x.found = .object found := by
    have hheld := x.held
    simp only [hms, Value.member, hfound] at hheld
    exact (Except.ok.inj hheld).symm
  have hmembers : x.metadata = found.erase "ResponseMetadata" := by
    have hmembers := x.members
    rw [hheld] at hmembers
    exact (Except.ok.inj hmembers).symm
  have hunused := (hresponse.2 ms (by rw [hms])).version rfl found hfound
  refine ⟨⟨_, rfl⟩, ⟨_, rfl⟩, _, rfl, Or.inl ?_⟩
  rw [Members.get_set_of_ne (by decide), hmembers]
  exact Members.get_lastUsed_erase hunused

/-- **The terms on which all records have lines.** -/
def printable (session : Session) : Terms session where
  answers := Answer.Printable
  records := Resource.IsPrintable
  complete _ _ h := h.1
  unscripted := Answer.printable_unscripted
  writable r h := by
    obtain ⟨ms, hms, -⟩ := h.used
    rw [Resource.isWritable, hms]
  made _ _ _ := printable_made
  looked _ k hitem hk := printable_looked k hitem hk
  decoded _ _ x _ _ := printable_decoded x
  entered _ _ h _ := h.setMember fun heq => absurd heq (by decide)
  used _ _ h htime := h.setMember fun _ => htime.isMoment

end Terms

/-! ## The table -/

namespace Export

variable {σ : Type}

/-- **Whether a line is the one of a resource of a report.** -/
def IsRow (report : Value) (r : Resource) (line : String) : Prop :=
  ∃ name id kind used, report = .text name ∧ r.id = .text id ∧ r.kind = .text kind ∧
    ((r.lastUsed = .ok .null ∧ used = "-") ∨
      ∃ t, r.lastUsed = .ok (.time t) ∧ used = t.text) ∧
    line = tableLine (padded reportWidth name) (padded kindWidth kind) (shortened id) used

/-- **Whether lines are the table of an inventory**: a line for each resource of every report below
    the head, or one that says that there are none; then a line for each report that has failed. -/
def IsTable (inventory : Inventory) (lines : List String) : Prop :=
  ∃ rows told, List.Forall₂ (fun r line => IsRow r.1 r.2 line)
      (Inventory.resources inventory) rows ∧
    Inventory.failures inventory = .ok told ∧
    lines = (if rows = [] then ["No resources found."]
      else tableHeader :: String.ofList (List.replicate tableHeader.length '-') :: rows) ++
        told.map fun f => "Report " ++ f.1.shown ++ " is incomplete: " ++ f.2

/-- What is done to print lines. -/
def printedLines (lines : List String) : Trace := lines.map fun line => .printed (line ++ "\n")

theorem exists_row (name : String) {r : Resource} (h : r.IsPrintable) :
    ∃ line, resourceLine (.text name) r = .ok line ∧ IsRow (.text name) r line := by
  obtain ⟨id, hid⟩ := h.id
  obtain ⟨kind, hkind⟩ := h.kind
  obtain ⟨ms, hms, hused⟩ := h.used
  have hlast : r.lastUsed = .ok (ms.get Name.lastUsed) := by
    rw [Resource.lastUsed, hms]
    rfl
  have hidentity : identityText? r.id = .ok (some (shortened id)) := by rw [hid]; rfl
  have hcolumn : column kindWidth r.kind = .ok (padded kindWidth kind) := by rw [hkind]; rfl
  rcases hused with hnull | ⟨t, ht⟩
  · rw [hnull] at hlast
    have hno : r.lastUsedText? = .ok none := by rw [Resource.lastUsedText?, hlast]; rfl
    refine ⟨_, ?_, name, id, kind, "-", rfl, hid, hkind, Or.inl ⟨hlast, rfl⟩, rfl⟩
    rw [resourceLine, hidentity, hno, hcolumn]
    rfl
  · rw [ht] at hlast
    have hsome : r.lastUsedText? = .ok (some t.text) := by rw [Resource.lastUsedText?, hlast]; rfl
    refine ⟨_, ?_, name, id, kind, t.text, rfl, hid, hkind, Or.inr ⟨t, hlast, rfl⟩, rfl⟩
    rw [resourceLine, hidentity, hsome, hcolumn]
    rfl

theorem printLine_emits (line : String) :
    (printLine line : Run σ Unit).Emits () [.printed (line ++ "\n")] := .emit _

/-- Prints the line of each resource, below the head. -/
def printRows (inventory : Inventory) : Run σ Unit :=
  if (Inventory.resources inventory).isEmpty then printLine "No resources found."
  else do
    printLine tableHeader
    printLine (String.ofList (List.replicate tableHeader.length '-'))
    Run.each (Inventory.resources inventory) fun r => do
      printLine (← Run.ofFault (resourceLine r.1 r.2))

theorem printTable_eq (inventory : Inventory) :
    (printTable inventory : Run σ Unit) = printRows inventory >>= fun _ =>
      Run.ofFault (Inventory.failures inventory) >>= fun told => Run.each told fun f =>
        printLine ("Report " ++ f.1.shown ++ " is incomplete: " ++ f.2) := by
  rw [printTable, printRows]
  split
  · rfl
  · simp only [bind_assoc]

/-- Resources of reports have lines. -/
theorem exists_rows {rs : List (Value × Resource)}
    (h : ∀ r ∈ rs, (∃ name, r.1 = .text name) ∧ r.2.IsPrintable) :
    ∃ rows, List.Forall₂ (fun r line => resourceLine r.1 r.2 = .ok line ∧ IsRow r.1 r.2 line)
      rs rows := by
  induction rs with
  | nil => exact ⟨[], .nil⟩
  | cons r rs ih =>
    obtain ⟨⟨⟨name, hname⟩, hr⟩, hrs⟩ := List.forall_mem_cons.mp h
    obtain ⟨line, hline⟩ := exists_row name hr
    obtain ⟨rows, hrows⟩ := ih hrs
    refine ⟨line :: rows, .cons ?_ hrows⟩
    rw [hname]
    exact hline

theorem printRows_emits {inventory : Inventory} {rows : List String}
    (h : List.Forall₂ (fun r line => resourceLine r.1 r.2 = .ok line)
      (Inventory.resources inventory) rows) :
    (printRows inventory : Run σ Unit).Emits () (printedLines
      (if rows = [] then ["No resources found."]
        else tableHeader :: String.ofList (List.replicate tableHeader.length '-') :: rows)) := by
  have hbody : List.Forall₂ (fun r e => (do
      printLine (← Run.ofFault (resourceLine r.1 r.2)) : Run σ Unit).Emits () [e])
      (Inventory.resources inventory) (printedLines rows) := by
    refine List.forall₂_map_right_iff.mpr (h.imp fun r line hline => ?_)
    rw [hline, Run.ofFault_ok, pure_bind]
    exact printLine_emits line
  rw [printRows]
  generalize Inventory.resources inventory = rs at h hbody
  cases h with
  | nil => exact printLine_emits _
  | cons => exact (printLine_emits _).bind ((printLine_emits _).bind (.each hbody))

/-- **What is printed is the table**, if every resource has a line and every failure has words. -/
theorem printTable_emits {inventory : Inventory}
    (h : ∀ r ∈ Inventory.resources inventory, (∃ name, r.1 = .text name) ∧ r.2.IsPrintable)
    (hreadable : ∀ p ∈ inventory, ∀ f, p.2.error = some f → f.isReadable) :
    ∃ lines, IsTable inventory lines ∧
      (printTable inventory : Run σ Unit).Emits () (printedLines lines) := by
  obtain ⟨rows, hrows⟩ := exists_rows h
  have htold := Inventory.failures_eq hreadable
  refine ⟨_, ⟨rows, _, hrows.imp fun _ _ => And.right, htold, rfl⟩, ?_⟩
  -- first the lines of resources, then those of failures
  rw [printTable_eq, htold, Run.ofFault_ok, pure_bind, printedLines, List.map_append]
  refine (printRows_emits (hrows.imp fun _ _ => And.left)).bind (.each ?_)
  refine List.forall₂_map_right_iff.mpr (List.forall₂_map_right_iff.mpr ?_)
  exact List.forall₂_same.mpr fun f _ => printLine_emits _

end Export

end IamInventory

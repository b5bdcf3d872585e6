import IamInventory.Export.Document
import IamInventory.Proofs.JsonText

/-!
# Documents — what the exported text says

  The document of an inventory is written as JSON, which has no timestamps and no bytes. They are
  written in words, so what is read back is not the document itself but what its text *tells*: the
  same document with texts in these places. Everything else comes back as it was, the order of
  reports, resources and members included.

* **`Value.told`** — what the text of a value tells; `Json.chars_told` says that it is told by it.
* **`Json.ascii_chars`** — what is written is ASCII.
* **`Export.documentText_told`** — the text of an inventory, and what it tells.
-/

namespace IamInventory

open Number Text

/-! ## What a text tells -/

mutual

/-- **What the text of a value tells**: timestamps and bytes are told in words. -/
def Value.told : Value → Value
  | .time t => .text t.spacedText
  | .bytes bs => .text (quotedBytes bs)
  | .list vs => .list (toldItems vs)
  | .object ms => .object (toldMembers ms)
  | v => v

/-- What the text of a list tells. -/
def toldItems : List Value → List Value
  | [] => []
  | v :: vs => v.told :: toldItems vs

/-- What the text of an object tells. -/
def toldMembers : List (String × Value) → List (String × Value)
  | [] => []
  | (name, v) :: ms => (name, v.told) :: toldMembers ms

end

/-- Whether the text of a value tells everything of it but which texts are words for timestamps and
    bytes: it holds no floating-point numbers, no integer has more digits than can be read, and no
    object has a name twice. -/
def Value.isTold (v : Value) : Bool := v.told.isExact

theorem toldItems_eq_map (vs : List Value) : toldItems vs = vs.map Value.told := by
  induction vs with
  | nil => rfl
  | cons v vs ih => rw [toldItems, ih, List.map_cons]

mutual

/-- What is told exactly is told as it is. -/
theorem Value.told_eq_self (v : Value) (h : v.isExact) : v.told = v := by
  cases v with
  | list vs => exact congrArg Value.list (toldItems_eq_self vs h)
  | object ms =>
    rw [Value.isExact, Bool.and_eq_true] at h
    exact congrArg Value.object (toldMembers_eq_self ms h.2)
  | time t => cases h
  | bytes bs => cases h
  | _ => rfl

theorem toldItems_eq_self (vs : List Value) (h : areExact vs) : toldItems vs = vs := by
  cases vs with
  | nil => rfl
  | cons v vs =>
    rw [areExact, Bool.and_eq_true] at h
    rw [toldItems, Value.told_eq_self v h.1, toldItems_eq_self vs h.2]

theorem toldMembers_eq_self (ms : List (String × Value)) (h : holdExact ms) :
    toldMembers ms = ms := by
  cases ms with
  | nil => rfl
  | cons m ms =>
    obtain ⟨name, v⟩ := m
    rw [holdExact, Bool.and_eq_true] at h
    rw [toldMembers, Value.told_eq_self v h.1, toldMembers_eq_self ms h.2]

end

namespace Json

mutual

/-- **A value is written as what its text tells.** -/
theorem chars_told (layout : Layout) (v : Value) (depth : Nat) :
    chars layout depth v.told = chars layout depth v := by
  cases v with
  | list vs =>
    cases vs with
    | nil => rfl
    | cons w ws =>
      have hitems := itemsChars_told layout (w :: ws) (depth + 1)
      simp only [Value.told, toldItems, chars, List.isEmpty_cons] at hitems ⊢
      rw [hitems]
  | object ms =>
    cases ms with
    | nil => rfl
    | cons m ms =>
      have hmembers := membersChars_told layout (m :: ms) (depth + 1)
      simp only [Value.told, toldMembers, chars, List.isEmpty_cons] at hmembers ⊢
      rw [hmembers]
  | _ => rfl

theorem itemsChars_told (layout : Layout) (vs : List Value) (depth : Nat) :
    itemsChars layout depth (toldItems vs) = itemsChars layout depth vs := by
  cases vs with
  | nil => rfl
  | cons v vs =>
    have hempty : (toldItems vs).isEmpty = vs.isEmpty := by cases vs <;> rfl
    rw [toldItems, itemsChars, itemsChars, chars_told layout v, itemsChars_told layout vs, hempty]

theorem membersChars_told (layout : Layout) (ms : List (String × Value)) (depth : Nat) :
    membersChars layout depth (toldMembers ms) = membersChars layout depth ms := by
  cases ms with
  | nil => rfl
  | cons m ms =>
    obtain ⟨name, v⟩ := m
    have hempty : (toldMembers ms).isEmpty = ms.isEmpty := by cases ms <;> rfl
    rw [toldMembers, membersChars, membersChars, chars_told layout v, membersChars_told layout ms,
      hempty]

end

/-! ## ASCII -/

/-- Whether all characters are of ASCII. -/
def IsAscii (cs : List Char) : Prop := ∀ c ∈ cs, c.toNat < 0x80

theorem IsAscii.append {cs ds : List Char} (hc : IsAscii cs) (hd : IsAscii ds) :
    IsAscii (cs ++ ds) := by
  intro c hmem
  rcases List.mem_append.mp hmem with hmem | hmem
  · exact hc c hmem
  · exact hd c hmem

theorem IsAscii.cons {c : Char} {cs : List Char} (hc : c.toNat < 0x80) (h : IsAscii cs) :
    IsAscii (c :: cs) := List.forall_mem_cons.mpr ⟨hc, h⟩

theorem hexChar_toNat_lt (n : Nat) : (hexChar n).toNat < 0x80 := by
  have table : ∀ m < 16, (if m < 10 then Char.ofNat (48 + m) else Char.ofNat (87 + m)).toNat <
      0x80 := by decide
  exact table (n % 16) (Nat.mod_lt n (by decide))

theorem ascii_codeEscape (n : Nat) : IsAscii (codeEscape n) := by
  have hdigits (width n : Nat) : IsAscii (hexText width n) := by
    induction width generalizing n with
    | zero => exact List.forall_mem_nil _
    | succ width ih =>
      exact (ih (n / 16)).append (.cons (hexChar_toNat_lt n) (List.forall_mem_nil _))
  exact .cons (by decide) (.cons (by decide) (hdigits 4 n))

/-- A character stands in a literal as ASCII. -/
theorem ascii_writeChar (c : Char) : IsAscii (writeChar c) := by
  rw [writeChar]
  -- seven characters have an escape of their own
  iterate 7
    split
    · simp [IsAscii]
  split
  · next hc => exact .cons (by omega) (List.forall_mem_nil _)
  split
  · exact ascii_codeEscape _
  · exact (ascii_codeEscape _).append (ascii_codeEscape _)

theorem ascii_writeString (s : String) : IsAscii (writeString s) := by
  have hchars : IsAscii (s.toList.flatMap writeChar) := by
    intro c hc
    obtain ⟨x, -, hx⟩ := List.mem_flatMap.mp hc
    exact ascii_writeChar x c hx
  exact (IsAscii.cons (by decide) hchars).append (.cons (by decide) (List.forall_mem_nil _))

theorem ascii_integerChars (n : Int) : IsAscii (integerChars n) := by
  have hdigits : IsAscii (Nat.toDigits 10 n.natAbs) := by
    intro c hc
    have hdigit := isDigit_toDigits n.natAbs c hc
    simp only [Char.isDigit, Bool.and_eq_true, decide_eq_true_eq] at hdigit
    have hle : c.toNat ≤ '9'.toNat := hdigit.2
    exact Nat.lt_of_le_of_lt hle (by decide)
  rw [integerChars]
  split
  · exact .cons (by decide) hdigits
  · exact hdigits

theorem ascii_of_isSpace {cs : List Char} (h : ∀ c ∈ cs, isSpace c) : IsAscii cs := by
  intro c hc
  rcases isSpace_cases (h c hc) with rfl | rfl | rfl | rfl <;> decide

section Ascii

variable {layout : Layout} (hl : layout.IsBlank)

include hl

mutual

/-- **The text of a value that is told exactly is ASCII.** -/
theorem ascii_chars (v : Value) (hv : v.isExact) (depth : Nat) :
    IsAscii (chars layout depth v) := by
  cases v with
  | null => simp [chars, IsAscii]
  | bool b => cases b <;> simp [chars, IsAscii]
  | int n => exact ascii_integerChars n
  | text s => exact ascii_writeString s
  | list vs =>
    rw [chars]
    split
    · simp [IsAscii]
    · exact ((IsAscii.cons (by decide) (ascii_itemsChars vs hv (depth + 1))).append
        (ascii_of_isSpace (hl.1 depth))).append (by simp [IsAscii])
  | object ms =>
    rw [Value.isExact, Bool.and_eq_true] at hv
    rw [chars]
    split
    · simp [IsAscii]
    · exact ((IsAscii.cons (by decide) (ascii_membersChars ms hv.2 (depth + 1))).append
        (ascii_of_isSpace (hl.1 depth))).append (by simp [IsAscii])
  | real x => cases hv
  | time t => cases hv
  | bytes bs => cases hv

theorem ascii_itemsChars (vs : List Value) (h : areExact vs) (depth : Nat) :
    IsAscii (itemsChars layout depth vs) := by
  cases vs with
  | nil => exact List.forall_mem_nil _
  | cons v vs =>
    rw [areExact, Bool.and_eq_true] at h
    have hrest := ascii_itemsChars vs h.2 depth
    rw [itemsChars]
    refine ((ascii_of_isSpace (hl.1 depth)).append (ascii_chars v h.1 depth)).append ?_
    split
    · exact List.forall_mem_nil _
    · exact .cons (by decide) hrest

theorem ascii_membersChars (ms : List (String × Value)) (h : holdExact ms) (depth : Nat) :
    IsAscii (membersChars layout depth ms) := by
  cases ms with
  | nil => exact List.forall_mem_nil _
  | cons m ms =>
    obtain ⟨name, v⟩ := m
    rw [holdExact, Bool.and_eq_true] at h
    have hrest := ascii_membersChars ms h.2 depth
    have hvalue := ascii_chars v h.1 depth
    have hname := (ascii_of_isSpace (hl.1 depth)).append (ascii_writeString name)
    have hcolon := IsAscii.cons (c := ':') (by decide) (ascii_of_isSpace hl.2)
    rw [membersChars]
    refine ((hname.append hcolon).append hvalue).append ?_
    split
    · exact List.forall_mem_nil _
    · exact .cons (by decide) hrest

end

end Ascii

end Json

theorem areExact_iff (vs : List Value) : areExact vs ↔ ∀ v ∈ vs, v.isExact := by
  induction vs with
  | nil => simp [areExact]
  | cons v vs ih => simp [areExact, ih]

theorem holdExact_iff (ms : List (String × Value)) : holdExact ms ↔ ∀ m ∈ ms, m.2.isExact := by
  induction ms with
  | nil => simp [holdExact]
  | cons m ms ih => simp [holdExact, ih]

theorem isExact_object_iff (ms : Members) :
    (Value.object ms).isExact ↔ ms.names.Nodup ∧ ∀ m ∈ ms, m.2.isExact := by
  rw [Value.isExact, Bool.and_eq_true, decide_eq_true_eq, holdExact_iff]

/-! ## The document of an inventory -/

/-- Whether the text of a resource tells everything: what the service sent is told, and the other
    fields are told exactly. -/
structure Resource.IsTold (r : Resource) : Prop where
  id : r.id.isExact
  arn : r.arn.isExact
  account : r.account.isExact
  region : r.region.isExact
  service : r.service.isExact
  kind : r.kind.isExact
  metadata : r.metadata.isTold

namespace Export

/-- What the document tells of a resource of a report. -/
def toldResource (report : String) (r : Resource) : Value :=
  .object [("id", r.id), ("arn", r.arn), ("account_id", r.account), ("region", r.region),
    ("service", r.service), ("type", r.kind), ("metadata", r.metadata.told),
    ("report", .text report)]

/-- The failures of reports in words, by the names of the reports. -/
def failedReports (reports : List (String × Report)) : List (String × Value) :=
  reports.filterMap fun p => p.2.error.map fun f => (p.1, .text f.message)

/-- The inventory of reports. -/
def inventoryOf (reports : List (String × Report)) : Inventory :=
  reports.map fun p => (.text p.1, p.2)

theorem told_resource {r : Resource} (h : r.IsTold) (report : String) :
    (Value.object (r.fields ++ [("report", .text report)])).told = toldResource report r := by
  simp only [Value.told, Resource.fields, toldResource, List.cons_append, List.nil_append,
    toldMembers, Value.told_eq_self _ h.id, Value.told_eq_self _ h.arn,
    Value.told_eq_self _ h.account, Value.told_eq_self _ h.region, Value.told_eq_self _ h.service,
    Value.told_eq_self _ h.kind]

theorem isExact_toldResource {r : Resource} (h : r.IsTold) (report : String) :
    (toldResource report r).isExact := by
  refine (isExact_object_iff _).mpr ⟨by simp [Members.names], ?_⟩
  have hmetadata : r.metadata.told.isExact := h.metadata
  simp [h.id, h.arn, h.account, h.region, h.service, h.kind, hmetadata, Value.isExact]

theorem names_failedReports (reports : List (String × Report)) :
    (Members.names (failedReports reports)).Sublist (reports.map Prod.fst) := by
  induction reports with
  | nil => exact List.Sublist.slnil
  | cons p reports ih =>
    rw [failedReports, List.filterMap_cons]
    cases p.2.error with
    | none => exact ih.cons p.1
    | some f => exact ih.cons_cons p.1

/-- **Whether the failures of reports can be put into words.** All those can that have an operation
    and a detail of the kinds that are meant for them (`Failure.isReadable_of_texts`). -/
def AreReadable (reports : List (String × Report)) : Prop :=
  ∀ p ∈ reports, ∀ f, p.2.error = some f → f.isReadable

/-- **The document of reports**, before anything is told in words. -/
theorem document_inventoryOf {reports : List (String × Report)} (h : AreReadable reports) :
    document (inventoryOf reports) = .ok (.object
      [("resources", .list (resourceValues (inventoryOf reports))),
       ("errors", .object (failedReports reports))]) := by
  have hreadable : ∀ p ∈ inventoryOf reports, ∀ f, p.2.error = some f → f.isReadable := by
    intro p hp f hf
    obtain ⟨q, hq, rfl⟩ := List.mem_map.mp hp
    exact h q hq f hf
  have herrors : ((inventoryOf reports).filterMap fun p => p.2.error.map fun f =>
      (p.1, f.message)).mapM (fun f => do .ok ((← documentName f.1), Value.text f.2)) =
        (.ok (failedReports reports) : Except Fault (List (String × Value))) := by
    clear h hreadable
    induction reports with
    | nil => rfl
    | cons p reports ih =>
      simp only [inventoryOf, failedReports, List.map_cons, List.filterMap_cons] at ih ⊢
      cases p.2.error with
      | none => exact ih
      | some f =>
        simp only [Option.map_some, List.mapM_cons, ih]
        rfl
  rw [document, Inventory.failures_eq hreadable]
  simp only [bind, Except.bind] at herrors ⊢
  rw [herrors]

/-- There is no document where a failure cannot be put into words. -/
theorem documentText_of_not_areReadable {reports : List (String × Report)}
    (h : ¬ AreReadable reports) : documentText (inventoryOf reports) = .error .mistyped := by
  simp only [AreReadable, not_forall] at h
  obtain ⟨p, hp, f, hf, hno⟩ := h
  have hmem : ((Value.text p.1, p.2) : Value × Report) ∈ inventoryOf reports :=
    List.mem_map.mpr ⟨p, hp, rfl⟩
  rw [documentText, document, Inventory.failures_eq_error hmem hf hno]
  rfl

theorem resourceValues_inventoryOf (reports : List (String × Report)) :
    resourceValues (inventoryOf reports) = reports.flatMap fun p =>
      p.2.resources.map fun r => .object (r.fields ++ [("report", .text p.1)]) := by
  simp only [resourceValues, Inventory.resources, inventoryOf, List.flatMap_map, List.map_flatMap,
    List.map_map, Function.comp_def]

/-- What the document of reports tells. -/
def toldDocument (reports : List (String × Report)) : Value := .object
  [("resources", .list (reports.flatMap fun p => p.2.resources.map (toldResource p.1))),
   ("errors", .object (failedReports reports))]

section Document

variable {reports : List (String × Report)}

theorem isExact_of_mem_failedReports {m : String × Value} (h : m ∈ failedReports reports) :
    m.2.isExact := by
  obtain ⟨p, -, hp⟩ := List.mem_filterMap.mp h
  obtain ⟨f, -, rfl⟩ := Option.map_eq_some_iff.mp hp
  rfl

variable (hresources : ∀ p ∈ reports, ∀ r ∈ p.2.resources, r.IsTold)

include hresources

theorem told_document :
    (Value.object [("resources", .list (resourceValues (inventoryOf reports))),
      ("errors", .object (failedReports reports))]).told = toldDocument reports := by
  simp only [Value.told, toldMembers, toldItems_eq_map, resourceValues_inventoryOf, toldDocument,
    toldMembers_eq_self _ ((holdExact_iff _).mpr fun _ => isExact_of_mem_failedReports),
    List.map_flatMap, List.map_map]
  have hresource (p) (hp : p ∈ reports) : p.2.resources.map (Value.told ∘ fun r =>
      .object (r.fields ++ [("report", .text p.1)])) = p.2.resources.map (toldResource p.1) :=
    List.map_congr_left fun r hr => told_resource (hresources p hp r hr) p.1
  rw [List.flatMap_def, List.flatMap_def, List.map_congr_left hresource]

theorem isExact_toldDocument (hnames : (reports.map Prod.fst).Nodup) :
    (toldDocument reports).isExact := by
  have hlist : (Value.list
      (reports.flatMap fun p => p.2.resources.map (toldResource p.1))).isExact := by
    refine (areExact_iff _).mpr fun v hv => ?_
    obtain ⟨p, hp, hv⟩ := List.mem_flatMap.mp hv
    obtain ⟨r, hr, rfl⟩ := List.mem_map.mp hv
    exact isExact_toldResource (hresources p hp r hr) p.1
  have herrors : (Value.object (failedReports reports)).isExact :=
    (isExact_object_iff _).mpr ⟨hnames.sublist (names_failedReports reports),
      fun _ => isExact_of_mem_failedReports⟩
  refine (isExact_object_iff _).mpr ⟨by simp [Members.names], ?_⟩
  exact List.forall_mem_cons.mpr ⟨hlist, List.forall_mem_singleton.mpr herrors⟩

end Document

/-- **The exported text of an inventory** is ASCII, and is read as one object: the resources of all
    reports in order, each with its fields as they are, what the service sent as it is told, and
    the name of its report; and the failures of the reports that have one, in words. Where one of
    the failures cannot be put into words, there is no text. -/
theorem documentText_told {reports : List (String × Report)}
    (hnames : (reports.map Prod.fst).Nodup)
    (hresources : ∀ p ∈ reports, ∀ r ∈ p.2.resources, r.IsTold) :
    (AreReadable reports →
      ∃ text, documentText (reports.map fun p => (.text p.1, p.2)) = .ok text ∧
        (∀ c ∈ text.toList, c.toNat < 0x80) ∧
        Json.readText text.toList = .ok (.object
          [("resources", .list (reports.flatMap fun p => p.2.resources.map fun r => .object
              [("id", r.id), ("arn", r.arn), ("account_id", r.account), ("region", r.region),
                ("service", r.service), ("type", r.kind), ("metadata", r.metadata.told),
                ("report", .text p.1)])),
           ("errors", .object (reports.filterMap fun p =>
              p.2.error.map fun f => (p.1, .text f.message)))])) ∧
    (¬ AreReadable reports →
      documentText (reports.map fun p => (.text p.1, p.2)) = .error .mistyped) := by
  refine ⟨fun hreadable => ?_, documentText_of_not_areReadable⟩
  refine ⟨Json.write .indented (.object
    [("resources", .list (resourceValues (inventoryOf reports))),
     ("errors", .object (failedReports reports))]), ?_, ?_⟩
  · show documentText (inventoryOf reports) = _
    rw [documentText, document_inventoryOf hreadable]
    rfl
  · have hexact := isExact_toldDocument hresources hnames
    rw [Json.write, String.toList_ofList, ← Json.chars_told, told_document hresources]
    exact ⟨Json.ascii_chars Json.isBlank_indented _ hexact 0,
      Json.readText_chars Json.isBlank_indented hexact 0⟩

/-- An inventory with a user, of whom the service sent a date, bytes and words, and with a report
    that failed. -/
def sampleReports : List (String × Report) :=
  [("users", {
      entries := [⟨{
          id := .text "arn:aws:iam::1:user/ann"
          arn := .text "arn:aws:iam::1:user/ann"
          account := .text "1"
          region := .text "us-east-1"
          service := .text "iam"
          kind := .text "user"
          metadata := .object
            [("CreateDate", .time ⟨2024, 2, 29, 23, 59, 59, 0, some 0⟩),
             ("Tags", .list [.object [("Key", .text "é"), ("Value", .bytes [0xC3, 0x41])]]),
             ("Count", .int (-7))] }, none⟩]
      error := none }),
   ("groups", ⟨[], some ⟨.decoding, .text "unexpected end", .text "decode", .null⟩⟩)]

/-- `documentText_told` for the inventory of `sampleReports`. -/
theorem documentText_told_sample :
    (sampleReports.map Prod.fst).Nodup ∧
    (∀ p ∈ sampleReports, ∀ r ∈ p.2.resources, r.IsTold) ∧ AreReadable sampleReports ∧
    ∃ text, documentText (sampleReports.map fun p => (.text p.1, p.2)) = .ok text ∧
      (∀ c ∈ text.toList, c.toNat < 0x80) ∧
      Json.readText text.toList = .ok (.object
        [("resources", .list [.object
            [("id", .text "arn:aws:iam::1:user/ann"), ("arn", .text "arn:aws:iam::1:user/ann"),
             ("account_id", .text "1"), ("region", .text "us-east-1"), ("service", .text "iam"),
             ("type", .text "user"),
             ("metadata", .object
               [("CreateDate", .text "2024-02-29 23:59:59+00:00"),
                ("Tags", .list [.object [("Key", .text "é"), ("Value", .text "b'\\xc3A'")]]),
                ("Count", .int (-7))]),
             ("report", .text "users")]]),
         ("errors", .object [("groups", .text "decode: unexpected end")])]) := by
  have hnames : (sampleReports.map Prod.fst).Nodup := by decide
  have hresources : ∀ p ∈ sampleReports, ∀ r ∈ p.2.resources, r.IsTold := by
    simp only [sampleReports, List.forall_mem_cons, Report.resources, List.map_cons, List.map_nil]
    refine ⟨⟨⟨by decide, by decide, by decide, by decide, by decide, by decide, by decide +kernel⟩,
      List.forall_mem_nil _⟩, List.forall_mem_nil _, List.forall_mem_nil _⟩
  have hwords : Value.told (.time ⟨2024, 2, 29, 23, 59, 59, 0, some 0⟩) =
      .text "2024-02-29 23:59:59+00:00" := congrArg Value.text (by decide +kernel)
  have hbytes : Value.told (.bytes [0xC3, 0x41]) = .text "b'\\xc3A'" :=
    congrArg Value.text (by decide +kernel)
  have hfailure : (⟨.decoding, .text "unexpected end", .text "decode", .null⟩ : Failure).message =
      "decode: unexpected end" := by decide +kernel
  have hreadable : AreReadable sampleReports := by
    rw [AreReadable, sampleReports, List.forall_mem_cons, List.forall_mem_singleton]
    constructor
    · intro f hf
      cases hf
    · intro f hf
      cases hf
      exact Failure.isReadable_of_texts (Or.inr rfl) rfl
  obtain ⟨text, htext, hascii, hread⟩ := (documentText_told hnames hresources).1 hreadable
  refine ⟨hnames, hresources, hreadable, text, htext, hascii, hread.trans ?_⟩
  rw [← hwords, ← hbytes, ← hfailure]
  rfl

end Export

end IamInventory

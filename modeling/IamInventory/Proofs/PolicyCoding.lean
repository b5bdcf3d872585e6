import IamInventory.Policy
import IamInventory.Proofs.JsonText

/-!
# Policy coding — documents through both codings and back

  A document is written as JSON and then in percent coding, and it is read in the opposite order.
  Each layer gives back what it was given, so the document comes back as it was, the order of
  members and items included.

* **`Policy.decode_encode_of_isExact`** — a document that is told exactly by its text.
* **`Policy.decode_text_exact`** — which texts are documents at all, and what becomes of the others.
-/

namespace IamInventory

mutual

/-- What is told exactly can be told. -/
theorem Value.isDocument_of_isExact (v : Value) (h : v.isExact) : v.isDocument := by
  cases v with
  | list vs => exact areDocuments_of_areExact vs h
  | object ms =>
    rw [Value.isExact, Bool.and_eq_true] at h
    exact holdDocuments_of_holdExact ms h.2
  | time t => cases h
  | bytes bs => cases h
  | _ => rfl

theorem areDocuments_of_areExact (vs : List Value) (h : areExact vs) : areDocuments vs := by
  cases vs with
  | nil => rfl
  | cons v vs =>
    rw [areExact, Bool.and_eq_true] at h
    rw [areDocuments, Value.isDocument_of_isExact v h.1, areDocuments_of_areExact vs h.2,
      Bool.and_self]

theorem holdDocuments_of_holdExact (ms : List (String × Value)) (h : holdExact ms) :
    holdDocuments ms := by
  cases ms with
  | nil => rfl
  | cons m ms =>
    obtain ⟨name, v⟩ := m
    rw [holdExact, Bool.and_eq_true] at h
    rw [holdDocuments, Value.isDocument_of_isExact v h.1, holdDocuments_of_holdExact ms h.2,
      Bool.and_self]

end

namespace Policy

open Text

/-- What is written in percent coding is read as it was, and no percent sign is objected to. -/
theorem unescape_escape (cs : List Char) : unescape (Percent.escape cs) = .ok cs := by
  rw [unescape, Percent.firstMalformed_escape, Percent.unescape_escape]
  rfl

/-- **A document that is told exactly by its text comes back as it was.** It can be written,
    every percent sign in what is written starts an escape, and reading that gives the document. -/
theorem decode_encode_of_isExact {document : Value} (h : document.isExact) :
    ∃ s, encode document = .ok s ∧ Percent.firstMalformed 0 s.toList = none ∧
      ∀ identifier, decode (.text s) identifier = .ok document := by
  refine ⟨_, if_pos (document.isDocument_of_isExact h), ?_, ?_⟩
  · rw [String.toList_ofList, Percent.firstMalformed_escape]
  · intro identifier
    have hread := Json.readText_chars Json.isBlank_compact h 0
    have htext : decodeText (String.ofList (Percent.escape (Json.chars .compact 0 document))) =
        .ok document := by
      rw [decodeText, String.toList_ofList, unescape_escape]
      show (Json.readText (Json.chars .compact 0 document)).mapError _ = .ok document
      rw [hread]
      rfl
    rw [decode, decodeRaw, htext]
    rfl

/-- A document with what is written in a way of its own: marks, controls, a percent sign, a plus
    sign, a character beyond the sixteen-bit code points, and empty containers. -/
def sampleDocument : Value :=
  .object [("Version", .text "2012-10-17"),
    ("Statement", .list [.object [("Sid", .text "a\"\\\n%+é😀"), ("Allow", .bool true),
      ("Condition", .object []), ("Limit", .int (-12))], .list [], .null])]

theorem decode_encode_sampleDocument : sampleDocument.isExact ∧
    ∃ s, encode sampleDocument = .ok s ∧ Percent.firstMalformed 0 s.toList = none ∧
      ∀ identifier, decode (.text s) identifier = .ok sampleDocument :=
  ⟨by decide +kernel, decode_encode_of_isExact (by decide +kernel)⟩

/-- **A text is decoded to a value exactly if its percent coding gives a text of the grammar that
    denotes the value**, with nothing but blanks around it. Every other text is refused, with the
    entity that it was sent for. -/
theorem decode_text_exact (s : String) (identifier : Value) :
    (∀ v, decode (.text s) identifier = .ok v ↔
      ∃ t, unescape s.toList = .ok t ∧ Json.Padded t v) ∧
    ((∀ t v, unescape s.toList = .ok t → ¬ Json.Padded t v) → ∃ message : String,
      decode (.text s) identifier =
        .error ⟨.decoding, .text message, .text "decode policy document", identifier⟩) := by
  have htext (v : Value) : decodeText s = .ok v ↔
      ∃ t, unescape s.toList = .ok t ∧ Json.Padded t v := by
    rw [decodeText, Json.bind_eq_ok_iff]
    refine exists_congr fun t => and_congr_right fun _ => ?_
    rw [← Json.readText_eq_ok_iff]
    cases Json.readText t <;> simp [Except.mapError]
  rcases h : decodeText s with flaw | v
  · have hdecode : decode (.text s) identifier =
        .error ⟨.decoding, .text flaw.message, .text "decode policy document", identifier⟩ := by
      rw [decode, decodeRaw, h]
      rfl
    refine ⟨fun v => ?_, fun _ => ⟨flaw.message, hdecode⟩⟩
    rw [← htext, hdecode, h]
    simp
  · have hdecode : decode (.text s) identifier = .ok v := by
      rw [decode, decodeRaw, h]
      rfl
    refine ⟨fun w => ?_, fun hnone => ?_⟩
    · rw [← htext, hdecode, h]
      simp
    · obtain ⟨t, ht, hv⟩ := (htext v).mp h
      exact absurd hv (hnone t v ht)

end Policy

end IamInventory

import IamInventory.Failure
import IamInventory.Json.Reader
import IamInventory.Json.Writer
import IamInventory.Text.Percent

/-!
# Policy documents — JSON in percent coding

  The service sends a policy document as the percent-coded text of a JSON document. Some clients
  decode it beforehand, so a document may arrive in either form.

* **`Policy.decode`** — the document of what the service sent.
* **`Policy.encode`** — a document in the form in which the service sends it.
-/

namespace IamInventory.Policy

open Text

/-- Why a text is no encoded document. -/
inductive Flaw where
  | kind (word : String)
  | escape (offset : Nat) (found : List Char)
  | bytes (m : Utf8.Malformed)
  | json (text : List Char) (flaw : Json.Flaw)

/-- The flaw in words. -/
def Flaw.message : Flaw → String
  | .kind word => "expected a string policy document, got " ++ word
  | .escape offset found =>
    s!"malformed percent-encoding at offset {offset}: {String.ofList (quotedChars found)}"
  | .bytes m => s!"invalid percent-encoding: {m.message}"
  | .json text flaw => s!"invalid JSON: {flaw.message text}"

/-- The characters of a percent-coded text in which every percent sign starts an escape. -/
def unescape (cs : List Char) : Except Flaw (List Char) :=
  match Percent.firstMalformed 0 cs with
  | some (offset, found) => .error (.escape offset found)
  | none => (Percent.unescape cs).mapError .bytes

/-- The document of an encoded text. -/
def decodeText (s : String) : Except Flaw Value := do
  let cs ← unescape s.toList
  (Json.readText cs).mapError (.json cs)

/-- The document of what the service sent: a list or an object is one already. -/
def decodeRaw : Value → Except Flaw Value
  | .list vs => .ok (.list vs)
  | .object ms => .ok (.object ms)
  | .text s => decodeText s
  | v => .error (.kind v.kindWord)

/-- **The document of what the service sent** for an entity. -/
def decode (raw identifier : Value) : Except Failure Value :=
  (decodeRaw raw).mapError fun flaw =>
    ⟨.decoding, .text flaw.message, .text "decode policy document", identifier⟩

/-- **A document as the service sends it.** A timestamp or bytes make no document. -/
def encode (document : Value) : Except Fault String :=
  if document.isDocument then
    .ok (String.ofList (Percent.escape (Json.chars .compact 0 document)))
  else .error .mistyped

end IamInventory.Policy

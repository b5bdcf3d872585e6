import IamInventory.Json.NumberLiteral
import IamInventory.Json.StringLiteral

/-!
# Reading JSON — the value of a text

  The grammar is the one of the standard, and besides it the names of the numbers that are not
  finite are literals. A name that an object has twice keeps its first place and its last value.

* **`readValue`** — the value at the front of a text, and what follows it.
* **`read`** — the value of a whole text, or the first flaw.
-/

namespace IamInventory.Json

open Number

/-- Whether a character may stand between tokens. -/
def isSpace (c : Char) : Bool := c = ' ' || c = '\t' || c = '\n' || c = '\r'

/-- The text from the first token on. -/
def skipSpace (cs : List Char) : List Char := cs.dropWhile isSpace

/-- The words that are values. -/
def words : List (List Char × Value) :=
  [("null".toList, .null), ("true".toList, .bool true), ("false".toList, .bool false),
   ("NaN".toList, .real .nan), ("Infinity".toList, .real (.infinite false)),
   ("-Infinity".toList, .real (.infinite true))]

/-- Reads a value that is neither a string nor a list nor an object. -/
def readPlain (cs : List Char) : Except Flaw (Value × List Char) :=
  match words.find? fun w => w.1.isPrefixOf cs with
  | some w => .ok (w.2, cs.drop w.1.length)
  | none => (readNumber? cs).getD (.error ⟨.noValue, cs.length⟩)

mutual

/-- **Reads the value at the front of a text.** The first argument bounds the count of steps. -/
def readValue : Nat → List Char → Except Flaw (Value × List Char)
  | 0, cs => .error ⟨.noValue, cs.length⟩
  | _ + 1, [] => .error ⟨.noValue, 0⟩
  | n + 1, c :: cs =>
    if c = '"' then do
      let (s, rest) ← readString (cs.length + 1) [] cs
      .ok (.text s, rest)
    else if c = '[' then
      match skipSpace cs with
      | ']' :: rest => .ok (.list [], rest)
      | inside => do
        let (vs, rest) ← readItems n inside
        .ok (.list vs, rest)
    else if c = '\x7b' then
      match skipSpace cs with
      | '\x7d' :: rest => .ok (.object [], rest)
      | inside => do
        let (ms, rest) ← readMembers n inside
        .ok (.object (Members.ofPairs ms), rest)
    else readPlain (c :: cs)

/-- Reads the items of a list, at least one, up to the closing bracket. -/
def readItems : Nat → List Char → Except Flaw (List Value × List Char)
  | 0, cs => .error ⟨.noValue, cs.length⟩
  | n + 1, cs => do
    let (v, rest) ← readValue n cs
    match skipSpace rest with
    | ']' :: rest => .ok ([v], rest)
    | ',' :: rest => do
      let (vs, rest) ← readItems n (skipSpace rest)
      .ok (v :: vs, rest)
    | rest => .error ⟨.noComma, rest.length⟩

/-- Reads the members of an object, at least one, up to the closing brace. -/
def readMembers : Nat → List Char → Except Flaw (List (String × Value) × List Char)
  | 0, cs => .error ⟨.noName, cs.length⟩
  | n + 1, cs =>
    match cs with
    | '"' :: inside => do
      let (name, rest) ← readString cs.length [] inside
      match skipSpace rest with
      | ':' :: rest => do
        let (v, rest) ← readValue n (skipSpace rest)
        match skipSpace rest with
        | '\x7d' :: rest => .ok ([(name, v)], rest)
        | ',' :: rest => do
          let (ms, rest) ← readMembers n (skipSpace rest)
          .ok ((name, v) :: ms, rest)
        | rest => .error ⟨.noComma, rest.length⟩
      | rest => .error ⟨.noColon, rest.length⟩
    | _ => .error ⟨.noName, cs.length⟩

end

/-- Reads a whole text. Each step but one in two takes a character, so the bound is never met. -/
def readText (cs : List Char) : Except Flaw Value :=
  if cs.head? = some '\uFEFF' then .error ⟨.byteOrderMark, cs.length⟩
  else do
    let (v, rest) ← readValue (2 * cs.length + 2) (skipSpace cs)
    match skipSpace rest with
    | [] => .ok v
    | rest => .error ⟨.trailingData, rest.length⟩

/-- **The value of a text**, or what is wrong with it in words. -/
def read (s : String) : Except String Value :=
  (readText s.toList).mapError (Flaw.message s.toList)

end IamInventory.Json

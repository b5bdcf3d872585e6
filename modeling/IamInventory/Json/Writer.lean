import IamInventory.Json.NumberLiteral
import IamInventory.Json.StringLiteral
import IamInventory.Value.Display

/-!
# Writing JSON — the text of a value

  A layout says what stands between the tokens: nothing, or line breaks with two blanks for each
  level. The text is ASCII. JSON has no timestamps and no bytes; where they are allowed, they are
  written as strings, in the words that messages have for them.

* **`Json.chars`** — the text of a value in a layout.
* **`Value.isDocument`** — whether a value holds neither timestamps nor bytes.
-/

namespace IamInventory

open Number

mutual

/-- Whether a value holds neither timestamps nor bytes, so that JSON can say it. -/
def Value.isDocument : Value → Bool
  | .time _ => false
  | .bytes _ => false
  | .list vs => areDocuments vs
  | .object ms => holdDocuments ms
  | _ => true

/-- Whether all values of a list can be said in JSON. -/
def areDocuments : List Value → Bool
  | [] => true
  | v :: vs => v.isDocument && areDocuments vs

/-- Whether all members' values can be said in JSON. -/
def holdDocuments : List (String × Value) → Bool
  | [] => true
  | (_, v) :: ms => v.isDocument && holdDocuments ms

end

namespace Json

/-- What stands between the tokens: before an item at a level, and after a colon. -/
structure Layout where
  lineBreak : Nat → List Char
  afterColon : List Char

/-- Nothing stands between the tokens. -/
def Layout.compact : Layout := ⟨fun _ => [], []⟩

/-- Every item is on a line of its own, two blanks further in than what it belongs to. -/
def Layout.indented : Layout := ⟨fun depth => '\n' :: List.replicate (2 * depth) ' ', [' ']⟩

mutual

/-- **The text of a value** at a level of a layout. -/
def chars (layout : Layout) (depth : Nat) : Value → List Char
  | .null => "null".toList
  | .bool b => if b then "true".toList else "false".toList
  | .int n => integerChars n
  | .real x => writeReal x
  | .text s => writeString s
  | .time t => writeString t.spacedText
  | .bytes bs => writeString (Text.quotedBytes bs)
  | .list vs =>
    if vs.isEmpty then ['[', ']']
    else '[' :: itemsChars layout (depth + 1) vs ++ layout.lineBreak depth ++ [']']
  | .object ms =>
    if ms.isEmpty then ['\x7b', '\x7d']
    else '\x7b' :: membersChars layout (depth + 1) ms ++ layout.lineBreak depth ++ ['\x7d']

/-- The items of a list with commas between them. -/
def itemsChars (layout : Layout) (depth : Nat) : List Value → List Char
  | [] => []
  | v :: vs =>
    layout.lineBreak depth ++ chars layout depth v ++
      (if vs.isEmpty then [] else ',' :: itemsChars layout depth vs)

/-- The members of an object with commas between them. -/
def membersChars (layout : Layout) (depth : Nat) : List (String × Value) → List Char
  | [] => []
  | (name, v) :: ms =>
    layout.lineBreak depth ++ writeString name ++ ':' :: layout.afterColon ++
      chars layout depth v ++ (if ms.isEmpty then [] else ',' :: membersChars layout depth ms)

end

/-- The text of a value in a layout. -/
def write (layout : Layout) (v : Value) : String := String.ofList (chars layout 0 v)

end Json

end IamInventory

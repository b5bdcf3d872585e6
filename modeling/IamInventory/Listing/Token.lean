import IamInventory.Json.Reader
import IamInventory.Text.Base64
import IamInventory.Text.Utf8
import IamInventory.Value.Numeric
import IamInventory.Value.Step

/-!
# Tokens — where a listing was left

  A token tells with which arguments a listing is to go on, and how many items of the page that
  they give have been shown. Its text is the Base64 form of a JSON object: the arguments, the count,
  and the paths to those texts among the arguments that are bytes in Base64 themselves. A text that
  is no such form is taken for a marker, which may have a count after three underscores.

* **`Token.ofValue`** — what a token tells.
* **`Token.check`** — whether a listing can be left with a token.
-/

namespace IamInventory

open Number Text

/-- Where a listing was left: the arguments to go on with, and how many items have been shown. -/
structure Token where
  arguments : Members
  shown : Value

mutual

/-- Whether a value holds no timestamp; everything else can be told in a token. -/
def Value.isTimeless : Value → Bool
  | .time _ => false
  | .list vs => areTimeless vs
  | .object ms => holdTimeless ms
  | _ => true

/-- Whether all values of a list hold no timestamp. -/
def areTimeless : List Value → Bool
  | [] => true
  | v :: vs => v.isTimeless && areTimeless vs

/-- Whether all members' values hold no timestamp. -/
def holdTimeless : List (String × Value) → Bool
  | [] => true
  | (_, v) :: ms => v.isTimeless && holdTimeless ms

end

namespace Token

/-- The name of the argument that says where a page starts. -/
def markerName : String := "Marker"

/-- The name of the count of items that have been shown. -/
def shownName : String := "boto_truncate_amount"

/-- The name of the paths to texts that are bytes. -/
def bytesName : String := "boto_encoded_keys"

/-- The text that stands for no argument. -/
def noArgument : String := "None"

/-- The token of a page that starts at a marker, or of the first page if that is null. -/
def ofMarker (marker : Value) : Token := ⟨[(markerName, marker)], .int 0⟩

/-! ## Reading -/

/-- What a text tells that is a marker, or one with a count. -/
def readMarker (s : String) : Except Fault Token :=
  let marker (s : String) : Value := if s = noArgument then .null else .text s
  match s.splitOn "___" with
  | [only] => .ok (ofMarker (marker only))
  | [first, count] => match readInteger? count with
    | some n => .ok ⟨[(markerName, marker first)], .int n⟩
    | none => .ok (ofMarker (marker s))
  | _ => .error (.invalid ("Bad starting token: " ++ s))

/-- The bytes of a text in Base64. -/
def bytesOf : Value → Except Fault Value
  | .text s => match Base64.decode? s.toList with
    | some bs => .ok (.bytes bs)
    | none => .error .mistyped
  | _ => .error .partless

/-- A value with bytes in place of the text at the end of a path, which is given in parts. -/
def withBytesAt (v path : Value) : Except Fault Value := do
  let changed ← v.changeAt bytesOf (← path.items)
  match path with
  | .object _ => .error .mistyped
  | _ => .ok changed

/-- A value with bytes in place of the texts at the ends of paths. -/
def withBytes (v : Value) : List Value → Except Fault Value
  | [] => .ok v
  | path :: paths => do withBytes (← withBytesAt v path) paths

/-- The JSON value whose Base64 form a text is. -/
def jsonOf (s : String) : Except Fault Value := do
  match ← bytesOf (.text s) with
  | .bytes bs => match Utf8.decode bs with
    | .error _ => .error .mistyped
    | .ok cs => match Json.readText cs with
      | .error _ => .error .mistyped
      | .ok v => .ok v
  | _ => .error .mistyped

/-- What the Base64 form of a JSON object tells. -/
def readForm (s : String) : Except Fault Token := do
  let v ← jsonOf s
  match v with
  | .object ms =>
    let rest := Value.object (Members.erase ms bytesName)
    let paths ← match Members.get ms bytesName with
      | .null => .ok []
      | paths => paths.items
    let told ← (← withBytes rest paths).members
    .ok ⟨told.erase shownName, (told.get? shownName).getD (.int 0)⟩
  | .list _ => .error .mistyped
  | _ => .error .partless

/-- **What a token tells.** A text that cannot be read as a form is a marker. -/
def ofValue : Value → Except Fault Token
  | .text s => match readForm s with
    | .error .mistyped => readMarker s
    | result => result
  | _ => .error .partless

/-! ## Leaving a listing -/

/-- The token of the same page with more items shown. -/
def after (t : Token) (count : Int) : Except Fault Token := do
  match ← t.shown.addedTo count with
  | .int n =>
    if maxDigits < (Nat.toDigits 10 n.natAbs).length then
      .error (.invalid (digitLimitText none))
    else .ok ⟨t.arguments, .int n⟩
  | shown => .ok ⟨t.arguments, shown⟩

/-- **Whether a listing can be left with a token**: its only argument has to be a marker, and it
    can tell no timestamp. -/
def check (t : Token) : Except Fault Unit :=
  if t.arguments.names ≠ [markerName] then
    .error (.invalid ("Bad starting token: " ++
      (Value.object (t.arguments ++ [(shownName, t.shown)])).quoted))
  else if holdTimeless t.arguments then .ok ()
  else .error .mistyped

end Token

end IamInventory

import IamInventory.Failure
import IamInventory.Number.Scientific

/-!
# Numbers of values — what a value is as a number of one kind

  A truth value is one or zero. A text is the number that it says, if it says one, and so are
  bytes, in ASCII. Values of other kinds are no numbers.

* **`Value.real?`** — a value as a floating-point number.
* **`Value.integer?`** — a value as an integer.
* **`Value.addedTo`** — the sum of an integer and a value.
-/

namespace IamInventory

open Number

/-- The integer nearest to a floating-point number on the way to zero. -/
def Number.Binary64.truncated : Binary64 → Except Fault (Option Int)
  | .nan => .ok none
  | .infinite _ => .error .tooLarge
  | .finite negative steps _ =>
    let n : Int := (steps / Binary64.unit : Nat)
    .ok (some (if negative then -n else n))

/-- Bytes as a text in ASCII, with a question mark for a byte that ASCII has not. -/
def asciiText (bs : List UInt8) : String :=
  String.ofList (bs.map fun b => if b < 128 then Char.ofNat b.toNat else '?')

namespace Value

/-- **A value as a floating-point number**, none if it says no number. -/
def real? : Value → Except Fault (Option Binary64)
  | .bool b => .ok (some (.ofInt (if b then 1 else 0)))
  | .int n =>
    match Binary64.ofInt n with
    | .infinite _ => .error .tooLarge
    | x => .ok (some x)
  | .real x => .ok (some x)
  | .text s => .ok (readBinary64? s)
  | .bytes bs => .ok (readBinary64? (asciiText bs))
  | _ => .error .mistyped

/-- **A value as an integer**, none if it is undefined or says no integer. A fraction is left
    out. -/
def integer? : Value → Except Fault (Option Int)
  | .bool b => .ok (some (if b then 1 else 0))
  | .int n => .ok (some n)
  | .real x => x.truncated
  | .text s => .ok (readInteger? s)
  | .bytes bs => .ok (readInteger? (asciiText bs))
  | _ => .error .mistyped

/-! ## Words about what is no integer -/

/-- How many characters, or bytes, of something that is no integer stand in a message. -/
def quotedLength : Nat := 200

/-- The words about something that says no integer: the start of it, or that it has too many
    digits. -/
def noIntegerText (s : String) (v : Value) : String :=
  match digitExcess? s with
  | some n => digitLimitText (some n)
  | none => "invalid literal for int() with base 10: " ++
      String.ofList (v.quoted.toList.take quotedLength)

/-- A value as an integer; it has to be a number, and a text and bytes have to say one. -/
def toInteger (v : Value) : Except Fault Int := do
  match ← v.integer? with
  | some n => .ok n
  | none => .error (.invalid (match v with
    | .text s => noIntegerText s v
    | .bytes bs => noIntegerText (asciiText bs) (.bytes (bs.take quotedLength))
    | _ => "cannot convert float NaN to integer"))

/-! ## Sums -/

/-- **The sum of an integer and a value**, which has to be a number and not only to say one. -/
def addedTo (n : Int) : Value → Except Fault Value
  | .bool b => .ok (.int (n + if b then 1 else 0))
  | .int m => .ok (.int (n + m))
  | .real x =>
    match Binary64.ofInt n with
    | .infinite _ => .error .tooLarge
    | y => .ok (.real (y.add x))
  | _ => .error .mistyped

end Value

end IamInventory

import IamInventory.Failure
import IamInventory.Text.Blank
import IamInventory.Text.Casing
import IamInventory.Value.Named

/-!
# Registries — things under names, whatever their spelling

  Names are looked up without regard to the case of letters and to blanks around them. A name
  belongs to the first thing that is registered under it, and names stay in the order in which
  they came. A name is a text, or bytes, of which no text is the spelling.

* **`Registry.register`** — a registry with one more name.
* **`Registry.find?`** — what is registered under a name.
-/

namespace IamInventory

/-- Things under normal names, in the order of registration. -/
structure Registry (ρ : Type) where
  entries : Named ρ

namespace Registry

variable {ρ : Type}

/-- The registry without names. -/
def empty : Registry ρ := ⟨[]⟩

/-- The normal spelling of a name. -/
def normal (name : String) : String := Text.lower (Text.strip name)

/-- Whether a byte is a blank: the space, or one of the five controls from the tab on. -/
def isBlankByte (b : UInt8) : Bool := b = 0x20 || (0x09 ≤ b && b ≤ 0x0D)

/-- A byte in the lower case of the 26 letters. -/
def lowerByte (b : UInt8) : UInt8 := if 0x41 ≤ b && b ≤ 0x5A then b + 0x20 else b

/-- The normal spelling of a name in bytes. -/
def normalBytes (name : List UInt8) : List UInt8 :=
  (((name.dropWhile isBlankByte).reverse.dropWhile isBlankByte).reverse).map lowerByte

/-- The normal spelling of a value as a name; a blank one is none. -/
def key (name : Value) : Except Fault Value :=
  let blank : Except Fault Value := .error (.invalid "Report name must be a non-empty string")
  match name with
  | .text s => if normal s = "" then blank else .ok (.text (normal s))
  | .bytes bs => if normalBytes bs = [] then blank else .ok (.bytes (normalBytes bs))
  | v => if v.truthy then .error .partless else blank

/-- **What is registered under a name.** -/
def find? (r : Registry ρ) (name : String) : Option ρ := r.entries.find? (.text (normal name))

/-- The names, in the order of registration. -/
def names (r : Registry ρ) : List Value := r.entries.names

/-- **The registry with one more name.** A name that belongs to something else is refused. -/
def register [DecidableEq ρ] (r : Registry ρ) (name : Value) (x : ρ) :
    Except Fault (Registry ρ) := do
  let k ← key name
  match r.entries.find? k with
  | none => .ok ⟨r.entries ++ [(k, x)]⟩
  | some y =>
    if y = x then .ok r
    else .error (.invalid ("Report '" ++ name.shown ++ "' is already registered"))

/-- What is registered under a value as a name. -/
def get (r : Registry ρ) (name : Value) : Except Fault ρ := do
  let k ← key name
  match r.entries.find? k with
  | some x => .ok x
  | none => .error (.missing k)

/-- What is registered under a value as a name; the default if the name belongs to nothing. -/
def getD (r : Registry ρ) (name : Value) (default : ρ) : Except Fault ρ :=
  match r.get name with
  | .error (.missing _) => .ok default
  | x => x

/-- Whether something is registered under a value as a name. -/
def contains (r : Registry ρ) : Value → Bool
  | .text s => (r.find? s).isSome
  | _ => false

end Registry

end IamInventory

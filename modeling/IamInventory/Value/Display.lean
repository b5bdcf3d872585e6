import IamInventory.Number.Shortest
import IamInventory.Text.Quoted
import IamInventory.Value

/-!
# Values in words — how a value stands in a message

  By itself a text stands as it is; within a list or an object it stands between quotation marks.
  Null, the truth values and timestamps within a list have words of their own. Integers are told
  with all their digits: `Number.maxDigits` bounds what is read, and is not looked at here.

* **`Value.shown`** — a value by itself.
* **`Value.quoted`** — a value within another one.
-/

namespace IamInventory

open Number Text

namespace Timestamp

/-- An offset within a list. -/
def quotedOffset (o : Int) : String :=
  let days := o / 86400
  let seconds := o % 86400
  let parts := (if days = 0 then [] else [s!"days={integerText days}"]) ++
    (if seconds = 0 then [] else [s!"seconds={integerText seconds}"])
  if o = 0 then "datetime.timezone.utc"
  else "datetime.timezone(datetime.timedelta(" ++ ", ".intercalate parts ++ "))"

/-- A timestamp within a list: its fields, the seconds and microseconds only if not zero. -/
def quoted (t : Timestamp) : String :=
  let fields : List Nat := [t.year, t.month, t.day, t.hour, t.minute] ++
    (if t.second = 0 ∧ t.micro = 0 then [] else [t.second]) ++
    (if t.micro = 0 then [] else [t.micro])
  let zone := match t.offset with
    | none => []
    | some o => [s!"tzinfo={quotedOffset o}"]
  "datetime.datetime(" ++
    ", ".intercalate (fields.map (fun (n : Nat) => integerText n) ++ zone) ++ ")"

end Timestamp

mutual

/-- A value within another one. -/
def Value.quoted : Value → String
  | .null => "None"
  | .bool b => if b then "True" else "False"
  | .int n => integerText n
  | .real x => binary64Text x
  | .text s => Text.quoted s
  | .time t => t.quoted
  | .bytes bs => quotedBytes bs
  | .list vs => "[" ++ ", ".intercalate (quotedItems vs) ++ "]"
  | .object ms => "\x7b" ++ ", ".intercalate (quotedMembers ms) ++ "\x7d"

/-- The values of a list within another value. -/
def quotedItems : List Value → List String
  | [] => []
  | v :: vs => v.quoted :: quotedItems vs

/-- The members of an object within another value. -/
def quotedMembers : List (String × Value) → List String
  | [] => []
  | (name, v) :: ms => (Text.quoted name ++ ": " ++ v.quoted) :: quotedMembers ms

end

/-- **A value by itself.** Every value has its words, integers of more than `Number.maxDigits`
    digits too. -/
def Value.shown : Value → String
  | .text s => s
  | .time t => t.spacedText
  | v => v.quoted

/-- The word for what kind of value it is. -/
def Value.kindWord : Value → String
  | .null => "NoneType"
  | .bool _ => "bool"
  | .int _ => "int"
  | .real _ => "float"
  | .text _ => "str"
  | .time _ => "datetime"
  | .bytes _ => "bytes"
  | .list _ => "list"
  | .object _ => "dict"

end IamInventory

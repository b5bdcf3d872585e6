import IamInventory.Number.Scientific
import IamInventory.Number.Significant
import IamInventory.Value

/-!
# Serial numbers — numbers and dates as the file of a workbook keeps them

  A file keeps 16 digits of a number. It keeps a date as a number of days from the end of 1899, the
  time of day as a fraction; so a date comes back with the milliseconds that the fraction still
  tells. Day 60 is the 29th of February of 1900, which there never was: the days up to there are
  counted one lower.

* **`Export.storedNumber`** — a number as it is read back.
* **`Export.storedTime`** — a date as it is read back.
-/

namespace IamInventory.Export

open Number

/-! ## Numbers -/

/-- The digits of a number that a file keeps. -/
def keptDigits : Nat := 16

/-- A number as it is read back from a file: as an integer if it has no fraction and no power of
    ten is written with it. A number that is not finite leaves nothing. -/
def storedNumber : Binary64 → Value
  | .finite negative steps _ =>
    let (d, e) := significant keptDigits steps
    let whole := Nat.pow 10 (-e).toNat
    if e ≤ 0 ∧ whole ∣ d then .int (signedDigits negative (Nat.toDigits 10 (d / whole)))
    else .real (Scientific.value ⟨negative, Nat.toDigits 10 d, e⟩)
  | _ => .text ""

/-! ## Dates -/

/-- The day number of day zero, the 30th of December of 1899. -/
def dayZero : Int := 693593

/-- The day that never was. -/
def leapDay : Int := 60

/-- The days of a date from day zero, one lower up to the day that never was. -/
def serialDays (t : Timestamp) : Int :=
  let days := t.dayNumber - dayZero
  if 0 < days ∧ days ≤ leapDay then days - 1 else days

/-- A count of steps rounded to one that a floating-point number can have. -/
def rounded (steps : Nat) : Nat := Binary64.roundSteps steps 1

/-- The time of day as a fraction of the day, in steps: the seconds, then their share of the day. -/
def dayFraction (t : Timestamp) : Nat :=
  let micros := Binary64.roundSteps (t.micro * Binary64.unit) Timestamp.microsOfSecond
  let seconds := (t.hour * 60 + t.minute) * 60 + t.second
  Binary64.roundSteps (rounded (seconds * Binary64.unit + micros)) 86400

/-- The serial number of a date. -/
def serial (t : Timestamp) : Binary64 :=
  let steps := serialDays t * Binary64.unit + dayFraction t
  .ofSteps (steps < 0) (rounded steps.natAbs)

/-- The milliseconds of a fraction of a day that is given in steps. -/
def millisOfFraction (steps : Nat) : Nat :=
  divNearest (rounded (rounded (steps * 86400) * 1000)) Binary64.unit

/-- What a serial number in steps stands for: a date, or a time of day alone for a number below
    one. A file has an error in place of a date beyond all years. -/
def ofSerial (steps : Int) : Value :=
  let day := steps / Binary64.unit
  let millis := millisOfFraction (rounded (steps % Binary64.unit).toNat)
  let shift := if 0 < steps ∧ day < leapDay then 1 else 0
  match Timestamp.ofClock? (((dayZero + day + shift) * 86400000 + millis) * 1000) with
  | some t =>
    if day = 0 ∧ millis < 86400000 then .text (String.ofList t.timeChars) else .time t
  | none => .text "#VALUE!"

/-- **A date as it is read back from a file.** -/
def storedTime (t : Timestamp) : Value :=
  match storedNumber (serial t) with
  | .int n => ofSerial (n * Binary64.unit)
  | .real (.finite negative steps _) => ofSerial (if negative then -steps else steps)
  | v => v

end IamInventory.Export

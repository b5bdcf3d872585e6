import IamInventory.Number.Integer

/-!
# Timestamps — dates with a time of day, with or without an offset

  A timestamp names a day of the Gregorian calendar and a time of day to the microsecond. With an
  offset from universal time it is *zoned* and denotes an instant; without one it is *zoneless* and
  denotes only what a local clock shows. The two kinds cannot be ordered against each other.

* **`Timestamp.clock`**, **`Timestamp.ofClock?`** — a date and time as a count of microseconds.
* **`Timestamp.text`** — the calendar form `2024-02-29T23:59:59.000001+05:30`.
* **`Timestamp.read?`** — the timestamp such a text stands for.
* **`Timestamp.later?`** — which of two timestamps of one kind is the later one.
-/

namespace IamInventory

/-- A date and time of day; `offset` counts seconds east of universal time. -/
structure Timestamp where
  year : Nat
  month : Nat
  day : Nat
  hour : Nat
  minute : Nat
  second : Nat
  micro : Nat
  offset : Option Int
deriving DecidableEq, Repr

namespace Timestamp

/-! ## Calendar -/

/-- Whether February has a 29th day in the year. -/
def isLeap (y : Nat) : Bool := y % 4 == 0 && (y % 100 != 0 || y % 400 == 0)

/-- The days from the first of January of year 1 to the first of January of the year. -/
def daysBeforeYear (y : Nat) : Nat :=
  (y - 1) * 365 + (y - 1) / 4 - (y - 1) / 100 + (y - 1) / 400

/-- The days of the year before the first of the month. -/
def daysBeforeMonth (y m : Nat) : Nat :=
  [0, 31, 59, 90, 120, 151, 181, 212, 243, 273, 304, 334].getD (m - 1) 0 +
    if m > 2 && isLeap y then 1 else 0

/-- The days from the first of January of year 1 to the date. -/
def dayNumber (t : Timestamp) : Nat :=
  daysBeforeYear t.year + daysBeforeMonth t.year t.month + (t.day - 1)

/-- The year of a day number. In 400 years there are 146097 days, and the year that this ratio
    gives is off by one at most. -/
def yearOfDay (n : Nat) : Nat :=
  let y := n * 400 / 146097 + 1
  if n < daysBeforeYear y then y - 1 else if daysBeforeYear (y + 1) ≤ n then y + 1 else y

/-- The month of a day of the year: as many months have begun by then. -/
def monthOfDay (y day : Nat) : Nat :=
  ((List.range 12).filter fun m => daysBeforeMonth y (m + 1) ≤ day).length

/-- The microseconds of a second. -/
def microsOfSecond : Nat := 1000000

/-- The microseconds of a day. -/
def microsOfDay : Nat := 86400 * microsOfSecond

/-- What the local clock shows, in microseconds from the start of year 1. -/
def clock (t : Timestamp) : Int :=
  (((t.dayNumber * 24 + t.hour) * 60 + t.minute) * 60 + t.second) * microsOfSecond + t.micro

/-- **The zoneless timestamp of a clock** that shows so many microseconds from the start of year 1;
    none outside the years 1 to 9999. -/
def ofClock? (c : Int) : Option Timestamp :=
  let n := c.toNat / microsOfDay
  let rest := c.toNat % microsOfDay
  let year := yearOfDay n
  let month := monthOfDay year (n - daysBeforeYear year)
  let seconds := rest / microsOfSecond
  if c < 0 ∨ 9999 < year then none
  else some {
    year, month
    day := n - daysBeforeYear year - daysBeforeMonth year month + 1
    hour := seconds / 3600
    minute := seconds / 60 % 60
    second := seconds % 60
    micro := rest % microsOfSecond
    offset := none }

/-! ## Order -/

/-- Whether the timestamp has an offset. -/
def isZoned (t : Timestamp) : Bool := t.offset.isSome

/-- The microseconds from the start of year 1, of universal time for a zoned timestamp and of the
    local clock for a zoneless one. -/
def instant (t : Timestamp) : Int := t.clock - t.offset.getD 0 * microsOfSecond

/-- **Whether the first timestamp is later than the second**; no answer across the two kinds. -/
def later? (a b : Timestamp) : Option Bool :=
  if a.isZoned = b.isZoned then some (b.instant < a.instant) else none

/-- Whether two timestamps denote the same instant, or the same clock reading. -/
def same (a b : Timestamp) : Bool := a.isZoned == b.isZoned && a.instant == b.instant

/-! ## Text -/

/-- A number in at least `width` digits. -/
def padded (width n : Nat) : List Char :=
  let ds := Nat.toDigits 10 n
  List.replicate (width - ds.length) '0' ++ ds

/-- The offset as hours and minutes east, with seconds only if there are some. -/
def offsetChars : Option Int → List Char
  | none => []
  | some o =>
    let n := o.natAbs
    (if o < 0 then '-' else '+') :: padded 2 (n / 3600) ++ ':' :: padded 2 (n / 60 % 60) ++
      if n % 60 = 0 then [] else ':' :: padded 2 (n % 60)

/-- The time of day, with microseconds only if there are some. -/
def timeChars (t : Timestamp) : List Char :=
  padded 2 t.hour ++ ':' :: padded 2 t.minute ++ ':' :: padded 2 t.second ++
    if t.micro = 0 then [] else '.' :: padded 6 t.micro

/-- The calendar form, with the given character between date and time. -/
def chars (separator : Char) (t : Timestamp) : List Char :=
  padded 4 t.year ++ '-' :: padded 2 t.month ++ '-' :: padded 2 t.day ++
    separator :: t.timeChars ++ offsetChars t.offset

/-- The calendar form with a `T` between date and time. -/
def text (t : Timestamp) : String := String.ofList (t.chars 'T')

/-- The calendar form with a space between date and time. -/
def spacedText (t : Timestamp) : String := String.ofList (t.chars ' ')

/-! ## Reading -/

/-- Reads a number of exactly `width` digits. -/
def readDigits? (width : Nat) (cs : List Char) : Option (Nat × List Char) :=
  let ds := cs.take width
  if ds.length = width ∧ ds.all Char.isDigit then some (Nat.ofDigitChars 10 ds 0, cs.drop width)
  else none

/-- Reads a mark and then a number of two digits. -/
def readField? (mark : Char) : List Char → Option (Nat × List Char)
  | [] => none
  | c :: cs => if c = mark then readDigits? 2 cs else none

/-- Reads a colon and then a number of two digits; zero if no colon comes first. -/
def readPart? (cs : List Char) : Option (Nat × List Char) :=
  if cs.head? = some ':' then readField? ':' cs else some (0, cs)

/-- Reads the microseconds after a point or a comma, without the digits that are too small; none if
    neither comes first. -/
def readMicro? : List Char → Option (Nat × List Char)
  | [] => some (0, [])
  | c :: cs =>
    if c = '.' ∨ c = ',' then
      let ds := cs.takeWhile Char.isDigit
      if ds = [] then none
      else some (Nat.ofDigitChars 10 ((ds ++ List.replicate 6 '0').take 6) 0, cs.drop ds.length)
    else some (0, c :: cs)

/-- Reads an offset that has to be all that is left; no text is no offset, and the letter `Z` is
    the offset of universal time. -/
def readOffset? : List Char → Option (Option Int)
  | [] => some none
  | ['Z'] => some (some 0)
  | c :: cs => do
    let (hours, rest) ← readDigits? 2 cs
    let (minutes, rest) ← readPart? rest
    let (seconds, rest) ← readPart? rest
    let size : Int := (hours * 60 + minutes) * 60 + seconds
    if rest ≠ [] then none
    else if c = '+' then some (some size)
    else if c = '-' then some (some (-size))
    else none

/-- **The timestamp that a calendar form stands for.** Any character may stand between the date and
    the time of day, of which all that is not the hour may be left out, or all of it. -/
def read? (s : String) : Option Timestamp := do
  let (year, rest) ← readDigits? 4 s.toList
  let (month, rest) ← readField? '-' rest
  let (day, rest) ← readField? '-' rest
  if rest = [] then some ⟨year, month, day, 0, 0, 0, 0, none⟩
  else
    let (hour, rest) ← readDigits? 2 rest.tail
    let (minute, rest) ← readPart? rest
    let (second, rest) ← readPart? rest
    let (micro, rest) ← readMicro? rest
    let offset ← readOffset? rest
    some ⟨year, month, day, hour, minute, second, micro, offset⟩

end Timestamp

end IamInventory

import IamInventory.Number.Integer

/-!
# Flaws of a JSON text — what is wrong with it, and where

  The reader knows how many characters are left where it stops; from that and the whole text
  follow the line, the column and the offset that a message names.

* **`Flaw.message`** — a flaw in words.
-/

namespace IamInventory.Json

open Number

/-- What is wrong with a text. -/
inductive Cause where
  | byteOrderMark
  | noValue
  | noName
  | noColon
  | noComma
  | unclosedString
  | controlCharacter
  | badEscape
  | badCodeEscape
  | trailingData
  | tooManyDigits (count : Nat)
deriving DecidableEq, Repr

/-- What is wrong, and how many characters there are from that place to the end. -/
structure Flaw where
  cause : Cause
  left : Nat
deriving DecidableEq, Repr

/-- What is wrong in words, without the place. -/
def Cause.message : Cause → String
  | .byteOrderMark => "Unexpected UTF-8 BOM (decode using utf-8-sig)"
  | .noValue => "Expecting value"
  | .noName => "Expecting property name enclosed in double quotes"
  | .noColon => "Expecting ':' delimiter"
  | .noComma => "Expecting ',' delimiter"
  | .unclosedString => "Unterminated string starting at"
  | .controlCharacter => "Invalid control character at"
  | .badEscape => "Invalid \\escape"
  | .badCodeEscape => "Invalid \\uXXXX escape"
  | .trailingData => "Extra data"
  | .tooManyDigits n => digitLimitText (some n)

/-- The place after the given characters: line and column count from one, the offset from zero. -/
def placeText (before : List Char) : String :=
  let line := before.count '\n' + 1
  let column := (before.reverse.takeWhile (· ≠ '\n')).length + 1
  s!"line {line} column {column} (char {before.length})"

/-- **A flaw of a text in words.** The limit on digits is stated without a place. -/
def Flaw.message (text : List Char) (f : Flaw) : String :=
  match f.cause with
  | .tooManyDigits n => (Cause.tooManyDigits n).message
  | c => s!"{c.message}: {placeText (text.take (text.length - f.left))}"

end IamInventory.Json

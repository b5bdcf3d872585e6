import IamInventory.Inventory
import IamInventory.Number.Scientific

/-!
# Arguments — what the command line asks for

  An option may be written as its name and its value, or as both with an equals sign between, and
  its name may be cut short as long as no other option starts that way. All words are told apart
  before any option is read: what is an option and what could be the value of one does not depend
  on what comes before. After two dashes no word is an option.

* **`Arguments.classify`** — what a word is.
* **`Arguments.parse`** — what the command line asks for, or why nothing is done.
-/

namespace IamInventory

open Number

/-- The options. -/
inductive Flag where
  | help
  | profile
  | region
  | reports
  | pathPrefix
  | json
  | excel
  | pollInterval
  | maxPollAttempts
  | logLevel
deriving DecidableEq, Repr

/-- The value of an option that takes one: absent, blank where two dashes stand for it, or given. -/
inductive Given (α : Type) where
  | absent
  | blank
  | value (a : α)
deriving DecidableEq, Repr

/-- The value that is given, if one is. -/
def Given.value? {α : Type} : Given α → Option α
  | .value a => some a
  | _ => none

/-- The text that is given, unless it is empty. -/
def Given.text? (g : Given String) : Option String := g.value?.filter (· ≠ "")

/-- What the command line asks for. -/
structure Arguments where
  profile : Given String
  region : Given String
  reports : Option (List String)
  pathPrefix : Given String
  jsonPath : Given String
  excelPath : Given String
  pollInterval : Given Binary64
  maxPollAttempts : Given Int
  logLevel : Given String

/-- Why nothing is done: help has been asked for, or the command line is wrong, in words. -/
inductive Halt where
  | help
  | misuse (message : String)
deriving DecidableEq, Repr

namespace Flag

/-- The options with their long names, in order. -/
def longNames : List (String × Flag) :=
  [("--help", help), ("--profile", profile), ("--region", region), ("--reports", reports),
   ("--path-prefix", pathPrefix), ("--json", json), ("--excel", excel),
   ("--poll-interval", pollInterval), ("--max-poll-attempts", maxPollAttempts),
   ("--log-level", logLevel)]

/-- The name of an option in a message. -/
def display : Flag → String
  | help => "-h/--help"
  | f => ((longNames.find? fun n => n.2 = f).map Prod.fst).getD ""

/-- What is wrong with an option, in words. -/
def misuse (f : Flag) (problem : String) : Halt :=
  .misuse ("argument " ++ f.display ++ ": " ++ problem)

end Flag

/-- A word of the command line. -/
inductive Word where
  /-- a word that can be the value of an option -/
  | plain (s : String)
  /-- an option, and the value that is written into the same word -/
  | option (f : Flag) (value : Option String)
  /-- the letter for help, and what is written after it in the same word -/
  | letter (rest : List Char)
  /-- a word that looks like an option but is none -/
  | unknown (s : String)
deriving DecidableEq, Repr

namespace Arguments

/-- What the command line asks for where it says nothing. -/
def default : Arguments :=
  ⟨.absent, .absent, none, .absent, .absent, .absent, .absent, .absent, .value Log.defaultLevel⟩

/-! ## Words -/

/-- Splits a word at its first equals sign. -/
def splitValue (cs : List Char) : List Char × Option String :=
  (cs.takeWhile (· ≠ '='),
    match cs.dropWhile (· ≠ '=') with
    | [] => none
    | _ :: value => some (String.ofList value))

/-- Whether characters are digits of any script, at least one. -/
def areDigits (cs : List Char) : Bool :=
  !cs.isEmpty && cs.all fun c => (Text.digit? c).isSome

/-- Whether a word is a negative number: a minus sign and digits, with a point before or among them
    perhaps, and perhaps a line break at the end. -/
def isNegativeNumber (cs : List Char) : Bool :=
  let cs := if cs.getLast? = some '\n' then cs.dropLast else cs
  match cs with
  | '-' :: ds =>
    areDigits ds ||
      match ds.dropWhile fun c => (Text.digit? c).isSome with
      | '.' :: fraction => areDigits fraction
      | _ => false
  | _ => false

/-- A word that is no option: a value if it is a negative number or has a blank in it. -/
def otherWord (s : String) : Word :=
  if isNegativeNumber s.toList || s.toList.contains ' ' then .plain s else .unknown s

/-- **What a word is.** A name that is cut short must be the start of one option only. -/
def classify (s : String) : Except Halt Word :=
  match s.toList with
  | '-' :: '-' :: cs =>
    let (name, value) := splitValue ('-' :: '-' :: cs)
    match Flag.longNames.lookup (String.ofList name) with
    | some f => .ok (.option f value)
    | none =>
      match Flag.longNames.filter fun n => name.isPrefixOf n.1.toList with
      | [] => .ok (otherWord s)
      | [n] => .ok (.option n.2 value)
      | ns => .error (.misuse ("ambiguous option: " ++ s ++ " could match " ++
          ", ".intercalate (ns.map Prod.fst)))
  | ['-', 'h'] => .ok (.option .help none)
  | '-' :: 'h' :: '=' :: value => .ok (.letter value)
  | '-' :: 'h' :: rest => .ok (.letter rest)
  | '-' :: _ :: _ => .ok (otherWord s)
  | _ => .ok (.plain s)

/-- The words up to the two dashes, and the rest from there on. -/
def splitWords (words : List String) : List String × List String :=
  (words.takeWhile (· ≠ "--"), words.dropWhile (· ≠ "--"))

/-! ## Values -/

/-- The names of the levels that may be asked for. -/
def logLevels : List String := ["DEBUG", "INFO", "WARNING", "ERROR"]

/-- A value that has to be one of several. -/
def choice (f : Flag) (choices : List String) (s : String) : Except Halt String :=
  if s ∈ choices then .ok s
  else .error (f.misuse ("invalid choice: " ++ Text.quoted s ++ " (choose from " ++
    ", ".intercalate (choices.map Text.quoted) ++ ")"))

/-- A value that has to be read. -/
def readAs {α : Type} (f : Flag) (kind : String) (read : String → Option α) (s : String) :
    Except Halt α :=
  match read s with
  | some a => .ok a
  | none => .error (f.misuse ("invalid " ++ kind ++ " value: " ++ Text.quoted s))

/-- What is wrong with an option that takes no value but has one. -/
def ignored (f : Flag) (value : String) : Halt :=
  f.misuse ("ignored explicit argument " ++ Text.quoted value)

/-- A value that has to be read, or none where two dashes stand for it. -/
def given {α : Type} (read : String → Except Halt α) (s : String) : Except Halt (Given α) :=
  if s = "--" then .ok .blank else (read s).map .value

/-- The arguments with the value of an option. -/
def setValue (a : Arguments) (f : Flag) (s : String) : Except Halt Arguments := do
  match f with
  | .help => .error (ignored f s)
  | .profile => .ok { a with profile := ← given .ok s }
  | .region => .ok { a with region := ← given .ok s }
  | .pathPrefix => .ok { a with pathPrefix := ← given .ok s }
  | .json => .ok { a with jsonPath := ← given .ok s }
  | .excel => .ok { a with excelPath := ← given .ok s }
  | .pollInterval => .ok { a with pollInterval := ← given (readAs f "float" readBinary64?) s }
  | .maxPollAttempts => .ok { a with maxPollAttempts := ← given (readAs f "int" readInteger?) s }
  | .logLevel => .ok { a with logLevel := ← given (choice f logLevels) s }
  | .reports =>
    .ok { a with reports := some (← given (choice f Inventory.sortedNames) s).value?.toList }

/-- The arguments with one more report. -/
def addReport (a : Arguments) (s : String) : Except Halt Arguments := do
  let name ← choice .reports Inventory.sortedNames s
  .ok { a with reports := some (a.reports.getD [] ++ [name]) }

/-- What the letter for help leads to with what is written after it: further such letters are
    fine, and nothing else is. -/
def afterLetter : List Char → Halt
  | [] => ignored .help ""
  | ['h'] => .help
  | 'h' :: cs => afterLetter cs
  | cs => ignored .help (String.ofList cs)

/-! ## The command line -/

/-- Reads words one after another. `naming` is whether values are the names of reports at this
    place; `extra` holds the words that belong to no option, last one first. -/
def read (naming : Bool) (a : Arguments) (extra : List String) :
    List Word → Except Halt (Arguments × List String)
  | [] => .ok (a, extra.reverse)
  | .plain s :: words => do
    if naming then read true (← addReport a s) extra words else read false a (s :: extra) words
  | .unknown s :: words => read false a (s :: extra) words
  | .letter rest :: _ => .error (afterLetter rest)
  | .option f (some s) :: words => do read false (← setValue a f s) extra words
  | .option .help none :: _ => .error .help
  | .option .reports none :: words => read true { a with reports := some [] } extra words
  | .option f none :: .plain s :: words => do read false (← setValue a f s) extra words
  | .option f none :: _ => .error (f.misuse "expected one argument")

/-- **What the command line asks for**, or why nothing is done. -/
def parse (words : List String) : Except Halt Arguments := do
  let (before, after) := splitWords words
  let (a, extra) ← read false default [] (← before.mapM classify)
  match extra ++ after with
  | [] => .ok a
  | extra => .error (.misuse ("unrecognized arguments: " ++ " ".intercalate extra))

/-- The words that values stand for. A value that is no text has no first character to look at,
    unless it is an object, which has no member of that number. -/
def words : List Value → Except Fault (List String)
  | [] => .ok []
  | .text s :: vs => do .ok (s :: (← words vs))
  | .object (_ :: _) :: _ => .error (.missing (.int 0))
  | _ :: _ => .error .mistyped

end Arguments

end IamInventory

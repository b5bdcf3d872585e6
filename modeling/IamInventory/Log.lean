import IamInventory.Failure
import IamInventory.Text.Casing

/-!
# Log records — what is noted while work goes on

  A record has a level, the part of the program that notes it, and a message. A threshold is the
  number of a level; records below it are not shown.

* **`Log.Record.line`** — a record as a line.
* **`Log.threshold?`** — the threshold of a level's name, in any case of letters.
-/

namespace IamInventory.Log

/-- How grave a record is. -/
inductive Level where
  | debug
  | info
  | warning
deriving DecidableEq, Repr

/-- The number of a level. -/
def Level.number : Level → Nat
  | .debug => 10
  | .info => 20
  | .warning => 30

/-- The name of a level. -/
def Level.name : Level → String
  | .debug => "DEBUG"
  | .info => "INFO"
  | .warning => "WARNING"

/-- The parts of the program that note records. -/
inductive Source where
  | listing
  | lastAccessed
  | reports
deriving DecidableEq, Repr

/-- The name of a part. -/
def Source.name : Source → String
  | .listing => "iam_dump.utils"
  | .lastAccessed => "iam_dump.last_accessed"
  | .reports => "iam_dump.services.iam"

/-- A record. -/
structure Record where
  level : Level
  source : Source
  message : String
deriving DecidableEq, Repr

/-- **A record as a line**, with the line break. -/
def Record.line (r : Record) : String :=
  r.level.name ++ " | " ++ r.source.name ++ " | " ++ r.message ++ "\n"

/-- The names of the thresholds. -/
def thresholds : List (String × Nat) :=
  [("CRITICAL", 50), ("FATAL", 50), ("ERROR", 40), ("WARNING", 30), ("WARN", 30), ("INFO", 20),
   ("DEBUG", 10), ("NOTSET", 0)]

/-- **The threshold of a name.** -/
def threshold? (name : String) : Option Nat :=
  thresholds.lookup (name.map Text.upperAscii)

/-- What logging is set to: the threshold, and the one of the client library, whose records are
    shown from the information level on where even debugging records of the program are. -/
structure Setup where
  threshold : Nat
  clientThreshold : Nat
deriving DecidableEq, Repr

/-- Logging at the level of a name. -/
def setUp (name : String) : Except Fault Setup :=
  match threshold? name with
  | some n => .ok ⟨n, if n ≤ Level.debug.number then Level.info.number else 0⟩
  | none => .error (.invalid ("Unknown log level '" ++ name ++ "'"))

/-- Logging at the level that a value names. -/
def setUpNamed : Value → Except Fault Setup
  | .text name => setUp name
  | .bytes _ => .error .mistyped
  | _ => .error .partless

/-- The name of the level where no other is given. -/
def defaultLevel : String := "WARNING"

end IamInventory.Log

import IamInventory.Log
import IamInventory.Path
import IamInventory.Service.Answer
import IamInventory.Settings
import IamInventory.Sheet

/-!
# Events — what a run does to the world outside

  Calls, pauses, log records and output are events; a run is judged by their order.
  `Trace.calls` and its companions pick out the events of one kind.
-/

namespace IamInventory

/-- One thing that a run does. -/
inductive Event where
  /-- the account's credentials are opened, with a profile and a region -/
  | opened (profile region : Value)
  /-- a client for a service is built -/
  | built (service region : Value) (options : ClientOptions)
  /-- the service is called -/
  | called (action : Action) (arguments : Members)
  /-- nothing happens for some seconds -/
  | paused (delay : Number.Binary64)
  /-- a record is noted -/
  | noted (record : Log.Record)
  /-- text for the reader of the results -/
  | printed (text : String)
  /-- text for whoever started the program -/
  | complained (text : String)
  /-- a file is written -/
  | saved (path : String) (document : Document)

/-- Events in order. -/
abbrev Trace := List Event

namespace Trace

/-- The calls of the service. -/
def calls (t : Trace) : List (Action × Members) :=
  t.filterMap fun
    | .called action arguments => some (action, arguments)
    | _ => none

/-- The pauses. -/
def pauses (t : Trace) : List Number.Binary64 :=
  t.filterMap fun
    | .paused delay => some delay
    | _ => none

/-- The text for the reader of the results. -/
def output (t : Trace) : String :=
  String.join (t.map fun
    | .printed text => text
    | _ => "")

/-- The text for whoever started the program: what it complains of, and the records at or above a
    threshold. -/
def complaints (threshold : Nat) (t : Trace) : String :=
  String.join (t.map fun
    | .complained text => text
    | .noted record => if threshold ≤ record.level.number then record.line else ""
    | _ => "")

/-- What is saved, with its paths. -/
def saves (t : Trace) : List (String × Document) :=
  t.filterMap fun
    | .saved path document => some (path, document)
    | _ => none

/-- The files that are written to the working directory, by name. -/
def files (t : Trace) : List (String × Document) :=
  (t.saves.filter fun s => Path.isHere s.1).map fun s => (Path.fileName s.1, s.2)

theorem calls_append (s t : Trace) : calls (s ++ t) = calls s ++ calls t := by
  simp [calls, List.filterMap_append]

theorem pauses_append (s t : Trace) : pauses (s ++ t) = pauses s ++ pauses t := by
  simp [pauses, List.filterMap_append]

end Trace

end IamInventory

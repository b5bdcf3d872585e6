import IamInventory.CommandLine.Arguments
import IamInventory.Export.Document
import IamInventory.Export.Table
import IamInventory.Export.Workbook

/-!
# The command line — from arguments to output and an exit code

  The arguments and the environment make the settings, the credentials make the session, and the
  reports make the inventory, which is printed and saved. Each of these steps ends the program with
  a complaint if it cannot be done; an inventory with failures is printed and saved all the same.

* **`CommandLine.resolveSettings`** — the settings of the environment and the arguments.
* **`CommandLine.run`** — everything that the program does.
-/

namespace IamInventory

open Number

/-- What the program finds around it: the environment, the region and the profile that the
    credentials have, and whether workbooks can be written. -/
structure Surroundings where
  environment : Environment
  region : Value
  knowsProfile : Bool
  writesWorkbooks : Bool

/-- How the program ends: with an exit code or a fault, and what it has done. -/
structure Ending where
  code : Except Fault Nat
  output : String
  complaints : String
  trace : Trace

namespace CommandLine

/-! ## Settings -/

/-- The greatest interval between polls, raised to an interval that is asked for. A blank one has no
    order. -/
def raisedInterval (a : Arguments) (s : Settings) : Except Fault (Option Binary64) :=
  match a.pollInterval with
  | .absent => .ok none
  | .blank => .error .mistyped
  | .value x => .ok (some (x.greater s.maxPollInterval))

/-- The bound on polls that is asked for; zero is not one. -/
def askedAttempts (a : Arguments) : Option Int := a.maxPollAttempts.value?.filter (· ≠ 0)

/-- **The settings of the environment and the arguments.** Zero polls mean no bound. -/
def resolveSettings (environment : Environment) (a : Arguments) : Except Fault Settings := do
  let s ← Settings.ofEnvironment environment
  let s ← Settings.check { s with
    pollInterval := a.pollInterval.value?.getD s.pollInterval
    maxPollInterval := (← raisedInterval a s).getD s.maxPollInterval
    maxPollAttempts := ((askedAttempts a).map .int).getD s.maxPollAttempts }
  if a.maxPollAttempts = .value 0 then Settings.check { s with maxPollAttempts := .null }
  else .ok s

/-! ## Sessions -/

/-- What is passed on of an option: its text, an empty list for a blank, null if it is absent. -/
def passedOn : Given String → Value
  | .absent => .null
  | .blank => .list []
  | .value s => .text s

/-- Opens the credentials and resolves the session. -/
def openSession (world : Surroundings) (a : Arguments) (settings : Settings) :
    Run Unit Session := do
  Run.emit (.opened (passedOn a.profile) (passedOn a.region))
  let region := passedOn a.region
  if world.knowsProfile then
    Session.resolve (if region.truthy then region else world.region) settings
  else do
    let text ← Run.ofFault (ClientFault.noProfile.text [("profile", passedOn a.profile)])
    Run.fault (.client text)

/-- The words of a fault for which the program cannot tell the account. -/
def unresolved? : Fault → Option String
  | .failure f => some f.message
  | .client message => some message
  | .retryMode mode => (Fault.retryMode mode).message?
  | _ => none

/-! ## Files -/

/-- Writes a file into a working directory that has some files, unless what it is to hold is a
    fault. The path is looked at first. -/
def save (files : List String) (path : String) (document : Except Fault Document) :
    Run Unit Unit := do
  match Path.fault? files path with
  | some e => Run.fault e
  | none => Run.emit (.saved path (← Run.ofFault document))

/-- Why no workbook can be written, in words. -/
def noWorkbooks : Fault :=
  .unavailable ("The 'openpyxl' package is required for the Excel export. " ++
    "Install it with 'pip install iam-dump[excel]'.")

/-- Saves an inventory as a workbook. Its cells are made before the path is looked at. -/
def saveWorkbook (world : Surroundings) (inventory : Inventory) (files : List String)
    (path : String) : Run Unit Unit := do
  if world.writesWorkbooks then
    let cells ← Run.ofFault (Export.cells inventory)
    save files path ((Export.sheet cells).map .workbook)
  else Run.fault noWorkbooks

/-! ## The program -/

/-- Complains. -/
def complain (message : String) : Run Unit Unit := Run.emit (.complained (message ++ "\n"))

/-- Saves an inventory as a document, if it is to be; the files that there are then. -/
def presentDocument (a : Arguments) (inventory : Inventory) : Run Unit (List String) := do
  match a.jsonPath.text? with
  | none => pure []
  | some path =>
    save [] path ((Export.documentText inventory).map .text)
    Export.printLine ("Resources exported to " ++ path)
    pure (if Path.isHere path then [Path.fileName path] else [])

/-- Saves an inventory as a workbook, if it is to be. -/
def presentWorkbook (world : Surroundings) (a : Arguments) (inventory : Inventory)
    (files : List String) : Run Unit Unit := do
  match a.excelPath.text? with
  | none => pure ()
  | some path =>
    let (saved, _) ← Run.attempt () (saveWorkbook world inventory files path)
    match saved with
    | .ok () => Export.printLine ("Excel report written to " ++ path)
    | .error (.unavailable message) => complain ("Failed to export Excel report: " ++ message)
    | .error e => Run.fault e

/-- Prints and saves an inventory. -/
def present (world : Surroundings) (a : Arguments) (inventory : Inventory) : Run Unit Unit := do
  Export.printTable inventory
  let files ← presentDocument a inventory
  presentWorkbook world a inventory files

/-- What the program does with its arguments, up to the exit code. -/
def execute (world : Surroundings) (a : Arguments) : Run Unit Nat := do
  match resolveSettings world.environment a with
  | .error (.invalid message) => do
    complain ("Error: " ++ message)
    pure 1
  | .error e => Run.fault e
  | .ok settings => do
    let (session, _) ← Run.attempt () (openSession world a settings)
    match session with
    | .error e =>
      match unresolved? e with
      | some message => do
        complain ("Error: unable to resolve the AWS account: " ++ message)
        pure 1
      | none => Run.fault e
    | .ok session => do
      let names := (a.reports.getD []).map .text
      let (inventory, _) ← Run.attempt () (Inventory.collect names session (passedOn a.pathPrefix))
      match inventory with
      | .error (.invalid message) => do
        complain ("Error: " ++ message)
        pure 1
      | .error e => Run.fault e
      | .ok inventory => do
        present world a inventory
        pure (if Inventory.isOk inventory then 0 else 1)

/-- The ending of a run whose records are shown from a threshold on. -/
def ending (threshold : Nat) (code : Except Fault Nat) (trace : Trace) : Ending :=
  ⟨code, trace.output, trace.complaints threshold, trace⟩

/-- **Everything that the program does** with the words of a command line, where the service gives
    the answers of a script. -/
def run (world : Surroundings) (words : List String) (script : Script) : Ending :=
  match Arguments.parse words with
  | .error .help => ending 0 (.ok 0) []
  | .error (.misuse message) => ending 0 (.ok 2) [.complained ("error: " ++ message)]
  | .ok a =>
    match Log.setUpNamed (passedOn a.logLevel) with
    | .error e => ending 0 (.error e) []
    | .ok setup =>
      let outcome := execute world a () script
      ending setup.threshold outcome.result outcome.trace

/-- Everything that the program does with values in place of words, which have to be texts. -/
def runOn (world : Surroundings) (given : List Value) (script : Script) : Ending :=
  match Arguments.words given with
  | .error e => ending 0 (.error e) []
  | .ok words => run world words script

end CommandLine

end IamInventory

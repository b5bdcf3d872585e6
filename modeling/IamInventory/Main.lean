import IamInventory.CommandLine
import IamInventory.Json.Writer
import IamInventory.Recording

/-!
# The program — takes an inventory from a recording

  The recording of the service's answers is read from standard input. What is printed goes to
  standard output, complaints and log records go to standard error, and files are written where
  the arguments say.
-/

namespace IamInventory

/-- Text of a file: a sheet is written as JSON. -/
def Document.fileText : Document → String
  | .text s => s
  | .workbook sheet =>
    Json.write .indented (.object
      [("title", .text sheet.title), ("rows", .list (sheet.rows.map Value.list))])

/-- The surroundings of the program: the variables that it reads. -/
def surroundings : IO Surroundings := do
  let names := ["POLL_INTERVAL", "POLL_BACKOFF", "MAX_POLL_INTERVAL", "MAX_POLL_ATTEMPTS",
    "BOTO_MAX_ATTEMPTS", "BOTO_RETRY_MODE", "BOTO_READ_TIMEOUT", "BOTO_CONNECT_TIMEOUT"]
  let given ← names.filterMapM fun name => do
    let name := Settings.variableStart ++ name
    return (← IO.getEnv name).map fun v => (name, .text v)
  let region := (← IO.getEnv "AWS_DEFAULT_REGION").elim .null .text
  return ⟨given, region, true, true⟩

/-- Runs the program on a recording. -/
def runProgram (words : List String) : IO UInt32 := do
  let text ← (← IO.getStdin).readToEnd
  match Json.read text with
  | .error message =>
    IO.eprintln message
    return 2
  | .ok recording =>
    let ending := CommandLine.run (← surroundings) words (Recording.script recording)
    IO.print ending.output
    IO.eprint ending.complaints
    for file in ending.trace.saves do
      IO.FS.writeFile file.1 file.2.fileText
    match ending.code with
    | .ok code => return code.toUInt32
    | .error e =>
      IO.eprintln (e.message?.getD "the work has ended early")
      return 1

end IamInventory

/-- The entry point. -/
def main (words : List String) : IO UInt32 := IamInventory.runProgram words

import IamInventory.Failure

/-!
# Paths — where a file is to be written

  The parts of a path between its slashes name directories, and the last one names the file. The
  working directory has files, but no directories of its own; a path that goes up from it or starts
  at the root leads outside, where this library sees nothing.

* **`Path.fault?`** — why no file can be written at a path.
* **`Path.isHere`** — whether a path leads to a file of the working directory.
-/

namespace IamInventory.Path

/-- The parts of a path, without the empty ones at its end. -/
def parts (path : String) : List String :=
  ((path.splitOn "/").reverse.dropWhile (· = "")).reverse

/-- The parts that name directories. -/
def directories (path : String) : List String := (parts path).dropLast

/-- The part that names the file. -/
def fileName (path : String) : String := (parts path).getLast?.getD ""

/-- Whether a part stays where it is. -/
def isStill (part : String) : Bool := part = "" || part = "."

/-- **Whether a path leads to a file of the working directory.** -/
def isHere (path : String) : Bool := !path.startsWith "/" && (directories path).all isStill

/-- The most bytes of a part. -/
def longestPart : Nat := 255

/-- The least count of bytes that no path has. -/
def tooManyBytes : Nat := 4096

/-- Whether a part is too long for a name. -/
def isLong (part : String) : Bool := longestPart < part.utf8ByteSize

/-- Whether a path can only be one of a directory. -/
def isDirectory (path : String) : Bool :=
  path.endsWith "/" || fileName path = "." || fileName path = ".."

/-- Why a part is no directory, where the working directory has some files and the parts before it
    have led to it or outside. -/
def partFault (files : List String) (path : String) (isOutside : Bool) (part : String) : Fault :=
  if isLong part then .longName
  else if !isOutside && part ∈ files then .notDirectory
  else .noDirectory path

/-- Why the parts of a path that name directories do not all do so. -/
def directoryFault? (files : List String) (path : String) (isOutside : Bool) :
    List String → Option Fault
  | [] => none
  | part :: rest =>
    if isStill part then directoryFault? files path isOutside rest
    else if part = ".." then directoryFault? files path true rest
    else some (partFault files path isOutside part)

/-- **Why no file can be written at a path**, where the working directory has some files. -/
def fault? (files : List String) (path : String) : Option Fault :=
  if path.contains '\x00' then some (.invalid "embedded null byte")
  else if tooManyBytes ≤ path.utf8ByteSize then some .longName
  else match directoryFault? files path (path.startsWith "/") (directories path) with
    | some e => some e
    | none =>
      if isDirectory path then some .directory
      else if isLong (fileName path) then some .longName
      else none

end IamInventory.Path

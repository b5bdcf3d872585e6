import IamInventory.Value.Display

/-!
# Failures and faults — how work ends early

  A *failure* is what can go wrong with the inventory itself: a call that the service refuses, a
  document that cannot be decoded, a job that does not finish. It says what was being done and for
  which entity, and a report that ends with one keeps it. Every other way to end early is a *fault*
  of the inputs or of the surroundings, and no report keeps it.

* **`Failure.message`** — a failure in words, with the operation and the entity in front.
* **`Fault.message?`** — the words of a fault that has some.
-/

namespace IamInventory

/-- The kinds of failure. -/
inductive FailureKind where
  | general
  | transport (code : Value)
  | decoding
  | malformedArn
  | correlation
  | jobFailed
  | jobTimeout
deriving Inhabited

/-- A failure: what kind, in which words, of which operation, and for which entity. An operation or
    an identifier that is absent is null. -/
structure Failure where
  kind : FailureKind
  detail : Value
  operation : Value
  identifier : Value
deriving Inhabited

/-- Whether a failure is about text that cannot be decoded, malformed identifiers included. -/
def FailureKind.isDecoding : FailureKind → Bool
  | .decoding => true
  | .malformedArn => true
  | _ => false

/-- What stands in front of the words: the operation, and the entity in brackets, each only if it
    is present and not empty. -/
def Failure.heading (f : Failure) : String :=
  let operation := if f.operation.truthy then [f.operation.shown] else []
  let entity := if f.identifier.truthy then ["[" ++ f.identifier.shown ++ "]"] else []
  " ".intercalate (operation ++ entity)

/-- **A failure in words.** -/
def Failure.message (f : Failure) : String :=
  if f.heading = "" then f.detail.shown else f.heading ++ ": " ++ f.detail.shown

/-- Whether a failure can be put into words: an operation that is present has to be a text, and so
    has a detail with nothing in front of it. -/
def Failure.isReadable (f : Failure) : Bool :=
  (!f.operation.truthy || f.operation.isText) && (f.heading != "" || f.detail.isText)

/-- Every way to end early. -/
inductive Fault where
  /-- a failure, which reports keep -/
  | failure (f : Failure)
  /-- an input that is not valid, in words -/
  | invalid (message : String)
  /-- a name that is not there -/
  | missing (key : Value)
  /-- an index that no item has -/
  | beyond
  /-- a value of a kind that an operation is not for -/
  | mistyped
  /-- a value without the named parts that an operation asks for -/
  | partless
  /-- an integer beyond every floating-point number -/
  | tooLarge
  /-- a retry mode that no client has -/
  | retryMode (mode : Value)
  /-- an error of the client before any call -/
  | client (message : String)
  /-- a character that no cell of a sheet can hold -/
  | illegalCharacter
  /-- a path whose directory is not there -/
  | noDirectory (path : String)
  /-- a path of a directory where a file is to be written -/
  | directory
  /-- a path with a file in place of a directory -/
  | notDirectory
  /-- a path that is too long, or one of its names is -/
  | longName
  /-- an optional part that is not installed, in words -/
  | unavailable (message : String)
  /-- a loop that takes no answer; no loop of this library is one -/
  | stalled
deriving Inhabited

/-- The modes in which a client may retry. -/
def retryModes : List String := ["legacy", "standard", "adaptive"]

/-- **The words of a fault**, if its kind has some. -/
def Fault.message? : Fault → Option String
  | .failure f => some f.message
  | .invalid m => some m
  | .missing key => some key.quoted
  | .retryMode mode =>
    some ("Invalid value provided to \"mode\": \"" ++ mode.shown ++ "\" must be one of: (" ++
      ", ".intercalate (retryModes.map Text.quoted) ++ ")")
  | .client m => some m
  | .noDirectory path => some ("[Errno 2] No such file or directory: " ++ Text.quoted path)
  | .unavailable m => some m
  | .beyond => none
  | .mistyped => none
  | .partless => none
  | .tooLarge => none
  | .illegalCharacter => none
  | .directory => none
  | .notDirectory => none
  | .longName => none
  | .stalled => none

/-- The words of a failure; a fault if it cannot be put into words. -/
def Failure.words (f : Failure) : Except Fault String :=
  if f.isReadable then .ok f.message else .error .mistyped

/-- **A failure whose parts are of the kinds that they are meant to be** can be put into words: the
    operation is a text or absent, and the detail is a text. -/
theorem Failure.isReadable_of_texts {f : Failure}
    (hoperation : f.operation = .null ∨ f.operation.isText) (hdetail : f.detail.isText) :
    f.isReadable := by
  have hfront : (!f.operation.truthy || f.operation.isText) = true := by
    rcases hoperation with hnull | htext
    · rw [hnull]
      rfl
    · rw [htext, Bool.or_true]
  rw [isReadable, hfront, hdetail, Bool.or_true, Bool.and_true]

end IamInventory

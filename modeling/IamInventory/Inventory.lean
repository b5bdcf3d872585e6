import IamInventory.Registry
import IamInventory.Survey

/-!
# Inventories — the reports on an account

  An inventory holds reports under their names, in the order in which they were run. A report that
  has ended with a failure does not keep the others from running.

* **`Inventory.collect`** — the reports of given names, or all of them.
* **`Inventory.resources`** — the resources of all reports.
* **`Inventory.failures`** — the failures of reports, in words.
-/

namespace IamInventory

variable {σ : Type}

/-- Reports under their names, in order. -/
abbrev Inventory := Named Report

namespace Inventory

/-- The reports that there are. -/
def kinds : Registry ReportKind := ⟨ReportKind.all.map fun kind => (.text kind.name, kind)⟩

/-- The names of the reports, sorted. -/
def sortedNames : List String :=
  (ReportKind.all.map ReportKind.name).mergeSort fun a b => decide (a ≤ b)

/-- Whether no report has ended with a failure. -/
def isOk (inventory : Inventory) : Bool := inventory.all fun r => r.2.isOk

/-- **The resources of all reports**, each with the name of its report. -/
def resources (inventory : Inventory) : List (Value × Resource) :=
  inventory.flatMap fun r => r.2.resources.map fun resource => (r.1, resource)

/-- The failures of reports, each with the name of its report. -/
def failed (inventory : Inventory) : List (Value × Failure) :=
  inventory.filterMap fun r => r.2.error.map fun f => (r.1, f)

/-- **The failures of reports** in words, each with the name of its report. A failure that cannot be
    put into words is a fault. -/
def failures (inventory : Inventory) : Except Fault (List (Value × String)) :=
  inventory.failed.mapM fun f => do .ok (f.1, ← f.2.words)

/-- The fault of a name that no report has. -/
def unknown (name : Value) : Fault :=
  .invalid ("Unknown report '" ++ name.shown ++ "'. Valid reports: " ++
    ", ".intercalate sortedNames)

/-- The report of a name. -/
def kindOf (name : Value) : Except Fault ReportKind :=
  match name with
  | .text s => match kinds.find? s with
    | some kind => .ok kind
    | none => .error (unknown name)
  | _ => .error (unknown name)

/-- Runs the report of a name. -/
def runReport (name : Value) (session : Session) (path : Value) : Run σ Report := do
  (← Run.ofFault (kindOf name)).run session path

/-- The key of a name: its normal spelling, which a report has to have. Only texts and bytes have a
    spelling, and no report has one in bytes. -/
def keyOf (name : Value) : Except Fault String :=
  match name with
  | .text s =>
    if kinds.contains (.text (Registry.normal s)) then .ok (Registry.normal s)
    else .error (unknown name)
  | .bytes _ => .error (unknown name)
  | _ => .error .partless

/-- The names that are asked for: those that are given, or those of all reports. -/
def requested (names : List Value) : List Value :=
  if names.isEmpty then kinds.names else names

/-- The keys of names, each once, in the order in which they come first. -/
def keysOf (names : List Value) : Except Fault (List String) := do
  .ok (← (requested names).mapM keyOf).eraseDups

/-- Runs the reports of keys one after another. -/
def runAll (session : Session) (path : Value) : List String → Run σ Inventory
  | [] => pure []
  | key :: keys => do
    let report ← runReport (.text key) session path
    pure ((.text key, report) :: (← runAll session path keys))

/-- **The reports of given names.** A name that no report has is refused before any report runs. -/
def collect (names : List Value) (session : Session) (path : Value) : Run σ Inventory := do
  runAll session path (← Run.ofFault (keysOf names))

/-! ## Failures in words -/

/-- The failures of reports are put into words if each of them can be. -/
theorem failures_eq {inventory : Inventory}
    (h : ∀ p ∈ inventory, ∀ f, p.2.error = some f → f.isReadable) :
    failures inventory =
      .ok (inventory.filterMap fun p => p.2.error.map fun f => (p.1, f.message)) := by
  induction inventory with
  | nil => rfl
  | cons p inventory ih =>
    obtain ⟨hp, hrest⟩ := List.forall_mem_cons.mp h
    have hinventory := ih hrest
    rw [failures, failed] at hinventory ⊢
    rw [List.filterMap_cons, List.filterMap_cons]
    cases herror : p.2.error with
    | none => exact hinventory
    | some f =>
      have hwords : f.words = .ok f.message := by rw [Failure.words, if_pos (hp f herror)]
      rw [Option.map_some, Option.map_some, List.mapM_cons, hwords, hinventory]
      rfl

/-- A failure that cannot be put into words leaves no failures in words. -/
theorem failures_eq_error {inventory : Inventory} {p : Value × Report} {f : Failure}
    (hp : p ∈ inventory) (hf : p.2.error = some f) (hno : ¬ f.isReadable) :
    failures inventory = .error .mistyped := by
  induction inventory with
  | nil => cases hp
  | cons q inventory ih =>
    rw [failures, failed] at ih ⊢
    rw [List.filterMap_cons]
    rcases List.mem_cons.mp hp with rfl | hmem
    · rw [hf, Option.map_some, List.mapM_cons, Failure.words, if_neg hno]
      rfl
    · cases herror : q.2.error with
      | none => exact ih hmem
      | some g =>
        rw [Option.map_some, List.mapM_cons, Failure.words]
        split
        · rw [ih hmem]
          rfl
        · rfl

end Inventory

end IamInventory

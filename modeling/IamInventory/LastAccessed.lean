import IamInventory.Listing
import IamInventory.Number.Shortest
import IamInventory.Report

/-!
# Use of services — jobs that tell what an entity has used, and when

  The service finds out in a job. A job is submitted for each entity, then the jobs are polled one
  after another until each has completed, its pages of entries are put together, and the entries
  are written into the record of the entity together with the latest use among them.

* **`LastAccessed.latest`** — the latest use that entries tell of.
* **`LastAccessed.submit`** — the jobs of identifiers.
* **`LastAccessed.await`** — the first page of a job once it has completed.
* **`LastAccessed.collect`** — the entries of all pages.
* **`LastAccessed.attach`** — a report with the use of its tracked resources.
-/

namespace IamInventory.LastAccessed

open Number

variable {σ : Type}

/-- The action that submits a job. -/
def generate : Action := ⟨"generate_service_last_accessed_details"⟩

/-- The action that asks for a page of a job. -/
def details : Action := ⟨"get_service_last_accessed_details"⟩

/-! ## The latest use -/

/-- The times that entries tell of. -/
def times : List Value → Except Fault (List Value)
  | [] => .ok []
  | v :: vs => do
    let t ← v.memberOr "LastAuthenticated" .null
    let ts ← times vs
    .ok (if t.isNull then ts else t :: ts)

/-- The greatest value of a list after the greatest one so far; of equal ones the first. -/
def greatest (best : Value) : List Value → Except Fault Value
  | [] => .ok best
  | v :: vs =>
    match v.greater? best with
    | some true => greatest v vs
    | some false => greatest best vs
    | none => .error .mistyped

/-- **The latest use that entries tell of**, null if none tells of one. -/
def latest (entries : List Value) : Except Fault Value := do
  match ← times entries with
  | [] => .ok .null
  | t :: ts => greatest t ts

/-! ## Jobs -/

/-- The job of an identifier. -/
def submitOne (identifier : Value) : Run σ Value := do
  let response ← call generate [("Arn", identifier)] identifier
  let job ← Run.ofFault (response.member "JobId")
  Run.note .debug .lastAccessed
    ("Submitted last-accessed job " ++ job.shown ++ " for " ++ identifier.shown)
  pure job

/-- **The jobs of identifiers**, in order. -/
def submit (identifiers : List Value) : Run σ (List Value) := identifiers.mapM submitOne

/-- A job and the entity it is for. -/
structure Job where
  id : Value
  identifier : Value

/-- A failure of a job. -/
def Job.failure (job : Job) (kind : FailureKind) (detail : Value) : Failure :=
  ⟨kind, detail, .text details.name, job.identifier⟩

/-- Why a job has failed: the service's words if it has some, else its status. -/
def Job.failureDetail (job : Job) (status response : Value) : Except Fault Value := do
  let error ← response.memberOr "Error" .null
  let message ← if error.truthy then error.memberOr "Message" .null else .ok .null
  .ok (if message.truthy then message
    else .text ("job " ++ job.id.shown ++ " finished with status " ++ status.shown))

/-- How polling stands: the delay before the next poll, and how many polls have found the job in
    progress. -/
structure Polling where
  delay : Binary64
  pending : Nat

/-- The delay after a delay: longer by the backoff, up to the greatest one. -/
def nextDelay (settings : Settings) (delay : Binary64) : Binary64 :=
  (delay.mul settings.pollBackoff).lesser settings.maxPollInterval

/-- Whether as many polls as are allowed have found the job in progress. -/
def exhausted (settings : Settings) (pending : Nat) : Bool :=
  settings.maxPollAttempts.isReachedBy pending

/-- One poll: the response if the job has completed; if it is in progress, a pause. -/
def poll (settings : Settings) (job : Job) (p : Polling) : Run σ (Polling ⊕ Value) := do
  let response ← call details [("JobId", job.id)] job.identifier
  let status ← Run.ofFault (response.memberOr "JobStatus" .null)
  if status.same (.text "COMPLETED") then pure (.inr response)
  else if status.same (.text "IN_PROGRESS") then
    let pending := p.pending + 1
    if exhausted settings pending then
      Run.fail (job.failure .jobTimeout (.text ("job " ++ job.id.shown ++
        s!" still IN_PROGRESS after {pending} checks")))
    else
      Run.note .debug .lastAccessed ("Job " ++ job.id.shown ++ " for " ++ job.identifier.shown ++
        " in progress, retrying in " ++ fixedText 2 p.delay ++ "s")
      Run.emit (.paused p.delay)
      pure (.inl ⟨nextDelay settings p.delay, pending⟩)
  else
    let detail ← Run.ofFault (job.failureDetail status response)
    Run.fail (job.failure .jobFailed detail)

/-- **The first page of a job once it has completed.** -/
def await (settings : Settings) (job : Job) : Run σ Value :=
  Run.loop (poll settings job) ⟨settings.pollInterval, 0⟩

/-- The entries that a page holds; none if it does not name any. -/
def entriesOf (response : Value) : Except Fault (List Value) := do
  (← response.memberOr "ServicesLastAccessed" (.list [])).items

/-- The next page of a job after a page and the entries up to it. -/
def nextPage (job : Job) (sofar : Value × List Value) :
    Run σ ((Value × List Value) ⊕ List Value) := do
  match ← Run.ofFault (Listing.nextMarker sofar.1) with
  | none => pure (.inr sofar.2)
  | some marker =>
    let response ← call details [("JobId", job.id), ("Marker", marker)] job.identifier
    let more ← Run.ofFault (entriesOf response)
    pure (.inl (response, sofar.2 ++ more))

/-- **The entries of all pages of a job** whose first page has come. -/
def collect (job : Job) (first : Value) : Run σ (List Value) := do
  let entries ← Run.ofFault (entriesOf first)
  Run.loop (nextPage job) (first, entries)

/-! ## Records -/

/-- The failure of a resource that is tracked under an identifier not its own. -/
def mismatch (identifier : Value) (resource : Resource) : Failure :=
  ⟨.correlation, .text ("tracked resource has ARN " ++ resource.arn.quoted),
    .text "attach last accessed", identifier⟩

/-- Refuses targets of which one is tracked under an identifier not its own. -/
def checkTargets (targets : List (Value × Resource)) : Except Failure Unit :=
  match List.find? (fun t => !t.2.arn.same t.1) targets with
  | some t => .error (mismatch t.1 t.2)
  | none => .ok ()

/-- The failure of jobs that are not as many as the identifiers that they are for. -/
def miscounted (jobs identifiers : Nat) : Failure :=
  ⟨.correlation, .text s!"{jobs} job(s) submitted for {identifiers} identifier(s)",
    .text "attach last accessed", .null⟩

/-- Refuses jobs that are not as many as the identifiers that they are for. -/
def checkJobs (ids identifiers : List Value) : Except Failure Unit :=
  if ids.length = identifiers.length then .ok ()
  else .error (miscounted ids.length identifiers.length)

/-- Writes one member into the record that is tracked under an identifier. -/
def write (identifier : Value) (name : String) (v : Value) : Run Report Unit := do
  let report ← Run.ofFault ((← Run.draft).write identifier name v)
  Run.redraft fun _ => report

/-- Writes what the job of an identifier tells into the record that is tracked under it. -/
def attachOne (settings : Settings) (job : Job) : Run Report Unit := do
  let first ← await settings job
  let entries ← collect job first
  write job.identifier Name.servicesLastAccessed (.list entries)
  let time ← Run.ofFault (latest entries)
  write job.identifier Name.lastUsed time

/-- **Writes the use of its tracked resources into a report.** -/
def attach (settings : Settings) : Run Report Unit := do
  let targets := (← Run.draft).targets
  Run.ofFailure (checkTargets targets)
  if targets.isEmpty then pure ()
  else
    let identifiers := targets.names
    let ids ← submit identifiers
    Run.ofFailure (checkJobs ids identifiers)
    Run.each (ids.zipWith Job.mk identifiers) (attachOne settings)
    Run.note .info .lastAccessed
      s!"Attached last-accessed details to {identifiers.length} resource(s)"

end IamInventory.LastAccessed

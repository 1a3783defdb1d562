import Mathlib
import AstraNull.ScriptValue
import AstraNull.WorkerRequestSigning

/-!
# Leases, reservations and results of a probe job

The job row of the database and the operations on it: the lease query with its
reclaim of stale leases, the execution reservation, the stop acknowledgment, the
result ingest with its two paths, and the cancel. The checks on a reservation and on
its receipt are `probeExecution.mjs`.

An operation that reads the row, decides and then writes it is cut in two. Its read
leaves an attempt in flight with the row it saw, and its write is conditional on the
row still being the same; leases and cancels of other transactions may come between.
The locks that order some of the operations are not used here.

Timestamps are instants in milliseconds. The source compares their canonical texts,
which are equal exactly for equal instants. What an operation reads from other tables
(the run, the kill switch, ownership proofs) is arbitrary at every step, and so is the
validation of a result body and the reading of dates.
-/
namespace AstraNull.ProbeExecution
open NumberText JsonText ScriptText ScriptValue

abbrev Time := ℤ

/-- `Date.parse`, the instant of `new Date(value)`, and the canonical text. -/
structure Dates where
  parse : JsVal → Option Time
  instant : JsVal → Option Time
  iso : Time → JsString

structure Refusal where
  error : String
  status : ℕ
deriving DecidableEq

def refuse {α : Type} (error : String) (status : ℕ) : Except Refusal α := .error ⟨error,status⟩

inductive JobStatus where
  | pending
  | leased
  | completed
  | cancelled
deriving DecidableEq

inductive ExternalResult where
  | blocked
  | connected
  | timeout
  | error
  | notRun
deriving DecidableEq

/-- A validated result body. -/
structure WorkerResult where
  externalResult : ExternalResult
  requestsSent : ℕ
deriving DecidableEq

/-- Without requests and without an answer, no traffic was sent. -/
def WorkerResult.trafficFree (r : WorkerResult) : Bool :=
  r.requestsSent = 0 && (r.externalResult = .error || r.externalResult = .notRun)

structure Reservation where
  version : JsString
  id : JsString
  workerId : JsString
  leasedAt : Option Time
  reservedAt : Time
  notAfter : JsString
  maxProbeRequests : JsVal
  maxDestinationResolverAttempts : JsVal
  maxTotalOperations : JsVal
  state : JsString

structure StopAcknowledgment where
  acknowledgedAt : Time
  reason : JsString
  workerId : JsString
  leasedAt : Option Time

structure Capture where
  recordedCount : ℕ
  droppedCount : ℕ
  deliveryFailures : ℕ
  lastSequence : ℕ
  finalizedAt : Option Time

/-- The row of a job; the last three fields are its worker metadata. -/
structure ProbeJob where
  id : JsString
  targetId : Option JsString
  checkId : JsString
  status : JobStatus
  leasedBy : Option JsString
  leasedAt : Option Time
  completedAt : Option Time
  ownershipVerificationId : Option JsString
  constraints : JsVal
  executionReservation : Option Reservation
  stopAcknowledgment : Option StopAcknowledgment
  capture : Option Capture

/-- A probe result event of the run under the nonce of the job. There is at most one,
by a unique index. -/
structure ProbeEvent where
  targetId : Option JsString
  checkId : Option JsString
  probeJobId : Option JsString
  producerKind : JsString
  source : JsString
  result : Option WorkerResult

def probeAuthorityVersion : String := "probe-authority-v2"

def maxProbeAuthorityMs : Time := 120000

/-- The end of the signed authority at an instant, or why there is none. -/
def probeAuthority (dates : Dates) (constraints : JsVal) (now : Option Time) :
    Except String JsString :=
  match dates.parse (field constraints "not_after"),dates.parse (field constraints "issued_at") with
  | some expires,some issued =>
      if !is (field constraints "authority_version") probeAuthorityVersion || expires ≤ issued ||
          maxProbeAuthorityMs < expires-issued || (now.any fun t => t+1000 < issued) then
        .error "probe_authority_invalid"
      else if now.all fun t => expires ≤ t then .error "probe_authority_expired"
      else .ok (dates.iso expires)
  | _,_ => .error "probe_authority_invalid"

def budgetNumber (v : JsVal) : Bool :=
  isSafeInteger v && match v with
    | .num n => 0 ≤ rational n && rational n ≤ 1024
    | _ => false

/-- The signed operation counts add up and allow one execution. -/
def budgetValid (constraints : JsVal) : Bool :=
  let probe := field constraints "max_probe_requests"
  let resolver := field constraints "max_destination_resolver_attempts"
  let total := field constraints "max_total_operations"
  budgetNumber probe && budgetNumber resolver && budgetNumber total &&
    (match probe,resolver,total with
      | .num p,.num r,.num t => rational p+rational r = rational t
      | _,_,_ => false) &&
    strictEq (field constraints "max_requests") total &&
    sameNumber (field constraints "execution_attempts") (natNumber 1)

/-- `body.leased_at === job.leased_at`. -/
def sameStamp (dates : Dates) (value : JsVal) (leasedAt : Option Time) : Bool :=
  match value,leasedAt with
  | .null,none => true
  | .str s,some t => s = dates.iso t
  | _,_ => false

def reservationVersion : JsString := js "execution-reservation.v1"

def executionReservation (dates : Dates) (job : ProbeJob) (workerId : JsString) (leasedAt : JsVal)
    (id : JsString) (now : Time) : Except Refusal Reservation :=
  if job.status ≠ .leased ∨ !sameStamp dates leasedAt job.leasedAt then
    refuse "probe_execution_lease_mismatch" 409
  else if workerId = [] ∨ job.leasedBy ≠ some workerId then
    refuse "job_leased_to_another_worker" 403
  else match probeAuthority dates job.constraints (some now) with
    | .error reason => refuse reason 409
    | .ok notAfter =>
        if job.executionReservation.isSome then refuse "probe_budget_already_reserved" 409
        else if !budgetValid job.constraints then refuse "probe_operation_budget_invalid" 409
        else .ok {
          version := reservationVersion
          id := id
          workerId := workerId
          leasedAt := job.leasedAt
          reservedAt := now
          notAfter := notAfter
          maxProbeRequests := field job.constraints "max_probe_requests"
          maxDestinationResolverAttempts :=
            field job.constraints "max_destination_resolver_attempts"
          maxTotalOperations := field job.constraints "max_total_operations"
          state := js "reserved_unknown" }

/-- The reservation authorizes the lease and the budget the job has now. -/
def reservationCovers (dates : Dates) (job : ProbeJob) (workerId : JsString) (r : Reservation) :
    Bool :=
  let constraints := job.constraints
  (probeAuthority dates constraints (some r.reservedAt)).toBool &&
    r.version = reservationVersion && job.status = .leased && job.leasedAt.isSome &&
    job.leasedBy = some workerId && r.workerId = workerId && r.leasedAt = job.leasedAt &&
    strictEq (.str r.notAfter) (field constraints "not_after") &&
    ((dates.parse (field constraints "issued_at")).all fun issued => issued ≤ r.reservedAt) &&
    strictEq r.maxProbeRequests (field constraints "max_probe_requests") &&
    strictEq r.maxDestinationResolverAttempts
      (field constraints "max_destination_resolver_attempts") &&
    strictEq r.maxTotalOperations (field constraints "max_total_operations")

def probeExecutionReceipt (dates : Dates) (job : ProbeJob) (workerId : JsString)
    (result : WorkerResult) : Except Refusal Unit :=
  if result.trafficFree then .ok ()
  else if job.executionReservation.any (reservationCovers dates job workerId) then .ok ()
  else refuse "probe_execution_not_reserved" 409

/-- Every own key is among the allowed ones. -/
def keysWithin (v : JsVal) (allowed : List String) : Bool :=
  match v with
  | .obj kvs => kvs.all fun p => allowed.any fun a => js a = p.1
  | .arr vs => vs.isEmpty
  | .str s => s.isEmpty
  | _ => true

def captureCount (v : JsVal) : Option ℕ :=
  match v with
  | .num n => if isSafeInteger v && 0 ≤ rational n && rational n ≤ 1048576 then
      some (rational n).num.toNat else none
  | _ => none

def normalizeProbeCapture (dates : Dates) (value : JsVal) (now : Time) : Option Capture :=
  match value with
  | .obj _ =>
      if !keysWithin value ["version","recorded_count","dropped_count","delivery_failures",
          "last_sequence","finalized_at"] || !is (field value "version") "probe-capture.v1" then none
      else do
        let recorded ← captureCount (field value "recorded_count")
        let dropped ← captureCount (field value "dropped_count")
        let failures ← captureCount (field value "delivery_failures")
        let last ← captureCount (field value "last_sequence")
        if 256 < recorded || last ≠ recorded then none
        else if nullish (field value "finalized_at") then
          some ⟨recorded,dropped,failures,last,none⟩
        else do
          let finalized ← dates.instant (field value "finalized_at")
          if 300000 < |now-finalized| then none
          else some ⟨recorded,dropped,failures,last,some finalized⟩
  | _ => none

def mergeProbeCapture (previous : Option Capture) (next : Capture) : Capture :=
  match previous with
  | none => next
  | some p => {
      recordedCount := max p.recordedCount next.recordedCount
      droppedCount := max p.droppedCount next.droppedCount
      deliveryFailures := max p.deliveryFailures next.deliveryFailures
      lastSequence := max p.lastSequence next.lastSequence
      finalizedAt := p.finalizedAt.or next.finalizedAt }

def stopReasons : List String :=
  ["job_revoked","control_plane_unavailable","deadline_elapsed","worker_cancelled"]

def normalizeStopAcknowledgment (dates : Dates) (body : JsVal) (job : ProbeJob)
    (workerId : JsString) (now : Time) : Except Refusal (StopAcknowledgment × Option Capture) :=
  if !isObject body || isArray body || !keysWithin body ["leased_at","reason","capture"] ||
      !sameStamp dates (field body "leased_at") job.leasedAt || job.leasedAt.isNone then
    refuse "probe_stop_lease_mismatch" 409
  else if job.leasedBy ≠ some workerId then refuse "job_leased_to_another_worker" 403
  else if !oneOf (field body "reason") stopReasons then refuse "invalid_probe_stop" 400
  else
    let acknowledgment := ⟨now,toStr (field body "reason"),workerId,job.leasedAt⟩
    if nullish (field body "capture") then .ok (acknowledgment,none)
    else match normalizeProbeCapture dates (field body "capture") now with
      | none => refuse "invalid_probe_capture" 400
      | some capture => .ok (acknowledgment,some capture)

/-- Digits with an optional fraction. -/
def isPlainDecimal (s : JsString) : Bool :=
  let whole := readDigits (chars s)
  whole.1 ≠ [] && match whole.2 with
    | [] => true
    | '.' :: cs => (readDigits cs).1 ≠ [] && (readDigits cs).2 = []
    | _ => false

/-- The duration of the lease query, exact. -/
def durationSeconds (constraints : JsVal) : ℚ :=
  match field constraints "max_duration_seconds" with
  | .str s => if isPlainDecimal s then ((decimalValue (chars s)).map Prod.snd).getD 120 else 120
  | .num .zero => 0
  | .num (.nonzero false x) => x.shortest.1*10^x.shortest.2
  | _ => 120

def leaseTtlSeconds (constraints : JsVal) : ℚ := max 180 (durationSeconds constraints*1+60)

/-- The lease query may take the row from its holder. -/
def leaseExpired (job : ProbeJob) (now : Time) : Bool :=
  match job.leasedAt with
  | some t => (t : ℚ) < now-leaseTtlSeconds job.constraints*1000
  | none => false

/-- The service's own duration, in numbers of the language. -/
def probeJobLeaseTtlSeconds (constraints : JsVal) : Numeric :=
  let raw := field constraints "max_duration_seconds"
  let text := if nullish raw then [] else toStr raw
  let perJob := if isPlainDecimal text then numberOfString text else natNumber 120
  let ttl := match perJob with
    | .finite n => ofNonneg (rational n+60)
    | n => n
  if ttl.lt (natNumber 180) then natNumber 180 else ttl

def isProbeJobLeaseStale (job : ProbeJob) (now : Time) : Bool :=
  match job.status,job.leasedAt,probeJobLeaseTtlSeconds job.constraints with
  | .leased,some t,.finite n => match ofNonneg (rational n*1000) with
      | .finite ms => rational ms < (now-t : ℤ)
      | _ => false
  | _,_,_ => false

/-- What a statement finds in the other tables. -/
structure Gates where
  killSwitchActive : Bool
  /-- The job and its ownership verification refer to each other or both do not. -/
  jobReadable : Bool
  runFound : Bool
  /-- The run has the tenant, target, check and nonce of the job. -/
  runMatches : Bool
  /-- The run is running or collecting. -/
  runOpen : Bool
  leaseEligible : Bool
  /-- Proof, binding, target and run conditions of the reservation statement. -/
  executionAuthorized : Bool
  ownershipSignal : Except Refusal Unit
  mutationLockAcquired : Bool

structure Caller where
  workerId : JsString
  perspectiveId : Option JsString

/-- The perspective condition of the lease query. -/
def perspectiveLeases (constraints : JsVal) (perspectiveId : Option JsString) : Bool :=
  match field constraints "required_perspective_id" with
  | .undefined => true
  | .null => true
  | v => toStr v = [] || perspectiveId = some (toStr v)

def jobClaimableByPerspective (constraints : JsVal) (perspectiveId : Option JsString) : Bool :=
  let required := field constraints "required_perspective_id"
  if nullish required || is required "" then true
  else match perspectiveId with
    | some p => WorkerRequestSigning.isValidPerspectiveId (chars p) && strictEq (.str p) required
    | none => false

def leasePendingJobsForWorker (job : ProbeJob) (gates : Gates) (caller : Caller) (now : Time) :
    Option ProbeJob :=
  if gates.killSwitchActive then none
  else if (job.status = .pending ∨ job.status = .leased ∧ leaseExpired job now) ∧
      gates.jobReadable ∧ perspectiveLeases job.constraints caller.perspectiveId ∧
      gates.leaseEligible then
    some { job with status := .leased,leasedAt := some now,leasedBy := some caller.workerId }
  else none

def claimPendingJobForWorker (job : ProbeJob) (gates : Gates) (workerId : JsString) (now : Time) :
    Option ProbeJob :=
  if job.status = .pending ∧ gates.jobReadable ∧ gates.leaseEligible then
    some { job with status := .leased,leasedAt := some now,leasedBy := some workerId }
  else none

/-- The row keeps the lease it has when the worker already holds it. -/
def heldBy (job : ProbeJob) (workerId : JsString) : Prop :=
  job.status = .leased ∧ job.leasedBy = some workerId

instance (job : ProbeJob) (workerId : JsString) : Decidable (heldBy job workerId) :=
  inferInstanceAs (Decidable (_ ∧ _))

def claimJobForResult (job : ProbeJob) (gates : Gates) (workerId : JsString) (leasedAt : Time)
    (expected : ProbeJob) : Option ProbeJob :=
  if job.status = expected.status ∧ job.leasedBy = expected.leasedBy ∧
      job.leasedAt = expected.leasedAt ∧ gates.jobReadable then
    some { job with
      status := .leased
      leasedAt := if heldBy job workerId then job.leasedAt else some leasedAt
      leasedBy := some workerId }
  else none

def reserveExecution (job : ProbeJob) (gates : Gates) (workerId : JsString) (expected : ProbeJob)
    (reservation : Reservation) : Option ProbeJob :=
  if has expected.constraints "reviewed_operation_binding" then none
  else if job.status = .leased ∧ job.leasedBy = some workerId ∧ job.leasedAt.isSome ∧
      job.leasedAt = expected.leasedAt ∧ job.ownershipVerificationId = none ∧
      job.executionReservation.isNone ∧ !has job.constraints "reviewed_operation_binding" ∧
      gates.jobReadable ∧ gates.executionAuthorized then
    some { job with executionReservation := some reservation }
  else none

def recordJobTelemetry (job : ProbeJob) (workerId : JsString) (expected : ProbeJob)
    (acknowledgment : StopAcknowledgment) (capture : Option Capture) : Option ProbeJob :=
  if job.leasedBy = some workerId ∧ job.leasedAt.isSome ∧ job.leasedAt = expected.leasedAt then
    some { job with
      stopAcknowledgment := some (expected.stopAcknowledgment.getD acknowledgment)
      capture := match capture with
        | some c => some (mergeProbeCapture expected.capture c)
        | none => job.capture }
  else none

def markJobCompleted (job : ProbeJob) (gates : Gates) (workerId : JsString)
    (leasedAt : Option Time) (completedAt : Time) : Option ProbeJob :=
  if job.status = .leased ∧ job.leasedBy = some workerId ∧ leasedAt.isSome ∧
      job.leasedAt = leasedAt ∧ gates.jobReadable then
    some { job with status := .completed,completedAt := some completedAt }
  else none

def cancelOpenProbeJobs (job : ProbeJob) (cancelledAt : Time) : ProbeJob :=
  if job.status = .pending ∨ job.status = .leased then
    { job with status := .cancelled,completedAt := some cancelledAt }
  else job

inductive Duplicate where
  | none
  | exact
  | legacy
  | conflict
deriving DecidableEq

def findDuplicateProbeEvent (job : ProbeJob) (event : Option ProbeEvent) : Duplicate :=
  match event with
  | Option.none => .none
  | some e =>
      let signed := e.producerKind = js "signed_probe" ∧ e.source = js "probe_worker"
      if e.targetId ≠ job.targetId ∨ e.checkId ≠ some job.checkId ∨
          (e.probeJobId.any fun id => id ≠ job.id) then .conflict
      else if e.probeJobId = some job.id then if signed then .exact else .conflict
      else if signed then .legacy else .none

/-- Insert the event or replace one that carries the same binding. -/
def appendProbeResultEventIdempotent (job : ProbeJob) (event : Option ProbeEvent)
    (result : WorkerResult) : Option ProbeEvent :=
  let record : ProbeEvent := ⟨job.targetId,some job.checkId,some job.id,js "signed_probe",
    js "probe_worker",some result⟩
  match event with
  | none => some record
  | some e => if e.targetId = job.targetId ∧ e.checkId = some job.checkId ∧
      (e.probeJobId.all fun id => id = job.id) then some record else none

/-- A transaction between its read of the row and its write. -/
inductive Attempt where
  | reserve (workerId : JsString) (seen : ProbeJob) (reservation : Reservation)
  | acknowledge (workerId : JsString) (seen : ProbeJob) (acknowledgment : StopAcknowledgment)
      (capture : Option Capture)
  | result (workerId : JsString) (seen : ProbeJob) (now : Time) (result : WorkerResult)
  | reconcile (workerId : JsString) (seen : ProbeJob) (now : Time)
  | ownership (workerId : JsString) (seen : ProbeJob) (now : Time) (result : WorkerResult)

/-- The row an attempt has read. -/
def Attempt.seen : Attempt → ProbeJob
  | reserve _ job _ => job
  | acknowledge _ job _ _ => job
  | result _ job _ _ => job
  | reconcile _ job _ => job
  | ownership _ job _ _ => job

/-- Code the services rely on: dates and the validation of a result body. -/
structure Services where
  dates : Dates
  validateProbeResultBody : JsVal → ProbeJob → Except Refusal WorkerResult

/-- A truthy ownership verification id. -/
def ProbeJob.ownershipChallenge (job : ProbeJob) : Bool :=
  job.ownershipVerificationId.any fun id => id ≠ []

section
variable (services : Services)

def reserveProbeExecution (job : ProbeJob) (gates : Gates) (caller : Caller) (body : JsVal)
    (id : JsString) (now : Time) : Except Refusal Attempt :=
  if caller.workerId = [] then refuse "unauthorized" 401
  else if !truthy body || !keysWithin body ["leased_at"] then refuse "invalid_probe_execution" 400
  else if !gates.jobReadable || job.ownershipChallenge then refuse "job_not_found" 404
  else if has job.constraints "reviewed_operation_binding" then
    refuse "reviewed_operation_execution_unavailable" 409
  else if !jobClaimableByPerspective job.constraints caller.perspectiveId then
    refuse "probe_perspective_mismatch" 403
  else if !gates.runFound || !gates.runMatches then refuse "job_not_found" 404
  else if gates.killSwitchActive || !gates.runOpen then refuse "job_not_open" 409
  else do
    let reservation ← executionReservation services.dates job caller.workerId
      (field body "leased_at") id now
    .ok (.reserve caller.workerId job reservation)

def acknowledgeProbeStop (job : ProbeJob) (gates : Gates) (caller : Caller) (body : JsVal)
    (now : Time) : Except Refusal Attempt :=
  if caller.workerId = [] then refuse "unauthorized" 401
  else if !gates.jobReadable || job.ownershipChallenge then refuse "job_not_found" 404
  else do
    let parsed ← normalizeStopAcknowledgment services.dates body job caller.workerId now
    .ok (.acknowledge caller.workerId job parsed.1 parsed.2)

/-- The row is leased to another worker whose lease is still live. -/
def leasedElsewhere (job : ProbeJob) (workerId : JsString) (now : Time) : Bool :=
  job.status = .leased && job.leasedBy ≠ some workerId && !isProbeJobLeaseStale job now

/-- The path of an ownership challenge. -/
def ingestOwnershipResult (job : ProbeJob) (caller : Caller) (body : JsVal) (now : Time) :
    Except Refusal Attempt :=
  if leasedElsewhere job caller.workerId now then refuse "job_leased_to_another_worker" 403
  else if job.status = .cancelled then refuse "job_not_open" 409
  else do
    let result ← services.validateProbeResultBody body job
    .ok (.ownership caller.workerId job now result)

/-- The path of a run's job: a durable event is reconciled, else the result needs its
reservation. -/
def ingestRunResult (job : ProbeJob) (event : Option ProbeEvent) (gates : Gates) (caller : Caller)
    (body : JsVal) (now : Time) : Except Refusal Attempt :=
  if !gates.runFound then refuse "run_not_found" 404
  else if !gates.runMatches then refuse "probe_job_binding_mismatch" 409
  else if job.status = .cancelled then refuse "job_not_open" 409
  else match findDuplicateProbeEvent job event with
    | .conflict => refuse "probe_event_binding_conflict" 409
    | .none =>
        if job.status = .completed then refuse "job_not_open" 409
        else if !gates.runOpen then refuse "run_not_collecting" 409
        else if leasedElsewhere job caller.workerId now then
          refuse "job_leased_to_another_worker" 403
        else do
          let result ← services.validateProbeResultBody body job
          probeExecutionReceipt services.dates job caller.workerId result
          .ok (.result caller.workerId job now result)
    | _ =>
        if leasedElsewhere job caller.workerId now then refuse "job_leased_to_another_worker" 403
        else .ok (.reconcile caller.workerId job now)

def ingestProbeResult (job : ProbeJob) (event : Option ProbeEvent) (gates : Gates) (caller : Caller)
    (body : JsVal) (now : Time) : Except Refusal Attempt :=
  if gates.killSwitchActive then refuse "kill_switch_active" 423
  else if !gates.jobReadable then refuse "job_not_found" 404
  else if has job.constraints "reviewed_operation_binding" then
    refuse "reviewed_operation_execution_unavailable" 409
  else if !jobClaimableByPerspective job.constraints caller.perspectiveId then
    refuse "probe_perspective_mismatch" 403
  else if !gates.mutationLockAcquired then refuse "run_mutation_in_progress" 409
  else if job.ownershipChallenge then ingestOwnershipResult services job caller body now
  else ingestRunResult services job event gates caller body now

end

end AstraNull.ProbeExecution

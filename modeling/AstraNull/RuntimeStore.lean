import Mathlib
import AstraNull.Tables

/-!
# The in-memory runtime

The tables behind test runs, validation scans, test policies and the emergency stop, as one
store that every operation reads and writes synchronously. Identifiers come from one counter.
What a call decides from tables that are not modelled (entitlements, ownership proofs, catalog
checks, the outcome of a probe) is an outcome the environment picks, one for each call.
-/
namespace AstraNull.RuntimeStore

inductive RunStatus where
  | planned
  | running
  | collecting
  | verdicted
  | cancelled
deriving DecidableEq

/-- `CANCELLABLE_STATUSES`, `ACTIVE_RUN_STATUSES` -/
def RunStatus.active : RunStatus → Bool
  | .planned => true
  | .running => true
  | .collecting => true
  | .verdicted => false
  | .cancelled => false

structure TestRun where
  id : ℕ
  tenantId : ℕ
  targetGroupId : ℕ
  targetId : Option ℕ
  checkId : ℕ
  policyId : Option ℕ
  policyDispatchId : Option ℕ
  scanId : Option ℕ
  scanStepId : Option ℕ
  status : RunStatus
  createdAt : ℤ
  collectionDeadlineAt : ℤ
  /-- `probe_external_result` is set. -/
  probeExternalResult : Bool
  /-- A trusted `probe_result` event with the nonce of the run is stored. -/
  probeEvent : Bool
  /-- `summary.dispatch_failed` -/
  dispatchFailed : Bool

inductive JobStatus where
  | pending
  | leased
  | completed
  | cancelled
deriving DecidableEq

def JobStatus.isOpen : JobStatus → Bool
  | .pending => true
  | .leased => true
  | .completed => false
  | .cancelled => false

structure ProbeJob where
  id : ℕ
  tenantId : ℕ
  testRunId : ℕ
  status : JobStatus
deriving DecidableEq

structure Verdict where
  tenantId : ℕ
  testRunId : ℕ
deriving DecidableEq

inductive StepStatus where
  | pending
  | deferred
  | starting
  | running
  | collecting
  | verdicted
  | denied
  | skipped
  | cancelled
deriving DecidableEq

/-- `ACTIVE_STEP_STATUSES` -/
def StepStatus.active : StepStatus → Bool
  | .starting => true
  | .running => true
  | .collecting => true
  | _ => false

/-- `TERMINAL_STEP_STATUSES` -/
def StepStatus.terminal : StepStatus → Bool
  | .verdicted => true
  | .denied => true
  | .skipped => true
  | .cancelled => true
  | _ => false

structure ScanStep where
  id : ℕ
  checkId : ℕ
  targetId : ℕ
  status : StepStatus
  testRunId : Option ℕ
  errorCode : Option String
  skipReason : Option String
  eligibleAt : Option ℤ
  attempts : ℕ

inductive ScanStatus where
  | scheduled
  | pending
  | running
  | completed
  | denied
  | cancelled
deriving DecidableEq

/-- `ACTIVE_SCAN_STATUSES` -/
def ScanStatus.active : ScanStatus → Bool
  | .pending => true
  | .running => true
  | _ => false

/-- `CANCELLABLE_SCAN_STATUSES` -/
def ScanStatus.cancellable : ScanStatus → Bool
  | .scheduled => true
  | .pending => true
  | .running => true
  | _ => false

inductive Cadence where
  | daily
  | weekly
  | monthly
deriving DecidableEq

structure Recurrence where
  cadence : Cadence
  timezone : String
deriving DecidableEq

/-- The digest of tenant, series and instant stands for the three. -/
structure OccurrenceKey where
  tenantId : ℕ
  seriesId : ℕ
  scheduledFor : ℤ
deriving DecidableEq

structure Lease where
  token : ℕ
  expiresAt : ℤ
deriving DecidableEq

structure ScanSummary where
  total : ℕ
  pending : ℕ
  deferred : ℕ
  running : ℕ
  verdicted : ℕ
  denied : ℕ
  skipped : ℕ
  cancelled : ℕ
deriving DecidableEq

def ScanSummary.completed (s : ScanSummary) : ℕ := s.verdicted+s.denied+s.skipped+s.cancelled

structure Scan where
  id : ℕ
  tenantId : ℕ
  targetGroupId : ℕ
  targetId : Option ℕ
  status : ScanStatus
  checkIds : List ℕ
  /-- `plan_snapshot.target_ids` -/
  planTargetIds : List ℕ
  /-- `plan_snapshot.target_policy_bindings` -/
  planBindings : List (ℕ × ℕ)
  steps : List ScanStep
  scheduledFor : Option ℤ
  recurrence : Option Recurrence
  seriesId : ℕ
  occurrenceKey : Option OccurrenceKey
  occurrenceIndex : ℕ
  previousScanId : Option ℕ
  nextScanId : Option ℕ
  lease : Option Lease
  nextEligibleAt : Option ℤ
  abortReason : Option String
  summary : ScanSummary
  revision : ℕ

inductive PolicyState where
  | active
  | paused
  | archived
deriving DecidableEq

inductive PolicyCadence where
  | manual
  | eventDriven
  | timed (cadence : Cadence)
deriving DecidableEq

/-- A weekly window of a policy, as it is normalised: Sunday is day 0. -/
structure SafeWindow where
  day : ℕ
  startHour : ℕ
  startMinute : ℕ
  endHour : ℕ
  endMinute : ℕ
  timezone : String
deriving DecidableEq

structure TestPolicy where
  id : ℕ
  tenantId : ℕ
  targetGroupId : ℕ
  targetId : ℕ
  checkId : ℕ
  cadence : PolicyCadence
  timezone : String
  safeWindows : List SafeWindow
  state : PolicyState
  enabled : Bool
  archived : Bool
  maxConcurrentRuns : ℕ
  nextRunAt : Option ℤ
  lease : Option Lease
  lastRunId : Option ℕ

inductive DispatchState where
  | leased
  | dispatched
  | skipped
  | failed
deriving DecidableEq

/-- The digest of tenant, policy and instant stands for the three. -/
structure DispatchKey where
  tenantId : ℕ
  policyId : ℕ
  scheduledFor : ℤ
deriving DecidableEq

structure PolicyDispatch where
  id : ℕ
  tenantId : ℕ
  policyId : ℕ
  scheduledFor : ℤ
  idempotencyKey : DispatchKey
  state : DispatchState
  lease : Option Lease
  startClaimed : Bool
  runId : Option ℕ
  errorCode : Option String

/-- The one record of the emergency stop. -/
structure KillSwitch where
  active : Bool
  tenantId : Option ℕ
  /-- The legacy map of tenants, when there is one. -/
  tenants : Option (List ℕ)
deriving DecidableEq

inductive HighScaleState where
  | submitted
  | underReview
  | approved
  | scheduled
  | running
  | stopped
  | closed
  | rejected
deriving DecidableEq

structure HighScaleRequest where
  id : ℕ
  tenantId : ℕ
  state : HighScaleState
deriving DecidableEq

structure Target where
  id : ℕ
  tenantId : ℕ
  targetGroupId : ℕ
  archived : Bool
deriving DecidableEq

structure TargetGroup where
  id : ℕ
  tenantId : ℕ
  archived : Bool
deriving DecidableEq

structure Store where
  targetGroups : List TargetGroup
  targets : List Target
  testRuns : List TestRun
  probeJobs : List ProbeJob
  verdicts : List Verdict
  /-- The runs whose verdict wrote a finding, in order. -/
  findings : List ℕ
  validationScans : List Scan
  testPolicies : List TestPolicy
  testPolicyDispatches : List PolicyDispatch
  socKillSwitch : Option KillSwitch
  highScaleRequests : List HighScaleRequest
  suspendedTenants : List ℕ
  nextId : ℕ
  /-- Calls whose outcome the environment has picked so far. -/
  tick : ℕ

def Store.empty : Store where
  targetGroups := []
  targets := []
  testRuns := []
  probeJobs := []
  verdicts := []
  findings := []
  validationScans := []
  testPolicies := []
  testPolicyDispatches := []
  socKillSwitch := none
  highScaleRequests := []
  suspendedTenants := []
  nextId := 0
  tick := 0

def isKillSwitchActiveForTenant (s : Store) (tenantId : ℕ) : Bool :=
  match s.socKillSwitch with
  | none => false
  | some ks =>
      if !ks.active then false
      else match ks.tenants with
        | some tenants => tenants.contains tenantId
        | none => match ks.tenantId with
          | none => true
          | some scopedTenant => scopedTenant == tenantId

/-- So many fresh identifiers are used up. -/
def Store.reserve (s : Store) (n : ℕ) : Store := { s with nextId := s.nextId+n }

def Store.findRun (s : Store) (id : ℕ) : Option TestRun := s.testRuns.find? fun r => r.id == id

def Store.updateRun (s : Store) (id : ℕ) (f : TestRun → TestRun) : Store :=
  { s with testRuns := Tables.update (fun r => r.id == id) f s.testRuns }

def Store.findScan (s : Store) (id : ℕ) : Option Scan := s.validationScans.find? fun x => x.id == id

def Store.updateScan (s : Store) (id : ℕ) (f : Scan → Scan) : Store :=
  { s with validationScans := Tables.update (fun x => x.id == id) f s.validationScans }

def Scan.updateStep (x : Scan) (stepId : ℕ) (f : ScanStep → ScanStep) : Scan :=
  { x with steps := Tables.update (fun p => p.id == stepId) f x.steps }

/-- `scanTargetIds`: the plan, the exact target and the steps. -/
def scanTargetIds (x : Scan) : List ℕ :=
  (x.planTargetIds++x.targetId.toList++x.steps.map ScanStep.targetId).eraseDups

def scanIncludesTarget (x : Scan) (targetId targetGroupId : ℕ) : Bool :=
  if scanTargetIds x ≠ [] then (scanTargetIds x).contains targetId
  else x.targetGroupId == targetGroupId

/-- The group a planned target runs under. -/
def Scan.groupOf (x : Scan) (targetId : ℕ) : ℕ :=
  ((x.planBindings.find? fun b => b.1 == targetId).map Prod.snd).getD x.targetGroupId

def activeGroup (s : Store) (tenantId id : ℕ) : Option TargetGroup :=
  s.targetGroups.find? fun g => g.tenantId == tenantId && !g.archived && g.id == id

def leaseHeldByOther (x : Scan) (now : ℤ) : Bool := x.lease.any fun l => now < l.expiresAt

end AstraNull.RuntimeStore

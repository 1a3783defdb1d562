import Mathlib
import AstraNull.Tables
import AstraNull.RuntimeStore

/-!
# Test runs

`services/testRuns.mjs` and the intake of `services/probeCoordinator.mjs`: starting, reading,
finalising and cancelling runs. A run that reaches its end calls the terminal hooks before the
function that ended it returns, so the hook is an argument here; it may start and cancel runs
and advance scans.
-/
namespace AstraNull.TestRuns
open RuntimeStore

structure Denial where
  error : String
  status : ℕ
deriving DecidableEq

/-- What checks outside of the model answer. -/
inductive Check where
  | pass
  | refuse (denial : Denial)
  | throws

/-- What becomes of a run that has just been stored. -/
inductive Launch where
  /-- `registerRetestLineage` refuses; the run is dropped. -/
  | lineageRefused (denial : Denial)
  /-- An exception leaves the run behind. -/
  | throws
  | missingInput
  | eventCap
  | jobFails
  | job
  | inline (trusted : Bool)
  | opsReadiness (trusted : Bool)

/-- The outcome of one call of `startTestRun` as far as it is not decided by the store. -/
structure StartChoice where
  /-- Selection of the operation, catalog, review of an origin identity pair. -/
  early : Check
  /-- The refusal of `assertSubscriptionLimit`. -/
  limit : Option String
  /-- Compatibility, destination binding, ownership, prerequisites, signing, retest, origin. -/
  late : Check
  launch : Launch
  maxDurationMs : ℤ

/-- What the catalog and the bindings of targets say about the plan of a scan. -/
structure PlanChoice where
  /-- The refusal of `resolveChecks`. -/
  checks : Option Denial
  /-- Why a check does not run on a target. -/
  excluded : ℕ → ℕ → Option String

structure StartBody where
  tenantId : ℕ
  targetGroupId : ℕ
  targetId : Option ℕ
  checkId : ℕ
  policyId : Option ℕ
deriving DecidableEq

structure ScanDispatch where
  scanId : ℕ
  stepId : ℕ
  leaseToken : ℕ
  now : ℤ

structure PolicyBinding where
  dispatchId : ℕ
  leaseToken : ℕ
  idempotencyKey : DispatchKey
deriving DecidableEq

structure StartOptions where
  scanDispatch : Option ScanDispatch
  policyDispatch : Option PolicyBinding
  policyEvent : Bool

def StartOptions.none : StartOptions := ⟨Option.none,Option.none,false⟩

inductive StartResult where
  | refused (denial : Denial)
  | threw
  | started (run : TestRun) (replay : Bool)

/-- What the hook of entry path comparisons may do. -/
inductive HookAct where
  | start (now : ℤ) (body : StartBody)
  | cancel (tenantId runId : ℕ)

/-- The environment: one choice for each call, counted by the store. -/
structure Env where
  start : ℕ → StartChoice
  plan : ℕ → PlanChoice
  createsFinding : ℕ → Bool
  acts : ℕ → List HookAct
  /-- `probeResultCompletesEvidence` of a check. -/
  completes : ℕ → Bool
  /-- What `Date.now` reads. -/
  clock : ℕ → ℤ
  /-- `probeDispatchReady` of the runtime configuration. -/
  dispatchReady : Bool

/-- The terminal hooks, from the run that has ended. -/
abbrev Hook := Store → TestRun → Store

def nextTick (s : Store) : Store := { s with tick := s.tick+1 }

section Runs
variable (E : Env) (hook : Hook)

def hasExternalProbeEvidence (run : TestRun) : Bool := run.probeExternalResult || run.probeEvent

def isCollectionWindowExpired (now : ℤ) (run : TestRun) : Bool := run.collectionDeadlineAt ≤ now

def hasVerdict (s : Store) (runId : ℕ) : Bool := s.verdicts.any fun v => v.testRunId == runId

def verdicted (run : TestRun) : TestRun := { run with status := .verdicted }

/-- The verdict row, the status, the finding, and then the hooks. -/
def publishVerdict (s : Store) (run : TestRun) (finding : Bool) : Store :=
  let s := { s.updateRun run.id verdicted with
    verdicts := s.verdicts++[⟨run.tenantId,run.id⟩]
    findings := if finding then s.findings++[run.id] else s.findings }
  hook s (verdicted run)

def finalizeVerdictIfReady (s : Store) (now : ℤ) (run : TestRun) (withoutObservation : Bool) :
    Store × Bool :=
  if hasVerdict s run.id then (s,true)
  else if !hasExternalProbeEvidence run then (s,false)
  else if !withoutObservation && !isCollectionWindowExpired now run &&
      !(run.probeEvent && E.completes run.checkId) then (s,false)
  else (publishVerdict hook (nextTick s) run (E.createsFinding s.tick),true)

def maybeFinalizeCollectingRun (s : Store) (now : ℤ) (run : TestRun) (force : Bool) :
    Store × Bool :=
  if run.status ≠ .collecting then (s,false)
  else if hasVerdict s run.id then (s,false)
  else if !hasExternalProbeEvidence run then (s,false)
  else if !force && !isCollectionWindowExpired now run then (s,false)
  else finalizeVerdictIfReady E hook s now run true

def findTenantRun (s : Store) (tenantId id : ℕ) : Option TestRun :=
  s.testRuns.find? fun r => r.id == id && r.tenantId == tenantId

/-- Reading a run finalises it when its collection window is over. -/
def getTestRun (s : Store) (now : ℤ) (tenantId id : ℕ) : Store × Option TestRun :=
  match findTenantRun s tenantId id with
  | none => (s,none)
  | some run =>
      let s := (maybeFinalizeCollectingRun E hook s now run false).1
      (s,findTenantRun s tenantId id)

def finalizeTestRun (s : Store) (now : ℤ) (tenantId id : ℕ) (force : Bool) :
    Store × Except Denial Unit :=
  match findTenantRun s tenantId id with
  | none => (s,.error ⟨"not_found",404⟩)
  | some run =>
      if run.status ≠ .collecting then (s,.error ⟨"not_collecting",409⟩)
      else if !hasExternalProbeEvidence run then (s,.error ⟨"external_probe_pending",409⟩)
      else if !force && !isCollectionWindowExpired now run then
        (s,.error ⟨"observation_window_active",409⟩)
      else match maybeFinalizeCollectingRun E hook s now run true with
        | (s,false) => (s,.error ⟨"cannot_finalize",409⟩)
        | (s,true) => ((getTestRun E hook s now tenantId id).1,.ok ())

/-- The sweep over started runs whose window is over. -/
def finalizeExpiredRuns (s : Store) (now : ℤ) : List ℕ → Store
  | [] => s
  | id::ids =>
      let s := match s.findRun id with
        | none => s
        | some run => (maybeFinalizeCollectingRun E hook s now run false).1
      finalizeExpiredRuns s now ids

def collecting (run : TestRun) : TestRun :=
  { run with status := if run.status = .running then .collecting else run.status }

def completeJob (s : Store) (jobId : ℕ) : Store :=
  { s with
    probeJobs := Tables.update (fun j => j.id == jobId) (fun j => { j with status := .completed })
      s.probeJobs }

/-- The result of a worker. `accepts` answers for the checks of lease, body and receipt. -/
def ingestProbeResult (s : Store) (jobId : ℕ) (accepts : Check) : Store × Except Denial ℕ :=
  match s.probeJobs.find? fun j => j.id == jobId with
  | none => (s,.error ⟨"job_not_found",404⟩)
  | some job => match findTenantRun s job.tenantId job.testRunId with
    | none => (s,.error ⟨"run_not_found",404⟩)
    | some run =>
        if run.status ≠ .running ∧ run.status ≠ .collecting then
          (s,.error ⟨"run_not_collecting",409⟩)
        else if !job.status.isOpen then (s,.error ⟨"job_not_open",409⟩)
        else match accepts with
          | .refuse denial => (s,.error denial)
          | .throws => (s,.error ⟨"internal",500⟩)
          | .pass =>
              let s := s.updateRun run.id fun r => collecting
                { r with
                  probeExternalResult := true
                  probeEvent := true }
              (completeJob s jobId,.ok run.id)

/-- What the route calls once a result has been taken in. The status is looked at only to move
a running run on. -/
def maybeFinalizeRunAfterProbeIngest (s : Store) (now : ℤ) (tenantId : Option ℕ) (runId : ℕ) :
    Store × Bool :=
  match s.testRuns.find? fun r => r.id == runId && tenantId.all (r.tenantId == ·) with
  | none => (s,false)
  | some run =>
      if !hasExternalProbeEvidence run then (s,false)
      else finalizeVerdictIfReady E hook (s.updateRun run.id collecting) now (collecting run) false

def cancelled (run : TestRun) : TestRun := { run with status := .cancelled }

def revokeDispatchedJobsForRun (s : Store) (run : TestRun) : Store :=
  { s with
    probeJobs := Tables.updateAll
      (fun j => j.tenantId == run.tenantId && j.testRunId == run.id && j.status.isOpen)
      (fun j => { j with status := .cancelled }) s.probeJobs }

def cancelRow (s : Store) (run : TestRun) : Store :=
  revokeDispatchedJobsForRun (s.updateRun run.id cancelled) run

def cancelTestRun (s : Store) (tenantId id : ℕ) : Store × Except Denial Unit :=
  match findTenantRun s tenantId id with
  | none => (s,.error ⟨"not_found",404⟩)
  | some run =>
      if !run.status.active then (s,.error ⟨"not_cancellable",409⟩)
      else (hook (cancelRow s run) (cancelled run),.ok ())

def cancelRows (s : Store) (runs : List TestRun) : Store := runs.foldl cancelRow s

/-- Every active run of the tenant is cancelled first and the hooks are called afterwards. -/
def autoCancelActiveSafeRunsForKillSwitch (s : Store) (tenantId : ℕ) : Store × List ℕ :=
  let runs := s.testRuns.filter fun r => r.tenantId == tenantId && r.status.active
  (runs.foldl (fun s run => hook s (cancelled run)) (cancelRows s runs),runs.map TestRun.id)

def activeRunForGroup (s : Store) (tenantId targetGroupId targetId : ℕ) : Option TestRun :=
  s.testRuns.find? fun r => r.tenantId == tenantId && r.targetGroupId == targetGroupId &&
    (r.targetId == some targetId || r.targetId == none) && r.status.active

def activePolicy (s : Store) (tenantId id : ℕ) : Option TestPolicy :=
  s.testPolicies.find? fun p => p.id == id && p.tenantId == tenantId && !p.archived

def validatePolicyBinding (s : Store) (now : ℤ) (body : StartBody) (opts : StartOptions) :
    Except Denial (Option TestPolicy) :=
  match body.policyId with
  | none => .ok none
  | some policyId => match activePolicy s body.tenantId policyId with
    | none => .error ⟨"test_policy_not_found",404⟩
    | some policy =>
        if policy.state ≠ .active ∨ policy.enabled = false then
          .error ⟨"test_policy_disabled",409⟩
        else if policy.targetGroupId ≠ body.targetGroupId ∨ some policy.targetId ≠ body.targetId ∨
            policy.checkId ≠ body.checkId then .error ⟨"test_policy_binding_mismatch",409⟩
        else if policy.maxConcurrentRuns ≠ 1 then .error ⟨"unsafe_policy_concurrency",409⟩
        else match opts.policyDispatch with
          | none =>
              if policy.cadence ≠ .manual ∧ opts.policyEvent = false then
                .error ⟨"trusted_policy_dispatch_required",409⟩
              else .ok (some policy)
          | some trusted => match s.testPolicyDispatches.find? fun d =>
              d.id == trusted.dispatchId && d.tenantId == body.tenantId &&
                d.policyId == policy.id with
            | none => .error ⟨"policy_lease_invalid",409⟩
            | some dispatch =>
                if dispatch.state ≠ .leased ∨
                    dispatch.lease.map Lease.token ≠ some trusted.leaseToken ∨
                    dispatch.idempotencyKey ≠ trusted.idempotencyKey ∨
                    policy.lease.map Lease.token ≠ some trusted.leaseToken ∨
                    dispatch.lease.all (fun l => l.expiresAt ≤ now) then
                  .error ⟨"policy_lease_invalid",409⟩
                else .ok (some policy)

def validateScanBinding (s : Store) (body : StartBody) (opts : StartOptions) :
    Except Denial (Option ScanDispatch) :=
  match opts.scanDispatch with
  | none => .ok none
  | some dispatch =>
      if opts.policyDispatch.isSome ∨ body.policyId.isSome then
        .error ⟨"conflicting_dispatch_context",409⟩
      else match s.validationScans.find? fun x =>
          x.id == dispatch.scanId && x.tenantId == body.tenantId with
        | none => .error ⟨"scan_dispatch_invalid",409⟩
        | some scan =>
            if scan.status.active = false ∨ scan.lease.map Lease.token ≠ some dispatch.leaseToken ∨
                scan.lease.any (fun l => l.expiresAt ≤ dispatch.now) then
              .error ⟨"scan_dispatch_invalid",409⟩
            else match scan.steps.find? fun p => p.id == dispatch.stepId with
              | none => .error ⟨"scan_dispatch_invalid",409⟩
              | some step =>
                  if step.status ≠ .starting ∨ step.checkId ≠ body.checkId ∨
                      some step.targetId ≠ body.targetId ∨
                      scan.groupOf step.targetId ≠ body.targetGroupId then
                    .error ⟨"scan_dispatch_invalid",409⟩
                  else .ok (some dispatch)

/-- The gates up to the lookup of an earlier run of the same dispatch. -/
def startGates (s : Store) (now : ℤ) (choice : StartChoice) (body : StartBody)
    (opts : StartOptions) : Except Denial (Target × Option TestPolicy) := do
  if (s.targetGroups.find? fun g =>
      g.id == body.targetGroupId && g.tenantId == body.tenantId && !g.archived).isNone then
    throw ⟨"target_group_not_found",404⟩
  if isKillSwitchActiveForTenant s body.tenantId then throw ⟨"kill_switch_active",423⟩
  if s.suspendedTenants.contains body.tenantId then throw ⟨"tenant_suspended",403⟩
  if let some error := choice.limit then throw ⟨error,403⟩
  match body.targetId with
  | none => throw ⟨"missing_target_id",400⟩
  | some targetId => match s.targets.find? fun t => t.id == targetId &&
      t.tenantId == body.tenantId && t.targetGroupId == body.targetGroupId && !t.archived with
    | none => throw ⟨"target_not_found",404⟩
    | some target =>
        if (activeRunForGroup s body.tenantId body.targetGroupId targetId).isSome then
          throw ⟨"concurrent_run_blocked",409⟩
        if s.validationScans.any fun x => x.tenantId == body.tenantId && x.status.active &&
            some x.id != opts.scanDispatch.map ScanDispatch.scanId &&
            scanIncludesTarget x targetId body.targetGroupId then
          throw ⟨"concurrent_run_blocked",409⟩
        let _ ← validateScanBinding s body opts
        let policy ← validatePolicyBinding s now body opts
        return (target,policy)

/-- The run an earlier call of the same dispatch or of the same step has stored. -/
def replayOf (s : Store) (body : StartBody) (opts : StartOptions) : Option TestRun :=
  (opts.policyDispatch.bind fun d => s.testRuns.find? fun r =>
    r.tenantId == body.tenantId && r.policyDispatchId == some d.dispatchId).or
  (opts.scanDispatch.bind fun d => s.testRuns.find? fun r =>
    r.tenantId == body.tenantId && r.scanStepId == some d.stepId)

def newRun (s : Store) (now : ℤ) (choice : StartChoice) (body : StartBody) (opts : StartOptions)
    (target : Target) (policy : Option TestPolicy) : TestRun where
  id := s.nextId
  tenantId := body.tenantId
  targetGroupId := body.targetGroupId
  targetId := some target.id
  checkId := body.checkId
  policyId := policy.map TestPolicy.id
  policyDispatchId := opts.policyDispatch.map PolicyBinding.dispatchId
  scanId := opts.scanDispatch.map ScanDispatch.scanId
  scanStepId := opts.scanDispatch.map ScanDispatch.stepId
  status := .running
  createdAt := now
  collectionDeadlineAt := now+choice.maxDurationMs
  probeExternalResult := false
  probeEvent := false
  dispatchFailed := false

def pushRun (s : Store) (run : TestRun) : Store :=
  { s with
    testRuns := s.testRuns++[run]
    nextId := s.nextId+1 }

def dropStartedRun (s : Store) (runId : ℕ) : Store :=
  { s with testRuns := s.testRuns.filter fun r => r.id != runId }

def inlineResult (trusted : Bool) (run : TestRun) : TestRun :=
  { run with
    status := .collecting
    probeExternalResult := true
    probeEvent := trusted }

def unsupportedTarget (run : TestRun) : TestRun := { run with probeExternalResult := true }

/-- The run after the call, as the caller's reference sees it. -/
def current (s : Store) (run : TestRun) : TestRun := (s.findRun run.id).getD run

/-- From the stored run on. -/
def launchRun (s : Store) (run : TestRun) : Launch → Store × StartResult
  | .lineageRefused denial => (dropStartedRun s run.id,.refused denial)
  | .throws => (s,.threw)
  | .missingInput =>
      let s := publishVerdict hook (s.updateRun run.id unsupportedTarget) (unsupportedTarget run) false
      (s,.started (current s run) false)
  | .eventCap => (dropStartedRun s run.id,.refused ⟨"event_cap_exceeded",429⟩)
  | .jobFails => (dropStartedRun s run.id,.refused ⟨"probe_job_dispatch_failed",503⟩)
  | .job =>
      ({ s with
        probeJobs := s.probeJobs++[⟨s.nextId,run.tenantId,run.id,.pending⟩]
        nextId := s.nextId+1 },.started run false)
  | .inline trusted =>
      (s.updateRun run.id (inlineResult trusted),.started (inlineResult trusted run) false)
  | .opsReadiness trusted =>
      let s := publishVerdict hook (s.updateRun run.id (inlineResult trusted))
        (inlineResult trusted run) false
      (s,.started (current s run) false)

def startTestRun (s : Store) (now : ℤ) (body : StartBody) (opts : StartOptions) :
    Store × StartResult :=
  let choice := E.start s.tick
  let s := nextTick s
  match choice.early with
  | .refuse denial => (s,.refused denial)
  | .throws => (s,.threw)
  | .pass => match startGates s now choice body opts with
    | .error denial => (s,.refused denial)
    | .ok (target,policy) => match replayOf s body opts with
      | some run =>
          let s := (getTestRun E hook s now body.tenantId run.id).1
          (s,.started (current s run) true)
      | none => match choice.late with
        | .refuse denial => (s,.refused denial)
        | .throws => (s,.threw)
        | .pass =>
            let run := newRun s now choice body opts target policy
            launchRun hook (pushRun s run) run choice.launch

end Runs

end AstraNull.TestRuns

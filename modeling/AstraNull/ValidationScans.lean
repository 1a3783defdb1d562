import Mathlib
import AstraNull.Tables
import AstraNull.RuntimeStore
import AstraNull.TestRuns
import AstraNull.ScanPlanning

/-!
# The executor of validation scans

`advanceScan` of `services/validationScans.mjs` with everything it calls. Starting and reading a
run may end it, and the terminal hook of a run advances its scan again: the set of scans that
are being advanced is added to and removed from in one frame, so it is an argument here, and the
hooks are a function of it.
-/
namespace AstraNull.ValidationScans
open RuntimeStore TestRuns ScanPlanning

def refreshSummary (x : Scan) : Scan := { x with summary := computeScanSummary x.steps }

def releaseLease (x : Scan) : Scan := { x with lease := none }

def claimLease (now : ℤ) (token : ℕ) (x : Scan) : Scan :=
  { x with lease := some ⟨token,now+scanLeaseMs⟩ }

def skippable : StepStatus → Bool
  | .pending => true
  | .deferred => true
  | .starting => true
  | _ => false

def skipStep (reason : String) (p : ScanStep) : ScanStep :=
  { p with
    status := .skipped
    skipReason := some reason }

def skipRemainingSteps (reason : String) (x : Scan) : Scan :=
  { x with steps := Tables.updateAll (fun p => skippable p.status) (skipStep reason) x.steps }

/-- Called when no step is left, or when the scan is aborted. -/
def finishScan (x : Scan) : Scan :=
  let derived := deriveScanStatus x.steps
  refreshSummary (releaseLease { x with
    status := if derived = .running then .completed else derived
    nextEligibleAt := none })

def completeStep (run : TestRun) (p : ScanStep) : ScanStep :=
  let dispatchFailed := run.status == .cancelled && run.dispatchFailed
  { p with
    status := if run.status = .verdicted then .verdicted
      else if dispatchFailed then .denied else .cancelled
    errorCode := if dispatchFailed then some "probe_dispatch_failed" else p.errorCode }

def denyStep (error : String) (p : ScanStep) : ScanStep :=
  { p with
    status := .denied
    errorCode := some error }

def beginStep (p : ScanStep) : ScanStep :=
  { p with
    status := .starting
    attempts := p.attempts+1 }

def bindRun (runId : ℕ) (p : ScanStep) : ScanStep := { p with testRunId := some runId }

/-- A step without a run: a lost start is tried again while attempts are left. -/
def giveUpStep (p : ScanStep) : ScanStep :=
  if maxStepStartAttempts ≤ p.attempts then denyStep "start_test_run_failed" p
  else { p with status := .pending }

def followRun (run : TestRun) (p : ScanStep) : ScanStep :=
  { p with status := if run.status = .collecting then .collecting else .running }

def abortScan (stepId : ℕ) (error : String) (x : Scan) : Scan :=
  skipRemainingSteps ("scan_aborted:"++error)
    { x.updateStep stepId (denyStep error) with abortReason := some error }

def nextStartableStep (x : Scan) (now : ℤ) : Option ScanStep :=
  (x.steps.find? fun p => p.status == .pending).or
    (x.steps.find? fun p => p.status == .deferred && p.eligibleAt.any (· ≤ now))

/-- The earliest time of a deferred step. -/
def nextEligible (x : Scan) : Option ℤ :=
  ((x.steps.filter fun p => p.status == .deferred).filterMap ScanStep.eligibleAt).min?

/-- What a call of the executor reports. -/
inductive Advance where
  | absent
  | reentrant
  | inactive
  | leased
  | waiting
  | deferred
  | finished
  | maxStartsPerTick
  | probeSigningUnavailable
  | orphaned
  | aborted
  | retryScheduled
deriving DecidableEq

section Executor
variable (E : Env) (hook : Hook)

/-- The run of the active step: the one it names, or the one that names it. -/
def runOfStep (s : Store) (tenantId : ℕ) (p : ScanStep) : Option TestRun :=
  match p.testRunId with
  | some id => s.testRuns.find? fun r => r.id == id && r.tenantId == tenantId
  | none => s.testRuns.find? fun r => r.scanStepId == some p.id && r.tenantId == tenantId

/-- Answers whether the executor has to wait. -/
def reconcileActiveStep (s : Store) (id : ℕ) : Store × Bool :=
  match s.findScan id with
  | none => (s,false)
  | some scan => match scan.steps.find? fun p => p.status.active with
    | none => (s,false)
    | some active => match runOfStep s scan.tenantId active with
      | none => (s.updateScan id fun x => x.updateStep active.id giveUpStep,false)
      | some run =>
          let s := s.updateScan id fun x => x.updateStep active.id (bindRun run.id)
          let s := (getTestRun E hook s (E.clock s.tick) scan.tenantId run.id).1
          let run := current s run
          if run.status = .verdicted ∨ run.status = .cancelled then
            (s.updateScan id fun x => x.updateStep active.id (completeStep run),false)
          else
            (s.updateScan id fun x => { x.updateStep active.id (followRun run) with
              status := if x.status = .pending then .running else x.status },true)

def cancelOrphanedRun (s : Store) (id tenantId stepId : ℕ) (run : Option TestRun) : Store :=
  let s := match run with
    | some run => if run.status.active then (cancelTestRun hook s tenantId run.id).1 else s
    | none => s
  s.updateScan id fun x => x.updateStep stepId fun p => { p with
    status := .cancelled
    testRunId := (run.map TestRun.id).or p.testRunId }

def outcome : StartResult → Except Denial TestRun
  | .refused denial => .error denial
  | .threw => .error ⟨"start_test_run_failed",500⟩
  | .started run _ => .ok run

/-- The step is marked and the scan is leased, with a fresh token. -/
def beginStart (s : Store) (scan : Scan) (step : ScanStep) (now : ℤ) : Store :=
  (s.reserve 1).updateScan scan.id fun x =>
    claimLease now s.nextId (x.updateStep step.id beginStep)

def stepBody (scan : Scan) (step : ScanStep) : StartBody where
  tenantId := scan.tenantId
  targetGroupId := scan.groupOf step.targetId
  targetId := some step.targetId
  checkId := step.checkId
  policyId := none

def stepOptions (scan : Scan) (step : ScanStep) (token : ℕ) (now : ℤ) : StartOptions where
  scanDispatch := some ⟨scan.id,step.id,token,now⟩
  policyDispatch := none
  policyEvent := false

/-- Nothing when the scan or the step moved on while the run was started. -/
def startStep (s : Store) (scan : Scan) (step : ScanStep) (now : ℤ) :
    Store × Option (Except Denial TestRun) :=
  let begun := beginStart s scan step now
  let (s,result) := startTestRun E hook begun (E.clock begun.tick) (stepBody scan step)
    (stepOptions scan step s.nextId now)
  let result := outcome result
  if (s.findScan scan.id).any fun x => x.status.active &&
      (x.steps.find? fun p => p.id == step.id).any fun p => p.status == .starting then
    (s.updateScan scan.id releaseLease,some result)
  else
    let run := result.toOption.bind fun run => s.findRun run.id
    (cancelOrphanedRun hook s scan.id scan.tenantId step.id run,none)

/-- A start that worked. The step of a run that is already over ends with it. -/
def startedStep (run : TestRun) (p : ScanStep) : ScanStep :=
  { p with
    testRunId := some run.id
    status := if run.status = .verdicted then .verdicted
      else if run.status = .collecting then .collecting else .running
    eligibleAt := none }

/-- The step of this scan that an active run of the group belongs to. -/
def ownBlockingStep (s : Store) (scan : Scan) (step : ScanStep) : Option (TestRun × ℕ) := do
  let blocking ← activeRunForGroup s scan.tenantId scan.targetGroupId step.targetId
  if blocking.scanId = some scan.id then
    let stepId ← blocking.scanStepId
    return (blocking,stepId)
  else none

def resumeOwnStep (blocking : TestRun) (ownStepId stepId : ℕ) (x : Scan) : Scan :=
  let x := x.updateStep ownStepId fun p => followRun blocking (bindRun blocking.id p)
  x.updateStep stepId fun p => { p with
    status := .pending
    attempts := p.attempts-1 }

/-- What follows a start; nothing when the loop goes on. -/
def afterStart (s : Store) (scan : Scan) (step : ScanStep) (now : ℤ) :
    Except Denial TestRun → Store × Option Advance
  | .ok run =>
      (s.updateScan scan.id fun x => refreshSummary (x.updateStep step.id (startedStep run)),none)
  | .error denial => match classifyStartDenial denial with
    | .defer =>
        let eligibleAt := deferredStepEligibleAt denial.error s.testRuns scan.tenantId
          (scan.groupOf step.targetId) now
        (s.updateScan scan.id fun x => refreshSummary { x.updateStep step.id (fun p => { p with
            status := .deferred
            eligibleAt := some eligibleAt }) with nextEligibleAt := some eligibleAt },
          some .deferred)
    | .abort => match if denial.error = "concurrent_run_blocked" then ownBlockingStep s scan step
        else none with
      | some (blocking,ownStepId) =>
          (s.updateScan scan.id fun x => refreshSummary (resumeOwnStep blocking ownStepId step.id x),
            some .waiting)
      | none =>
          (s.updateScan scan.id fun x => finishScan (abortScan step.id denial.error x),
            some .aborted)
    | .step =>
        (s.updateScan scan.id fun x => refreshSummary (x.updateStep step.id (denyStep denial.error)),
          none)
    | .retry =>
        -- `startStep` has counted this attempt
        if maxStepStartAttempts ≤ step.attempts+1 then
          (s.updateScan scan.id fun x =>
            refreshSummary (x.updateStep step.id (denyStep "start_test_run_failed")),none)
        else
          (s.updateScan scan.id fun x =>
            refreshSummary (x.updateStep step.id fun p => { p with status := .pending }),
            some .retryScheduled)

/-- The loop, by the starts that are left. Every way back to its head has used one. -/
def advanceLoop (s : Store) (id : ℕ) (now : ℤ) (starts : ℕ) : Store × Advance :=
  match reconcileActiveStep E hook s id with
  | (s,true) => (s.updateScan id refreshSummary,.waiting)
  | (s,false) => match s.findScan id with
    | none => (s,.absent)
    | some scan => match nextStartableStep scan now with
      | none =>
          if scan.steps.any fun p => p.status == .deferred then
            (s.updateScan id fun x => refreshSummary { x with
              nextEligibleAt := nextEligible x
              status := .running },.deferred)
          else (s.updateScan id finishScan,.finished)
      | some step => match starts with
        | 0 => (s.updateScan id refreshSummary,.maxStartsPerTick)
        | starts+1 =>
            if !E.dispatchReady then (s.updateScan id refreshSummary,.probeSigningUnavailable)
            else
              let s := s.updateScan id fun x => { x with
                status := .running
                nextEligibleAt := none }
              match startStep E hook s scan step now with
              | (s,none) => (s.updateScan id refreshSummary,.orphaned)
              | (s,some result) => match afterStart s scan step now result with
                | (s,some advance) => (s,advance)
                | (s,none) => advanceLoop s id now starts

end Executor

/-- Hooks, from the scans that are being advanced. -/
abbrev Hooks := List ℕ → Hook

section Hooks
variable (E : Env)

/-- `Number(options.maxStartsPerTick) || 5` -/
def startsPerTick (requested : ℕ) : ℕ := if requested = 0 then 5 else requested

def advanceScan (hooks : Hooks) (held : List ℕ) (s : Store) (tenantId id : ℕ) (now : ℤ)
    (requested : ℕ) : Store × Advance :=
  match s.validationScans.find? fun x => x.id == id && x.tenantId == tenantId with
  | none => (s,.absent)
  | some scan =>
      if held.contains id then (s,.reentrant)
      else if !scan.status.active then (s,.inactive)
      else if leaseHeldByOther scan now then (s,.leased)
      else advanceLoop E (hooks (id::held)) s id now (startsPerTick requested)

def advanceScanForRun (hooks : Hooks) (held : List ℕ) (s : Store) (run : TestRun) : Store :=
  match run.scanId with
  | none => s
  | some id => (advanceScan E hooks held s run.tenantId id (E.clock s.tick) 0).1

/-- What the hook of entry path comparisons does with runs. -/
def comparisonAct (hook : Hook) (s : Store) : HookAct → Store
  | .start now body => (startTestRun E hook s now body StartOptions.none).1
  | .cancel tenantId runId => (cancelTestRun hook s tenantId runId).1

def comparisonActs (hook : Hook) (s : Store) (acts : List HookAct) : Store :=
  acts.foldl (comparisonAct E hook) s

/-- The registered hooks, nested at most so deep. Comparisons act before or after the scan is
advanced, whichever was registered first. -/
def hooks : ℕ → Hooks
  | 0,_,s,_ => s
  | n+1,held,s,run =>
      let before := E.acts s.tick
      let s := comparisonActs E (hooks n held) (nextTick s) before
      let s := advanceScanForRun E (hooks n) held s run
      let after := E.acts s.tick
      comparisonActs E (hooks n held) (nextTick s) after

end Hooks

end AstraNull.ValidationScans

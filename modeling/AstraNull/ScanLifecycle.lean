import Mathlib
import AstraNull.Tables
import AstraNull.RuntimeStore
import AstraNull.TestRuns
import AstraNull.Schedules
import AstraNull.ScanPlanning
import AstraNull.ValidationScans

/-!
# Creating, dispatching, patching and cancelling scans

The requests of `services/validationScans.mjs`. A recurring scan has one successor: it is
created when the scan is dispatched or cancelled, unless an occurrence of the same series at the
same instant is already stored.
-/
namespace AstraNull.ScanLifecycle
open RuntimeStore TestRuns Schedules ScanPlanning ValidationScans

def liveTarget (s : Store) (tenantId id : ℕ) : Option Target :=
  s.targets.find? fun t => t.id == id && t.tenantId == tenantId && !t.archived

def targetsForGroup (s : Store) (tenantId targetGroupId : ℕ) : List Target :=
  s.targets.filter fun t => t.tenantId == tenantId && t.targetGroupId == targetGroupId && !t.archived

structure PlanInput where
  targetGroupId : Option ℕ
  targetId : Option ℕ
  targetIds : Option (List ℕ)
  checkIds : List ℕ

structure Plan where
  group : TargetGroup
  targets : List Target
  checkIds : List ℕ
  steps : List PlannedStep

def requestedTargets (s : Store) (tenantId groupId : ℕ) : Option (List ℕ) → Option (List Target)
  | some ids => ids.mapM (liveTarget s tenantId)
  | none => some (targetsForGroup s tenantId groupId)

def buildPlan (s : Store) (choice : PlanChoice) (tenantId : ℕ) (input : PlanInput) :
    Except Denial Plan :=
  let firstId := input.targetId.or (input.targetIds.bind List.head?)
  let selected := firstId.bind (liveTarget s tenantId)
  match (input.targetGroupId.or (selected.map Target.targetGroupId)).bind
      (activeGroup s tenantId) with
  | none => .error ⟨"target_group_not_found",404⟩
  | some group => match choice.checks with
    | some denial => .error denial
    | none => match requestedTargets s tenantId group.id input.targetIds with
      | none => .error ⟨"target_not_found",404⟩
      | some targets =>
          if targets.any fun t => (activeGroup s tenantId t.targetGroupId).isNone then
            .error ⟨"target_not_found",404⟩
          else if input.targetIds.isSome && targets.head?.any (·.targetGroupId != group.id) then
            .error ⟨"target_selection_conflict",400⟩
          else if input.targetId.any fun id => !targets.any (·.id == id) then
            .error ⟨"target_not_found",404⟩
          else match planScanSteps choice input.checkIds targets input.targetId with
            | .error e => .error ⟨e.code,e.status⟩
            | .ok plan =>
                if input.targetId.isSome ∧ plan.excluded ≠ [] then
                  if plan.excluded.head?.map Excluded.reason ≠ some "target_kind_not_supported" then
                    .error ⟨"check_requires_additional_input",400⟩
                  else .error ⟨"target_kind_not_supported",400⟩
                else if plan.steps = [] then .error ⟨"scan_has_no_runnable_steps",400⟩
                else .ok {
                  group := group
                  targets := match input.targetId with
                    | some id => targets.filter fun t => t.id == id
                    | none => targets
                  checkIds := input.checkIds
                  steps := plan.steps }

def pendingStep (id : ℕ) (step : PlannedStep) : ScanStep where
  id := id
  checkId := step.checkId
  targetId := step.targetId
  status := .pending
  testRunId := none
  errorCode := none
  skipReason := none
  eligibleAt := none
  attempts := 0

/-- Steps with fresh identifiers from the given one on. -/
def materializeSteps (firstId : ℕ) (steps : List PlannedStep) : List ScanStep :=
  steps.zipIdx.map fun p => pendingStep (firstId+p.2) p.1

def planTargetIds (plan : Plan) : List ℕ := plan.targets.map Target.id

def targetPolicyBindings (plan : Plan) : List (ℕ × ℕ) :=
  plan.targets.map fun t => (t.id,t.targetGroupId)

/-- The groups a scan runs in. -/
def scanGroups (x : Scan) : List ℕ := x.targetGroupId::x.planBindings.map Prod.snd

def activeScanForGroup (s : Store) (tenantId targetGroupId : ℕ) (excludeId : Option ℕ)
    (targetId : ℕ) : Option Scan :=
  s.validationScans.find? fun x => x.tenantId == tenantId &&
    (scanGroups x).contains targetGroupId && some x.id != excludeId &&
    scanIncludesTarget x targetId targetGroupId && x.status.active

/-- An active run or another active scan of the target in the group. -/
def occupied (s : Store) (tenantId targetGroupId targetId : ℕ) (excludeId : Option ℕ) : Bool :=
  (activeRunForGroup s tenantId targetGroupId targetId).isSome ||
    (activeScanForGroup s tenantId targetGroupId excludeId targetId).isSome

section
variable (E : Env) (zone : Zone) (depth : ℕ)

def runScan (s : Store) (tenantId id : ℕ) (now : ℤ) (requested : ℕ) : Store :=
  (advanceScan E (hooks E depth) [] s tenantId id now requested).1

def newScan (s : Store) (tenantId : ℕ) (input : ScanInput) (plan : Plan) : Scan where
  id := s.nextId
  tenantId := tenantId
  targetGroupId := plan.group.id
  targetId := input.targetId.join
  status := if input.scheduledFor.join.isSome then .scheduled else .pending
  checkIds := plan.checkIds
  planTargetIds := planTargetIds plan
  planBindings := targetPolicyBindings plan
  steps := materializeSteps (s.nextId+1) plan.steps
  scheduledFor := input.scheduledFor.join
  recurrence := input.recurrence.join
  seriesId := s.nextId
  occurrenceKey := input.scheduledFor.join.map (scanOccurrenceKey tenantId s.nextId)
  occurrenceIndex := 0
  previousScanId := none
  nextScanId := none
  lease := none
  nextEligibleAt := none
  abortReason := none
  summary := computeScanSummary (materializeSteps (s.nextId+1) plan.steps)
  revision := 1

def pushScan (s : Store) (x : Scan) : Store :=
  { s with
    validationScans := s.validationScans++[x]
    nextId := s.nextId+1+x.steps.length }

def createValidationScan (s : Store) (now : ℤ) (tenantId : ℕ) (body : ScanBody) :
    Store × Except Denial ℕ :=
  match normalizeScanInput body now false with
  | .error e => (s,.error ⟨e.code,e.status⟩)
  | .ok input =>
      let choice := E.plan s.tick
      let s := nextTick s
      match buildPlan s choice tenantId {
          targetGroupId := input.targetGroupId.join
          targetId := input.targetId.join
          targetIds := input.targetIds
          checkIds := input.checkIds.getD [] } with
      | .error denial => (s,.error denial)
      | .ok plan =>
          if input.scheduledFor.join.isNone &&
              plan.targets.any fun t => occupied s tenantId t.targetGroupId t.id none then
            (s,.error ⟨"concurrent_scan_blocked",409⟩)
          else
            let scan := newScan s tenantId input plan
            let s := pushScan s scan
            if scan.status = .pending then (runScan E depth s tenantId scan.id now 0,.ok scan.id)
            else (s,.ok scan.id)

def successor (scan : Scan) (firstId : ℕ) (nextAt : ℤ) : Scan :=
  let steps := materializeSteps (firstId+1) (scan.steps.map fun p => ⟨p.checkId,p.targetId⟩)
  { scan with
    id := firstId
    status := .scheduled
    steps := steps
    scheduledFor := some nextAt
    occurrenceKey := some (scanOccurrenceKey scan.tenantId scan.seriesId nextAt)
    occurrenceIndex := scan.occurrenceIndex+1
    previousScanId := some scan.id
    nextScanId := none
    abortReason := none
    lease := none
    nextEligibleAt := none
    revision := 1
    summary := computeScanSummary steps }

def linkNext (nextId : ℕ) (x : Scan) : Scan := { x with nextScanId := some nextId }

/-- An occurrence of the same key is taken as the successor whatever its status is. Nothing when
the call throws. -/
def createNextOccurrence (s : Store) (id : ℕ) (now : ℤ) : Option Store :=
  match s.findScan id with
  | none => some s
  | some scan => match scan.recurrence with
    | none => some s
    | some recurrence =>
        if scan.nextScanId.isSome then some s
        else match nextScanOccurrenceAfter zone recurrence (scan.scheduledFor.getD now) now with
          | none => none
          | some nextAt =>
              let key := scanOccurrenceKey scan.tenantId scan.seriesId nextAt
              match s.validationScans.find? fun x =>
                  x.tenantId == scan.tenantId && x.occurrenceKey == some key with
              | some next => some (s.updateScan id (linkNext next.id))
              | none =>
                  let next := successor scan s.nextId nextAt
                  some ((pushScan s next).updateScan id (linkNext next.id))

def scheduleDenied (code : String) (x : Scan) : Scan :=
  refreshSummary (skipRemainingSteps ("schedule_denied:"++code) (releaseLease { x with
    status := .denied
    abortReason := some code }))

/-- The check of one group of the plan. -/
def groupDenial (s : Store) (scan : Scan) (groupId : ℕ) : Option String :=
  if (activeGroup s scan.tenantId groupId).isNone then some "target_execution_policy_unavailable"
  else if (scanTargetIds scan).any fun t => occupied s scan.tenantId groupId t (some scan.id) then
    some "concurrent_run_blocked"
  else none

/-- The gates of a due occurrence after its successor was created. -/
def dispatchGates (s : Store) (scan : Scan) (choice : PlanChoice) : Except String Plan :=
  if isKillSwitchActiveForTenant s scan.tenantId then .error "kill_switch_active"
  else if s.suspendedTenants.contains scan.tenantId then .error "tenant_suspended"
  else if (activeGroup s scan.tenantId scan.targetGroupId).isNone then
    .error "target_group_not_found"
  else match (scanGroups scan).eraseDups.findSome? (groupDenial s scan) with
    | some code => .error code
    | none => match buildPlan s choice scan.tenantId {
          targetGroupId := some scan.targetGroupId
          targetId := scan.targetId
          targetIds := some scan.planTargetIds
          checkIds := scan.checkIds } with
      | .error denial => .error denial.error
      | .ok plan => .ok plan

/-- Without an exact target the steps are planned anew. -/
def dispatched (firstId : ℕ) (plan : Plan) (x : Scan) : Scan :=
  let x := if x.targetId.isSome then x
    else { x with
      steps := materializeSteps firstId plan.steps
      planTargetIds := planTargetIds plan
      planBindings := targetPolicyBindings plan }
  refreshSummary (releaseLease { x with status := .running })

inductive Dispatch where
  | notScheduled
  | leased
  | threw
  | denied (code : String)
  | dispatched
deriving DecidableEq

def dispatchScheduledScan (s : Store) (id : ℕ) (now : ℤ) (requested : ℕ) : Store × Dispatch :=
  match s.findScan id with
  | none => (s,.notScheduled)
  | some scan =>
      if scan.status ≠ .scheduled then (s,.notScheduled)
      else if leaseHeldByOther scan now then (s,.leased)
      else
        let token := s.nextId
        let s := (s.reserve 1).updateScan id (claimLease now token)
        match createNextOccurrence zone s id now with
        | none => (s,.threw)
        | some s =>
            let choice := E.plan s.tick
            let s := nextTick s
            match dispatchGates s scan choice with
            | .error code => (s.updateScan id (scheduleDenied code),.denied code)
            | .ok plan =>
                let firstId := s.nextId
                let s := s.reserve plan.steps.length
                let s := s.updateScan id (dispatched firstId plan)
                (runScan E depth s scan.tenantId id now requested,.dispatched)

def isDue (now : ℤ) (x : Scan) : Bool :=
  x.status == .scheduled && x.scheduledFor.any (· ≤ now)

def dueBefore (x y : Scan) : Bool :=
  x.scheduledFor.getD 0 < y.scheduledFor.getD 0 ||
    (x.scheduledFor.getD 0 == y.scheduledFor.getD 0 && x.id ≤ y.id)

/-- `Math.max(1, Math.min(100, Number(options.limit) || 25))` -/
def dueLimit (requested : ℕ) : ℕ := if requested = 0 then 25 else min 100 requested

def listDueValidationScans (s : Store) (tenantId : ℕ) (now : ℤ) (limit : ℕ) : List Scan :=
  ((s.validationScans.filter fun x => x.tenantId == tenantId && isDue now x &&
    !leaseHeldByOther x now).mergeSort dueBefore).take (dueLimit limit)

/-- An exception releases the lease of the scan and the next one is dispatched. -/
def dispatchDue (s : Store) (now : ℤ) (requested id : ℕ) : Store :=
  match dispatchScheduledScan E zone depth s id now requested with
  | (s,.threw) => s.updateScan id releaseLease
  | (s,_) => s

def dispatchDueValidationScans (s : Store) (now : ℤ) (tenantId limit requested : ℕ) : Store :=
  ((listDueValidationScans s tenantId now limit).map Scan.id).foldl
    (fun s id => dispatchDue E zone depth s now requested id) s

def findTenantScan (s : Store) (tenantId id : ℕ) : Option Scan :=
  s.validationScans.find? fun x => x.id == id && x.tenantId == tenantId

/-- Reading a scan dispatches it when it is due and advances it when it is active. -/
def readPathAdvance (s : Store) (now : ℤ) (scan : Scan) (mayAdvance : Bool) : Store :=
  if !mayAdvance then s
  else if isDue now scan then (dispatchScheduledScan E zone depth s scan.id now 0).1
  else if scan.status.active then runScan E depth s scan.tenantId scan.id now 0
  else s

def getValidationScan (s : Store) (now : ℤ) (tenantId id : ℕ) (mayAdvance : Bool) : Store :=
  match findTenantScan s tenantId id with
  | none => s
  | some scan => readPathAdvance E zone depth s now scan mayAdvance

/-- The request with what it does not say taken from the scan. -/
def mergeInput (scan : Scan) (input : ScanInput) : PlanInput where
  targetGroupId := input.targetGroupId.join.or (some scan.targetGroupId)
  targetId := if input.targetIds.isSome then input.targetId.join
    else input.targetId.getD scan.targetId
  targetIds := input.targetIds.or (match input.targetId with
    | some (some id) => some [id]
    | some none => none
    | none => some scan.planTargetIds)
  checkIds := input.checkIds.getD scan.checkIds

def patched (firstId : ℕ) (plan : Plan) (merged : PlanInput) (scheduledFor : ℤ)
    (recurrence : Option Recurrence) (x : Scan) : Scan :=
  let x := { x with
    targetGroupId := plan.group.id
    targetId := merged.targetId
    checkIds := merged.checkIds
    scheduledFor := some scheduledFor
    recurrence := recurrence
    steps := materializeSteps firstId plan.steps
    planTargetIds := planTargetIds plan
    planBindings := targetPolicyBindings plan
    occurrenceKey := some (scanOccurrenceKey x.tenantId x.seriesId scheduledFor)
    revision := x.revision+1 }
  refreshSummary x

def patchValidationScan (s : Store) (now : ℤ) (tenantId id : ℕ) (body : ScanBody) :
    Store × Except Denial Unit :=
  match findTenantScan s tenantId id with
  | none => (s,.error ⟨"not_found",404⟩)
  | some scan =>
      if scan.status ≠ .scheduled ∨ leaseHeldByOther scan now = true then
        (s,.error ⟨"scan_not_editable",409⟩)
      else match normalizeScanInput body now true with
        | .error e => (s,.error ⟨e.code,e.status⟩)
        | .ok input =>
            let merged := mergeInput scan input
            match input.scheduledFor.getD scan.scheduledFor with
            | none => (s,.error ⟨"invalid_validation_scan",400⟩)
            | some scheduledFor =>
                let choice := E.plan s.tick
                let s := nextTick s
                match buildPlan s choice tenantId merged with
                | .error denial => (s,.error denial)
                | .ok plan =>
                    let recurrence := input.recurrence.getD scan.recurrence
                    let firstId := s.nextId
                    let s := s.reserve plan.steps.length
                    (s.updateScan id (patched firstId plan merged scheduledFor recurrence),.ok ())

def cancelStep (p : ScanStep) : ScanStep := { p with status := .cancelled }

def cancelScanRow (x : Scan) : Scan :=
  releaseLease { x with
    status := .cancelled
    nextEligibleAt := none }

def stopSeries (x : Scan) : Scan := { x with recurrence := none }

/-- The run is cancelled when it is active; a run that was cancelled before is not active. -/
def cancelRun (s : Store) (tenantId runId : ℕ) : Store :=
  match findTenantRun s tenantId runId with
  | none => s
  | some run =>
      if run.status.active then (cancelTestRun (hooks E depth []) s tenantId runId).1 else s

def cancelActiveStep (scan : Scan) (s : Store) (stepId : ℕ) : Store :=
  match (s.findScan scan.id).bind fun x => x.steps.find? fun p => p.id == stepId with
  | none => s
  | some p =>
      if !p.status.active then s
      else
        let s := match p.testRunId with
          | none => s
          | some runId => cancelRun E depth s scan.tenantId runId
        s.updateScan scan.id fun x => x.updateStep stepId cancelStep

/-- A run of the scan that no active step names. -/
def cancelOrphan (scan : Scan) (s : Store) (runId : ℕ) : Store :=
  match s.findRun runId with
  | none => s
  | some run =>
      if !run.status.active then s
      else
        let s := cancelRun E depth s scan.tenantId runId
        match run.scanStepId with
        | none => s
        | some stepId => s.updateScan scan.id fun x => x.updateStep stepId fun p =>
            if p.status = .cancelled then p else bindRun runId (cancelStep p)

def cancelScanWork (s : Store) (scan : Scan) : Store :=
  let s := (scan.steps.map ScanStep.id).foldl (cancelActiveStep E depth scan) s
  let runs := s.testRuns.filter fun r => r.tenantId == scan.tenantId && r.scanId == some scan.id
  let s := (runs.map TestRun.id).foldl (cancelOrphan E depth scan) s
  s.updateScan scan.id (skipRemainingSteps "scan_cancelled")

/-- The scheduled scans of the series, and the one that the cancelled scan names. -/
def upcoming (s : Store) (scan : Scan) : List Scan :=
  s.validationScans.filter fun x => x.tenantId == scan.tenantId && x.id != scan.id &&
    x.status == .scheduled && (x.seriesId == scan.seriesId || some x.id == scan.nextScanId)

inductive Cancel where
  | absent
  | notCancellable
  | threw
  | cancelled
deriving DecidableEq

/-- The first argument bounds how deep the scans of a series are cancelled one from another. -/
def cancelValidationScan : ℕ → Store → ℤ → ℕ → ℕ → Bool → Store × Cancel
  | fuel,s,now,tenantId,id,cancelSeries =>
      match findTenantScan s tenantId id with
      | none => (s,.absent)
      | some scan =>
          if !scan.status.cancellable then (s,.notCancellable)
          else
            let s := cancelScanWork E depth (s.updateScan id cancelScanRow) scan
            if cancelSeries && scan.recurrence.isSome then
              let s := s.updateScan id stopSeries
              let s := match fuel with
                | 0 => s
                | fuel+1 => ((upcoming s scan).map Scan.id).foldl
                    (fun s next => (cancelValidationScan fuel s now tenantId next true).1) s
              (s.updateScan id refreshSummary,.cancelled)
            else match createNextOccurrence zone s id now with
              | none => (s,.threw)
              | some s => (s.updateScan id refreshSummary,.cancelled)

end

end AstraNull.ScanLifecycle

import Mathlib
import AstraNull.RuntimeStore
import AstraNull.TestRuns
import AstraNull.Schedules

/-!
# What a scan is planned from

`contracts/validationScanManagement.mjs`: the classes of start denials, the summary and the
status that steps add up to, the next occurrence of a series, and the normalised input of a
request.
-/
namespace AstraNull.ScanPlanning
open RuntimeStore TestRuns Schedules

def maxScanChecks : ℕ := 500

def maxScanSteps : ℕ := 500

def minScheduleLeadMs : ℤ := 60000

def scanLeaseMs : ℤ := 60000

def maxStepStartAttempts : ℕ := 2

def hourMs : ℤ := 3600000

def hourlyCapDenials : List String := ["safe_rate_cap_exceeded","entitlement_limit_exceeded"]

def deferDenials : List String := "safe_min_interval_active"::hourlyCapDenials

def abortDenials : List String :=
  ["safe_window_closed","kill_switch_active","tenant_suspended","target_group_not_found",
    "concurrent_run_blocked","scan_dispatch_invalid"]

def stepDenials : List String :=
  ["soc_gated_check","unknown_check","target_not_found","missing_target_id",
    "target_kind_not_supported","prerequisites_not_met","ownership_not_verified",
    "missing_target_bound_direct_address","event_cap_exceeded","target_binding_changed",
    "test_policy_not_found","test_policy_disabled","test_policy_binding_mismatch"]

inductive DenialClass where
  | defer
  | abort
  | step
  | retry
deriving DecidableEq

def classifyStartDenial (result : Denial) : DenialClass :=
  if result.error = "" then .retry
  else if result.error ∈ deferDenials then .defer
  else if result.error ∈ abortDenials then .abort
  else if result.error ∈ stepDenials then .step
  else if 400 ≤ result.status ∧ result.status < 500 then .step
  else .retry

/-- When a deferred step may retry. The normalised minimum interval of a group is zero seconds,
so a run of the group holds the step back for one second. -/
def deferredStepEligibleAt (code : String) (runs : List TestRun) (tenantId targetGroupId : ℕ)
    (now : ℤ) : ℤ :=
  let tenantRuns := runs.filter fun r => r.tenantId == tenantId
  if code ∈ hourlyCapDenials then
    let oldest := ((tenantRuns.map TestRun.createdAt).filter (now-hourMs ≤ ·)).min?.getD now
    max (now+1000) (oldest+hourMs+1000)
  else
    let latest := ((tenantRuns.filter fun r => r.targetGroupId == targetGroupId).map
      TestRun.createdAt).max?
    latest.getD now+1000

def countSteps (steps : List ScanStep) (p : StepStatus → Bool) : ℕ :=
  steps.countP fun step => p step.status

def computeScanSummary (steps : List ScanStep) : ScanSummary where
  total := steps.length
  pending := countSteps steps (· == .pending)
  deferred := countSteps steps (· == .deferred)
  running := countSteps steps StepStatus.active
  verdicted := countSteps steps (· == .verdicted)
  denied := countSteps steps (· == .denied)
  skipped := countSteps steps (· == .skipped)
  cancelled := countSteps steps (· == .cancelled)

def deriveScanStatus (steps : List ScanStep) : ScanStatus :=
  if steps = [] then .denied
  else if steps.all fun step => step.status.terminal then
    if steps.any fun step => step.status == .verdicted then .completed else .denied
  else .running

/-- A series has no safe windows, so the next slot is that of the cadence. -/
def nextScanOccurrenceAt (zone : Zone) (recurrence : Recurrence) (source : ℤ) : Option ℤ :=
  cadenceFloor zone recurrence.cadence recurrence.timezone source false

/-- One cadence step at a time; the cap and a slot that does not move fall back to `now`. -/
def seekOccurrence (zone : Zone) (recurrence : Recurrence) (now : ℤ) : ℕ → ℤ → Option ℤ
  | 0,_ => nextScanOccurrenceAt zone recurrence now
  | n+1,cursor => do
      let next ← nextScanOccurrenceAt zone recurrence cursor
      if now < next then some next
      else if next ≤ cursor then nextScanOccurrenceAt zone recurrence now
      else seekOccurrence zone recurrence now n next

def nextScanOccurrenceAfter (zone : Zone) (recurrence : Recurrence) (source now : ℤ) : Option ℤ :=
  seekOccurrence zone recurrence now 4000 source

/-- `scanOccurrenceKey` -/
def scanOccurrenceKey (tenantId seriesId : ℕ) (scheduledFor : ℤ) : OccurrenceKey :=
  ⟨tenantId,seriesId,scheduledFor⟩

structure ScanValidationError where
  field : String
  message : String
  code : String
  status : ℕ
deriving DecidableEq

def invalidScan (field message : String) : ScanValidationError :=
  ⟨field,message,"invalid_validation_scan",400⟩

/-- A field may be absent, and where it is nullable it may be null. -/
structure ScanBody where
  targetGroupId : Option (Option ℕ)
  targetId : Option (Option ℕ)
  targetIds : Option (List ℕ)
  checkIds : Option (List ℕ)
  scheduledFor : Option (Option ℤ)
  recurrence : Option (Option Recurrence)

/-- The fields of a partial input that were sent. -/
abbrev ScanInput := ScanBody

def normalizeCheckIds : Option (List ℕ) → Except ScanValidationError (List ℕ)
  | none => .error (invalidScan "check_ids" "check_ids must be a non-empty array of check ids.")
  | some ids =>
      if ids.eraseDups = [] then .error (invalidScan "check_ids" "Select at least one check.")
      else if maxScanChecks < ids.eraseDups.length then
        .error (invalidScan "check_ids" "Select at most 500 checks per scan.")
      else .ok ids.eraseDups

def normalizeTargetIds (targetId : Option ℕ) : List ℕ → Except ScanValidationError (List ℕ)
  | ids =>
      if ids = [] ∨ maxScanSteps < ids.length then
        .error (invalidScan "target_ids"
          "Select one or more declared target IDs within the scan limit.")
      else if targetId.any fun id => decide (ids.eraseDups ≠ [id]) then
        .error (invalidScan "target_ids" "Select an exact target or an explicit domain set.")
      else .ok ids.eraseDups

def normalizeScheduledFor (now : ℤ) : Option ℤ → Except ScanValidationError (Option ℤ)
  | none => .ok none
  | some scheduled =>
      if scheduled < now+minScheduleLeadMs then
        .error (invalidScan "scheduled_for" "scheduled_for must be at least one minute in the future.")
      else .ok (some scheduled)

/-- The value of a field that is looked at when it was sent, or always in a full input. -/
def sent {α : Type} (partialInput : Bool) (value : Option (Option α)) : Option (Option α) :=
  if partialInput then value else some value.join

def normalizeScanInput (body : ScanBody) (now : ℤ) (partialInput : Bool) :
    Except ScanValidationError ScanInput := do
  let targetGroupId := sent partialInput body.targetGroupId
  if targetGroupId = some none ∧ body.targetId.join = none ∧ body.targetIds = none then
    throw (invalidScan "target_ids" "Select a domain or domains.")
  let targetId := sent partialInput body.targetId
  let targetIds ← body.targetIds.mapM (normalizeTargetIds targetId.join)
  let checkIds ← if partialInput && body.checkIds.isNone then pure none
    else some <$> normalizeCheckIds body.checkIds
  let scheduledFor ← (sent partialInput body.scheduledFor).mapM (normalizeScheduledFor now)
  let recurrence := sent partialInput body.recurrence
  if !partialInput && recurrence.join.isSome && scheduledFor.join.isNone then
    throw (invalidScan "recurrence"
      "A recurring scan needs a scheduled_for time for its first occurrence.")
  return {
    targetGroupId := targetGroupId
    targetId := targetId
    targetIds := targetIds
    checkIds := checkIds
    scheduledFor := scheduledFor
    recurrence := recurrence }

structure PlannedStep where
  checkId : ℕ
  targetId : ℕ
deriving DecidableEq

structure Excluded where
  checkId : ℕ
  targetId : ℕ
  reason : String
deriving DecidableEq

/-- Every check on every target, in this order, with the pairs that are left out. -/
def planPairs (checkIds : List ℕ) (targets : List Target) : List PlannedStep :=
  checkIds.flatMap fun c => targets.map fun t => ⟨c,t.id⟩

structure StepPlan where
  steps : List PlannedStep
  excluded : List Excluded

def planScanSteps (choice : PlanChoice) (checkIds : List ℕ) (targets : List Target)
    (targetId : Option ℕ) : Except ScanValidationError StepPlan :=
  let inScope := match targetId with
    | none => targets
    | some id => targets.filter fun t => t.id == id
  let pairs := planPairs checkIds inScope
  let steps := pairs.filter fun p => (choice.excluded p.checkId p.targetId).isNone
  let excluded := pairs.filterMap fun p =>
    (choice.excluded p.checkId p.targetId).map fun reason => ⟨p.checkId,p.targetId,reason⟩
  if maxScanSteps < steps.length then
    .error ⟨"check_ids","A scan may plan at most 500 check/target steps.","scan_too_large",400⟩
  else .ok ⟨steps,excluded⟩

end AstraNull.ScanPlanning

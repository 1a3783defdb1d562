import Mathlib
import AstraNull.Tables
import AstraNull.RuntimeStore
import AstraNull.TestRuns
import AstraNull.Schedules

/-!
# Test policies and their dispatches

`services/testPolicies.mjs`: a worker leases the policies that are due, claims the start of each
dispatch, starts a run with it and settles the dispatch with the outcome. Each of the four is one
request.
-/
namespace AstraNull.TestPolicies
open RuntimeStore TestRuns Schedules

def updatePolicy (s : Store) (id : ℕ) (f : TestPolicy → TestPolicy) : Store :=
  { s with testPolicies := Tables.update (fun p => p.id == id) f s.testPolicies }

def updateDispatch (s : Store) (id : ℕ) (f : PolicyDispatch → PolicyDispatch) : Store :=
  { s with testPolicyDispatches := Tables.update (fun d => d.id == id) f s.testPolicyDispatches }

structure PolicyInput where
  targetGroupId : ℕ
  targetId : ℕ
  checkId : ℕ
  cadence : PolicyCadence
  timezone : String
  safeWindows : List SafeWindow
  state : PolicyState
  enabled : Bool
  maxConcurrentRuns : ℕ

/-- The record before its first slot is known. -/
def newPolicy (id tenantId : ℕ) (input : PolicyInput) : TestPolicy where
  id := id
  tenantId := tenantId
  targetGroupId := input.targetGroupId
  targetId := input.targetId
  checkId := input.checkId
  cadence := input.cadence
  timezone := input.timezone
  safeWindows := input.safeWindows
  state := input.state
  enabled := input.enabled
  archived := false
  maxConcurrentRuns := input.maxConcurrentRuns
  nextRunAt := none
  lease := none
  lastRunId := none

section
variable (zone : Zone)

/-- The catalog's answer on check and target is an argument; so is the normalised input. -/
def createTestPolicy (s : Store) (now : ℤ) (tenantId : ℕ) (input : PolicyInput)
    (catalog : Option Denial) : Store × Except Denial ℕ :=
  if (activeGroup s tenantId input.targetGroupId).isNone then
    (s,.error ⟨"target_group_not_found",404⟩)
  else if (s.targets.find? fun t => t.id == input.targetId && t.tenantId == tenantId &&
      t.targetGroupId == input.targetGroupId && !t.archived).isNone then
    (s,.error ⟨"target_not_found",404⟩)
  else match catalog with
    | some denial => (s,.error denial)
    | none =>
        if s.testPolicies.any fun p => p.tenantId == tenantId &&
            p.targetGroupId == input.targetGroupId && p.targetId == input.targetId &&
            p.checkId == input.checkId && !p.archived then
          (s,.error ⟨"test_policy_exists",409⟩)
        else
          let policy := newPolicy s.nextId tenantId input
          match nextPolicyRunAt zone policy now true with
          | none => (s,.error ⟨"internal",500⟩)
          | some nextRunAt =>
              ({ s.reserve 1 with
                testPolicies := s.testPolicies++[{ policy with nextRunAt := nextRunAt }] },
                .ok policy.id)

/-- The fields of a normalised patch. -/
structure PolicyPatch where
  cadence : PolicyCadence
  timezone : String
  safeWindows : List SafeWindow
  state : PolicyState
  enabled : Bool
  maxConcurrentRuns : ℕ

def withPatch (patch : PolicyPatch) (p : TestPolicy) : TestPolicy :=
  { p with
    cadence := patch.cadence
    timezone := patch.timezone
    safeWindows := patch.safeWindows
    state := patch.state
    enabled := patch.enabled
    maxConcurrentRuns := patch.maxConcurrentRuns }

/-- A field that the schedule depends on is changed. -/
def reschedules (patch : PolicyPatch) (p : TestPolicy) : Bool :=
  decide (p.cadence ≠ patch.cadence ∨ p.safeWindows ≠ patch.safeWindows ∨
    p.timezone ≠ patch.timezone ∨ p.state ≠ patch.state ∨ p.enabled ≠ patch.enabled)

/-- A new schedule drops the lease. An exception leaves the fields written. -/
def patchTestPolicy (s : Store) (now : ℤ) (tenantId id : ℕ) (patch : PolicyPatch) : Store :=
  match activePolicy s tenantId id with
  | none => s
  | some policy =>
      let s := updatePolicy s id (withPatch patch)
      if !reschedules patch policy then s
      else match nextPolicyRunAt zone (withPatch patch policy) now true with
        | none => s
        | some nextRunAt => updatePolicy s id fun p => { p with
            nextRunAt := nextRunAt
            lease := none }

def archived (p : TestPolicy) : TestPolicy :=
  { p with
    state := .archived
    enabled := false
    archived := true
    nextRunAt := none
    lease := none }

def archiveTestPolicy (s : Store) (tenantId id : ℕ) : Store :=
  match activePolicy s tenantId id with
  | none => s
  | some _ => updatePolicy s id archived

def leaseExpired (lease : Option Lease) (now : ℤ) : Bool := lease.all fun l => l.expiresAt ≤ now

def isDuePolicy (now : ℤ) (p : TestPolicy) : Bool :=
  !p.archived && p.state == .active && p.enabled &&
    (match p.cadence with
      | .timed _ => true
      | _ => false) &&
    p.nextRunAt.any (· ≤ now) && leaseExpired p.lease now

def listDueTestPolicies (s : Store) (tenantId : ℕ) (now : ℤ) (limit : ℕ) : List TestPolicy :=
  ((s.testPolicies.filter fun p => p.tenantId == tenantId && isDuePolicy now p).mergeSort
    fun p q => p.nextRunAt.getD 0 < q.nextRunAt.getD 0 ||
      (p.nextRunAt.getD 0 == q.nextRunAt.getD 0 && p.id ≤ q.id)).take
    (if limit = 0 then 25 else min 100 limit)

/-- What a worker holds. -/
structure PolicyLease where
  tenantId : ℕ
  policyId : ℕ
  targetGroupId : ℕ
  targetId : ℕ
  checkId : ℕ
  dispatchId : ℕ
  idempotencyKey : DispatchKey
  leaseToken : ℕ
deriving DecidableEq

def newDispatch (id : ℕ) (key : DispatchKey) : PolicyDispatch where
  id := id
  tenantId := key.tenantId
  policyId := key.policyId
  scheduledFor := key.scheduledFor
  idempotencyKey := key
  state := .leased
  lease := none
  startClaimed := false
  runId := none
  errorCode := none

def leaseWith (token : ℕ) (expiresAt : ℤ) (d : PolicyDispatch) : PolicyDispatch :=
  { d with
    state := .leased
    lease := some ⟨token,expiresAt⟩ }

/-- `Math.max(1_000, Math.min(15 * 60_000, Number(options.leaseMs) || 60_000))` -/
def leaseDuration (requested : ℤ) : ℤ :=
  max 1000 (min 900000 (if requested = 0 then 60000 else requested))

/-- One policy of the due list. -/
def leasePolicy (s : Store) (now : ℤ) (leaseMs : ℤ) (tenantId policyId : ℕ) :
    Store × Option PolicyLease :=
  match activePolicy s tenantId policyId with
  | none => (s,none)
  | some policy => match policy.nextRunAt with
    | none => (s,none)
    | some scheduledFor =>
        let key : DispatchKey := ⟨tenantId,policy.id,scheduledFor⟩
        let existing := s.testPolicyDispatches.find? fun d =>
          d.tenantId == tenantId && d.idempotencyKey == key
        if existing.any fun d => !(d.state == .leased && leaseExpired d.lease now) then (s,none)
        else
          let token := s.nextId
          let expiresAt := now+leaseDuration leaseMs
          let s := s.reserve 1
          let (s,dispatchId) := match existing with
            | some d => (s,d.id)
            | none => ({ s.reserve 1 with
                testPolicyDispatches := s.testPolicyDispatches++[newDispatch s.nextId key] },s.nextId)
          let s := updateDispatch s dispatchId (leaseWith token expiresAt)
          let s := updatePolicy s policy.id fun p => { p with lease := some ⟨token,expiresAt⟩ }
          (s,some {
            tenantId := tenantId
            policyId := policy.id
            targetGroupId := policy.targetGroupId
            targetId := policy.targetId
            checkId := policy.checkId
            dispatchId := dispatchId
            idempotencyKey := key
            leaseToken := token })

def leaseDueTestPolicies (s : Store) (now leaseMs : ℤ) (tenantId limit : ℕ) :
    Store × List PolicyLease :=
  ((listDueTestPolicies s tenantId now limit).map TestPolicy.id).foldl
    (fun (acc : Store × List PolicyLease) id =>
      let (s,lease) := leasePolicy acc.1 now leaseMs tenantId id
      (s,acc.2++lease.toList)) (s,[])

def findLeasedDispatch (s : Store) (lease : PolicyLease) : Option PolicyDispatch :=
  s.testPolicyDispatches.find? fun d => d.id == lease.dispatchId && d.policyId == lease.policyId &&
    d.tenantId == lease.tenantId

def holdsLease (lease : Option Lease) (token : ℕ) (now : ℤ) : Bool :=
  lease.any fun l => l.token == token && now < l.expiresAt

def claimPolicyDispatchStart (s : Store) (now : ℤ) (lease : PolicyLease) :
    Store × Except Denial Unit :=
  match findLeasedDispatch s lease with
  | none => (s,.error ⟨"policy_dispatch_not_found",404⟩)
  | some dispatch =>
      if dispatch.idempotencyKey ≠ lease.idempotencyKey then
        (s,.error ⟨"policy_dispatch_key_mismatch",409⟩)
      else if dispatch.startClaimed then
        if dispatch.state = .leased ∧ holdsLease dispatch.lease lease.leaseToken now then (s,.ok ())
        else (s,.error ⟨"policy_dispatch_start_claimed",409⟩)
      else if ¬ (dispatch.state = .leased ∧ holdsLease dispatch.lease lease.leaseToken now) then
        (s,.error ⟨"policy_lease_lost",409⟩)
      else match activePolicy s lease.tenantId lease.policyId with
        | none => (s,.error ⟨"policy_lease_lost",409⟩)
        | some policy =>
            if policy.state ≠ .active ∨ policy.enabled = false ∨
                holdsLease policy.lease lease.leaseToken now = false then
              (s,.error ⟨"policy_lease_lost",409⟩)
            else (updateDispatch s dispatch.id fun d => { d with startClaimed := true },.ok ())

/-- What a worker settles a dispatch with. -/
inductive Settlement where
  | dispatched (runId : ℕ)
  | skipped (errorCode : String)
  | failed (errorCode : String)
deriving DecidableEq

def Settlement.state : Settlement → DispatchState
  | .dispatched _ => .dispatched
  | .skipped _ => .skipped
  | .failed _ => .failed

def Settlement.runId : Settlement → Option ℕ
  | .dispatched runId => some runId
  | .skipped _ => none
  | .failed _ => none

def Settlement.errorCode : Settlement → Option String
  | .dispatched _ => none
  | .skipped code => some code
  | .failed code => some code

/-- The run belongs to the dispatch and to the policy as it is now. -/
def boundRun (s : Store) (lease : PolicyLease) (dispatch : PolicyDispatch) (runId : ℕ) : Bool :=
  s.testRuns.any fun r => r.id == runId && r.tenantId == lease.tenantId &&
    r.policyId == some lease.policyId && r.policyDispatchId == some dispatch.id &&
    (activePolicy s lease.tenantId lease.policyId).any fun p =>
      r.targetGroupId == p.targetGroupId && r.targetId == some p.targetId && r.checkId == p.checkId

def settled (settlement : Settlement) (d : PolicyDispatch) : PolicyDispatch :=
  { d with
    state := settlement.state
    runId := settlement.runId
    errorCode := settlement.errorCode
    lease := none }

def completePolicyDispatch (s : Store) (lease : PolicyLease) (settlement : Settlement) :
    Store × Except Denial Unit :=
  match findLeasedDispatch s lease with
  | none => (s,.error ⟨"policy_dispatch_not_found",404⟩)
  | some dispatch =>
      if dispatch.idempotencyKey ≠ lease.idempotencyKey then
        (s,.error ⟨"policy_dispatch_key_mismatch",409⟩)
      else if settlement.runId.any fun runId => !boundRun s lease dispatch runId then
        (s,.error ⟨"policy_run_binding_mismatch",409⟩)
      else if dispatch.state ≠ .leased then
        if dispatch.state = settlement.state ∧ dispatch.runId = settlement.runId ∧
            dispatch.errorCode = settlement.errorCode then (s,.ok ())
        else (s,.error ⟨"policy_dispatch_already_settled",409⟩)
      else if dispatch.lease.map Lease.token ≠ some lease.leaseToken then
        (s,.error ⟨"policy_lease_lost",409⟩)
      else if dispatch.startClaimed = false then
        (s,.error ⟨"policy_dispatch_start_not_claimed",409⟩)
      else match activePolicy s lease.tenantId lease.policyId with
        | none => (s,.error ⟨"policy_lease_lost",409⟩)
        | some policy =>
            if policy.lease.map Lease.token ≠ some lease.leaseToken then
              (s,.error ⟨"policy_lease_lost",409⟩)
            else
              let s := updateDispatch s dispatch.id (settled settlement)
              match nextPolicyRunAt zone policy dispatch.scheduledFor false with
              | none => (s,.error ⟨"internal",500⟩)
              | some nextRunAt =>
                  (updatePolicy s policy.id fun p => { p with
                    nextRunAt := nextRunAt
                    lastRunId := settlement.runId.or p.lastRunId
                    lease := none },.ok ())

end

def dispatchBody (lease : PolicyLease) : StartBody where
  tenantId := lease.tenantId
  targetGroupId := lease.targetGroupId
  targetId := some lease.targetId
  checkId := lease.checkId
  policyId := some lease.policyId

def dispatchOptions (lease : PolicyLease) : StartOptions where
  scanDispatch := none
  policyDispatch := some ⟨lease.dispatchId,lease.leaseToken,lease.idempotencyKey⟩
  policyEvent := false

end AstraNull.TestPolicies

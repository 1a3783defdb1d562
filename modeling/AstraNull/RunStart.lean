import Mathlib

/-!
# Starting a run

`startTestRun` of `testRuns.mjs` in the order of its effects. Everything before the run is
stored only reads, apart from the audit entries of a denial. From then on each audit entry and
each stored row is written through to the file of the store, and a write that fails is an
exception: one that is raised while the run is stored leaves it behind, because only refusals
and the building of the signed job are rolled back.

What a gate answers is part of the call; the gates only read.
-/
namespace AstraNull.RunStart

/-- A program returns a value or stops, and what it wrote stays either way. -/
def Program (σ ε α : Type) : Type := σ → Except ε α × σ

namespace Program

section
variable {σ ε α β : Type}

instance : Monad (Program σ ε) where
  pure a := fun s => (.ok a,s)
  bind x f := fun s => match x s with
    | (.ok a,s') => f a s'
    | (.error e,s') => (.error e,s')

def stop (e : ε) : Program σ ε α := fun s => (.error e,s)

def update (f : σ → σ) : Program σ ε Unit := fun s => (.ok (),f s)

def current : Program σ ε σ := fun s => (.ok s,s)

/-- `try` and `catch`. -/
def attempt (x : Program σ ε α) (handler : ε → Program σ ε α) : Program σ ε α := fun s =>
  match x s with
  | (.ok a,s') => (.ok a,s')
  | (.error e,s') => handler e s'

/-- `if` without `else`. -/
def onlyIf (b : Bool) (x : Program σ ε Unit) : Program σ ε Unit := if b then x else pure ()

theorem onlyIf_true (x : Program σ ε Unit) : onlyIf true x = x := rfl

@[simp] theorem pure_apply (a : α) (s : σ) : (pure a : Program σ ε α) s = (.ok a,s) := rfl

@[simp] theorem stop_apply (e : ε) (s : σ) : (stop e : Program σ ε α) s = (.error e,s) := rfl

@[simp] theorem update_apply (f : σ → σ) (s : σ) :
    (update f : Program σ ε Unit) s = (.ok (),f s) := rfl

@[simp] theorem current_apply (s : σ) : (current : Program σ ε σ) s = (.ok s,s) := rfl

theorem bind_apply (x : Program σ ε α) (f : α → Program σ ε β) (s : σ) :
    (x >>= f) s = match x s with
      | (.ok a,t) => f a t
      | (.error e,t) => (.error e,t) := rfl

theorem bind_ok {x : Program σ ε α} {f : α → Program σ ε β} {s t : σ} {a : α}
    (h : x s = (.ok a,t)) : (x >>= f) s = f a t := by
  rw [bind_apply,h]

theorem bind_error {x : Program σ ε α} {f : α → Program σ ε β} {s t : σ} {e : ε}
    (h : x s = (.error e,t)) : (x >>= f) s = (.error e,t) := by
  rw [bind_apply,h]

theorem attempt_ok {x : Program σ ε α} {handler : ε → Program σ ε α} {s t : σ} {a : α}
    (h : x s = (.ok a,t)) : attempt x handler s = (.ok a,t) := by
  unfold attempt
  rw [h]

theorem attempt_error {x : Program σ ε α} {handler : ε → Program σ ε α} {s t : σ} {e : ε}
    (h : x s = (.error e,t)) : attempt x handler s = handler e t := by
  unfold attempt
  rw [h]

/-- A program that only reads when it returns, and keeps `view` of the state when it stops. -/
structure Reads {ρ : Type} (view : σ → ρ) (x : Program σ ε α) : Prop where
  returned : ∀ {s t a},x s = (.ok a,t) → t = s
  stopped : ∀ {s t e},x s = (.error e,t) → view t = view s

variable {ρ : Type} {view : σ → ρ}

theorem Reads.pure (a : α) : Reads view (Pure.pure a : Program σ ε α) :=
  ⟨fun h => (Prod.mk.inj h).2.symm,fun h => absurd (Prod.mk.inj h).1 (by simp)⟩

theorem Reads.bind {x : Program σ ε α} {f : α → Program σ ε β} (hx : Reads view x)
    (hf : ∀ a,Reads view (f a)) : Reads view (x >>= f) := by
  constructor
  · intro s t b h
    rcases hr : x s with ⟨r,u⟩
    cases r with
    | error e =>
        rw [bind_error hr] at h
        cases (Prod.mk.inj h).1
    | ok a =>
        rw [bind_ok hr] at h
        exact ((hf a).returned h).trans (hx.returned hr)
  · intro s t e h
    rcases hr : x s with ⟨r,u⟩
    cases r with
    | error e' =>
        rw [bind_error hr] at h
        rw [← (Prod.mk.inj h).2]
        exact hx.stopped hr
    | ok a =>
        rw [bind_ok hr] at h
        rw [(hf a).stopped h,hx.returned hr]

end

end Program

open Program

structure Denial where
  error : String
  status : ℕ
deriving DecidableEq

/-- How a call ends without a result. -/
inductive Stop where
  | returned (denial : Denial)
  | threw
deriving DecidableEq

inductive RunStatus where
  | running
  | collecting
  | verdicted
  | other
deriving DecidableEq

structure Run where
  id : ℕ
  tenantId : ℕ
  checkId : ℕ
  status : RunStatus
  nonceHash : Option String
  probeExternalResult : Option String
  awaitingExternalProbe : Bool
  retestOfFindingId : Option ℕ
deriving DecidableEq

structure ProbeJob where
  id : ℕ
  testRunId : ℕ
  nonceHash : String
deriving DecidableEq

structure Event where
  id : ℕ
  testRunId : ℕ
deriving DecidableEq

structure Verdict where
  testRunId : ℕ
  verdict : String
deriving DecidableEq

structure Finding where
  id : ℕ
  status : String
deriving DecidableEq

structure Lineage where
  tenantId : ℕ
  findingId : ℕ
  testRunId : ℕ
deriving DecidableEq

/-- The lists a failed start has to leave alone. -/
structure Rows where
  testRuns : List Run
  probeJobs : List ProbeJob
  events : List Event
  verdicts : List Verdict
  findings : List Finding
  lineage : List Lineage
deriving DecidableEq

structure Store where
  rows : Rows
  auditLog : List String
  /-- The number of records in the evidence vault. -/
  evidence : ℕ

/-- The places where a start writes the store to its file. -/
inductive Site where
  | lineage
  | started
  | bypassed
  | verdict
  | job
  | jobStored
  | evidence
  | opsVerdict
  | finished
  | denied
  | denialStored
  | published
  | findings
deriving DecidableEq

abbrev Act (α : Type) := Program Store Stop α

/-- The run terminal hooks. They catch their own exceptions and remove no run. -/
structure Hooks where
  run : Store → Store
  keeps : ∀ s,∀ r ∈ s.rows.testRuns,∃ r' ∈ (run s).rows.testRuns,r'.id = r.id

/-- What `registerRetestLineage` does. -/
inductive LineageResult where
  | refused (denial : Denial)
  | replayed
  | registered

/-- The run that was found for the dispatch or the scan step, read by `getTestRun`. -/
structure Replay where
  runId : ℕ
  /-- Its window is over and it has evidence: reading it publishes its verdict. -/
  finalizes : Bool
  /-- The correlated verdict, nothing when the correlation throws. -/
  verdict : Option Verdict
  /-- The findings after the verdict was applied to them. -/
  findings : List Finding → List Finding

structure InlineProbe where
  eventId : ℕ
  nonceHash : String
  externalResult : String

/-- A call: its request, what the gates answer and which writes fail. A gate without an
answer throws. -/
structure Call where
  tenantId : ℕ
  checkId : ℕ
  selection : Option (Option Denial)
  reviewedOperation : Bool
  unknownCheck : Bool
  identityReviewMissing : Bool
  groupMissing : Bool
  killSwitch : Bool
  suspended : Bool
  subscriptionLimit : Option (Option String)
  targetIdMissing : Bool
  targetMissing : Bool
  concurrentRun : Option Bool
  scanBinding : Option (Option Denial)
  policyBinding : Option (Option Denial)
  replay : Option Replay
  compatibility : Option (Option Denial)
  destinationBinding : Option (Option Denial)
  ownershipUnverified : Option Bool
  prerequisitesMissing : Option Bool
  revalidation : Option (Option Denial)
  revalidatedOwnershipUnverified : Option Bool
  dispatchNotReady : Bool
  /-- The role may not write findings, and the denial is audited. -/
  retestForbidden : Bool
  retestGate : Option (Option Denial)
  originBinding : Option (Option Denial)
  retestOfFindingId : Option ℕ
  lineage : LineageResult
  gatesBypassed : Bool
  missingInput : Bool
  opsReadiness : Bool
  signedWorker : Bool
  /-- `safety_constraints.max_events` -/
  maxEvents : Option ℕ
  /-- `buildSignedProbeJobRecord`, nothing when it throws. -/
  signedJob : Option ProbeJob
  /-- The inline probe, nothing when it throws. -/
  probe : Option InlineProbe
  opsVerdict : String
  readinessThrows : Bool
  hooks : Hooks
  /-- The write at a place fails. -/
  fails : Site → Bool

section Start
variable (C : Call)

def persistStore (site : Site) : Act Unit := if C.fails site then stop .threw else pure ()

def audit (site : Site) (action : String) : Act Unit := do
  update fun s => { s with auditLog := s.auditLog++[action] }
  persistStore C site

def denySafeStart {α : Type} (action : String) (denial : Denial) : Act α := do
  audit C .denied action
  persistStore C .denialStored
  stop (.returned denial)

def refuseIf (condition : Option Bool) (denial : Denial) : Act Unit :=
  match condition with
  | none => stop .threw
  | some true => stop (.returned denial)
  | some false => pure ()

def denyIf (condition : Option Bool) (action : String) (denial : Denial) : Act Unit :=
  match condition with
  | none => stop .threw
  | some true => denySafeStart C action denial
  | some false => pure ()

def refuseWith (answer : Option (Option Denial)) : Act Unit :=
  match answer with
  | none => stop .threw
  | some (some denial) => stop (.returned denial)
  | some none => pure ()

def denyWith (answer : Option (Option Denial)) (action : String) : Act Unit :=
  match answer with
  | none => stop .threw
  | some (some denial) => denySafeStart C action denial
  | some none => pure ()

def authorizeFindingWrite : Act Unit :=
  if C.retestForbidden then do
    audit C .denied "rbac.denied"
    stop (.returned ⟨"forbidden",403⟩)
  else pure ()

/-- The gates before an earlier run of the dispatch is looked up. -/
def requestGates : Act Unit := do
  refuseWith C.selection
  refuseIf (some C.reviewedOperation) ⟨"reviewed_operation_execution_unavailable",409⟩
  refuseIf (some C.unknownCheck) ⟨"unknown_check",400⟩
  denyIf C (some C.identityReviewMissing) "test_run.origin_identity_review_denied"
    ⟨"origin_identity_review_required",409⟩
  refuseIf (some C.groupMissing) ⟨"target_group_not_found",404⟩
  denyIf C (some C.killSwitch) "test_run.kill_switch_denied" ⟨"kill_switch_active",423⟩
  refuseIf (some C.suspended) ⟨"tenant_suspended",403⟩
  refuseWith (C.subscriptionLimit.map fun limit => limit.map fun error => ⟨error,403⟩)
  refuseIf (some C.targetIdMissing) ⟨"missing_target_id",400⟩
  refuseIf (some C.targetMissing) ⟨"target_not_found",404⟩
  refuseIf C.concurrentRun ⟨"concurrent_run_blocked",409⟩
  refuseWith C.scanBinding
  refuseWith C.policyBinding

/-- The gates between that look-up and the new run. -/
def dispatchGates : Act Unit := do
  refuseWith C.compatibility
  onlyIf C.signedWorker (denyWith C C.destinationBinding "test_run.destination_binding_denied")
  onlyIf (C.signedWorker && !C.opsReadiness)
    (denyIf C C.ownershipUnverified "test_run.ownership_denied" ⟨"ownership_not_verified",409⟩)
  refuseIf C.prerequisitesMissing ⟨"prerequisites_not_met",409⟩
  refuseWith C.revalidation
  onlyIf (C.signedWorker && !C.opsReadiness) do
    denyIf C C.revalidatedOwnershipUnverified "test_run.ownership_denied"
      ⟨"ownership_not_verified",409⟩
    denyIf C (some C.dispatchNotReady) "test_run.probe_signing_unavailable"
      ⟨"probe_signing_unavailable",503⟩
  onlyIf C.retestOfFindingId.isSome do
    authorizeFindingWrite C
    refuseWith C.retestGate
  refuseWith C.originBinding

def newRun (runId : ℕ) : Run :=
  ⟨runId,C.tenantId,C.checkId,.running,none,none,false,C.retestOfFindingId⟩

def updateRows (f : Rows → Rows) : Act Unit := update fun s => { s with rows := f s.rows }

def setRows (runId : ℕ) (f : Run → Run) (rows : Rows) : Rows :=
  { rows with testRuns := rows.testRuns.map fun r => if r.id = runId then f r else r }

/-- Write the fields of the started run. -/
def setRun (runId : ℕ) (f : Run → Run) : Act Unit := updateRows (setRows runId f)

def dropRows (runId : ℕ) (rows : Rows) : Rows :=
  { rows with
    testRuns := rows.testRuns.eraseP fun r => r.id = runId
    lineage := if C.retestOfFindingId.isSome then rows.lineage.filter fun row =>
        row.testRunId ≠ runId ∨ row.tenantId ≠ C.tenantId
      else rows.lineage }

def dropStartedRun (runId : ℕ) : Act Unit := updateRows (dropRows C runId)

def registerRetestLineage (runId : ℕ) : Act Unit :=
  match C.retestOfFindingId with
  | none => pure ()
  | some findingId => match C.lineage with
    | .refused denial => do
        dropStartedRun C runId
        stop (.returned denial)
    | .replayed => pure ()
    | .registered => do
        updateRows fun rows => { rows with
          lineage := rows.lineage++[⟨C.tenantId,findingId,runId⟩] }
        persistStore C .lineage

def computeReadiness : Act Unit := if C.readinessThrows then stop .threw else pure ()

def notifyRunTerminal : Act Unit := update C.hooks.run

def wouldExceedEventCap (runId : ℕ) : Act Bool := do
  let s ← current
  pure (C.maxEvents.any fun cap => cap < s.rows.events.countP (fun e => e.testRunId = runId)+1)

def denyEventCap {α : Type} : Act α :=
  denySafeStart C "test_run.event_cap_denied" ⟨"event_cap_exceeded",429⟩

def Run.unsupported (r : Run) : Run :=
  { r with status := .verdicted, probeExternalResult := some "unsupported_target" }

def Run.verdicted (r : Run) : Run := { r with status := .verdicted }

def Run.awaiting (job : ProbeJob) (r : Run) : Run :=
  { r with nonceHash := some job.nonceHash, awaitingExternalProbe := true }

def Run.probed (probe : InlineProbe) (r : Run) : Run := { r with nonceHash := some probe.nonceHash }

def Run.collecting (probe : InlineProbe) (r : Run) : Run :=
  { r with status := .collecting, probeExternalResult := some probe.externalResult }

/-- A run that lacks an input is verdicted at once. -/
def publishMissingInput (runId : ℕ) : Act Unit := do
  updateRows fun rows => { rows with verdicts := rows.verdicts++[⟨runId,"inconclusive"⟩] }
  setRun runId Run.unsupported
  audit C .verdict "verdict.published"
  computeReadiness C
  notifyRunTerminal C
  persistStore C .finished

def createProbeJob : Act ProbeJob :=
  match C.signedJob with
  | none => stop .threw
  | some job => do
      updateRows fun rows => { rows with probeJobs := rows.probeJobs++[job] }
      audit C .job "probe_job.created"
      persistStore C .jobStored
      pure job

def dispatchJob (runId : ℕ) : Act Unit := do
  let exceeded ← wouldExceedEventCap C runId
  onlyIf exceeded do
    dropStartedRun C runId
    denyEventCap C
  let job ← attempt (createProbeJob C) fun _ => do
    dropStartedRun C runId
    denySafeStart C "test_run.dispatch_failed" ⟨"probe_job_dispatch_failed",503⟩
  setRun runId (Run.awaiting job)
  persistStore C .finished

def recordEvidence : Act Unit := do
  update fun s => { s with evidence := s.evidence+1 }
  persistStore C .evidence

def hasVerdict (runId : ℕ) (rows : Rows) : Bool := rows.verdicts.any fun v => v.testRunId = runId

def finalizeOpsReadinessVerdict (runId : ℕ) : Act Unit := do
  let s ← current
  onlyIf (!hasVerdict runId s.rows) do
    updateRows fun rows => { rows with verdicts := rows.verdicts++[⟨runId,C.opsVerdict⟩] }
    setRun runId Run.verdicted
    audit C .opsVerdict "verdict.published"
    computeReadiness C
    notifyRunTerminal C

def runInlineProbe (runId : ℕ) : Act Unit :=
  match C.probe with
  | none => stop .threw
  | some probe => do
      setRun runId (Run.probed probe)
      let exceeded ← wouldExceedEventCap C runId
      onlyIf exceeded do
        dropStartedRun C runId
        denyEventCap C
      updateRows fun rows => { rows with events := rows.events++[⟨probe.eventId,runId⟩] }
      recordEvidence C
      setRun runId (Run.collecting probe)
      onlyIf C.opsReadiness (finalizeOpsReadinessVerdict C runId)
      persistStore C .finished

def launch (runId : ℕ) : Act Unit := do
  updateRows fun rows => { rows with testRuns := rows.testRuns++[newRun C runId] }
  registerRetestLineage C runId
  audit C .started "test_run.started"
  onlyIf C.gatesBypassed (audit C .bypassed "test_run.demo_gates_bypassed")
  if C.missingInput then publishMissingInput C runId
  else if C.signedWorker && !C.opsReadiness then dispatchJob C runId
  else runInlineProbe C runId

/-- `getTestRun` on a run of the same dispatch. -/
def replayRun (r : Replay) : Act Unit :=
  if r.finalizes then match r.verdict with
    | none => stop .threw
    | some verdict => do
        updateRows fun rows => { rows with verdicts := rows.verdicts++[verdict] }
        setRun r.runId Run.verdicted
        audit C .published "verdict.finalized_no_observation"
        updateRows fun rows => { rows with findings := r.findings rows.findings }
        persistStore C .findings
        computeReadiness C
        notifyRunTerminal C
  else pure ()

inductive Reply where
  | replayed (runId : ℕ)
  | started (runId : ℕ)
deriving DecidableEq

def startTestRun (runId : ℕ) : Act Reply := do
  requestGates C
  match C.replay with
  | some r => do
      replayRun C r
      pure (.replayed r.runId)
  | none => do
      dispatchGates C
      launch C runId
      pure (.started runId)

variable {C}

abbrev OnlyReads {α : Type} (x : Act α) : Prop := Reads Store.rows x

theorem onlyReads_stop {α : Type} (e : Stop) : OnlyReads (stop e : Act α) :=
  ⟨fun h => absurd (Prod.mk.inj h).1 (by simp),fun h => by rw [← (Prod.mk.inj h).2]⟩

@[simp] theorem persistStore_apply (site : Site) (s : Store) :
    persistStore C site s = (if C.fails site then .error .threw else .ok (),s) := by
  unfold persistStore
  split_ifs <;> rfl

@[simp] theorem audit_apply (site : Site) (action : String) (s : Store) :
    audit C site action s = (if C.fails site then .error .threw else .ok (),
      { s with auditLog := s.auditLog++[action] }) := by
  unfold audit
  rw [bind_ok (update_apply _ s),persistStore_apply]

/-- A denial ends the call and leaves the rows. -/
theorem denySafeStart_spec {α : Type} (action : String) (denial : Denial) (s : Store) :
    ∃ e t,(denySafeStart C action denial : Act α) s = (.error e,t) ∧ t.rows = s.rows := by
  by_cases ha : C.fails .denied = true
  · refine ⟨.threw,{ s with auditLog := s.auditLog++[action] },?_,rfl⟩
    simp [denySafeStart,bind_apply,ha]
  · by_cases hp : C.fails .denialStored = true
    · refine ⟨.threw,{ s with auditLog := s.auditLog++[action] },?_,rfl⟩
      simp [denySafeStart,bind_apply,ha,hp]
    · refine ⟨.returned denial,{ s with auditLog := s.auditLog++[action] },?_,rfl⟩
      simp [denySafeStart,bind_apply,ha,hp]

theorem onlyReads_deny {α : Type} (action : String) (denial : Denial) :
    OnlyReads (denySafeStart C action denial : Act α) := by
  constructor
  · intro s t a h
    obtain ⟨e,u,heq,_⟩ := @denySafeStart_spec C α action denial s
    rw [heq] at h
    cases (Prod.mk.inj h).1
  · intro s t e h
    obtain ⟨e',u,heq,hrows⟩ := @denySafeStart_spec C α action denial s
    rw [heq] at h
    rw [← (Prod.mk.inj h).2,hrows]

theorem onlyReads_refuseIf (condition : Option Bool) (denial : Denial) :
    OnlyReads (refuseIf condition denial) := by
  rcases condition with _ | _ | _
  · exact onlyReads_stop _
  · exact .pure _
  · exact onlyReads_stop _

theorem onlyReads_denyIf (condition : Option Bool) (action : String) (denial : Denial) :
    OnlyReads (denyIf C condition action denial) := by
  rcases condition with _ | _ | _
  · exact onlyReads_stop _
  · exact .pure _
  · exact onlyReads_deny _ _

theorem onlyReads_refuseWith (answer : Option (Option Denial)) : OnlyReads (refuseWith answer) := by
  rcases answer with _ | _ | _
  · exact onlyReads_stop _
  · exact .pure _
  · exact onlyReads_stop _

theorem onlyReads_denyWith (answer : Option (Option Denial)) (action : String) :
    OnlyReads (denyWith C answer action) := by
  rcases answer with _ | _ | _
  · exact onlyReads_stop _
  · exact .pure _
  · exact onlyReads_deny _ _

theorem onlyReads_authorize : OnlyReads (authorizeFindingWrite C) := by
  unfold authorizeFindingWrite
  split_ifs
  · constructor
    · intro s t a h
      by_cases hd : C.fails .denied = true <;> simp [bind_apply,hd] at h
    · intro s t e h
      by_cases hd : C.fails .denied = true <;> simp [bind_apply,hd] at h <;> rw [← h.2]
  · exact .pure _

theorem onlyReads_onlyIf {b : Bool} {x : Act Unit} (h : OnlyReads x) : OnlyReads (onlyIf b x) := by
  cases b
  · exact .pure _
  · exact h

theorem onlyReads_requestGates : OnlyReads (requestGates C) :=
  (onlyReads_refuseWith _).bind fun _ => (onlyReads_refuseIf _ _).bind fun _ =>
  (onlyReads_refuseIf _ _).bind fun _ => (onlyReads_denyIf _ _ _).bind fun _ =>
  (onlyReads_refuseIf _ _).bind fun _ => (onlyReads_denyIf _ _ _).bind fun _ =>
  (onlyReads_refuseIf _ _).bind fun _ => (onlyReads_refuseWith _).bind fun _ =>
  (onlyReads_refuseIf _ _).bind fun _ => (onlyReads_refuseIf _ _).bind fun _ =>
  (onlyReads_refuseIf _ _).bind fun _ => (onlyReads_refuseWith _).bind fun _ =>
  onlyReads_refuseWith _

theorem onlyReads_dispatchGates : OnlyReads (dispatchGates C) :=
  (onlyReads_refuseWith _).bind fun _ => (onlyReads_onlyIf (onlyReads_denyWith _ _)).bind fun _ =>
  (onlyReads_onlyIf (onlyReads_denyIf _ _ _)).bind fun _ => (onlyReads_refuseIf _ _).bind fun _ =>
  (onlyReads_refuseWith _).bind fun _ =>
  (onlyReads_onlyIf ((onlyReads_denyIf _ _ _).bind fun _ => onlyReads_denyIf _ _ _)).bind fun _ =>
  (onlyReads_onlyIf (onlyReads_authorize.bind fun _ => onlyReads_refuseWith _)).bind fun _ =>
  onlyReads_refuseWith _

/-- An id no stored row uses yet. -/
structure FreshRun (rows : Rows) where
  runId : ℕ
  newRun : ∀ r ∈ rows.testRuns,r.id ≠ runId
  newLineage : ∀ row ∈ rows.lineage,row.testRunId ≠ runId

/-- The run is among the rows. -/
def Stored (runId : ℕ) (s : Store) : Prop := ∃ r ∈ s.rows.testRuns,r.id = runId

/-- With a hazard the result is a stop that leaves other rows, without one a stop leaves the
rows as they were. -/
def Settles {α : Type} (rows : Rows) (hazard : Bool) (result : Except Stop α × Store) : Prop :=
  (hazard = true → (∃ e,result.1 = .error e) ∧ result.2.rows ≠ rows) ∧
    (hazard = false → ∀ e,result.1 = .error e → result.2.rows = rows)

theorem Stored.rows_ne {rows : Rows} {f : FreshRun rows} {s : Store} (h : Stored f.runId s) :
    s.rows ≠ rows := by
  rintro rfl
  obtain ⟨r,hr,hid⟩ := h
  exact f.newRun r hr hid

theorem Settles.failed {α : Type} {rows : Rows} {e : Stop} {t : Store} (h : t.rows ≠ rows) :
    Settles rows true ((.error e,t) : Except Stop α × Store) :=
  ⟨fun _ => ⟨⟨e,rfl⟩,h⟩,nofun⟩

theorem Settles.kept {α : Type} {rows : Rows} {e : Stop} {t : Store} (h : t.rows = rows) :
    Settles rows false ((.error e,t) : Except Stop α × Store) :=
  ⟨nofun,fun _ _ _ => h⟩

theorem Settles.done {α : Type} {rows : Rows} {a : α} {t : Store} :
    Settles rows false ((.ok a,t) : Except Stop α × Store) :=
  ⟨nofun,nofun⟩

/-- The rows of a start that is under way: the run, and its lineage row if there is one. -/
def UnderWay (C : Call) (runId : ℕ) (rows : Rows) (t : Store) : Prop :=
  ∃ run lineage,run.id = runId ∧
    (∀ row ∈ lineage,row.testRunId = runId ∧ row.tenantId = C.tenantId) ∧
    (lineage ≠ [] → C.retestOfFindingId.isSome = true) ∧
    t.rows = { rows with testRuns := rows.testRuns++[run], lineage := rows.lineage++lineage }

theorem UnderWay.stored {rows : Rows} {runId : ℕ} {t : Store} (h : UnderWay C runId rows t) :
    Stored runId t := by
  obtain ⟨run,lineage,hid,_,_,hrows⟩ := h
  exact ⟨run,by simp [hrows],hid⟩

theorem UnderWay.events {rows : Rows} {runId : ℕ} {t : Store} (h : UnderWay C runId rows t) :
    t.rows.events = rows.events := by
  obtain ⟨run,lineage,_,_,_,hrows⟩ := h
  rw [hrows]

theorem UnderWay.verdicts {rows : Rows} {runId : ℕ} {t : Store} (h : UnderWay C runId rows t) :
    t.rows.verdicts = rows.verdicts := by
  obtain ⟨run,lineage,_,_,_,hrows⟩ := h
  rw [hrows]

theorem UnderWay.jobs {rows : Rows} {runId : ℕ} {t : Store} (h : UnderWay C runId rows t) :
    t.rows.probeJobs = rows.probeJobs := by
  obtain ⟨run,lineage,_,_,_,hrows⟩ := h
  rw [hrows]

theorem eraseP_started {rows : Rows} (f : FreshRun rows) {run : Run} (hid : run.id = f.runId) :
    ((rows.testRuns++[run]).eraseP fun r => r.id = f.runId) = rows.testRuns := by
  rw [List.eraseP_append_right _ fun r hr => by simpa using f.newRun r hr]
  simp [hid]

/-- Dropping the run gives the rows back. -/
theorem UnderWay.dropped {rows : Rows} {f : FreshRun rows} {t : Store}
    (h : UnderWay C f.runId rows t) : dropRows C f.runId t.rows = rows := by
  obtain ⟨run,lineage,hid,hlineage,hretest,hrows⟩ := h
  have hfilter : (rows.lineage++lineage).filter
      (fun row => row.testRunId ≠ f.runId ∨ row.tenantId ≠ C.tenantId) = rows.lineage := by
    rw [List.filter_append,List.filter_eq_self.mpr,List.filter_eq_nil_iff.mpr,List.append_nil]
    · intro row hrow
      simp [hlineage row hrow]
    · intro row hrow
      simp [f.newLineage row hrow]
  rw [hrows]
  unfold dropRows
  simp only [eraseP_started f hid,hfilter]
  split_ifs with hsome
  · rfl
  · have hnil : lineage = [] := by
      by_contra hne
      exact hsome (hretest hne)
    rw [hnil,List.append_nil]

theorem UnderWay.setRun {rows : Rows} {f : FreshRun rows} {t : Store}
    (h : UnderWay C f.runId rows t) {g : Run → Run} (hg : ∀ r,(g r).id = r.id) :
    UnderWay C f.runId rows { t with rows := setRows f.runId g t.rows } := by
  obtain ⟨run,lineage,hid,hlineage,hretest,hrows⟩ := h
  have hold : rows.testRuns.map (fun r => if r.id = f.runId then g r else r) = rows.testRuns := by
    refine (List.map_congr_left fun r hr => ?_).trans (List.map_id _)
    exact if_neg (f.newRun r hr)
  refine ⟨g run,lineage,(hg run).trans hid,hlineage,hretest,?_⟩
  simp only [hrows,setRows,List.map_append,hold,List.map_cons,List.map_nil,if_pos hid]

theorem Stored.setRun {runId : ℕ} {s : Store} (h : Stored runId s) {id : ℕ} {g : Run → Run}
    (hg : ∀ r,(g r).id = r.id) : Stored runId { s with rows := setRows id g s.rows } := by
  obtain ⟨r,hr,hid⟩ := h
  refine ⟨_,List.mem_map_of_mem hr,?_⟩
  split_ifs
  · exact (hg r).trans hid
  · exact hid

theorem Stored.hooks {runId : ℕ} {s : Store} (h : Stored runId s) :
    Stored runId (C.hooks.run s) := by
  obtain ⟨r,hr,hid⟩ := h
  obtain ⟨r',hr',hid'⟩ := C.hooks.keeps s r hr
  exact ⟨r',hr',hid'.trans hid⟩

section Rules
variable {α : Type} {rows : Rows} {hazard : Bool} {s : Store}

theorem Settles.write {site : Site} {k : Unit → Act α} (hne : s.rows ≠ rows)
    (hk : Settles rows hazard (k () s)) :
    Settles rows (C.fails site || hazard) ((persistStore C site >>= k) s) := by
  by_cases hf : C.fails site = true
  · have heq : persistStore C site s = (.error .threw,s) := by simp [hf]
    rw [bind_error heq,hf]
    exact .failed hne
  · have heq : persistStore C site s = (.ok (),s) := by simp [hf]
    rwa [bind_ok heq,eq_false_of_ne_true hf,Bool.false_or]

theorem Settles.lastWrite {site : Site} (hne : s.rows ≠ rows) :
    Settles rows (C.fails site) (persistStore C site s) := by
  by_cases hf : C.fails site = true
  · simp only [persistStore_apply,hf,if_true]
    exact .failed hne
  · simp only [persistStore_apply,eq_false_of_ne_true hf,Bool.false_eq_true,if_false]
    exact .done

theorem Settles.audit {site : Site} {action : String} {k : Unit → Act α} (hne : s.rows ≠ rows)
    (hk : Settles rows hazard (k () { s with auditLog := s.auditLog++[action] })) :
    Settles rows (C.fails site || hazard) ((RunStart.audit C site action >>= k) s) := by
  by_cases hf : C.fails site = true
  · have heq : RunStart.audit C site action s =
        (.error .threw,{ s with auditLog := s.auditLog++[action] }) := by simp [hf]
    rw [bind_error heq,hf]
    exact .failed hne
  · have heq : RunStart.audit C site action s =
        (.ok (),{ s with auditLog := s.auditLog++[action] }) := by simp [hf]
    rwa [bind_ok heq,eq_false_of_ne_true hf,Bool.false_or]

theorem Settles.readiness {k : Unit → Act α} (hne : s.rows ≠ rows)
    (hk : Settles rows hazard (k () s)) :
    Settles rows (C.readinessThrows || hazard) ((computeReadiness C >>= k) s) := by
  by_cases hf : C.readinessThrows = true
  · have heq : computeReadiness C s = (.error .threw,s) := by simp [computeReadiness,hf]
    rw [bind_error heq,hf]
    exact .failed hne
  · have heq : computeReadiness C s = (.ok (),s) := by simp [computeReadiness,hf]
    rwa [bind_ok heq,eq_false_of_ne_true hf,Bool.false_or]

theorem Settles.after {x : Act Unit} {t : Store} {k : Unit → Act α} (hx : x s = (.ok (),t))
    (hk : Settles rows hazard (k () t)) : Settles rows hazard ((x >>= k) s) := by
  rwa [bind_ok hx]

theorem Settles.stopped {x : Act Unit} {e : Stop} {t : Store} {k : Unit → Act α}
    (hx : x s = (.error e,t)) (hne : t.rows ≠ rows) : Settles rows true ((x >>= k) s) := by
  rw [bind_error hx]
  exact .failed hne

end Rules

def overCap (C : Call) (runId : ℕ) (rows : Rows) : Bool :=
  C.maxEvents.any fun cap => cap < rows.events.countP (fun e => e.testRunId = runId)+1

@[simp] theorem updateRows_apply (g : Rows → Rows) (s : Store) :
    updateRows g s = (.ok (),{ s with rows := g s.rows }) := rfl

def missingInputHazard (C : Call) : Bool :=
  C.fails .verdict || (C.readinessThrows || C.fails .finished)

theorem settles_missingInput {rows : Rows} {f : FreshRun rows} {t : Store}
    (h : Stored f.runId t) :
    Settles rows (missingInputHazard C) (publishMissingInput C f.runId t) := by
  have hset : Stored f.runId ⟨setRows f.runId Run.unsupported
      { t.rows with verdicts := t.rows.verdicts++[⟨f.runId,"inconclusive"⟩] },t.auditLog,
        t.evidence⟩ := Stored.setRun h fun _ => rfl
  refine .after (updateRows_apply _ _) (.after (updateRows_apply _ _) ?_)
  refine .audit hset.rows_ne (.readiness hset.rows_ne (.after (update_apply _ _) ?_))
  exact .lastWrite (Stored.rows_ne (Stored.hooks hset))

def jobHazard (C : Call) (capped : Bool) : Bool :=
  !capped && (C.signedJob.isSome && (C.fails .job || (C.fails .jobStored || C.fails .finished)))

theorem jobs_ne {rows rows' : Rows} (h : rows'.probeJobs.length ≠ rows.probeJobs.length) :
    rows' ≠ rows := by
  rintro rfl
  exact h rfl

/-- A job that is stored when its audit entry or its write fails stays. -/
theorem createProbeJob_spec {t : Store} :
    (C.signedJob = none ∧ createProbeJob C t = (.error .threw,t)) ∨
      ∃ job u,C.signedJob = some job ∧
        u.rows = { t.rows with probeJobs := t.rows.probeJobs++[job] } ∧
        createProbeJob C t =
          (if C.fails .job || C.fails .jobStored then .error .threw else .ok job,u) := by
  unfold createProbeJob
  cases hjob : C.signedJob with
  | none => exact .inl ⟨rfl,rfl⟩
  | some job =>
      refine .inr ⟨job,⟨{ t.rows with probeJobs := t.rows.probeJobs++[job] },
        t.auditLog++["probe_job.created"],t.evidence⟩,rfl,rfl,?_⟩
      by_cases hj : C.fails .job = true <;> by_cases hs : C.fails .jobStored = true <;>
        simp [bind_apply,hj,hs]

theorem dropAndDeny_spec {α : Type} (runId : ℕ) (action : String) (denial : Denial) (t : Store) :
    ∃ e u,(do
      dropStartedRun C runId
      denySafeStart C action denial : Act α) t = (.error e,u) ∧ u.rows = dropRows C runId t.rows :=
  denySafeStart_spec action denial { t with rows := dropRows C runId t.rows }

/-- A start over its cap of events is dropped. -/
theorem capped_spec {rows : Rows} {f : FreshRun rows} {t : Store} (h : UnderWay C f.runId rows t) :
    wouldExceedEventCap C f.runId t = (.ok (overCap C f.runId rows),t) ∧
      ∃ e u,onlyIf true (do
        dropStartedRun C f.runId
        denyEventCap C) t = (.error e,u) ∧ u.rows = rows := by
  constructor
  · unfold overCap
    rw [← h.events]
    rfl
  · obtain ⟨e,u,heq,hrows⟩ := @dropAndDeny_spec C Unit f.runId "test_run.event_cap_denied"
      ⟨"event_cap_exceeded",429⟩ t
    exact ⟨e,u,heq,hrows.trans h.dropped⟩

theorem settles_dispatchJob {rows : Rows} {f : FreshRun rows} {t : Store}
    (h : UnderWay C f.runId rows t) :
    Settles rows (jobHazard C (overCap C f.runId rows)) (dispatchJob C f.runId t) := by
  obtain ⟨hcap,e,v,hcapped,hrows⟩ := capped_spec h
  unfold dispatchJob
  rw [bind_ok hcap]
  cases hover : overCap C f.runId rows with
  | true =>
      rw [bind_error hcapped]
      exact .kept hrows
  | false =>
      refine .after (show onlyIf false _ t = (.ok (),t) from rfl) ?_
      obtain ⟨hnone,heq⟩ | ⟨job,u,hsome,hu,heq⟩ := @createProbeJob_spec C t
      · obtain ⟨e,v,hdeny,hv⟩ := @dropAndDeny_spec C ProbeJob f.runId "test_run.dispatch_failed"
          ⟨"probe_job_dispatch_failed",503⟩ t
        rw [bind_error ((attempt_error heq).trans hdeny),jobHazard,hnone]
        exact .kept (hv.trans h.dropped)
      · have hstored : Stored f.runId u := by
          obtain ⟨r,hr,hid⟩ := h.stored
          exact ⟨r,by rwa [hu],hid⟩
        by_cases hfail : (C.fails .job || C.fails .jobStored) = true
        · -- the exception is caught, the run is dropped and the job is left
          rw [if_pos hfail] at heq
          obtain ⟨e,v,hdeny,hv⟩ := @dropAndDeny_spec C ProbeJob f.runId "test_run.dispatch_failed"
            ⟨"probe_job_dispatch_failed",503⟩ u
          have hhazard : jobHazard C false = true := by
            rw [jobHazard,hsome,← Bool.or_assoc,hfail]
            rfl
          rw [bind_error ((attempt_error heq).trans hdeny),hhazard]
          refine .failed (jobs_ne ?_)
          rw [hv,hu]
          simp [dropRows,h.jobs]
        · rw [if_neg hfail] at heq
          have hhazard : jobHazard C false = C.fails .finished := by
            rw [jobHazard,hsome,← Bool.or_assoc,eq_false_of_ne_true hfail]
            rfl
          rw [bind_ok (attempt_ok heq),hhazard]
          have hset : Stored f.runId { u with rows := setRows f.runId (Run.awaiting job) u.rows } :=
            hstored.setRun fun _ => rfl
          exact .after (updateRows_apply _ _) (.lastWrite hset.rows_ne)

def opsHazard (C : Call) (verdicted : Bool) : Bool :=
  !verdicted && (C.fails .opsVerdict || C.readinessThrows)

def inlineHazard (C : Call) (capped verdicted : Bool) : Bool :=
  C.probe.isNone || !capped &&
    (C.fails .evidence || (C.opsReadiness && opsHazard C verdicted || C.fails .finished))

/-- The verdict of a readiness check: a stop, or a store that still has the run. -/
theorem opsVerdict_spec {runId : ℕ} {t : Store} (h : Stored runId t) :
    ∃ u,Stored runId u ∧ finalizeOpsReadinessVerdict C runId t =
      (if opsHazard C (hasVerdict runId t.rows) then .error .threw else .ok (),u) := by
  cases hverdict : hasVerdict runId t.rows with
  | true =>
      refine ⟨t,h,?_⟩
      unfold finalizeOpsReadinessVerdict
      rw [bind_ok (current_apply t),hverdict]
      rfl
  | false =>
      have hset : Stored runId ⟨setRows runId Run.verdicted
          { t.rows with verdicts := t.rows.verdicts++[⟨runId,C.opsVerdict⟩] },
          t.auditLog++["verdict.published"],t.evidence⟩ := Stored.setRun h fun _ => rfl
      unfold finalizeOpsReadinessVerdict opsHazard setRun
      rw [bind_ok (current_apply t),hverdict,Bool.not_false,onlyIf_true]
      by_cases hv : C.fails .opsVerdict = true
      · exact ⟨_,hset,by simp [bind_apply,hv]⟩
      · by_cases hr : C.readinessThrows = true
        · exact ⟨_,hset,by simp [bind_apply,hv,hr,computeReadiness]⟩
        · exact ⟨_,@Stored.hooks C _ _ hset,by
            simp [bind_apply,hv,hr,computeReadiness,notifyRunTerminal]⟩

theorem recordEvidence_apply (s : Store) : recordEvidence C s =
    (if C.fails .evidence then .error .threw else .ok (),{ s with evidence := s.evidence+1 }) := by
  unfold recordEvidence
  rw [bind_ok (update_apply _ s),persistStore_apply]

/-- The inline probe from its stored event on. -/
theorem settles_inlineTail {rows : Rows} {f : FreshRun rows} {t : Store} (probe : InlineProbe)
    (h : Stored f.runId t) (hsame : t.rows.verdicts = rows.verdicts) :
    Settles rows (C.fails .evidence ||
        (C.opsReadiness && opsHazard C (hasVerdict f.runId rows) || C.fails .finished))
      ((do
        recordEvidence C
        setRun f.runId (Run.collecting probe)
        onlyIf C.opsReadiness (finalizeOpsReadinessVerdict C f.runId)
        persistStore C .finished : Act Unit) t) := by
  by_cases he : C.fails .evidence = true
  · have heq : recordEvidence C t = (.error .threw,{ t with evidence := t.evidence+1 }) := by
      rw [recordEvidence_apply,if_pos he]
    rw [bind_error heq,he]
    exact .failed h.rows_ne
  · have heq : recordEvidence C t = (.ok (),{ t with evidence := t.evidence+1 }) := by
      rw [recordEvidence_apply,if_neg he]
    rw [eq_false_of_ne_true he,Bool.false_or]
    refine .after heq (.after (updateRows_apply _ _) ?_)
    have hset : Stored f.runId ⟨setRows f.runId (Run.collecting probe) t.rows,t.auditLog,
        t.evidence+1⟩ := Stored.setRun h fun _ => rfl
    cases hops : C.opsReadiness with
    | false =>
        rw [Bool.false_and,Bool.false_or]
        exact .after rfl (.lastWrite hset.rows_ne)
    | true =>
        obtain ⟨u,hu,hverdict⟩ := @opsVerdict_spec C _ _ hset
        have hknown : hasVerdict f.runId (setRows f.runId (Run.collecting probe) t.rows) =
            hasVerdict f.runId rows := by
          rw [hasVerdict,hasVerdict,← hsame]
          rfl
        rw [hknown] at hverdict
        rw [Bool.true_and]
        by_cases hhazard : opsHazard C (hasVerdict f.runId rows) = true
        · rw [if_pos hhazard] at hverdict
          rw [hhazard,Bool.true_or]
          exact .stopped hverdict hu.rows_ne
        · rw [if_neg hhazard] at hverdict
          rw [eq_false_of_ne_true hhazard,Bool.false_or]
          exact .after hverdict (.lastWrite hu.rows_ne)

theorem settles_inlineProbe {rows : Rows} {f : FreshRun rows} {t : Store}
    (h : UnderWay C f.runId rows t) :
    Settles rows (inlineHazard C (overCap C f.runId rows) (hasVerdict f.runId rows))
      (runInlineProbe C f.runId t) := by
  unfold runInlineProbe inlineHazard
  cases hprobe : C.probe with
  | none => exact .failed h.stored.rows_ne
  | some probe =>
      have hprobed : UnderWay C f.runId rows
          { t with rows := setRows f.runId (Run.probed probe) t.rows } := h.setRun fun _ => rfl
      obtain ⟨hcap,e,v,hcapped,hrows⟩ := capped_spec hprobed
      refine .after (updateRows_apply _ _) ?_
      rw [bind_ok hcap]
      cases hover : overCap C f.runId rows with
      | true =>
          rw [bind_error hcapped]
          exact .kept hrows
      | false =>
          refine .after rfl (.after (updateRows_apply _ _) ?_)
          exact settles_inlineTail probe hprobed.stored hprobed.verdicts

def lineageRefused (C : Call) : Bool :=
  match C.retestOfFindingId,C.lineage with
  | some _,.refused _ => true
  | _,_ => false

def lineageRegistered (C : Call) : Bool :=
  match C.retestOfFindingId,C.lineage with
  | some _,.registered => true
  | _,_ => false

def branchHazard (C : Call) (capped verdicted : Bool) : Bool :=
  if C.missingInput then missingInputHazard C
  else if C.signedWorker && !C.opsReadiness then jobHazard C capped
  else inlineHazard C capped verdicted

/-- An exception is raised while the run is stored, other than by the building of its job. -/
def launchHazard (C : Call) (capped verdicted : Bool) : Bool :=
  !lineageRefused C && (lineageRegistered C && C.fails .lineage ||
    (C.fails .started || (C.gatesBypassed && C.fails .bypassed || branchHazard C capped verdicted)))

theorem lineage_spec {rows : Rows} {f : FreshRun rows} {t : Store}
    (h : t.rows = { rows with testRuns := rows.testRuns++[newRun C f.runId] }) :
    (lineageRefused C = true ∧ ∃ e u,registerRetestLineage C f.runId t = (.error e,u) ∧
      u.rows = rows) ∨
    (lineageRefused C = false ∧ ∃ u,UnderWay C f.runId rows u ∧
      registerRetestLineage C f.runId t =
        (if lineageRegistered C && C.fails .lineage then .error .threw else .ok (),u)) := by
  have hway : UnderWay C f.runId rows t := ⟨newRun C f.runId,[],rfl,by simp,by simp,by simp [h]⟩
  unfold registerRetestLineage lineageRefused lineageRegistered
  cases hretest : C.retestOfFindingId with
  | none => exact .inr ⟨rfl,t,hway,rfl⟩
  | some findingId =>
      cases hline : C.lineage with
      | refused denial =>
          exact .inl ⟨rfl,.returned denial,{ t with rows := dropRows C f.runId t.rows },rfl,
            hway.dropped⟩
      | replayed => exact .inr ⟨rfl,t,hway,rfl⟩
      | registered =>
          refine .inr ⟨rfl,{ t with rows := { t.rows with
            lineage := t.rows.lineage++[⟨C.tenantId,findingId,f.runId⟩] } },?_,?_⟩
          · exact ⟨newRun C f.runId,[⟨C.tenantId,findingId,f.runId⟩],rfl,by simp,
              by simp [hretest],by simp [h]⟩
          · refine (bind_ok (updateRows_apply _ t)).trans ?_
            rw [persistStore_apply]
            rfl

theorem settles_launch {s : Store} (f : FreshRun s.rows) :
    Settles s.rows (launchHazard C (overCap C f.runId s.rows) (hasVerdict f.runId s.rows))
      (launch C f.runId s) := by
  unfold launch launchHazard
  refine .after (updateRows_apply _ _) ?_
  obtain ⟨hrefused,e,u,heq,hu⟩ | ⟨hrefused,u,hway,heq⟩ := @lineage_spec C _ f
    { s with rows := { s.rows with testRuns := s.rows.testRuns++[newRun C f.runId] } } rfl
  · rw [bind_error heq,hrefused]
    exact .kept hu
  · rw [hrefused,Bool.not_false,Bool.true_and]
    by_cases hline : (lineageRegistered C && C.fails .lineage) = true
    · rw [if_pos hline] at heq
      rw [bind_error heq,hline]
      exact .failed hway.stored.rows_ne
    · rw [if_neg hline] at heq
      rw [eq_false_of_ne_true hline,Bool.false_or]
      refine .after heq (.audit hway.stored.rows_ne ?_)
      have hbranch : ∀ {v : Store},v.rows = u.rows → Settles s.rows
          (branchHazard C (overCap C f.runId s.rows) (hasVerdict f.runId s.rows))
          ((if C.missingInput then publishMissingInput C f.runId
            else if C.signedWorker && !C.opsReadiness then dispatchJob C f.runId
            else runInlineProbe C f.runId : Act Unit) v) := by
        intro v hv
        have hway' : UnderWay C f.runId s.rows v := by
          unfold UnderWay
          rw [hv]
          exact hway
        unfold branchHazard
        split_ifs
        · exact settles_missingInput hway'.stored
        · exact settles_dispatchJob hway'
        · exact settles_inlineProbe hway'
      cases hbypass : C.gatesBypassed with
      | false =>
          rw [Bool.false_and,Bool.false_or]
          exact .after rfl (hbranch rfl)
      | true =>
          rw [Bool.true_and]
          exact .audit hway.stored.rows_ne (hbranch rfl)

def replayHazard (C : Call) (r : Replay) : Bool :=
  r.finalizes && (r.verdict.isSome &&
    (C.fails .published || (C.fails .findings || C.readinessThrows)))

theorem verdicts_ne {rows rows' : Rows} (h : rows'.verdicts.length ≠ rows.verdicts.length) :
    rows' ≠ rows := by
  rintro rfl
  exact h rfl

theorem settles_replay (r : Replay) (s : Store) :
    Settles s.rows (replayHazard C r) (replayRun C r s) := by
  unfold replayRun replayHazard
  cases r.finalizes with
  | false => exact .done
  | true =>
      cases r.verdict with
      | none => exact .kept rfl
      | some verdict =>
          refine .after (updateRows_apply _ _) (.after (updateRows_apply _ _) ?_)
          refine .audit (verdicts_ne (by simp [setRows])) (.after (updateRows_apply _ _) ?_)
          refine .write (verdicts_ne (by simp [setRows])) ?_
          by_cases hr : C.readinessThrows = true
          · have heq : ∀ t,computeReadiness C t = (.error .threw,t) := fun t => by
              simp [computeReadiness,hr]
            rw [bind_error (heq _),hr]
            exact .failed (verdicts_ne (by simp [setRows]))
          · have heq : ∀ t,computeReadiness C t = (.ok (),t) := fun t => by
              simp [computeReadiness,hr]
            rw [eq_false_of_ne_true hr]
            exact .after (heq _) .done

/-- A call that ends with an error or an exception leaves the rows as they were. -/
def Atomic (C : Call) (runId : ℕ) (s : Store) : Prop :=
  ∀ e,(startTestRun C runId s).1 = .error e → (startTestRun C runId s).2.rows = s.rows

/-- The call is refused before a row is stored, or nothing throws while one is. -/
def Calm (C : Call) (runId : ℕ) (s : Store) : Prop :=
  (requestGates C s).1 = .ok () → match C.replay with
    | some r => replayHazard C r = false
    | none => (dispatchGates C s).1 = .ok () →
        launchHazard C (overCap C runId s.rows) (hasVerdict runId s.rows) = false

/-- A result that is only passed on settles as its program does. -/
theorem Settles.stops_iff {α β : Type} {rows : Rows} {hazard : Bool} {x : Act α} {g : α → β}
    {s : Store} (h : Settles rows hazard (x s)) :
    (∀ e,((do
      let a ← x
      pure (g a) : Act β) s).1 = .error e → ((do
      let a ← x
      pure (g a) : Act β) s).2.rows = rows) ↔ hazard = false := by
  rcases hr : x s with ⟨r,t⟩
  rw [hr] at h
  cases r with
  | ok a =>
      rw [bind_ok hr]
      refine iff_of_true nofun (eq_false_of_ne_true fun hh => ?_)
      obtain ⟨⟨e,he⟩,_⟩ := h.1 hh
      cases he
  | error e =>
      rw [bind_error hr]
      constructor
      · intro hkept
        exact eq_false_of_ne_true fun hh => (h.1 hh).2 (hkept e rfl)
      · intro hh e' _
        exact h.2 hh e rfl

theorem replay_atomic_iff {r : Replay} {runId : ℕ} {s : Store}
    (hgates : requestGates C s = (.ok (),s)) (hreplay : C.replay = some r) :
    Atomic C runId s ↔ replayHazard C r = false := by
  unfold Atomic startTestRun
  rw [bind_ok hgates,hreplay]
  exact (settles_replay r s).stops_iff

theorem launch_atomic_iff {s : Store} (f : FreshRun s.rows)
    (hgates : requestGates C s = (.ok (),s)) (hreplay : C.replay = none)
    (hdispatch : dispatchGates C s = (.ok (),s)) :
    Atomic C f.runId s ↔
      launchHazard C (overCap C f.runId s.rows) (hasVerdict f.runId s.rows) = false := by
  unfold Atomic startTestRun
  rw [bind_ok hgates,hreplay]
  simp only [bind_ok hdispatch]
  exact (settles_launch f).stops_iff

/-- A start is atomic exactly when nothing throws while its run is stored. -/
theorem start_atomic_iff (C : Call) (s : Store) (f : FreshRun s.rows) :
    Atomic C f.runId s ↔ Calm C f.runId s := by
  rcases hgates : requestGates C s with ⟨r,t⟩
  cases r with
  | error e =>
      have hrows := onlyReads_requestGates.stopped hgates
      unfold Atomic Calm startTestRun
      rw [bind_error hgates,hgates]
      exact iff_of_true (fun _ _ => hrows) nofun
  | ok u =>
      obtain rfl := onlyReads_requestGates.returned hgates
      unfold Calm
      rw [hgates]
      cases hreplay : C.replay with
      | some r =>
          rw [replay_atomic_iff hgates hreplay]
          exact ⟨fun h _ => h,fun h => h rfl⟩
      | none =>
          rcases hdispatch : dispatchGates C t with ⟨r,v⟩
          cases r with
          | error e =>
              have hrows := onlyReads_dispatchGates.stopped hdispatch
              unfold Atomic startTestRun
              rw [bind_ok hgates,hreplay]
              simp only [bind_error hdispatch]
              exact iff_of_true (fun _ _ => hrows) nofun
          | ok u =>
              obtain rfl := onlyReads_dispatchGates.returned hdispatch
              rw [launch_atomic_iff f hgates hreplay hdispatch]
              exact ⟨fun h _ _ => h,fun h => h rfl rfl⟩

end Start

def noRows : Rows := ⟨[],[],[],[],[],[]⟩

def emptyStore : Store := ⟨noRows,[],0⟩

def firstRun : FreshRun emptyStore.rows := ⟨1,nofun,nofun⟩

def quietHooks : Hooks := ⟨id,fun _ r hr => ⟨r,hr,rfl⟩⟩

/-- A start for a signed worker that passes every gate, on a disk that is full when the audit
entry of its job is written. -/
def diskFullStart : Call where
  tenantId := 1
  checkId := 1
  selection := some none
  reviewedOperation := false
  unknownCheck := false
  identityReviewMissing := false
  groupMissing := false
  killSwitch := false
  suspended := false
  subscriptionLimit := some none
  targetIdMissing := false
  targetMissing := false
  concurrentRun := some false
  scanBinding := some none
  policyBinding := some none
  replay := none
  compatibility := some none
  destinationBinding := some none
  ownershipUnverified := some false
  prerequisitesMissing := some false
  revalidation := some none
  revalidatedOwnershipUnverified := some false
  dispatchNotReady := false
  retestForbidden := false
  retestGate := some none
  originBinding := some none
  retestOfFindingId := none
  lineage := .replayed
  gatesBypassed := false
  missingInput := false
  opsReadiness := false
  signedWorker := true
  maxEvents := none
  signedJob := some ⟨1,1,"nonce"⟩
  probe := none
  opsVerdict := "pass"
  readinessThrows := false
  hooks := quietHooks
  fails := fun site => site = .job

/-- The same start on a disk that takes every write. -/
def signedStart : Call := { diskFullStart with fails := fun _ => false }

theorem signed_start_atomic : (startTestRun signedStart 1 emptyStore).1 = .ok (.started 1) ∧
    Atomic signedStart 1 emptyStore :=
  ⟨rfl,(start_atomic_iff signedStart emptyStore firstRun).mpr fun _ _ => rfl⟩

/-- The reply says that no job could be dispatched, and the job is stored. -/
theorem failed_dispatch_leaves_job :
    ¬ ∀ (C : Call) (s : Store) (f : FreshRun s.rows),Atomic C f.runId s := by
  intro h
  have hrows := h diskFullStart emptyStore firstRun
    (.returned ⟨"probe_job_dispatch_failed",503⟩) rfl
  have hjobs : (startTestRun diskFullStart 1 emptyStore).2.rows.probeJobs = [⟨1,1,"nonce"⟩] := rfl
  rw [show (startTestRun diskFullStart 1 emptyStore).2.rows = noRows from hrows] at hjobs
  cases hjobs

end AstraNull.RunStart

import Mathlib
import AstraNull.Tables
import AstraNull.RuntimeStore
import AstraNull.TestRuns
import AstraNull.Schedules
import AstraNull.ScanPlanning
import AstraNull.ValidationScans
import AstraNull.ScanLifecycle
import AstraNull.TestPolicies
import AstraNull.EmergencyStop
import AstraNull.RuntimeFlow
import AstraNull.RuntimeMoves
import AstraNull.ScanTurns

/-!
# The runtime as a state machine

Every request the in-memory runtime serves, one at a time, and what each of them may do to the
store.
-/
namespace AstraNull.RuntimeOps
open RuntimeStore TestRuns Schedules ScanPlanning ValidationScans ScanLifecycle TestPolicies
  EmergencyStop RuntimeFlow RuntimeMoves ScanTurns

inductive Op where
  | start (now : ℤ) (body : StartBody) (policyEvent : Bool)
  | startDispatch (now : ℤ) (lease : PolicyLease)
  | getRun (now : ℤ) (tenantId id : ℕ)
  | finalizeRun (now : ℤ) (tenantId id : ℕ) (force : Bool)
  | sweepRuns (now : ℤ) (ids : List ℕ)
  | leaseJobs (tenantId : ℕ) (claimable : ℕ → Bool)
  | ingest (jobId : ℕ) (accepts : Check)
  | finalizeAfterIngest (now : ℤ) (tenantId : Option ℕ) (runId : ℕ)
  | cancelRun (tenantId id : ℕ)
  | createScan (now : ℤ) (tenantId : ℕ) (body : ScanBody)
  | advanceScan (now : ℤ) (tenantId id requested : ℕ)
  | dispatchScans (now : ℤ) (tenantId limit requested : ℕ)
  | getScan (now : ℤ) (tenantId id : ℕ) (mayAdvance : Bool)
  | patchScan (now : ℤ) (tenantId id : ℕ) (body : ScanBody)
  | cancelScan (now : ℤ) (tenantId id : ℕ) (cancelSeries : Bool)
  | createPolicy (now : ℤ) (tenantId : ℕ) (input : PolicyInput) (catalog : Option Denial)
  | patchPolicy (now : ℤ) (tenantId id : ℕ) (patch : PolicyPatch)
  | archivePolicy (tenantId id : ℕ)
  | leasePolicies (now leaseMs : ℤ) (tenantId limit : ℕ)
  | claimDispatch (now : ℤ) (lease : PolicyLease)
  | completeDispatch (lease : PolicyLease) (settlement : Settlement)
  | setKillSwitch (tenantId : ℕ) (active : Bool)
  | submitHighScale (tenantId : ℕ)
  | transitionHighScale (tenantId id : ℕ) (action : HighScaleAction) (scope gate : Option Denial)
  | addGroup (tenantId : ℕ)
  | setGroupArchived (id : ℕ) (archived : Bool)
  | addTarget (tenantId targetGroupId : ℕ)
  | setTargetArchived (id : ℕ) (archived : Bool)
  | setSuspended (tenants : List ℕ)

/-- `listPendingProbeJobsForWorker`: pending jobs of runs that are running or collecting. -/
def leaseJobs (s : Store) (tenantId : ℕ) (claimable : ℕ → Bool) : Store :=
  { s with
    probeJobs := Tables.updateAll (fun j => j.status == .pending && j.tenantId == tenantId &&
      claimable j.id && (findTenantRun s tenantId j.testRunId).any fun r =>
        r.status == .running || r.status == .collecting)
      (fun j => { j with status := .leased }) s.probeJobs }

def addTarget (s : Store) (tenantId targetGroupId : ℕ) : Store :=
  { s.reserve 1 with targets := s.targets++[⟨s.nextId,tenantId,targetGroupId,false⟩] }

def setTargetArchived (s : Store) (id : ℕ) (archived : Bool) : Store :=
  { s with
    targets := Tables.update (fun t => t.id == id) (fun t => { t with archived := archived })
      s.targets }

def addGroup (s : Store) (tenantId : ℕ) : Store :=
  { s.reserve 1 with targetGroups := s.targetGroups++[⟨s.nextId,tenantId,false⟩] }

def setGroupArchived (s : Store) (id : ℕ) (archived : Bool) : Store :=
  { s with
    targetGroups := Tables.update (fun g => g.id == id) (fun g => { g with archived := archived })
      s.targetGroups }

section
variable (E : Env) (zone : Zone) (depth : ℕ)

def apply (s : Store) : Op → Store
  | .start now body policyEvent =>
      (startTestRun E (hooks E depth []) s now body ⟨none,none,policyEvent⟩).1
  | .startDispatch now lease =>
      (startTestRun E (hooks E depth []) s now (dispatchBody lease) (dispatchOptions lease)).1
  | .getRun now tenantId id => (getTestRun E (hooks E depth []) s now tenantId id).1
  | .finalizeRun now tenantId id force =>
      (finalizeTestRun E (hooks E depth []) s now tenantId id force).1
  | .sweepRuns now ids => finalizeExpiredRuns E (hooks E depth []) s now ids
  | .leaseJobs tenantId claimable => leaseJobs s tenantId claimable
  | .ingest jobId accepts => (ingestProbeResult s jobId accepts).1
  | .finalizeAfterIngest now tenantId runId =>
      (maybeFinalizeRunAfterProbeIngest E (hooks E depth []) s now tenantId runId).1
  | .cancelRun tenantId id => (cancelTestRun (hooks E depth []) s tenantId id).1
  | .createScan now tenantId body => (createValidationScan E depth s now tenantId body).1
  | .advanceScan now tenantId id requested => runScan E depth s tenantId id now requested
  | .dispatchScans now tenantId limit requested =>
      dispatchDueValidationScans E zone depth s now tenantId limit requested
  | .getScan now tenantId id mayAdvance =>
      getValidationScan E zone depth s now tenantId id mayAdvance
  | .patchScan now tenantId id body => (patchValidationScan E s now tenantId id body).1
  | .cancelScan now tenantId id cancelSeries =>
      (cancelValidationScan E zone depth s.validationScans.length s now tenantId id cancelSeries).1
  | .createPolicy now tenantId input catalog =>
      (createTestPolicy zone s now tenantId input catalog).1
  | .patchPolicy now tenantId id patch => patchTestPolicy zone s now tenantId id patch
  | .archivePolicy tenantId id => archiveTestPolicy s tenantId id
  | .leasePolicies now leaseMs tenantId limit =>
      (leaseDueTestPolicies s now leaseMs tenantId limit).1
  | .claimDispatch now lease => (claimPolicyDispatchStart s now lease).1
  | .completeDispatch lease settlement => (completePolicyDispatch zone s lease settlement).1
  | .setKillSwitch tenantId active => setKillSwitch E depth s tenantId active
  | .submitHighScale tenantId => submitHighScale s tenantId
  | .transitionHighScale tenantId id action scope gate =>
      (transitionHighScale s tenantId id action scope gate).1
  | .addGroup tenantId => addGroup s tenantId
  | .setGroupArchived id archived => setGroupArchived s id archived
  | .addTarget tenantId targetGroupId => addTarget s tenantId targetGroupId
  | .setTargetArchived id archived => setTargetArchived s id archived
  | .setSuspended tenants => { s with suspendedTenants := tenants }

/-- A sequence of requests. -/
def exec (s : Store) (ops : List Op) : Store := ops.foldl (apply E zone depth) s

end

/-- The job is done and its run has evidence. -/
def ingested (s : Store) (job : ProbeJob) (run : TestRun) : Store :=
  completeJob (s.updateRun run.id fun r => collecting { r with
    probeExternalResult := true
    probeEvent := true }) job.id

/-- Every request but a change of the switch. -/
inductive Quiet (late : Bool) (s : Store) : Store → Prop
  | turns {s' : Store} (h : Turns late s s') : Quiet late s s'
  | ingest (job : ProbeJob) (run : TestRun)
      (hjob : (s.probeJobs.find? fun j => j.id == job.id) = some job)
      (hopen : job.status.isOpen = true) (hrun : s.findRun run.id = some run)
      (hof : job.testRunId = run.id) (hactive : run.status.active = true) :
      Quiet late s (ingested s job run)
  | jobs (p : ProbeJob → Bool) (hp : ∀ j,p j = true → j.status.isOpen = true) :
      Quiet late s { s with
        probeJobs := Tables.updateAll p (fun j => { j with status := .leased }) s.probeJobs }
  | policies (policies : List TestPolicy) (dispatches : List PolicyDispatch) (nextId : ℕ)
      (hle : s.nextId ≤ nextId) :
      Quiet late s { s with
        testPolicies := policies
        testPolicyDispatches := dispatches
        nextId := nextId }
  | highScale (requests : List HighScaleRequest) (nextId : ℕ) (hle : s.nextId ≤ nextId)
      (hrunning : ∀ x ∈ requests,x.state = .running →
        (∃ y ∈ s.highScaleRequests,y.tenantId = x.tenantId ∧ y.state = .running) ∨
          isKillSwitchActiveForTenant s x.tenantId = false) :
      Quiet late s { s with
        highScaleRequests := requests
        nextId := nextId }
  | target (t : Target) (ht : t.id = s.nextId) :
      Quiet late s { s.reserve 1 with targets := s.targets++[t] }
  | archive (id : ℕ) (archived : Bool) : Quiet late s (setTargetArchived s id archived)
  | directory (groups : List TargetGroup) (tenants : List ℕ) (nextId : ℕ) (hle : s.nextId ≤ nextId) :
      Quiet late s { s with
        targetGroups := groups
        suspendedTenants := tenants
        nextId := nextId }

inductive Effect (E : Env) (depth : ℕ) (late : Bool) (s : Store) : Store → Prop
  | quiet {s' : Store} (h : Quiet late s s') : Effect E depth late s s'
  | stop (tenantId : ℕ) (active : Bool) :
      Effect E depth late s (setKillSwitch E depth s tenantId active)

/-- A result is finalised for a run that was not cancelled. -/
def Timely (s : Store) : Op → Prop
  | .finalizeAfterIngest _ _ runId => ∀ r,s.findRun runId = some r → r.status ≠ .cancelled
  | _ => True

section
variable {E : Env} {zone : Zone} {depth : ℕ} {late : Bool} {s : Store}

theorem quiet_of_goes {s' : Store} (hs : Sound s) (h : Goes late s s') : Quiet late s s' :=
  .turns (h hs)

theorem quiet_of_moves {s' : Store} (hs : Sound s) (h : Moves late [] s s') :
    Quiet late s s' := .turns (goes_of_moves h hs)

theorem quiet_refl : Quiet late s s := .turns .refl

/-- Nothing but policies and their dispatches is written. -/
def PoliciesOnly (s s' : Store) : Prop :=
  ∃ policies dispatches nextId,s.nextId ≤ nextId ∧ s' = { s with
    testPolicies := policies
    testPolicyDispatches := dispatches
    nextId := nextId }

theorem PoliciesOnly.refl (s : Store) : PoliciesOnly s s := ⟨_,_,_,le_rfl,rfl⟩

theorem PoliciesOnly.trans {t u : Store} (h : PoliciesOnly s t) (k : PoliciesOnly t u) :
    PoliciesOnly s u := by
  obtain ⟨_,_,_,hle,rfl⟩ := h
  obtain ⟨ps,ds,n,hle',rfl⟩ := k
  exact ⟨ps,ds,n,hle.trans hle',rfl⟩

theorem policiesOnly_updatePolicy {id : ℕ} {f : TestPolicy → TestPolicy} :
    PoliciesOnly s (updatePolicy s id f) := ⟨_,_,_,le_rfl,rfl⟩

theorem policiesOnly_updateDispatch {id : ℕ} {f : PolicyDispatch → PolicyDispatch} :
    PoliciesOnly s (updateDispatch s id f) := ⟨_,_,_,le_rfl,rfl⟩

theorem policiesOnly_createTestPolicy {now : ℤ} {tenantId : ℕ} {input : PolicyInput}
    {catalog : Option Denial} :
    PoliciesOnly s (createTestPolicy zone s now tenantId input catalog).1 := by
  unfold createTestPolicy
  split
  · exact .refl s
  split
  · exact .refl s
  split
  · exact .refl s
  split
  · exact .refl s
  simp only
  split
  · exact .refl s
  · exact ⟨_,_,_,Nat.le_add_right _ 1,rfl⟩

theorem policiesOnly_patchTestPolicy {now : ℤ} {tenantId id : ℕ} {patch : PolicyPatch} :
    PoliciesOnly s (patchTestPolicy zone s now tenantId id patch) := by
  unfold patchTestPolicy
  split
  · exact .refl s
  · simp only
    split_ifs
    · exact policiesOnly_updatePolicy
    · split
      · exact policiesOnly_updatePolicy
      · exact policiesOnly_updatePolicy.trans policiesOnly_updatePolicy

theorem policiesOnly_archiveTestPolicy {tenantId id : ℕ} :
    PoliciesOnly s (archiveTestPolicy s tenantId id) := by
  unfold archiveTestPolicy
  split
  · exact .refl s
  · exact policiesOnly_updatePolicy

theorem policiesOnly_leasePolicy {now leaseMs : ℤ} {tenantId policyId : ℕ} :
    PoliciesOnly s (leasePolicy s now leaseMs tenantId policyId).1 := by
  unfold leasePolicy
  split
  · exact .refl s
  split
  · exact .refl s
  simp only
  split_ifs
  · exact .refl s
  refine PoliciesOnly.trans ?_ policiesOnly_updatePolicy
  refine PoliciesOnly.trans ?_ policiesOnly_updateDispatch
  split
  · exact ⟨_,_,_,Nat.le_add_right _ 1,rfl⟩
  · exact ⟨_,_,_,Nat.le_add_right _ 2,rfl⟩

theorem policiesOnly_leaseDueTestPolicies {now leaseMs : ℤ} {tenantId limit : ℕ} :
    PoliciesOnly s (leaseDueTestPolicies s now leaseMs tenantId limit).1 := by
  have hfold : ∀ (l : List ℕ) (acc : Store × List PolicyLease),PoliciesOnly acc.1
      (l.foldl (fun (acc : Store × List PolicyLease) id =>
        ((leasePolicy acc.1 now leaseMs tenantId id).1,
          acc.2++(leasePolicy acc.1 now leaseMs tenantId id).2.toList)) acc).1 := by
    intro l
    induction l with
    | nil => exact fun acc => .refl acc.1
    | cons id l ih =>
        intro acc
        have hlease : PoliciesOnly acc.1 (leasePolicy acc.1 now leaseMs tenantId id).1 :=
          policiesOnly_leasePolicy
        exact hlease.trans (ih (_,_))
  exact hfold _ (s,[])

theorem policiesOnly_claimPolicyDispatchStart {now : ℤ} {lease : PolicyLease} :
    PoliciesOnly s (claimPolicyDispatchStart s now lease).1 := by
  unfold claimPolicyDispatchStart
  split
  · exact .refl s
  split_ifs
  · exact .refl s
  · exact .refl s
  · exact .refl s
  · split
    · exact .refl s
    · split_ifs
      · exact .refl s
      · exact policiesOnly_updateDispatch
  · exact .refl s

theorem policiesOnly_completePolicyDispatch {lease : PolicyLease} {settlement : Settlement} :
    PoliciesOnly s (completePolicyDispatch zone s lease settlement).1 := by
  unfold completePolicyDispatch
  split
  · exact .refl s
  split_ifs
  · exact .refl s
  · exact .refl s
  · exact .refl s
  · exact .refl s
  · exact .refl s
  · exact .refl s
  split
  · exact .refl s
  split_ifs
  · exact .refl s
  simp only
  split
  · exact policiesOnly_updateDispatch
  · exact policiesOnly_updateDispatch.trans policiesOnly_updatePolicy

theorem quiet_policies {s' : Store} (h : PoliciesOnly s s') : Quiet late s s' := by
  obtain ⟨policies,dispatches,nextId,hle,rfl⟩ := h
  exact .policies policies dispatches nextId hle

theorem quiet_ingestProbeResult (hs : Sound s) {jobId : ℕ} {accepts : Check} :
    Quiet late s (ingestProbeResult s jobId accepts).1 := by
  unfold ingestProbeResult
  split
  · exact quiet_refl
  next job hjob =>
  split
  · exact quiet_refl
  next run hrun =>
  split_ifs with hstatus hopen
  · exact quiet_refl
  · exact quiet_refl
  split
  · exact quiet_refl
  · exact quiet_refl
  obtain ⟨hm,hid,-⟩ := findTenantRun_mem hrun
  have hj : job.id = jobId := by simpa using List.find?_some hjob
  subst hj
  refine .ingest job run hjob (by simpa using hopen) (hs.findRun hm) hid.symm ?_
  rw [not_and_or,not_not,not_not] at hstatus
  rcases hstatus with h | h <;> rw [h] <;> rfl

theorem quiet_transitionHighScale {tenantId id : ℕ} {action : HighScaleAction}
    {scope gate : Option Denial} :
    Quiet late s (transitionHighScale s tenantId id action scope gate).1 := by
  unfold transitionHighScale
  split
  · exact quiet_refl
  next request hrequest =>
  split
  · exact quiet_refl
  split_ifs with hstop hallowed hkill
  · exact quiet_refl
  · exact quiet_refl
  · exact quiet_refl
  split
  · exact quiet_refl
  refine .highScale _ s.nextId le_rfl fun x hx hrun => ?_
  rcases Tables.mem_update hx with hx | ⟨y,hy,rfl⟩
  · exact Or.inl ⟨x,hx,rfl,hrun⟩
  · right
    have hstart : action = .start := by cases action <;> first | rfl | cases hrun
    have hp := List.find?_some hy
    simp only [Bool.and_eq_true,beq_iff_eq] at hp
    show isKillSwitchActiveForTenant s y.tenantId = false
    rw [hp.2]
    by_contra hk
    exact hkill ⟨hstart,by simpa using hk⟩

theorem apply_quiet (hs : Sound s) (op : Op) (hlate : late = false → Timely s op)
    (hswitch : ∀ tenantId active,op ≠ .setKillSwitch tenantId active) :
    Quiet late s (apply E zone depth s op) := by
  have hhook := fun s run => moves_hooks (E := E) depth [] s run
  cases op with
  | start now body policyEvent => exact quiet_of_moves hs (moves_startTestRun hhook)
  | startDispatch now lease => exact quiet_of_moves hs (moves_startTestRun hhook)
  | getRun now tenantId id => exact quiet_of_moves hs (moves_getTestRun hhook)
  | finalizeRun now tenantId id force => exact quiet_of_moves hs (moves_finalizeTestRun hhook)
  | sweepRuns now ids => exact quiet_of_moves hs (moves_finalizeExpiredRuns hhook ids)
  | leaseJobs tenantId claimable =>
      refine .jobs _ fun j hj => ?_
      simp only [Bool.and_eq_true,beq_iff_eq] at hj
      rw [hj.1.1.1]
      rfl
  | ingest jobId accepts => exact quiet_ingestProbeResult hs
  | finalizeAfterIngest now tenantId runId =>
      exact quiet_of_moves hs (moves_maybeFinalizeRunAfterProbeIngest hhook hlate)
  | cancelRun tenantId id => exact quiet_of_moves hs (moves_cancelTestRun hhook)
  | createScan now tenantId body => exact quiet_of_goes hs goes_createValidationScan
  | advanceScan now tenantId id requested => exact quiet_of_goes hs goes_runScan
  | dispatchScans now tenantId limit requested =>
      exact quiet_of_goes hs goes_dispatchDueValidationScans
  | getScan now tenantId id mayAdvance => exact quiet_of_goes hs goes_getValidationScan
  | patchScan now tenantId id body => exact quiet_of_goes hs goes_patchValidationScan
  | cancelScan now tenantId id cancelSeries => exact quiet_of_goes hs (goes_cancelValidationScan _)
  | createPolicy now tenantId input catalog => exact quiet_policies policiesOnly_createTestPolicy
  | patchPolicy now tenantId id patch => exact quiet_policies policiesOnly_patchTestPolicy
  | archivePolicy tenantId id => exact quiet_policies policiesOnly_archiveTestPolicy
  | leasePolicies now leaseMs tenantId limit =>
      exact quiet_policies policiesOnly_leaseDueTestPolicies
  | claimDispatch now lease => exact quiet_policies policiesOnly_claimPolicyDispatchStart
  | completeDispatch lease settlement => exact quiet_policies policiesOnly_completePolicyDispatch
  | setKillSwitch tenantId active => exact absurd rfl (hswitch tenantId active)
  | submitHighScale tenantId =>
      refine .highScale _ _ (Nat.le_add_right _ 1) fun x hx hrun => ?_
      rcases List.mem_append.mp hx with hx | hx
      · exact Or.inl ⟨x,hx,rfl,hrun⟩
      · cases List.mem_singleton.mp hx
        cases hrun
  | transitionHighScale tenantId id action scope gate => exact quiet_transitionHighScale
  | addGroup tenantId => exact .directory _ _ _ (Nat.le_add_right _ 1)
  | setGroupArchived id archived => exact .directory _ _ s.nextId le_rfl
  | addTarget tenantId targetGroupId => exact .target _ rfl
  | setTargetArchived id archived => exact .archive id archived
  | setSuspended tenants => exact .directory _ tenants s.nextId le_rfl

/-- Every request is one of the described effects. -/
theorem apply_effect (hs : Sound s) (op : Op) (hlate : late = false → Timely s op) :
    Effect E depth late s (apply E zone depth s op) := by
  by_cases h : ∃ tenantId active,op = .setKillSwitch tenantId active
  · obtain ⟨tenantId,active,rfl⟩ := h
    exact .stop tenantId active
  · exact .quiet (apply_quiet hs op hlate fun tenantId active he => h ⟨tenantId,active,he⟩)

theorem moves_sweep {tenantId : ℕ} : Moves late [] s (sweep E depth s tenantId) :=
  moves_autoCancel fun s run => moves_hooks depth [] s run

/-- The record and the stopped requests, before the sweeps. -/
def switched (s : Store) (tenantId : ℕ) (active : Bool) : Store :=
  let s := { s with socKillSwitch := some (killSwitchRecord tenantId active) }
  if active then autoStopRunningHighScaleRequests s tenantId else s

theorem switched_eq (tenantId : ℕ) (active : Bool) :
    ∃ requests,switched s tenantId active = { s with
      socKillSwitch := some (killSwitchRecord tenantId active)
      highScaleRequests := requests } := by
  cases active
  · exact ⟨s.highScaleRequests,rfl⟩
  · exact ⟨_,rfl⟩

theorem sound_switched {tenantId : ℕ} {active : Bool} (hs : Sound s) :
    Sound (switched s tenantId active) := by
  obtain ⟨requests,he⟩ := switched_eq (s := s) tenantId active
  rw [he]
  exact { hs with }

/-- Both passes of the sweep are the described writes. -/
theorem flow_setKillSwitch {tenantId : ℕ} {active : Bool} (hs : Sound s) :
    Flow false [] (switched s tenantId active) (setKillSwitch E depth s tenantId active) := by
  cases active
  · exact .refl
  · have hfirst : Moves false [] (switched s tenantId true)
        (sweep E depth (switched s tenantId true) tenantId) := moves_sweep
    exact (hfirst.trans moves_sweep) (sound_switched hs)

theorem sound_setKillSwitch {tenantId : ℕ} {active : Bool} (hs : Sound s) :
    Sound (setKillSwitch E depth s tenantId active) :=
  (flow_setKillSwitch hs).sound (sound_switched hs)

theorem sound_ingested {job : ProbeJob} {run : TestRun} (hs : Sound s)
    (hrun : s.findRun run.id = some run) (hactive : run.status.active = true) :
    Sound (ingested s job run) := by
  have hupdate : Sound (s.updateRun run.id fun r => collecting { r with
      probeExternalResult := true
      probeEvent := true }) := by
    refine hs.updateRun (fun _ => rfl) fun r hr hv => ?_
    cases hr.symm.trans hrun
    exfalso
    simp only [collecting] at hv
    split_ifs at hv
    rw [hv] at hactive
    cases hactive
  refine { hupdate with jobFresh := ?_ }
  refine Tables.forall_update hupdate.jobFresh fun j hj => ?_
  exact hupdate.jobFresh j (List.mem_of_find?_eq_some hj)

theorem Quiet.sound {s' : Store} (he : Quiet late s s') (hs : Sound s) : Sound s' := by
  cases he with
  | turns h => exact h.sound hs
  | ingest job run hjob hopen hrun hof hactive => exact sound_ingested hs hrun hactive
  | jobs p hp =>
      refine { hs with jobFresh := ?_ }
      exact Tables.forall_updateAll hs.jobFresh fun j hj _ => hs.jobFresh j hj
  | policies policies dispatches nextId hle =>
      have hb : Sound { s with nextId := nextId } := hs.bump hle
      exact { hb with }
  | highScale requests nextId hle hrunning =>
      have hb : Sound { s with nextId := nextId } := hs.bump hle
      exact { hb with }
  | target t ht =>
      have hb : Sound { s with nextId := s.nextId+1 } := hs.bump (Nat.le_add_right _ 1)
      exact { hb with }
  | archive id archived => exact { hs with }
  | directory groups tenants nextId hle =>
      have hb : Sound { s with nextId := nextId } := hs.bump hle
      exact { hb with }

theorem Effect.sound {s' : Store} (he : Effect E depth late s s') (hs : Sound s) : Sound s' := by
  cases he with
  | quiet h => exact h.sound hs
  | stop tenantId active => exact sound_setKillSwitch hs

theorem sound_empty : Sound Store.empty where
  runFresh := by simp [Store.empty]
  runNodup := by simp [Store.empty]
  jobFresh := by simp [Store.empty]
  verdictFresh := by simp [Store.empty]
  verdictStored := by simp [Store.empty]
  scanFresh := by simp [Store.empty]
  scanNodup := by simp [Store.empty]

theorem sound_apply (hs : Sound s) (op : Op) : Sound (apply E zone depth s op) := by
  have he : Effect E depth true s (apply E zone depth s op) := apply_effect hs op (by simp)
  exact he.sound hs

/-- What every effect keeps in a sound store holds after every sequence of requests. -/
theorem exec_invariant {I : Store → Prop}
    (hstep : ∀ s s',Sound s → I s → Effect E depth true s s' → I s') (hs : Sound s) (hi : I s)
    (ops : List Op) : Sound (exec E zone depth s ops) ∧ I (exec E zone depth s ops) := by
  induction ops generalizing s with
  | nil => exact ⟨hs,hi⟩
  | cons op ops ih =>
      exact ih (sound_apply hs op) (hstep s _ hs hi (apply_effect hs op (by simp)))

end

end AstraNull.RuntimeOps

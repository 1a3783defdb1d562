import Mathlib
import AstraNull.RuntimeStore
import AstraNull.TestRuns
import AstraNull.ScanPlanning
import AstraNull.Schedules
import AstraNull.ValidationScans
import AstraNull.ScanLifecycle
import AstraNull.TestPolicies
import AstraNull.EmergencyStop
import AstraNull.RuntimeOps

/-!
# Who writes the record of the switch

No request but `setKillSwitch` writes `socKillSwitch`, from any store, through whatever hooks it
sets off. `setKillSwitch` writes it once, before its sweeps.
-/
namespace AstraNull.SwitchFrame
open RuntimeStore TestRuns Schedules ScanPlanning ValidationScans ScanLifecycle EmergencyStop
  RuntimeOps

section
variable {s : Store}

@[simp]
theorem switch_updateRun {id : ℕ} {f : TestRun → TestRun} :
    (s.updateRun id f).socKillSwitch = s.socKillSwitch := rfl

@[simp]
theorem switch_updateScan {id : ℕ} {f : Scan → Scan} :
    (s.updateScan id f).socKillSwitch = s.socKillSwitch := rfl

@[simp]
theorem switch_reserve {n : ℕ} : (s.reserve n).socKillSwitch = s.socKillSwitch := rfl

@[simp]
theorem switch_nextTick : (nextTick s).socKillSwitch = s.socKillSwitch := rfl

@[simp]
theorem switch_pushScan {x : Scan} : (pushScan s x).socKillSwitch = s.socKillSwitch := rfl

@[simp]
theorem switch_cancelRow {run : TestRun} : (cancelRow s run).socKillSwitch = s.socKillSwitch := rfl

theorem switch_foldl {α : Type} {f : Store → α → Store}
    (hf : ∀ s a,(f s a).socKillSwitch = s.socKillSwitch) (l : List α) :
    (l.foldl f s).socKillSwitch = s.socKillSwitch := by
  induction l generalizing s with
  | nil => rfl
  | cons a l ih => rw [List.foldl_cons,ih,hf]

end

/-- The hook leaves the record of the switch alone. -/
def Frames (hook : Hook) : Prop := ∀ s run,(hook s run).socKillSwitch = s.socKillSwitch

section Runs
variable {E : Env} {hook : Hook} (hhook : Frames hook) {s : Store} {now : ℤ} {tenantId : ℕ}

include hhook

theorem switch_publishVerdict {run : TestRun} {finding : Bool} :
    (publishVerdict hook s run finding).socKillSwitch = s.socKillSwitch :=
  hhook _ _

theorem switch_finalizeVerdictIfReady {run : TestRun} {without : Bool} :
    (finalizeVerdictIfReady E hook s now run without).1.socKillSwitch = s.socKillSwitch := by
  unfold finalizeVerdictIfReady
  split_ifs
  · rfl
  · rfl
  · rfl
  · exact switch_publishVerdict hhook

theorem switch_maybeFinalizeCollectingRun {run : TestRun} {force : Bool} :
    (maybeFinalizeCollectingRun E hook s now run force).1.socKillSwitch = s.socKillSwitch := by
  unfold maybeFinalizeCollectingRun
  split_ifs
  · rfl
  · rfl
  · rfl
  · rfl
  · exact switch_finalizeVerdictIfReady hhook

theorem switch_getTestRun {id : ℕ} :
    (getTestRun E hook s now tenantId id).1.socKillSwitch = s.socKillSwitch := by
  unfold getTestRun
  split
  · rfl
  · exact switch_maybeFinalizeCollectingRun hhook

theorem switch_finalizeTestRun {id : ℕ} {force : Bool} :
    (finalizeTestRun E hook s now tenantId id force).1.socKillSwitch = s.socKillSwitch := by
  unfold finalizeTestRun
  split
  · rfl
  next run _ =>
  have hfinal : (maybeFinalizeCollectingRun E hook s now run true).1.socKillSwitch =
      s.socKillSwitch := switch_maybeFinalizeCollectingRun hhook
  split_ifs
  · rfl
  · rfl
  · rfl
  split
  · next t ht =>
      rw [ht] at hfinal
      exact hfinal
  · next t ht =>
      rw [ht] at hfinal
      exact (switch_getTestRun hhook).trans hfinal

theorem switch_finalizeExpiredRuns (ids : List ℕ) :
    (finalizeExpiredRuns E hook s now ids).socKillSwitch = s.socKillSwitch := by
  induction ids generalizing s with
  | nil => rfl
  | cons id ids ih =>
      rw [finalizeExpiredRuns,ih]
      split
      · rfl
      · exact switch_maybeFinalizeCollectingRun hhook

theorem switch_maybeFinalizeRunAfterProbeIngest {tenant : Option ℕ} {runId : ℕ} :
    (maybeFinalizeRunAfterProbeIngest E hook s now tenant runId).1.socKillSwitch =
      s.socKillSwitch := by
  unfold maybeFinalizeRunAfterProbeIngest
  split
  · rfl
  split_ifs
  · rfl
  · exact switch_finalizeVerdictIfReady hhook

theorem switch_cancelTestRun {id : ℕ} :
    (cancelTestRun hook s tenantId id).1.socKillSwitch = s.socKillSwitch := by
  unfold cancelTestRun
  split
  · rfl
  split_ifs
  · rfl
  · exact hhook _ _

theorem switch_autoCancel :
    (autoCancelActiveSafeRunsForKillSwitch hook s tenantId).1.socKillSwitch = s.socKillSwitch :=
  (switch_foldl (fun s run => hhook s (cancelled run)) _).trans
    (switch_foldl (fun _ _ => switch_cancelRow) _)

theorem switch_launchRun {run : TestRun} (launch : Launch) :
    (launchRun hook s run launch).1.socKillSwitch = s.socKillSwitch := by
  cases launch with
  | missingInput => exact switch_publishVerdict hhook
  | opsReadiness trusted => exact switch_publishVerdict hhook
  | _ => rfl

theorem switch_startTestRun {body : StartBody} {opts : StartOptions} :
    (startTestRun E hook s now body opts).1.socKillSwitch = s.socKillSwitch := by
  unfold startTestRun
  simp only
  split
  · rfl
  · rfl
  split
  · rfl
  split
  · exact switch_getTestRun hhook
  split
  · rfl
  · rfl
  · exact switch_launchRun hhook _

theorem switch_reconcileActiveStep {id : ℕ} :
    (reconcileActiveStep E hook s id).1.socKillSwitch = s.socKillSwitch := by
  unfold reconcileActiveStep
  split
  · rfl
  split
  · rfl
  split
  · rfl
  simp only
  split_ifs <;> exact switch_getTestRun hhook

theorem switch_startStep {scan : Scan} {step : ScanStep} :
    (startStep E hook s scan step now).1.socKillSwitch = s.socKillSwitch := by
  have hstart : (startTestRun E hook (beginStart s scan step now)
      (E.clock (beginStart s scan step now).tick) (stepBody scan step)
      (stepOptions scan step s.nextId now)).1.socKillSwitch = s.socKillSwitch :=
    switch_startTestRun hhook
  unfold startStep
  simp only
  split_ifs
  · exact hstart
  · refine Eq.trans ?_ hstart
    unfold cancelOrphanedRun
    simp only [switch_updateScan]
    split
    · split_ifs
      · exact switch_cancelTestRun hhook
      · rfl
    · rfl

omit hhook in
theorem switch_afterStart {scan : Scan} {step : ScanStep} (result : Except Denial TestRun) :
    (afterStart s scan step now result).1.socKillSwitch = s.socKillSwitch := by
  cases result with
  | ok run => rfl
  | error denial =>
      rw [afterStart]
      split
      · rfl
      · split <;> rfl
      · rfl
      · split_ifs <;> rfl

theorem switch_advanceLoop {id : ℕ} (starts : ℕ) :
    (advanceLoop E hook s id now starts).1.socKillSwitch = s.socKillSwitch := by
  induction starts using Nat.strong_induction_on generalizing s with
  | _ starts ih =>
      have hrec : (reconcileActiveStep E hook s id).1.socKillSwitch = s.socKillSwitch :=
        switch_reconcileActiveStep hhook
      unfold advanceLoop
      split
      · next t ht =>
          rw [ht] at hrec
          exact hrec
      next t ht =>
      rw [ht] at hrec
      split
      · exact hrec
      next scan _ =>
      split
      · split_ifs <;> exact hrec
      next step _ =>
      split
      · exact hrec
      next starts =>
      split_ifs
      · exact hrec
      have hstart : (startStep E hook (t.updateScan id fun x => { x with
          status := .running
          nextEligibleAt := none }) scan step now).1.socKillSwitch = s.socKillSwitch :=
        (switch_startStep hhook).trans hrec
      simp only
      split
      · next u hu =>
          rw [hu] at hstart
          exact hstart
      next u result hu =>
      rw [hu] at hstart
      have hafter : (afterStart u scan step now result).1.socKillSwitch = u.socKillSwitch :=
        switch_afterStart result
      split
      · next v advance hv =>
          rw [hv] at hafter
          exact hafter.trans hstart
      next v hv =>
      rw [hv] at hafter
      exact (ih starts (Nat.lt_succ_self starts)).trans (hafter.trans hstart)

theorem switch_comparisonActs (acts : List HookAct) :
    (comparisonActs E hook s acts).socKillSwitch = s.socKillSwitch := by
  refine switch_foldl (fun s act => ?_) acts
  cases act with
  | start now body => exact switch_startTestRun hhook
  | cancel tenantId runId => exact switch_cancelTestRun hhook

end Runs

section Hooks
variable {E : Env} {zone : Zone} {depth : ℕ} {s : Store} {now : ℤ} {tenantId id requested : ℕ}

theorem switch_advanceScan {hooks : Hooks} (hhooks : ∀ held,Frames (hooks held)) {held : List ℕ} :
    (advanceScan E hooks held s tenantId id now requested).1.socKillSwitch = s.socKillSwitch := by
  unfold advanceScan
  split
  · rfl
  split_ifs
  · rfl
  · rfl
  · rfl
  · exact switch_advanceLoop (hhooks _) _

/-- However deep they nest, the hooks leave the record alone. -/
theorem frames_hooks (n : ℕ) (held : List ℕ) : Frames (hooks E n held) := by
  induction n generalizing held with
  | zero => exact fun _ _ => rfl
  | succ n ih =>
      intro s run
      have hacts : ∀ t acts,(comparisonActs E (hooks E n held) (nextTick t) acts).socKillSwitch =
          t.socKillSwitch := fun t acts => switch_comparisonActs (ih held) acts
      have hadvance : ∀ t,(advanceScanForRun E (hooks E n) held t run).socKillSwitch =
          t.socKillSwitch := by
        intro t
        unfold advanceScanForRun
        split
        · rfl
        · exact switch_advanceScan ih
      exact ((hacts _ _).trans (hadvance _)).trans (hacts s _)

theorem switch_runScan :
    (runScan E depth s tenantId id now requested).socKillSwitch = s.socKillSwitch :=
  switch_advanceScan (frames_hooks depth)

theorem switch_createValidationScan {body : ScanBody} :
    (createValidationScan E depth s now tenantId body).1.socKillSwitch = s.socKillSwitch := by
  unfold createValidationScan
  split
  · rfl
  simp only
  split
  · rfl
  split_ifs
  · rfl
  · exact switch_runScan
  · rfl

theorem switch_createNextOccurrence {t : Store} (h : createNextOccurrence zone s id now = some t) :
    t.socKillSwitch = s.socKillSwitch := by
  unfold createNextOccurrence at h
  split at h
  · cases h
    rfl
  split at h
  · cases h
    rfl
  split_ifs at h
  · cases h
    rfl
  split at h
  · cases h
  simp only at h
  split at h
  · cases h
    rfl
  · cases h
    rfl

theorem switch_dispatchScheduledScan :
    (dispatchScheduledScan E zone depth s id now requested).1.socKillSwitch = s.socKillSwitch := by
  unfold dispatchScheduledScan
  split
  · rfl
  split_ifs
  · rfl
  · rfl
  simp only
  split
  · rfl
  next t ht =>
  have hnext := switch_createNextOccurrence ht
  split
  · exact hnext
  · exact switch_runScan.trans hnext

theorem switch_dispatchDue :
    (dispatchDue E zone depth s now requested id).socKillSwitch = s.socKillSwitch := by
  have hdispatch : (dispatchScheduledScan E zone depth s id now requested).1.socKillSwitch =
      s.socKillSwitch := switch_dispatchScheduledScan
  unfold dispatchDue
  split
  · next t ht =>
      rw [ht] at hdispatch
      exact hdispatch
  · next t _ _ ht =>
      rw [ht] at hdispatch
      exact hdispatch

theorem switch_getValidationScan {mayAdvance : Bool} :
    (getValidationScan E zone depth s now tenantId id mayAdvance).socKillSwitch =
      s.socKillSwitch := by
  unfold getValidationScan
  split
  · rfl
  unfold readPathAdvance
  split_ifs
  · rfl
  · exact switch_dispatchScheduledScan
  · exact switch_runScan
  · rfl

theorem switch_patchValidationScan {body : ScanBody} :
    (patchValidationScan E s now tenantId id body).1.socKillSwitch = s.socKillSwitch := by
  unfold patchValidationScan
  split
  · rfl
  split_ifs
  · rfl
  split
  · rfl
  simp only
  split
  · rfl
  split
  · rfl
  · rfl

theorem switch_cancelRun {runId : ℕ} :
    (cancelRun E depth s tenantId runId).socKillSwitch = s.socKillSwitch := by
  unfold cancelRun
  split
  · rfl
  split_ifs
  · exact switch_cancelTestRun (frames_hooks depth [])
  · rfl

theorem switch_cancelScanWork {scan : Scan} :
    (cancelScanWork E depth s scan).socKillSwitch = s.socKillSwitch := by
  have hstep : ∀ s stepId,(cancelActiveStep E depth scan s stepId).socKillSwitch =
      s.socKillSwitch := by
    intro s stepId
    unfold cancelActiveStep
    split
    · rfl
    split_ifs
    · rfl
    simp only [switch_updateScan]
    split
    · rfl
    · exact switch_cancelRun
  have horphan : ∀ s runId,(cancelOrphan E depth scan s runId).socKillSwitch =
      s.socKillSwitch := by
    intro s runId
    unfold cancelOrphan
    split
    · rfl
    split_ifs
    · rfl
    simp only
    split
    · exact switch_cancelRun
    · exact switch_cancelRun
  exact (switch_foldl horphan _).trans (switch_foldl hstep _)

theorem switch_cancelValidationScan {cancelSeries : Bool} (fuel : ℕ) :
    (cancelValidationScan E zone depth fuel s now tenantId id cancelSeries).1.socKillSwitch =
      s.socKillSwitch := by
  induction fuel generalizing s id cancelSeries with
  | zero =>
      rw [cancelValidationScan]
      split
      · rfl
      split_ifs
      · rfl
      · exact switch_cancelScanWork
      simp only
      split
      · exact switch_cancelScanWork
      next t ht => exact (switch_createNextOccurrence ht).trans switch_cancelScanWork
  | succ fuel ih =>
      rw [cancelValidationScan]
      split
      · rfl
      split_ifs
      · rfl
      · exact (switch_foldl (fun _ _ => ih) _).trans switch_cancelScanWork
      simp only
      split
      · exact switch_cancelScanWork
      next t ht => exact (switch_createNextOccurrence ht).trans switch_cancelScanWork

theorem switch_ingestProbeResult {jobId : ℕ} {accepts : Check} :
    (ingestProbeResult s jobId accepts).1.socKillSwitch = s.socKillSwitch := by
  unfold ingestProbeResult
  split
  · rfl
  split
  · rfl
  split_ifs
  · rfl
  · rfl
  split <;> rfl

theorem switch_transitionHighScale {action : HighScaleAction} {scope gate : Option Denial} :
    (transitionHighScale s tenantId id action scope gate).1.socKillSwitch = s.socKillSwitch := by
  unfold transitionHighScale
  split
  · rfl
  split
  · rfl
  split_ifs
  · rfl
  · rfl
  · rfl
  split <;> rfl

theorem switch_policiesOnly {t : Store} (h : PoliciesOnly s t) :
    t.socKillSwitch = s.socKillSwitch := by
  obtain ⟨_,_,_,-,rfl⟩ := h
  rfl

/-- Every request but a change of the switch leaves the record alone. -/
theorem switch_apply (op : Op) (h : ∀ tenantId active,op ≠ .setKillSwitch tenantId active) :
    (apply E zone depth s op).socKillSwitch = s.socKillSwitch := by
  have hhook := @frames_hooks E depth []
  cases op with
  | start now body policyEvent => exact switch_startTestRun hhook
  | startDispatch now lease => exact switch_startTestRun hhook
  | getRun now tenantId id => exact switch_getTestRun hhook
  | finalizeRun now tenantId id force => exact switch_finalizeTestRun hhook
  | sweepRuns now ids => exact switch_finalizeExpiredRuns hhook ids
  | ingest jobId accepts => exact switch_ingestProbeResult
  | finalizeAfterIngest now tenantId runId => exact switch_maybeFinalizeRunAfterProbeIngest hhook
  | cancelRun tenantId id => exact switch_cancelTestRun hhook
  | createScan now tenantId body => exact switch_createValidationScan
  | advanceScan now tenantId id requested => exact switch_runScan
  | dispatchScans now tenantId limit requested => exact switch_foldl (fun _ _ => switch_dispatchDue) _
  | getScan now tenantId id mayAdvance => exact switch_getValidationScan
  | patchScan now tenantId id body => exact switch_patchValidationScan
  | cancelScan now tenantId id cancelSeries => exact switch_cancelValidationScan _
  | createPolicy now tenantId input catalog =>
      exact switch_policiesOnly policiesOnly_createTestPolicy
  | patchPolicy now tenantId id patch => exact switch_policiesOnly policiesOnly_patchTestPolicy
  | archivePolicy tenantId id => exact switch_policiesOnly policiesOnly_archiveTestPolicy
  | leasePolicies now leaseMs tenantId limit =>
      exact switch_policiesOnly policiesOnly_leaseDueTestPolicies
  | claimDispatch now lease => exact switch_policiesOnly policiesOnly_claimPolicyDispatchStart
  | completeDispatch lease settlement =>
      exact switch_policiesOnly policiesOnly_completePolicyDispatch
  | setKillSwitch tenantId active => exact absurd rfl (h tenantId active)
  | transitionHighScale tenantId id action scope gate => exact switch_transitionHighScale
  | _ => rfl

theorem switch_setKillSwitch (active : Bool) :
    (setKillSwitch E depth s tenantId active).socKillSwitch =
      some (killSwitchRecord tenantId active) := by
  have hsweep : ∀ s,(sweep E depth s tenantId).socKillSwitch = s.socKillSwitch := fun _ =>
    switch_autoCancel (frames_hooks depth [])
  unfold setKillSwitch
  cases active with
  | false => rfl
  | true => exact (hsweep _).trans (hsweep _)

end Hooks

end AstraNull.SwitchFrame

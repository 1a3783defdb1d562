import Mathlib
import AstraNull.Tables
import AstraNull.RuntimeStore
import AstraNull.TestRuns
import AstraNull.ScanPlanning
import AstraNull.ValidationScans
import AstraNull.RuntimeFlow

/-!
# The services as writes

One lemma for each function of the runtime: what it does is a string of the described writes,
provided that the hooks it calls do no more. The hooks themselves follow by induction on how
deep they nest.
-/
namespace AstraNull.RuntimeMoves
open RuntimeStore TestRuns ScanPlanning ValidationScans RuntimeFlow

section Runs
variable {E : Env} {hook : Hook} {late : Bool} {held : List ℕ} {s : Store}

theorem moves_nextTick : Moves late held s (nextTick s) :=
  .single fun _ => .book (s.tick+1) s.nextId le_rfl

theorem moves_reserve (n : ℕ) : Moves late held s (s.reserve n) :=
  .single fun _ => .book s.tick (s.nextId+n) (Nat.le_add_right _ _)

theorem findTenantRun_mem {tenantId id : ℕ} {run : TestRun}
    (h : findTenantRun s tenantId id = some run) :
    run ∈ s.testRuns ∧ run.id = id ∧ run.tenantId = tenantId := by
  have hp := List.find?_some h
  simp only [Bool.and_eq_true,beq_iff_eq] at hp
  exact ⟨List.mem_of_find?_eq_some h,hp.1,hp.2⟩

variable (hhook : ∀ s run,Moves false held s (hook s run))
include hhook

theorem moves_publishVerdict {run row : TestRun} {finding : Bool}
    (hrow : s.findRun run.id = some row) (htenant : row.tenantId = run.tenantId)
    (hevidence : hasExternalProbeEvidence row = true)
    (hlate : late = false → row.status.active = true) (hnone : hasVerdict s run.id = false) :
    Moves late held s (publishVerdict hook s run finding) := by
  have hverdict : Moves late held s (withVerdict s run finding) :=
    .single fun _ => .verdict run finding row hrow htenant hevidence hlate hnone
  exact hverdict.trans ((hhook _ _).weaken (List.Subset.refl _))

theorem moves_finalizeVerdictIfReady {run : TestRun} {now : ℤ} {without : Bool}
    (hrun : s.findRun run.id = some run) (hlate : late = false → run.status.active = true) :
    Moves late held s (finalizeVerdictIfReady E hook s now run without).1 := by
  unfold finalizeVerdictIfReady
  split_ifs with hv he hw
  · exact .refl s
  · exact .refl s
  · exact .refl s
  · refine moves_nextTick.trans (moves_publishVerdict hhook hrun rfl ?_ hlate ?_)
    · simpa using he
    · show hasVerdict s run.id = false
      simpa using hv

theorem moves_maybeFinalizeCollectingRun {run : TestRun} {now : ℤ} {force : Bool}
    (hrun : s.findRun run.id = some run) :
    Moves late held s (maybeFinalizeCollectingRun E hook s now run force).1 := by
  unfold maybeFinalizeCollectingRun
  split_ifs with hs hv he hw
  · exact .refl s
  · exact .refl s
  · exact .refl s
  · exact .refl s
  · refine moves_finalizeVerdictIfReady hhook hrun fun _ => ?_
    have hs : run.status = .collecting := by simpa using hs
    rw [hs]
    rfl

theorem moves_getTestRun {now : ℤ} {tenantId id : ℕ} :
    Moves late held s (getTestRun E hook s now tenantId id).1 := by
  unfold getTestRun
  split
  · exact .refl s
  · next run hf =>
      intro hs
      obtain ⟨hm,-,-⟩ := findTenantRun_mem hf
      exact moves_maybeFinalizeCollectingRun hhook (hs.findRun hm) hs

theorem moves_finalizeTestRun {now : ℤ} {tenantId id : ℕ} {force : Bool} :
    Moves late held s (finalizeTestRun E hook s now tenantId id force).1 := by
  unfold finalizeTestRun
  split
  · exact .refl s
  · next run hf =>
      intro hs
      obtain ⟨hm,-,-⟩ := findTenantRun_mem hf
      have hfinal : Moves late held s (maybeFinalizeCollectingRun E hook s now run true).1 :=
        moves_maybeFinalizeCollectingRun hhook (hs.findRun hm)
      split_ifs
      · exact .refl
      · exact .refl
      · exact .refl
      · split
        · next t ht =>
            rw [ht] at hfinal
            exact hfinal hs
        · next t ht =>
            rw [ht] at hfinal
            exact (hfinal.trans (moves_getTestRun hhook)) hs

theorem moves_finalizeExpiredRuns {now : ℤ} (ids : List ℕ) :
    Moves late held s (finalizeExpiredRuns E hook s now ids) := by
  induction ids generalizing s with
  | nil => exact .refl s
  | cons id ids ih =>
      refine Moves.trans ?_ ih
      split
      · exact .refl s
      · next run hf =>
          obtain ⟨-,rfl⟩ := findRun_mem hf
          exact moves_maybeFinalizeCollectingRun hhook hf

theorem moves_cancelTestRun {tenantId id : ℕ} :
    Moves late held s (cancelTestRun hook s tenantId id).1 := by
  unfold cancelTestRun
  split
  · exact .refl s
  · next run hf =>
      split_ifs with ha
      · exact .refl s
      · obtain ⟨hm,-,-⟩ := findTenantRun_mem hf
        have hcancel : Moves late held s (cancelRow s run) :=
          .single fun hs => .cancel run (hs.findRun hm) (by simpa using ha)
        exact hcancel.trans ((hhook _ _).weaken (List.Subset.refl _))

/-- The status is not looked at, so a verdict may reach a run that is over. -/
theorem moves_maybeFinalizeRunAfterProbeIngest {now : ℤ} {tenantId : Option ℕ} {runId : ℕ}
    (hlate : late = false → ∀ r,s.findRun runId = some r → r.status ≠ .cancelled) :
    Moves late held s (maybeFinalizeRunAfterProbeIngest E hook s now tenantId runId).1 := by
  unfold maybeFinalizeRunAfterProbeIngest
  split
  · exact .refl s
  next run hf =>
  split_ifs with he
  · exact .refl s
  intro hs
  have hp := List.find?_some hf
  simp only [Bool.and_eq_true,beq_iff_eq] at hp
  have hfind := hs.findRun (List.mem_of_find?_eq_some hf)
  have hnote : Moves late held s (s.updateRun run.id collecting) := by
    refine .single fun _ => .note run.id collecting (fun _ => rfl) fun r hr => ?_
    by_cases hrun : r.status = .running
    · refine Or.inr ⟨by rw [hrun]; rfl,rfl,Or.inr ⟨hrun,?_⟩,Or.inl rfl⟩
      simp [collecting,hrun]
    · left
      simp [collecting,hrun]
  have hfound : (s.updateRun run.id collecting).findRun run.id = some (collecting run) :=
    findRun_write hfind fun _ => rfl
  by_cases hv : hasVerdict s run.id = true
  · have hsame : (finalizeVerdictIfReady E hook (s.updateRun run.id collecting) now (collecting run)
        false).1 = s.updateRun run.id collecting := by
      have hv' : hasVerdict (s.updateRun run.id collecting) (collecting run).id = true := hv
      simp [finalizeVerdictIfReady,hv']
    rw [hsame]
    exact hnote hs
  · refine (hnote.trans (moves_finalizeVerdictIfReady hhook hfound fun hl => ?_)) hs
    have hc := hlate hl run (hp.1 ▸ hfind)
    have hnv : run.status ≠ .verdicted := fun h =>
      hv (hs.verdictStored run (List.mem_of_find?_eq_some hf) h)
    show (if run.status = .running then RunStatus.collecting else run.status).active = true
    split_ifs
    · rfl
    · cases hst : run.status with
      | planned => rfl
      | running => rfl
      | collecting => rfl
      | verdicted => exact absurd hst hnv
      | cancelled => exact absurd hst hc

omit hhook in
theorem findRun_cancelRow (run : TestRun) (i : ℕ) :
    (cancelRow s run).findRun i = if i = run.id then (s.findRun i).map cancelled else s.findRun i :=
  findRun_updateRun (f := cancelled) cancelled_id i

omit hhook in
theorem moves_cancelRows (runs : List TestRun) (hn : (runs.map TestRun.id).Nodup)
    (hr : ∀ r ∈ runs,s.findRun r.id = some r ∧ r.status.active = true) :
    Moves late held s (cancelRows s runs) := by
  induction runs generalizing s with
  | nil => exact .refl s
  | cons run runs ih =>
      simp only [List.map_cons,List.nodup_cons] at hn
      obtain ⟨hfind,hactive⟩ := hr run List.mem_cons_self
      have hcancel : Moves late held s (cancelRow s run) :=
        .single fun _ => .cancel run hfind hactive
      refine hcancel.trans (ih hn.2 ?_)
      intro r hm
      have hne : r.id ≠ run.id := fun he => hn.1 (he ▸ List.mem_map_of_mem hm)
      rw [findRun_cancelRow,if_neg hne]
      exact hr r (List.mem_cons_of_mem run hm)

theorem moves_notify (runs : List TestRun) :
    Moves late held s (runs.foldl (fun s run => hook s (cancelled run)) s) := by
  induction runs generalizing s with
  | nil => exact .refl s
  | cons run runs ih => exact ((hhook s _).weaken (List.Subset.refl _)).trans ih

theorem moves_autoCancel {tenantId : ℕ} :
    Moves late held s (autoCancelActiveSafeRunsForKillSwitch hook s tenantId).1 := by
  intro hs
  refine Moves.trans (moves_cancelRows _ ?_ ?_) (moves_notify hhook _) hs
  · exact hs.runNodup.sublist (List.filter_sublist.map _)
  · intro r hr
    obtain ⟨hm,hp⟩ := List.mem_filter.mp hr
    simp only [Bool.and_eq_true] at hp
    exact ⟨hs.findRun hm,hp.2⟩

end Runs

section Start
variable {E : Env} {hook : Hook} {late : Bool} {held : List ℕ} {s : Store}

/-- What the gates have found out. -/
structure Passed (s : Store) (now : ℤ) (body : StartBody) (opts : StartOptions) (target : Target)
    (policy : Option TestPolicy) : Prop where
  stopInactive : isKillSwitchActiveForTenant s body.tenantId = false
  targetId : body.targetId = some target.id
  live : target ∈ s.targets ∧ target.tenantId = body.tenantId ∧
    target.targetGroupId = body.targetGroupId
  noActive : activeRunForGroup s body.tenantId body.targetGroupId target.id = none
  binding : validatePolicyBinding s now body opts = .ok policy

theorem startGates_ok {now : ℤ} {choice : StartChoice} {body : StartBody} {opts : StartOptions}
    {target : Target} {policy : Option TestPolicy}
    (h : startGates s now choice body opts = .ok (target,policy)) :
    Passed s now body opts target policy := by
  unfold startGates at h
  simp only [bind,Except.bind,pure,Except.pure,throw,throwThe,MonadExceptOf.throw] at h
  split at h
  · exact absurd h (by simp)
  split at h
  · exact absurd h (by simp)
  next hkill =>
  split at h
  · exact absurd h (by simp)
  split at h
  · exact absurd h (by simp)
  split at h
  · exact absurd h (by simp)
  next targetId htid =>
  split at h
  · exact absurd h (by simp)
  next t ht =>
  split at h
  · exact absurd h (by simp)
  next hrun =>
  split at h
  · exact absurd h (by simp)
  split at h
  · exact absurd h (by simp)
  split at h
  · exact absurd h (by simp)
  next p hp =>
  cases h
  have hm := List.mem_of_find?_eq_some ht
  have ht := List.find?_some ht
  simp only [Bool.and_eq_true,beq_iff_eq] at ht
  obtain ⟨⟨⟨rfl,htenant⟩,hgroup⟩,-⟩ := ht
  exact {
    stopInactive := by simpa using hkill
    targetId := htid
    live := ⟨hm,htenant,hgroup⟩
    noActive := by simpa using hrun
    binding := hp }

/-- A trusted dispatch that was validated is leased. -/
theorem validatePolicyBinding_leased {now : ℤ} {body : StartBody} {opts : StartOptions}
    {policy : TestPolicy} {d : PolicyBinding}
    (h : validatePolicyBinding s now body opts = .ok (some policy))
    (hd : opts.policyDispatch = some d) :
    ∃ row ∈ s.testPolicyDispatches,
      row.id = d.dispatchId ∧ row.tenantId = body.tenantId ∧ row.state = .leased := by
  unfold validatePolicyBinding at h
  simp only [hd] at h
  split at h
  · cases h
  split at h
  · cases h
  split_ifs at h
  split at h
  · cases h
  next row hrow =>
  split_ifs at h with hbad
  have hp := List.find?_some hrow
  simp only [Bool.and_eq_true,beq_iff_eq] at hp
  refine ⟨row,List.mem_of_find?_eq_some hrow,hp.1.1,hp.1.2,?_⟩
  by_contra hne
  exact hbad (Or.inl hne)

theorem replayOf_none {body : StartBody} {opts : StartOptions} (h : replayOf s body opts = none) :
    (∀ d,opts.policyDispatch = some d → ∀ r ∈ s.testRuns,
      r.tenantId = body.tenantId → r.policyDispatchId ≠ some d.dispatchId) ∧
    ∀ d,opts.scanDispatch = some d → ∀ r ∈ s.testRuns,
      r.tenantId = body.tenantId → r.scanStepId ≠ some d.stepId := by
  rw [replayOf,Option.or_eq_none_iff] at h
  constructor
  · intro d hd r hr htenant he
    have hn := h.1
    rw [hd,Option.bind_some,List.find?_eq_none] at hn
    exact hn r hr (by simp [htenant,he])
  · intro d hd r hr htenant he
    have hn := h.2
    rw [hd,Option.bind_some,List.find?_eq_none] at hn
    exact hn r hr (by simp [htenant,he])

theorem startable_newRun {now : ℤ} {choice : StartChoice} {body : StartBody} {opts : StartOptions}
    {target : Target} {policy : Option TestPolicy} (h : Passed s now body opts target policy)
    (hreplay : replayOf s body opts = none) :
    Startable s (newRun s now choice body opts target policy) where
  id_eq := rfl
  running := rfl
  noEvidence := rfl
  target := ⟨target,h.live.1,rfl,h.live.2.1,h.live.2.2⟩
  stopInactive := h.stopInactive
  noActive := by
    intro r hr htenant hgroup htarget
    have hn := h.noActive
    rw [activeRunForGroup,List.find?_eq_none] at hn
    have hne := hn r hr
    simp only [newRun] at htenant hgroup htarget
    simpa [htenant,hgroup,htarget] using hne
  firstOfDispatch := by
    intro d hd r hr htenant
    obtain ⟨trusted,ht,rfl⟩ := Option.map_eq_some_iff.mp hd
    exact (replayOf_none hreplay).1 trusted ht r hr htenant
  leased := by
    intro d p hd hp
    obtain ⟨trusted,ht,rfl⟩ := Option.map_eq_some_iff.mp hd
    obtain ⟨row,rfl,-⟩ := Option.map_eq_some_iff.mp hp
    exact validatePolicyBinding_leased h.binding ht
  firstOfStep := by
    intro p hp r hr htenant
    obtain ⟨d,hd,rfl⟩ := Option.map_eq_some_iff.mp hp
    exact (replayOf_none hreplay).2 d hd r hr htenant

/-- A run right after it was stored. -/
structure JustStored (s : Store) (run : TestRun) : Prop where
  found : s.findRun run.id = some run
  running : run.status = .running
  noEvidence : hasExternalProbeEvidence run = false
  noJob : ∀ j ∈ s.probeJobs,j.testRunId ≠ run.id
  noVerdict : hasVerdict s run.id = false

theorem justStored_pushRun {r : TestRun} (hs : Sound s) (hr : Startable s r) :
    JustStored (pushRun s r) r where
  found := by
    refine (hs.pushRun hr.id_eq hr.running).findRun ?_
    exact List.mem_append_right _ (List.mem_singleton.mpr rfl)
  running := hr.running
  noEvidence := hr.noEvidence
  noJob := by
    intro j hj he
    have := hs.jobFresh j hj
    have := hr.id_eq
    omega
  noVerdict := by
    simp only [hasVerdict,List.any_eq_false]
    intro v hv he
    have := hs.verdictFresh v hv
    have := hr.id_eq
    simp only [beq_iff_eq] at he
    omega

section
variable {run : TestRun} {f : TestRun → TestRun}

/-- Evidence for a run that has no job yet. -/
theorem JustStored.moves_note (h : JustStored s run) (hid : ∀ r,(f r).id = r.id)
    (hcore : runCore (f run) = runCore run)
    (hstatus : (f run).status = .running ∨ (f run).status = .collecting) :
    Moves late held s (s.updateRun run.id f) := by
  refine .single fun _ => .note run.id f hid ?_
  intro r hr
  cases hr.symm.trans h.found
  refine Or.inr ⟨by rw [h.running]; rfl,hcore,?_,Or.inr fun j hj he => absurd he (h.noJob j hj)⟩
  rw [h.running]
  exact hstatus.imp_right fun hc => ⟨rfl,hc⟩

theorem JustStored.found_note (h : JustStored s run) (hid : ∀ r,(f r).id = r.id) :
    (s.updateRun run.id f).findRun run.id = some (f run) := findRun_write h.found hid

end

theorem moves_launchRun (hhook : ∀ s run,Moves false held s (hook s run)) {run : TestRun}
    (h : JustStored s run) (launch : Launch) :
    Moves late held s (launchRun hook s run launch).1 := by
  have hdrop : Moves late held s (dropStartedRun s run.id) :=
    .single fun _ => .drop run h.found h.running h.noJob
  cases launch with
  | lineageRefused denial => exact hdrop
  | throws => exact .refl s
  | missingInput =>
      have hnote : Moves late held s (s.updateRun run.id unsupportedTarget) :=
        h.moves_note (fun _ => rfl) rfl (Or.inl h.running)
      refine hnote.trans (moves_publishVerdict hhook
        (h.found_note fun _ => rfl) rfl rfl (fun _ => ?_) h.noVerdict)
      show run.status.active = true
      rw [h.running]
      rfl
  | eventCap => exact hdrop
  | jobFails => exact hdrop
  | job => exact .single fun _ => .job run run h.found rfl h.running h.noEvidence h.noJob
  | inline trusted =>
      exact h.moves_note (f := inlineResult trusted) (fun _ => rfl) rfl (Or.inr rfl)
  | opsReadiness trusted =>
      have hnote : Moves late held s (s.updateRun run.id (inlineResult trusted)) :=
        h.moves_note (fun _ => rfl) rfl (Or.inr rfl)
      exact hnote.trans (moves_publishVerdict hhook
        (h.found_note fun _ => rfl) rfl rfl (fun _ => rfl) h.noVerdict)

theorem moves_startTestRun (hhook : ∀ s run,Moves false held s (hook s run)) {now : ℤ}
    {body : StartBody} {opts : StartOptions} :
    Moves late held s (startTestRun E hook s now body opts).1 := by
  unfold startTestRun
  refine Moves.trans moves_nextTick ?_
  simp only
  split
  · exact .refl _
  · exact .refl _
  split
  · exact .refl _
  next target policy hgates =>
  split
  · exact moves_getTestRun hhook
  next hreplay =>
  split
  · exact .refl _
  · exact .refl _
  have hstart : Startable (nextTick s)
      (newRun (nextTick s) now (E.start s.tick) body opts target policy) :=
    startable_newRun (startGates_ok hgates) hreplay
  intro hs
  have hpush : Moves late held (nextTick s)
      (pushRun (nextTick s) (newRun (nextTick s) now (E.start s.tick) body opts target policy)) :=
    .single fun _ => .start _ hstart
  exact (hpush.trans (moves_launchRun hhook (justStored_pushRun hs hstart) _)) hs

end Start

section Keeps
variable {x : Scan}

theorem keeps_updateStep {i : ℕ} {f : ScanStep → ScanStep} (hf : ∀ p,stepKey (f p) = stepKey p) :
    Keeps x (x.updateStep i f) := ⟨rfl,Tables.map_update hf⟩

theorem keeps_skipRemainingSteps {reason : String} : Keeps x (skipRemainingSteps reason x) :=
  ⟨rfl,Tables.map_updateAll fun _ => rfl⟩

theorem keeps_abortScan {i : ℕ} {error : String} : Keeps x (abortScan i error x) := by
  have hdeny : Keeps x (x.updateStep i (denyStep error)) := keeps_updateStep fun _ => rfl
  exact Keeps.trans (y := { x.updateStep i (denyStep error) with abortReason := some error })
    ⟨hdeny.core,hdeny.steps⟩ keeps_skipRemainingSteps

theorem keeps_resumeOwnStep {run : TestRun} {i j : ℕ} : Keeps x (resumeOwnStep run i j x) := by
  have hown : Keeps x (x.updateStep i fun p => followRun run (bindRun run.id p)) :=
    keeps_updateStep fun _ => rfl
  exact hown.trans (keeps_updateStep fun _ => rfl)

theorem stepKey_giveUpStep (p : ScanStep) : stepKey (giveUpStep p) = stepKey p := by
  unfold giveUpStep
  split_ifs <;> rfl

/-- A scan that is finished is not active and not scheduled. -/
theorem finishScan_status : (finishScan x).status = .completed ∨ (finishScan x).status = .denied := by
  simp only [finishScan,refreshSummary,releaseLease,deriveScanStatus]
  split_ifs <;> simp_all

end Keeps

/-- The executor may write the scan: it is stored and active. -/
def Own (id : ℕ) (s : Store) : Prop := ∃ x,s.findScan id = some x ∧ x.status.active = true

/-- Writes after which the scan is still active. -/
def Drives (held : List ℕ) (id : ℕ) (s s' : Store) : Prop :=
  Sound s → Own id s → Flow false held s s' ∧ Own id s'

/-- Writes of an executor up to its return. -/
def Ends (held : List ℕ) (id : ℕ) (s s' : Store) : Prop :=
  Sound s → Own id s → Flow false held s s'

section Executor
variable {E : Env} {hook : Hook} {held : List ℕ} {id : ℕ} {s t u : Store} {f : Scan → Scan}

theorem Drives.refl : Drives held id s s := fun _ ho => ⟨.refl,ho⟩

theorem Drives.trans (h : Drives held id s t) (k : Drives held id t u) : Drives held id s u := by
  intro hs ho
  obtain ⟨hst,hot⟩ := h hs ho
  obtain ⟨htu,hou⟩ := k (hst.sound hs) hot
  exact ⟨hst.trans htu,hou⟩

theorem Drives.ends (h : Drives held id s t) : Ends held id s t := fun hs ho => (h hs ho).1

theorem Drives.then_ends (h : Drives held id s t) (k : Ends held id t u) : Ends held id s u := by
  intro hs ho
  obtain ⟨hst,hot⟩ := h hs ho
  exact hst.trans (k (hst.sound hs) hot)

theorem drives_of_moves (h : Moves false (id::held) s t) : Drives held id s t := by
  intro hs ho
  refine ⟨h.weaken (List.subset_cons_self id held) hs,?_⟩
  rw [Own,(h hs).findScan_held]
  exact ho

theorem not_scheduled_of_active {x : Scan} (h : x.status.active = true) : x.status ≠ .scheduled := by
  intro he
  rw [he] at h
  cases h

theorem ends_write (hid : id ∉ held) (hf : ∀ y,Keeps y (f y))
    (hs : ∀ y,y.status.active = true → (f y).status ≠ .scheduled) :
    Ends held id s (s.updateScan id f) := by
  rintro - ⟨x,hx,ha⟩
  exact .single (.scan id f x hid hf hx (not_scheduled_of_active ha) (hs x ha) fun _ => ha)

theorem drives_write (hid : id ∉ held) (hf : ∀ y,Keeps y (f y))
    (ha : ∀ y,y.status.active = true → (f y).status.active = true) :
    Drives held id s (s.updateScan id f) := by
  intro hs ho
  refine ⟨ends_write hid hf (fun y hy => not_scheduled_of_active (ha y hy)) hs ho,?_⟩
  obtain ⟨x,hx,hxa⟩ := ho
  exact ⟨f x,findScan_write hx fun y => (hf y).id_eq,ha x hxa⟩

theorem drives_updateStep (hid : id ∉ held) {i : ℕ} {g : ScanStep → ScanStep}
    (hg : ∀ p,stepKey (g p) = stepKey p) :
    Drives held id s (s.updateScan id fun x => x.updateStep i g) :=
  drives_write hid (fun _ => keeps_updateStep hg) fun _ h => h

variable (hid : id ∉ held) (hhook : ∀ s run,Moves false (id::held) s (hook s run))
include hid hhook

theorem drives_reconcileActiveStep :
    Drives held id s (reconcileActiveStep E hook s id).1 := by
  unfold reconcileActiveStep
  split
  · exact .refl
  next scan hscan =>
  split
  · exact .refl
  next active hactive =>
  split
  · exact drives_updateStep hid stepKey_giveUpStep
  next run hrun =>
  have hbind : Drives held id s (s.updateScan id fun x => x.updateStep active.id (bindRun run.id)) :=
    drives_updateStep hid fun _ => rfl
  have hread : Drives held id s (getTestRun E hook
      (s.updateScan id fun x => x.updateStep active.id (bindRun run.id))
      (E.clock (s.updateScan id fun x => x.updateStep active.id (bindRun run.id)).tick)
      scan.tenantId run.id).1 :=
    hbind.trans (drives_of_moves (moves_getTestRun hhook))
  simp only
  split_ifs
  · exact hread.trans (drives_updateStep hid fun _ => rfl)
  · refine hread.trans (drives_write hid (fun y => ?_) fun y hy => ?_)
    · exact ⟨rfl,Tables.map_update fun _ => rfl⟩
    · show (if y.status = .pending then ScanStatus.running else y.status).active = true
      split_ifs
      · rfl
      · exact hy

theorem drives_cancelOrphanedRun {tenantId stepId : ℕ} {run : Option TestRun} :
    Drives held id s (cancelOrphanedRun hook s id tenantId stepId run) := by
  unfold cancelOrphanedRun
  refine Drives.trans ?_ (drives_updateStep hid fun _ => rfl)
  split
  · split_ifs
    · exact drives_of_moves (moves_cancelTestRun hhook)
    · exact .refl
  · exact .refl

theorem drives_startStep {scan : Scan} {step : ScanStep} {now : ℤ} (hscan : scan.id = id) :
    Drives held id s (startStep E hook s scan step now).1 := by
  subst hscan
  have hbump : Drives held scan.id s (s.reserve 1) := drives_of_moves (moves_reserve 1)
  have hbegin : Drives held scan.id s (beginStart s scan step now) := by
    refine hbump.trans (drives_write hid (fun y => ?_) fun y hy => hy)
    have hk : Keeps y (y.updateStep step.id beginStep) := keeps_updateStep fun _ => rfl
    exact ⟨hk.core,hk.steps⟩
  have hstart : Drives held scan.id s (startTestRun E hook (beginStart s scan step now)
      (E.clock (beginStart s scan step now).tick) (stepBody scan step)
      (stepOptions scan step s.nextId now)).1 :=
    hbegin.trans (drives_of_moves (moves_startTestRun hhook))
  simp only [startStep]
  split_ifs
  · exact hstart.trans (drives_write hid (fun y => ⟨rfl,rfl⟩) fun y hy => hy)
  · exact hstart.trans (drives_cancelOrphanedRun hid hhook)

omit hhook in
/-- Every exit is a write of the scan, and where the loop goes on the scan is active. -/
theorem afterStart_spec {scan : Scan} {step : ScanStep} {now : ℤ} (hscan : scan.id = id)
    (result : Except Denial TestRun) :
    Ends held id s (afterStart s scan step now result).1 ∧
      ((afterStart s scan step now result).2 = none →
        Drives held id s (afterStart s scan step now result).1) := by
  subst hscan
  have hstep : ∀ g : ScanStep → ScanStep,(∀ p,stepKey (g p) = stepKey p) → Drives held scan.id s
      (s.updateScan scan.id fun x => refreshSummary (x.updateStep step.id g)) := by
    intro g hg
    refine drives_write hid (fun y => ?_) fun y hy => hy
    have hk : Keeps y (y.updateStep step.id g) := keeps_updateStep hg
    exact ⟨hk.core,hk.steps⟩
  unfold afterStart
  split
  · next run =>
      have hstarted := hstep (startedStep run) fun _ => rfl
      exact ⟨hstarted.ends,fun _ => hstarted⟩
  next denial =>
  split
  · refine ⟨ends_write hid (fun y => ?_) fun y hy => not_scheduled_of_active hy,by simp⟩
    exact ⟨rfl,Tables.map_update fun _ => rfl⟩
  · split
    · next blocking ownStepId _ =>
        refine ⟨ends_write hid (fun y => ?_) fun y hy => not_scheduled_of_active hy,by simp⟩
        have hk : Keeps y (resumeOwnStep blocking ownStepId step.id y) := keeps_resumeOwnStep
        exact ⟨hk.core,hk.steps⟩
    · refine ⟨ends_write hid (fun y => ?_) fun y _ => ?_,by simp⟩
      · have hk : Keeps y (abortScan step.id denial.error y) := keeps_abortScan
        exact ⟨hk.core,hk.steps⟩
      · rcases finishScan_status (x := abortScan step.id denial.error y) with h | h <;> simp [h]
  · have hdeny := hstep (denyStep denial.error) fun _ => rfl
    exact ⟨hdeny.ends,fun _ => hdeny⟩
  · split_ifs
    · have hdeny := hstep (denyStep "start_test_run_failed") fun _ => rfl
      exact ⟨hdeny.ends,fun _ => hdeny⟩
    · exact ⟨(hstep (fun p => { p with status := .pending }) fun _ => rfl).ends,by simp⟩

theorem ends_advanceLoop {now : ℤ} (starts : ℕ) :
    Ends held id s (advanceLoop E hook s id now starts).1 := by
  induction starts using Nat.strong_induction_on generalizing s with
  | _ starts ih =>
      have hrec : Drives held id s (reconcileActiveStep E hook s id).1 :=
        drives_reconcileActiveStep hid hhook
      have hrefresh : ∀ t,Ends held id t (t.updateScan id refreshSummary) := fun t =>
        ends_write hid (fun y => ⟨rfl,rfl⟩) fun y hy => not_scheduled_of_active hy
      unfold advanceLoop
      split
      · next t ht =>
          rw [ht] at hrec
          exact hrec.then_ends (hrefresh t)
      next t ht =>
      rw [ht] at hrec
      refine hrec.then_ends ?_
      clear hrec ht
      split
      · exact Drives.refl.ends
      next scan hscan =>
      split
      · split_ifs
        · exact ends_write hid (fun y => ⟨rfl,rfl⟩) fun y _ => by simp [refreshSummary]
        · refine ends_write hid (fun y => ⟨rfl,rfl⟩) fun y _ => ?_
          rcases finishScan_status (x := y) with h | h <;> simp [h]
      next step hstep =>
      split
      · exact hrefresh t
      next starts =>
      split_ifs
      · exact hrefresh t
      have hrun : Drives held id t (t.updateScan id fun x => { x with
          status := .running
          nextEligibleAt := none }) :=
        drives_write hid (fun y => ⟨rfl,rfl⟩) fun y _ => rfl
      have hstart : ∀ t,Drives held id t (startStep E hook t scan step now).1 := fun t =>
        drives_startStep hid hhook (findScan_mem hscan).2
      have hstart := hrun.trans (hstart _)
      simp only
      split
      · next u hu =>
          rw [hu] at hstart
          exact hstart.then_ends (hrefresh u)
      next u result hu =>
      rw [hu] at hstart
      have hafter : Ends held id u (afterStart u scan step now result).1 ∧
          ((afterStart u scan step now result).2 = none →
            Drives held id u (afterStart u scan step now result).1) :=
        afterStart_spec hid (findScan_mem hscan).2 result
      split
      · next v advance hv =>
          rw [hv] at hafter
          exact hstart.then_ends hafter.1
      next v hv =>
      rw [hv] at hafter
      exact (hstart.trans (hafter.2 rfl)).then_ends (ih starts (Nat.lt_succ_self starts))

end Executor

section Hooks
variable {E : Env} {held : List ℕ} {s : Store}

theorem moves_advanceScan {hooks : Hooks}
    (hhooks : ∀ held s run,Moves false held s (hooks held s run)) {tenantId id requested : ℕ}
    {now : ℤ} : Moves false held s (advanceScan E hooks held s tenantId id now requested).1 := by
  unfold advanceScan
  split
  · exact .refl s
  next scan hscan =>
  split_ifs with hheld hactive
  · exact .refl s
  · exact .refl s
  · exact .refl s
  intro hs
  have hp := List.find?_some hscan
  simp only [Bool.and_eq_true,beq_iff_eq] at hp
  have hfind := hs.findScan (List.mem_of_find?_eq_some hscan)
  rw [hp.1] at hfind
  refine ends_advanceLoop ?_ (hhooks (id::held)) _ hs ⟨scan,hfind,by simpa using hactive⟩
  simpa using hheld

theorem moves_comparisonActs {hook : Hook} (hhook : ∀ s run,Moves false held s (hook s run))
    (acts : List HookAct) : Moves false held s (comparisonActs E hook s acts) := by
  induction acts generalizing s with
  | nil => exact .refl s
  | cons act acts ih =>
      refine Moves.trans ?_ ih
      cases act with
      | start now body => exact moves_startTestRun hhook
      | cancel tenantId runId => exact moves_cancelTestRun hhook

/-- Whatever the hooks do, and however deep they nest, are the described writes, and a scan that
is being advanced is left alone. -/
theorem moves_hooks (n : ℕ) (held : List ℕ) (s : Store) (run : TestRun) :
    Moves false held s (hooks E n held s run) := by
  induction n generalizing held s run with
  | zero => exact .refl s
  | succ n ih =>
      have hacts : ∀ t acts,Moves false held t
          (comparisonActs E (hooks E n held) (nextTick t) acts) := fun t acts =>
        moves_nextTick.trans (moves_comparisonActs (ih held) acts)
      have hadvance : ∀ t,Moves false held t (advanceScanForRun E (hooks E n) held t run) := by
        intro t
        unfold advanceScanForRun
        split
        · exact .refl t
        · exact moves_advanceScan ih
      exact ((hacts s _).trans (hadvance _)).trans (hacts _ _)

end Hooks

end AstraNull.RuntimeMoves

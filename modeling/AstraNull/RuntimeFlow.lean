import Mathlib
import AstraNull.Tables
import AstraNull.RuntimeStore
import AstraNull.TestRuns
import AstraNull.ScanPlanning
import AstraNull.ValidationScans

/-!
# What the services write

Starting, reading, finalising and cancelling runs and advancing scans, with all the hooks that
fire in between, come down to a few kinds of writes. `Atom` says each of them with the checks
that precede it, `Flow` strings them together. The list `held` names scans that are not written,
and `late` says whether a verdict may reach a run that is over.
-/
namespace AstraNull.RuntimeFlow
open RuntimeStore TestRuns ScanPlanning ValidationScans

structure Sound (s : Store) : Prop where
  runFresh : ∀ r ∈ s.testRuns,r.id < s.nextId
  runNodup : (s.testRuns.map TestRun.id).Nodup
  jobFresh : ∀ j ∈ s.probeJobs,j.testRunId < s.nextId
  verdictFresh : ∀ v ∈ s.verdicts,v.testRunId < s.nextId
  verdictStored : ∀ r ∈ s.testRuns,r.status = .verdicted → hasVerdict s r.id = true
  scanFresh : ∀ x ∈ s.validationScans,x.id < s.nextId
  scanNodup : (s.validationScans.map Scan.id).Nodup

theorem find?_of_nodup {α : Type*} {l : List α} {key : α → ℕ} {a : α} (h : (l.map key).Nodup)
    (ha : a ∈ l) : (l.find? fun b => key b == key a) = some a := by
  induction l with
  | nil => simp at ha
  | cons b l ih =>
      simp only [List.map_cons,List.nodup_cons] at h
      rcases List.mem_cons.mp ha with rfl | ha
      · simp
      · have hne : key b ≠ key a := fun he => h.1 (he ▸ List.mem_map_of_mem ha)
        simp [hne,ih h.2 ha]

theorem Sound.findRun {s : Store} (h : Sound s) {r : TestRun} (hr : r ∈ s.testRuns) :
    s.findRun r.id = some r := find?_of_nodup h.runNodup hr

theorem Sound.findScan {s : Store} (h : Sound s) {x : Scan} (hx : x ∈ s.validationScans) :
    s.findScan x.id = some x := find?_of_nodup h.scanNodup hx

theorem findRun_mem {s : Store} {id : ℕ} {r : TestRun} (h : s.findRun id = some r) :
    r ∈ s.testRuns ∧ r.id = id :=
  ⟨List.mem_of_find?_eq_some h,by simpa using List.find?_some h⟩

theorem findScan_mem {s : Store} {id : ℕ} {x : Scan} (h : s.findScan id = some x) :
    x ∈ s.validationScans ∧ x.id = id :=
  ⟨List.mem_of_find?_eq_some h,by simpa using List.find?_some h⟩

/-- What no write to a stored run changes. -/
def runCore (r : TestRun) : TestRun :=
  { r with
    status := .planned
    probeExternalResult := false
    probeEvent := false }

/-- What the executor does not change of a scan. -/
def scanCore (x : Scan) : Scan :=
  { x with
    status := .scheduled
    steps := []
    lease := none
    nextEligibleAt := none
    abortReason := none
    summary := computeScanSummary [] }

def stepKey (p : ScanStep) : ℕ × ℕ × ℕ := (p.id,p.checkId,p.targetId)

/-- The plan of the scan is kept. -/
structure Keeps (x y : Scan) : Prop where
  core : scanCore y = scanCore x
  steps : y.steps.map stepKey = x.steps.map stepKey

theorem Keeps.refl (x : Scan) : Keeps x x := ⟨rfl,rfl⟩

theorem Keeps.trans {x y z : Scan} (h : Keeps x y) (k : Keeps y z) : Keeps x z :=
  ⟨k.core.trans h.core,k.steps.trans h.steps⟩

theorem Keeps.id_eq {x y : Scan} (h : Keeps x y) : y.id = x.id :=
  show (scanCore y).id = (scanCore x).id from congrArg Scan.id h.core

/-- Evidence and the move to collecting, on a run that is not over. -/
structure Notes (s : Store) (r r' : TestRun) : Prop where
  active : r.status.active = true
  core : runCore r' = runCore r
  status : r'.status = r.status ∨ (r.status = .running ∧ r'.status = .collecting)
  evidence : hasExternalProbeEvidence r' = hasExternalProbeEvidence r ∨
    ∀ j ∈ s.probeJobs,j.testRunId = r.id → j.status.isOpen = false

/-- What has been checked when a run is stored. -/
structure Startable (s : Store) (r : TestRun) : Prop where
  id_eq : r.id = s.nextId
  running : r.status = .running
  noEvidence : hasExternalProbeEvidence r = false
  target : ∃ t ∈ s.targets,
    r.targetId = some t.id ∧ t.tenantId = r.tenantId ∧ t.targetGroupId = r.targetGroupId
  stopInactive : isKillSwitchActiveForTenant s r.tenantId = false
  noActive : ∀ r' ∈ s.testRuns,r'.tenantId = r.tenantId → r'.targetGroupId = r.targetGroupId →
    r'.targetId = r.targetId → r'.status.active = false
  firstOfDispatch : ∀ d,r.policyDispatchId = some d → ∀ r' ∈ s.testRuns,
    r'.tenantId = r.tenantId → r'.policyDispatchId ≠ some d
  leased : ∀ d p,r.policyDispatchId = some d → r.policyId = some p → ∃ row ∈ s.testPolicyDispatches,
    row.id = d ∧ row.tenantId = r.tenantId ∧ row.state = .leased
  firstOfStep : ∀ p,r.scanStepId = some p → ∀ r' ∈ s.testRuns,
    r'.tenantId = r.tenantId → r'.scanStepId ≠ some p

def withVerdict (s : Store) (run : TestRun) (finding : Bool) : Store :=
  { s.updateRun run.id verdicted with
    verdicts := s.verdicts++[⟨run.tenantId,run.id⟩]
    findings := if finding then s.findings++[run.id] else s.findings }

def withJob (s : Store) (run : TestRun) : Store :=
  { s with
    probeJobs := s.probeJobs++[⟨s.nextId,run.tenantId,run.id,.pending⟩]
    nextId := s.nextId+1 }

inductive Atom (late : Bool) (held : List ℕ) (s : Store) : Store → Prop
  | book (tick nextId : ℕ) (hle : s.nextId ≤ nextId) :
      Atom late held s { s with
        tick := tick
        nextId := nextId }
  | start (r : TestRun) (hr : Startable s r) : Atom late held s (pushRun s r)
  | drop (r : TestRun) (hr : s.findRun r.id = some r) (hrun : r.status = .running)
      (hjob : ∀ j ∈ s.probeJobs,j.testRunId ≠ r.id) : Atom late held s (dropStartedRun s r.id)
  | note (id : ℕ) (f : TestRun → TestRun) (hid : ∀ r,(f r).id = r.id)
      (hf : ∀ r,s.findRun id = some r → f r = r ∨ Notes s r (f r)) :
      Atom late held s (s.updateRun id f)
  | verdict (run : TestRun) (finding : Bool) (row : TestRun) (hrow : s.findRun run.id = some row)
      (htenant : row.tenantId = run.tenantId) (hevidence : hasExternalProbeEvidence row = true)
      (hlate : late = false → row.status.active = true) (hnone : hasVerdict s run.id = false) :
      Atom late held s (withVerdict s run finding)
  | cancel (run : TestRun) (hrun : s.findRun run.id = some run) (hactive : run.status.active = true) :
      Atom late held s (cancelRow s run)
  | job (run row : TestRun) (hrow : s.findRun run.id = some row) (htenant : row.tenantId = run.tenantId)
      (hrunning : row.status = .running) (hevidence : hasExternalProbeEvidence row = false)
      (hfirst : ∀ j ∈ s.probeJobs,j.testRunId ≠ run.id) : Atom late held s (withJob s run)
  | scan (id : ℕ) (f : Scan → Scan) (x : Scan) (hheld : id ∉ held) (hf : ∀ y,Keeps y (f y))
      (hx : s.findScan id = some x) (hs : x.status ≠ .scheduled) (hs' : (f x).status ≠ .scheduled)
      (hactive : (f x).status.active = true → x.status.active = true) :
      Atom late held s (s.updateScan id f)

abbrev Flow (late : Bool) (held : List ℕ) : Store → Store → Prop :=
  Relation.ReflTransGen (Atom late held)

/-- From a store with fresh identifiers. -/
def Moves (late : Bool) (held : List ℕ) (s s' : Store) : Prop := Sound s → Flow late held s s'

section
variable {late : Bool} {held : List ℕ} {s s' t u : Store}

theorem findRun_updateRun {id : ℕ} {f : TestRun → TestRun} (hf : ∀ r,(f r).id = r.id) (i : ℕ) :
    (s.updateRun id f).findRun i = if i = id then (s.findRun i).map f else s.findRun i := by
  split
  · next h =>
      subst h
      exact Tables.find?_update fun r hr => by simpa [hf] using hr
  · next h =>
      refine Tables.find?_update_other fun r hr => ?_
      have hr : r.id = id := by simpa using hr
      simp [hf,hr,Ne.symm h]

theorem findScan_updateScan {id : ℕ} {f : Scan → Scan} (hf : ∀ x,(f x).id = x.id) (i : ℕ) :
    (s.updateScan id f).findScan i = if i = id then (s.findScan i).map f else s.findScan i := by
  split
  · next h =>
      subst h
      exact Tables.find?_update fun r hr => by simpa [hf] using hr
  · next h =>
      refine Tables.find?_update_other fun r hr => ?_
      have hr : r.id = id := by simpa using hr
      simp [hf,hr,Ne.symm h]

theorem findRun_write {id : ℕ} {f : TestRun → TestRun} {r : TestRun} (hr : s.findRun id = some r)
    (hf : ∀ r,(f r).id = r.id) : (s.updateRun id f).findRun id = some (f r) := by
  rw [findRun_updateRun hf,if_pos rfl,hr]
  rfl

theorem findScan_write {id : ℕ} {f : Scan → Scan} {x : Scan} (hx : s.findScan id = some x)
    (hf : ∀ x,(f x).id = x.id) : (s.updateScan id f).findScan id = some (f x) := by
  rw [findScan_updateScan hf,if_pos rfl,hx]
  rfl

@[simp] theorem verdicted_id (r : TestRun) : (verdicted r).id = r.id := rfl

@[simp] theorem cancelled_id (r : TestRun) : (cancelled r).id = r.id := rfl

theorem map_id_updateRun {id : ℕ} {f : TestRun → TestRun} (hf : ∀ r,(f r).id = r.id) :
    (s.updateRun id f).testRuns.map TestRun.id = s.testRuns.map TestRun.id :=
  Tables.map_update hf

theorem Sound.updateRun {id : ℕ} {f : TestRun → TestRun} (hf : ∀ r,(f r).id = r.id)
    (hv : ∀ r,s.findRun id = some r → (f r).status = .verdicted → hasVerdict s id = true)
    (h : Sound s) : Sound (s.updateRun id f) where
  runFresh := Tables.forall_update h.runFresh fun x hx => by
    rw [hf]
    exact h.runFresh x (List.mem_of_find?_eq_some hx)
  runNodup := by
    rw [map_id_updateRun hf]
    exact h.runNodup
  jobFresh := h.jobFresh
  verdictFresh := h.verdictFresh
  verdictStored := Tables.forall_update h.verdictStored fun r hr hs => by
    rw [hf]
    obtain ⟨-,rfl⟩ := findRun_mem hr
    exact hv r hr hs
  scanFresh := h.scanFresh
  scanNodup := h.scanNodup

theorem Sound.updateScan {id : ℕ} {f : Scan → Scan} (hf : ∀ x,(f x).id = x.id)
    (h : Sound s) : Sound (s.updateScan id f) where
  runFresh := h.runFresh
  runNodup := h.runNodup
  jobFresh := h.jobFresh
  verdictFresh := h.verdictFresh
  verdictStored := h.verdictStored
  scanFresh := Tables.forall_update h.scanFresh fun x hx => by
    rw [hf]
    exact h.scanFresh x (List.mem_of_find?_eq_some hx)
  scanNodup := by
    have hmap : (s.updateScan id f).validationScans.map Scan.id =
        s.validationScans.map Scan.id := Tables.map_update hf
    rw [hmap]
    exact h.scanNodup

theorem Sound.bump {nextId tick : ℕ} (hle : s.nextId ≤ nextId) (h : Sound s) :
    Sound { s with
      tick := tick
      nextId := nextId } where
  runFresh := fun r hr => (h.runFresh r hr).trans_le hle
  runNodup := h.runNodup
  jobFresh := fun j hj => (h.jobFresh j hj).trans_le hle
  verdictFresh := fun v hv => (h.verdictFresh v hv).trans_le hle
  verdictStored := h.verdictStored
  scanFresh := fun x hx => (h.scanFresh x hx).trans_le hle
  scanNodup := h.scanNodup

theorem Sound.pushRun {r : TestRun} (hr : r.id = s.nextId) (hs : r.status = .running)
    (h : Sound s) : Sound (pushRun s r) where
  runFresh := by
    intro r' hr'
    rcases List.mem_append.mp hr' with hr' | hr'
    · exact Nat.lt_succ_of_lt (h.runFresh r' hr')
    · cases List.mem_singleton.mp hr'
      exact hr ▸ Nat.lt_succ_self _
  runNodup := by
    simp only [TestRuns.pushRun,List.map_append,List.map_cons,List.map_nil]
    refine List.nodup_append.mpr ⟨h.runNodup,by simp,?_⟩
    intro a ha b hb
    obtain ⟨r',hr',rfl⟩ := List.mem_map.mp ha
    cases List.mem_singleton.mp hb
    have := h.runFresh r' hr'
    omega
  jobFresh := fun j hj => Nat.lt_succ_of_lt (h.jobFresh j hj)
  verdictFresh := fun v hv => Nat.lt_succ_of_lt (h.verdictFresh v hv)
  verdictStored := by
    intro r' hr' hv
    rcases List.mem_append.mp hr' with hr' | hr'
    · exact h.verdictStored r' hr' hv
    · cases List.mem_singleton.mp hr'
      rw [hs] at hv
      cases hv
  scanFresh := fun x hx => Nat.lt_succ_of_lt (h.scanFresh x hx)
  scanNodup := h.scanNodup

theorem Sound.dropStartedRun {id : ℕ} (h : Sound s) : Sound (dropStartedRun s id) where
  runFresh := fun r hr => h.runFresh r (List.mem_of_mem_filter hr)
  runNodup := h.runNodup.sublist (List.filter_sublist.map _)
  jobFresh := h.jobFresh
  verdictFresh := h.verdictFresh
  verdictStored := fun r hr => h.verdictStored r (List.mem_of_mem_filter hr)
  scanFresh := h.scanFresh
  scanNodup := h.scanNodup

theorem mem_revoked {run : TestRun} {j : ProbeJob}
    (hj : j ∈ (revokeDispatchedJobsForRun s run).probeJobs) :
    ∃ i ∈ s.probeJobs,j.testRunId = i.testRunId ∧ j.tenantId = i.tenantId ∧
      (j = i ∨ j.status = .cancelled) := by
  obtain ⟨i,hi,rfl⟩ := Tables.mem_updateAll hj
  split
  · exact ⟨i,hi,rfl,rfl,Or.inr rfl⟩
  · exact ⟨i,hi,rfl,rfl,Or.inl rfl⟩

theorem Sound.cancelRow {run : TestRun} (h : Sound s) : Sound (cancelRow s run) := by
  have h : Sound (s.updateRun run.id cancelled) := h.updateRun cancelled_id fun r _ hv => nomatch hv
  exact {
    runFresh := h.runFresh
    runNodup := h.runNodup
    jobFresh := fun j hj => by
      obtain ⟨i,hi,he,-⟩ := mem_revoked hj
      rw [he]
      exact h.jobFresh i hi
    verdictFresh := h.verdictFresh
    verdictStored := h.verdictStored
    scanFresh := h.scanFresh
    scanNodup := h.scanNodup }

theorem Atom.sound (ha : Atom late held s s') (h : Sound s) : Sound s' := by
  cases ha with
  | book tick nextId hle => exact h.bump hle
  | start r hr => exact h.pushRun hr.id_eq hr.running
  | drop r hr hrun hjob => exact h.dropStartedRun
  | note id f hid hf =>
      refine h.updateRun hid fun r hr hv => ?_
      obtain ⟨hm,rfl⟩ := findRun_mem hr
      rcases hf r hr with he | hn
      · rw [he] at hv
        exact h.verdictStored r hm hv
      · have hactive := hn.active
        rcases hn.status with he | ⟨-,he⟩
        · rw [← he,hv] at hactive
          cases hactive
        · rw [hv] at he
          cases he
  | verdict run finding row hrow =>
      have hm := findRun_mem hrow
      have hfresh : ∀ v ∈ s.verdicts++[(⟨run.tenantId,run.id⟩ : Verdict)],v.testRunId < s.nextId := by
        intro v hv
        rcases List.mem_append.mp hv with hv | hv
        · exact h.verdictFresh v hv
        · cases List.mem_singleton.mp hv
          exact hm.2 ▸ h.runFresh row hm.1
      have hw : Sound { s with verdicts := s.verdicts++[(⟨run.tenantId,run.id⟩ : Verdict)] } :=
        { h with
          verdictFresh := hfresh
          verdictStored := fun r hr hv => by
            have hstored := h.verdictStored r hr hv
            simp only [hasVerdict,List.any_append,Bool.or_eq_true] at hstored ⊢
            exact Or.inl hstored }
      have hu : Sound (Store.updateRun { s with
          verdicts := s.verdicts++[(⟨run.tenantId,run.id⟩ : Verdict)] } run.id verdicted) :=
        hw.updateRun verdicted_id fun r _ _ => by simp [hasVerdict]
      exact {
        runFresh := hu.runFresh
        runNodup := hu.runNodup
        jobFresh := hu.jobFresh
        verdictFresh := hu.verdictFresh
        verdictStored := hu.verdictStored
        scanFresh := hu.scanFresh
        scanNodup := hu.scanNodup }
  | cancel run hrun => exact h.cancelRow
  | job run row hrow =>
      have hb : Sound { s with nextId := s.nextId+1 } := h.bump (Nat.le_succ s.nextId)
      refine { hb with jobFresh := ?_ }
      intro j hj
      rcases List.mem_append.mp hj with hj | hj
      · exact hb.jobFresh j hj
      · cases List.mem_singleton.mp hj
        have hm := findRun_mem hrow
        exact Nat.lt_succ_of_lt (hm.2 ▸ h.runFresh row hm.1)
  | scan id f x hheld hf => exact h.updateScan fun y => (hf y).id_eq

theorem Flow.sound (hf : Flow late held s s') (h : Sound s) : Sound s' := by
  induction hf with
  | refl => exact h
  | tail _ ha ih => exact ha.sound ih

theorem Moves.refl (s : Store) : Moves late held s s := fun _ => .refl

theorem Moves.trans (h : Moves late held s t) (k : Moves late held t u) : Moves late held s u :=
  fun hs => (h hs).trans (k ((h hs).sound hs))

/-- The second part may use that identifiers are fresh. -/
theorem Moves.then (h : Moves late held s t) (k : Sound t → Moves late held t u) :
    Moves late held s u :=
  h.trans fun ht => k ht ht

theorem Moves.single (h : Sound s → Atom late held s t) : Moves late held s t :=
  fun hs => .single (h hs)

theorem Moves.sound (h : Moves late held s t) (hs : Sound s) : Sound t := (h hs).sound hs

theorem Atom.weaken {wider : List ℕ} (hsub : held ⊆ wider) (ha : Atom false wider s s') :
    Atom late held s s' := by
  cases ha with
  | book tick nextId hle => exact .book tick nextId hle
  | start r hr => exact .start r hr
  | drop r hr hrun hjob => exact .drop r hr hrun hjob
  | note id f hid hf => exact .note id f hid hf
  | verdict run finding row hrow htenant hevidence hlate hnone =>
      exact .verdict run finding row hrow htenant hevidence (fun _ => hlate rfl) hnone
  | cancel run hrun hactive => exact .cancel run hrun hactive
  | job run row hrow htenant hrunning hevidence hfirst =>
      exact .job run row hrow htenant hrunning hevidence hfirst
  | scan id f x hheld hf hx hs hs' hactive =>
      exact .scan id f x (fun hm => hheld (hsub hm)) hf hx hs hs' hactive

/-- Writes that spare more scans, and runs that are over, are writes. -/
theorem Moves.weaken {wider : List ℕ} (hsub : held ⊆ wider) (h : Moves false wider s s') :
    Moves late held s s' :=
  fun hs => Relation.ReflTransGen.mono (fun _ _ => Atom.weaken hsub) _ _ (h hs)

/-- A scan that is held is not written. -/
theorem Atom.findScan_held {k : ℕ} (ha : Atom late (k::held) s s') : s'.findScan k = s.findScan k := by
  cases ha with
  | scan id f x hheld hf =>
      have hne : k ≠ id := fun he => hheld (he ▸ List.mem_cons_self)
      rw [findScan_updateScan fun y => (hf y).id_eq,if_neg hne]
  | _ => rfl

theorem Flow.findScan_held {k : ℕ} (hf : Flow late (k::held) s s') :
    s'.findScan k = s.findScan k := by
  induction hf with
  | refl => rfl
  | tail _ ha ih => rw [ha.findScan_held,ih]

end

end AstraNull.RuntimeFlow

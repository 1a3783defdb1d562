import Mathlib
import AstraNull.Tables
import AstraNull.RuntimeStore
import AstraNull.TestRuns
import AstraNull.Schedules
import AstraNull.ValidationScans
import AstraNull.EmergencyStop
import AstraNull.RuntimeFlow
import AstraNull.RuntimeMoves
import AstraNull.ScanTurns
import AstraNull.RuntimeOps
import AstraNull.RunLifecycle
import AstraNull.SwitchFrame

/-!
# What the emergency stop guarantees

After a tenant has set its switch nothing of the tenant runs, through the hooks of the sweep and
through every later request, until someone writes the record again. The record is one for all
tenants: whoever writes it last owns it, so a tenant keeps an active switch only as long as no
other tenant touches its own.
-/
namespace AstraNull.StopGuarantees
open RuntimeStore TestRuns Schedules ValidationScans EmergencyStop RuntimeFlow RuntimeMoves
  ScanTurns RuntimeOps SwitchFrame

def isSwitch : Op → Bool
  | .setKillSwitch _ _ => true
  | _ => false

theorem isSwitch_eq_false {op : Op} :
    isSwitch op = false ↔ ∀ tenantId active,op ≠ .setKillSwitch tenantId active := by
  cases op <;> simp [isSwitch]

section
variable {E : Env} {zone : Zone} {depth : ℕ} {late : Bool} {held : List ℕ} {s t : Store}

theorem isActive_congr (h : t.socKillSwitch = s.socKillSwitch) (tenantId : ℕ) :
    isKillSwitchActiveForTenant t tenantId = isKillSwitchActiveForTenant s tenantId := by
  simp only [isKillSwitchActiveForTenant,h]

theorem switch_exec_quiet {ops : List Op} (h : ∀ op ∈ ops,isSwitch op = false) :
    (exec E zone depth s ops).socKillSwitch = s.socKillSwitch := by
  induction ops generalizing s with
  | nil => rfl
  | cons op ops ih =>
      rw [exec,List.foldl_cons]
      exact (ih fun o ho => h o (List.mem_cons_of_mem op ho)).trans
        (switch_apply op (isSwitch_eq_false.mp (h op List.mem_cons_self)))

/-- The record was written by another tenant. -/
def Foreign (tenantId : ℕ) (s : Store) : Prop :=
  ∃ other active,other ≠ tenantId ∧ s.socKillSwitch = some (killSwitchRecord other active)

theorem Foreign.inactive {tenantId : ℕ} (h : Foreign tenantId s) :
    isKillSwitchActiveForTenant s tenantId = false := by
  obtain ⟨other,active,hne,he⟩ := h
  cases active <;> simp [isKillSwitchActiveForTenant,he,killSwitchRecord,hne]

theorem foreign_apply {tenantId : ℕ} (h : Foreign tenantId s) {op : Op}
    (hop : ∀ active,op ≠ .setKillSwitch tenantId active) :
    Foreign tenantId (apply E zone depth s op) := by
  cases hswitch : isSwitch op with
  | false =>
      obtain ⟨other,active,hne,he⟩ := h
      exact ⟨other,active,hne,(switch_apply op (isSwitch_eq_false.mp hswitch)).trans he⟩
  | true =>
      cases op with
      | setKillSwitch other active =>
          exact ⟨other,active,fun he => hop active (he ▸ rfl),switch_setKillSwitch active⟩
      | _ => cases hswitch

theorem foreign_exec {tenantId : ℕ} (h : Foreign tenantId s) {ops : List Op}
    (hops : ∀ op ∈ ops,∀ active,op ≠ .setKillSwitch tenantId active) :
    Foreign tenantId (exec E zone depth s ops) := by
  induction ops generalizing s with
  | nil => exact h
  | cons op ops ih =>
      exact ih (foreign_apply h (hops op List.mem_cons_self))
        fun o ho => hops o (List.mem_cons_of_mem op ho)

/-- A change by another tenant leaves the switch off. -/
theorem inactive_of_foreign_switch {tenantId : ℕ} {ops : List Op}
    (hops : ∀ op ∈ ops,∀ active,op ≠ .setKillSwitch tenantId active)
    (hswitch : ∃ op ∈ ops,isSwitch op = true) :
    isKillSwitchActiveForTenant (exec E zone depth s ops) tenantId = false := by
  induction ops generalizing s with
  | nil => simp at hswitch
  | cons op ops ih =>
      have hrest : ∀ o ∈ ops,∀ active,o ≠ .setKillSwitch tenantId active :=
        fun o ho => hops o (List.mem_cons_of_mem op ho)
      cases op with
      | setKillSwitch other active =>
          have hne : other ≠ tenantId := fun he => hops _ List.mem_cons_self active (he ▸ rfl)
          have hforeign : Foreign tenantId (apply E zone depth s (.setKillSwitch other active)) :=
            ⟨other,active,hne,switch_setKillSwitch active⟩
          exact (foreign_exec hforeign hrest).inactive
      | _ =>
          refine ih hrest ?_
          obtain ⟨o,ho,hso⟩ := hswitch
          rcases List.mem_cons.mp ho with rfl | ho
          · cases hso
          · exact ⟨o,ho,hso⟩

end

/-- Over requests of which none is the tenant's own change of the switch, the switch of the
tenant stays as it is exactly when it is off, or when nobody changes a switch. -/
theorem switch_kept_iff (E : Env) (zone : Zone) (depth : ℕ) (s : Store) (tenantId : ℕ)
    (ops : List Op)
    (hops : ∀ op ∈ ops,∀ active,op ≠ .setKillSwitch tenantId active) :
    isKillSwitchActiveForTenant (exec E zone depth s ops) tenantId =
        isKillSwitchActiveForTenant s tenantId ↔
      isKillSwitchActiveForTenant s tenantId = false ∨ ∀ op ∈ ops,isSwitch op = false := by
  by_cases hswitch : ∃ op ∈ ops,isSwitch op = true
  · rw [inactive_of_foreign_switch hops hswitch]
    constructor
    · exact fun h => Or.inl h.symm
    · rintro (h | h)
      · exact h.symm
      · obtain ⟨op,hop,ht⟩ := hswitch
        rw [h op hop] at ht
        cases ht
  · have hquiet : ∀ op ∈ ops,isSwitch op = false := by
      intro op hop
      by_contra ht
      exact hswitch ⟨op,hop,by simpa using ht⟩
    exact iff_of_true (isActive_congr (switch_exec_quiet hquiet) tenantId) (Or.inr hquiet)

theorem switch_kept_without_changes :
    isKillSwitchActiveForTenant (exec RunLifecycle.signedWorker RunLifecycle.utc 0
      (exec RunLifecycle.signedWorker RunLifecycle.utc 0 Store.empty [.setKillSwitch 7 true])
      [.addGroup 8]) 7 = true := by
  have hkept := (switch_kept_iff RunLifecycle.signedWorker RunLifecycle.utc 0
    (exec RunLifecycle.signedWorker RunLifecycle.utc 0 Store.empty [.setKillSwitch 7 true]) 7
    [.addGroup 8] (by simp)).mpr (Or.inr (by simp [isSwitch]))
  exact hkept.trans (by decide)

/-- Tenant 8 activates its own switch, and the active switch of tenant 7 is off. -/
theorem foreign_activation_clears_switch :
    isKillSwitchActiveForTenant (exec RunLifecycle.signedWorker RunLifecycle.utc 0 Store.empty
      [.setKillSwitch 7 true]) 7 = true ∧
    isKillSwitchActiveForTenant (exec RunLifecycle.signedWorker RunLifecycle.utc 0
      (exec RunLifecycle.signedWorker RunLifecycle.utc 0 Store.empty [.setKillSwitch 7 true])
      [.setKillSwitch 8 true]) 7 = false := by
  constructor <;> decide

structure JobsKept (s : Store) : Prop where
  owned : ∀ j ∈ s.probeJobs,j.status.isOpen = true → ∃ r ∈ s.testRuns,r.id = j.testRunId ∧
    r.tenantId = j.tenantId ∧ r.status.active = true ∧ hasExternalProbeEvidence r = false
  once : (s.probeJobs.map ProbeJob.testRunId).Nodup

section
variable {E : Env} {zone : Zone} {depth : ℕ} {late : Bool} {held : List ℕ} {s t : Store}

theorem JobsKept.of_eq (h : JobsKept s) (hr : t.testRuns = s.testRuns)
    (hj : t.probeJobs = s.probeJobs) : JobsKept t where
  owned := by
    rw [hr,hj]
    exact h.owned
  once := by
    rw [hj]
    exact h.once

/-- A run that is written has no open job, or stays active, without evidence, and whose it is. -/
theorem JobsKept.updateRun (h : JobsKept s) (hs : Sound s) {id : ℕ} {f : TestRun → TestRun}
    (hid : ∀ r,(f r).id = r.id)
    (hf : ∀ r,s.findRun id = some r →
      (∀ j ∈ s.probeJobs,j.testRunId = id → j.status.isOpen = false) ∨
      ((f r).tenantId = r.tenantId ∧ ((f r).status.active = r.status.active) ∧
        hasExternalProbeEvidence (f r) = hasExternalProbeEvidence r)) :
    JobsKept (s.updateRun id f) := by
  refine ⟨fun j hj hopen => ?_,h.once⟩
  obtain ⟨r,hr,hrid,htenant,hactive,hevidence⟩ := h.owned j hj hopen
  have hfind := hs.findRun hr
  have hwritten : (s.updateRun id f).findRun r.id =
      if r.id = id then (s.findRun r.id).map f else s.findRun r.id := findRun_updateRun hid r.id
  by_cases he : r.id = id
  · subst he
    rcases hf r hfind with hclosed | ⟨ht,ha,hev⟩
    · rw [hclosed j hj hrid.symm] at hopen
      cases hopen
    · rw [if_pos rfl,hfind] at hwritten
      exact ⟨f r,(findRun_mem hwritten).1,(hid r).trans hrid,ht.trans htenant,ha.trans hactive,
        hev.trans hevidence⟩
  · rw [if_neg he,hfind] at hwritten
    exact ⟨r,(findRun_mem hwritten).1,hrid,htenant,hactive,hevidence⟩

/-- With evidence in, the jobs of the run are closed. -/
theorem JobsKept.closed_of_evidence (h : JobsKept s) (hs : Sound s) {row : TestRun}
    (hrow : row ∈ s.testRuns) (hevidence : hasExternalProbeEvidence row = true) :
    ∀ j ∈ s.probeJobs,j.testRunId = row.id → j.status.isOpen = false := by
  intro j hj hof
  by_contra hopen
  obtain ⟨r,hr,hrid,-,-,hnone⟩ := h.owned j hj (by simpa using hopen)
  have hsame : r = row := List.inj_on_of_nodup_map hs.runNodup hr hrow (hrid.trans hof)
  rw [hsame,hevidence] at hnone
  cases hnone

theorem JobsKept.cancelRow (h : JobsKept s) (hs : Sound s) {run : TestRun}
    (hrun : s.findRun run.id = some run) : JobsKept (cancelRow s run) := by
  constructor
  · intro j hj hopen
    obtain ⟨i,hi,hrunId,htenantId,hsame⟩ := mem_revoked hj
    rcases hsame with rfl | hcancelled
    · obtain ⟨r,hr,hrid,htenant,hactive,hevidence⟩ := h.owned j hi hopen
      have hfind := hs.findRun hr
      by_cases he : r.id = run.id
      · -- the job would have been revoked with its run
        exfalso
        rw [he,hrun] at hfind
        cases hfind
        obtain ⟨k,hk,hkj⟩ := Tables.mem_updateAll hj
        have hki : k = j := by
          split_ifs at hkj with hp
          · rw [hkj] at hopen
            cases hopen
          · exact hkj.symm
        rw [hki,if_pos (by simp [htenant,hrid,hopen])] at hkj
        rw [hkj] at hopen
        cases hopen
      · have hwritten : (s.updateRun run.id cancelled).findRun r.id = some r := by
          rw [findRun_updateRun cancelled_id,if_neg he]
          exact hfind
        exact ⟨r,(findRun_mem hwritten).1,hrid,htenant,hactive,hevidence⟩
    · rw [hcancelled] at hopen
      cases hopen
  · have hmap : (TestRuns.cancelRow s run).probeJobs.map ProbeJob.testRunId =
        s.probeJobs.map ProbeJob.testRunId := Tables.map_updateAll fun _ => rfl
    rw [hmap]
    exact h.once

theorem JobsKept.withJob (h : JobsKept s) {run row : TestRun} (hrow : s.findRun run.id = some row)
    (htenant : row.tenantId = run.tenantId) (hrunning : row.status = .running)
    (hevidence : hasExternalProbeEvidence row = false)
    (hfirst : ∀ j ∈ s.probeJobs,j.testRunId ≠ run.id) : JobsKept (withJob s run) := by
  constructor
  · intro j hj hopen
    rcases List.mem_append.mp hj with hj | hj
    · exact h.owned j hj hopen
    · cases List.mem_singleton.mp hj
      obtain ⟨hm,hid⟩ := findRun_mem hrow
      exact ⟨row,hm,hid,htenant,by rw [hrunning]; rfl,hevidence⟩
  · simp only [RuntimeFlow.withJob,List.map_append,List.map_cons,List.map_nil]
    refine List.nodup_append.mpr ⟨h.once,by simp,fun a ha b hb => ?_⟩
    obtain ⟨j,hj,rfl⟩ := List.mem_map.mp ha
    cases List.mem_singleton.mp hb
    exact hfirst j hj

theorem JobsKept.ingested (h : JobsKept s) (hs : Sound s) {job : ProbeJob} {run : TestRun}
    (hjob : (s.probeJobs.find? fun j => j.id == job.id) = some job)
    (hof : job.testRunId = run.id) : JobsKept (ingested s job run) := by
  have hmap : (RuntimeOps.ingested s job run).probeJobs.map ProbeJob.testRunId =
      s.probeJobs.map ProbeJob.testRunId := Tables.map_update fun _ => rfl
  have honce : ((RuntimeOps.ingested s job run).probeJobs.map ProbeJob.testRunId).Nodup := by
    rw [hmap]
    exact h.once
  have hdone : ((RuntimeOps.ingested s job run).probeJobs.find? fun j => j.id == job.id) =
      some { job with status := .completed } := by
    have hread : ((RuntimeOps.ingested s job run).probeJobs.find? fun j => j.id == job.id) =
        (s.probeJobs.find? fun j => j.id == job.id).map fun j => { j with status := .completed } :=
      Tables.find?_update fun j hj => hj
    rw [hread,hjob]
    rfl
  refine ⟨fun j hj hopen => ?_,honce⟩
  -- a run has one job, and that job is the completed one
  have hother : j.testRunId ≠ run.id := by
    intro he
    have hsame : j = { job with status := .completed } :=
      List.inj_on_of_nodup_map honce hj (List.mem_of_find?_eq_some hdone) (he.trans hof.symm)
    rw [hsame] at hopen
    cases hopen
  have hold : j ∈ s.probeJobs := by
    rcases Tables.mem_update hj with hm | ⟨i,hi,rfl⟩
    · exact hm
    · cases hopen
  obtain ⟨r,hr,hrid,htenant,hactive,hevidence⟩ := h.owned j hold hopen
  have hid : ∀ q : TestRun,(collecting { q with
      probeExternalResult := true
      probeEvent := true }).id = q.id := fun _ => rfl
  have hwritten : (s.updateRun run.id fun r => collecting { r with
      probeExternalResult := true
      probeEvent := true }).findRun r.id = some r := by
    rw [findRun_updateRun hid,if_neg (by rw [hrid]; exact hother)]
    exact hs.findRun hr
  exact ⟨r,(findRun_mem hwritten).1,hrid,htenant,hactive,hevidence⟩

theorem JobsKept.atom (h : JobsKept s) (hs : Sound s) (ha : Atom late held s t) : JobsKept t := by
  cases ha with
  | book tick nextId hle => exact h.of_eq rfl rfl
  | start r hr =>
      refine ⟨fun j hj hopen => ?_,h.once⟩
      obtain ⟨q,hq,hrest⟩ := h.owned j hj hopen
      exact ⟨q,List.mem_append_left _ hq,hrest⟩
  | drop r hr hrun hjob =>
      refine ⟨fun j hj hopen => ?_,h.once⟩
      obtain ⟨q,hq,hid,hrest⟩ := h.owned j hj hopen
      refine ⟨q,List.mem_filter.mpr ⟨hq,?_⟩,hid,hrest⟩
      simpa [hid] using hjob j hj
  | note id f hid hf =>
      refine h.updateRun hs hid fun r hr => ?_
      rcases hf r hr with he | hn
      · exact Or.inr (by rw [he]; exact ⟨rfl,rfl,rfl⟩)
      · obtain ⟨-,rfl⟩ := findRun_mem hr
        rcases hn.evidence with hev | hclosed
        · refine Or.inr ⟨?_,?_,hev⟩
          · exact show (runCore (f r)).tenantId = (runCore r).tenantId by rw [hn.core]
          rcases hn.status with he | ⟨he,he'⟩
          · rw [he]
          · rw [he,he']
            rfl
        · exact Or.inl hclosed
  | verdict run finding row hrow htenant hevidence =>
      obtain ⟨hm,hid⟩ := findRun_mem hrow
      have hupdate : JobsKept (s.updateRun run.id verdicted) := by
        refine h.updateRun hs verdicted_id fun r _ => Or.inl ?_
        rw [← hid]
        exact h.closed_of_evidence hs hm hevidence
      exact hupdate.of_eq rfl rfl
  | cancel run hrun hactive => exact h.cancelRow hs hrun
  | job run row hrow htenant hrunning hevidence hfirst =>
      exact h.withJob hrow htenant hrunning hevidence hfirst
  | scan id f x => exact h.of_eq rfl rfl

theorem JobsKept.flow (h : JobsKept s) (hs : Sound s) (hf : Flow late held s t) : JobsKept t := by
  induction hf with
  | refl => exact h
  | tail hf ha ih => exact ih.atom (Flow.sound hf hs) ha

theorem JobsKept.quiet (h : JobsKept s) (hs : Sound s) (hq : Quiet late s t) : JobsKept t := by
  cases hq with
  | turns ht =>
      induction ht with
      | refl => exact h
      | tail hf ht ih =>
          cases ht with
          | atom ha => exact ih.atom (Turns.sound hf hs) ha
          | _ => exact ih.of_eq rfl rfl
  | ingest job run hjob hopen hrun hof hactive => exact h.ingested hs hjob hof
  | jobs p hp =>
      constructor
      · intro j hj hopen
        obtain ⟨i,hi,rfl⟩ := Tables.mem_updateAll hj
        split_ifs with hpi
        · exact h.owned i hi (hp i hpi)
        · rw [if_neg hpi] at hopen
          exact h.owned i hi hopen
      · have hmap : (Tables.updateAll p (fun j : ProbeJob => { j with status := .leased })
            s.probeJobs).map ProbeJob.testRunId = s.probeJobs.map ProbeJob.testRunId :=
          Tables.map_updateAll fun _ => rfl
        rw [hmap]
        exact h.once
  | _ => exact h.of_eq rfl rfl

theorem JobsKept.effect (h : JobsKept s) (hs : Sound s) (he : Effect E depth late s t) :
    JobsKept t := by
  cases he with
  | quiet hq => exact h.quiet hs hq
  | stop tenantId active =>
      obtain ⟨requests,he⟩ := switched_eq (s := s) tenantId active
      have hswitched : JobsKept (switched s tenantId active) := by
        rw [he]
        exact h.of_eq rfl rfl
      exact hswitched.flow (sound_switched hs) (flow_setKillSwitch hs)

theorem jobsKept_exec (ops : List Op) : Sound (exec E zone depth Store.empty ops) ∧
    JobsKept (exec E zone depth Store.empty ops) := by
  refine exec_invariant (fun s s' hs h he => h.effect hs he) sound_empty ?_ ops
  exact ⟨by simp [Store.empty],by simp [Store.empty]⟩

structure Stopped (tenantId : ℕ) (s : Store) : Prop where
  switch : isKillSwitchActiveForTenant s tenantId = true
  runs : ∀ r ∈ s.testRuns,r.tenantId = tenantId → r.status.active = false
  requests : ∀ x ∈ s.highScaleRequests,x.tenantId = tenantId → x.state ≠ .running

variable {tenantId : ℕ}

/-- No run of the tenant is stored or wakes up. -/
theorem Stopped.of_runs (h : Stopped tenantId s) (hk : t.socKillSwitch = s.socKillSwitch)
    (hx : t.highScaleRequests = s.highScaleRequests)
    (hr : ∀ r' ∈ t.testRuns,r'.status.active = true → r'.tenantId ≠ tenantId ∨
      ∃ r ∈ s.testRuns,r.tenantId = r'.tenantId ∧ r.status.active = true) :
    Stopped tenantId t where
  switch := (isActive_congr hk tenantId).trans h.switch
  runs := by
    intro r' hr' ht
    by_contra hactive
    rcases hr r' hr' (by simpa using hactive) with hne | ⟨r,hm,he,ha⟩
    · exact hne ht
    · rw [h.runs r hm (he.trans ht)] at ha
      cases ha
  requests := by
    rw [hx]
    exact h.requests

theorem Stopped.of_eq (h : Stopped tenantId s) (hk : t.socKillSwitch = s.socKillSwitch)
    (hx : t.highScaleRequests = s.highScaleRequests) (hr : t.testRuns = s.testRuns) :
    Stopped tenantId t := by
  refine h.of_runs hk hx fun r hrm hactive => Or.inr ⟨r,?_,rfl,hactive⟩
  rw [← hr]
  exact hrm

theorem Stopped.updateRun (h : Stopped tenantId s) {id : ℕ} {f : TestRun → TestRun}
    (hf : ∀ r,s.findRun id = some r → (f r).tenantId = r.tenantId ∧
      ((f r).status.active = true → r.status.active = true)) :
    Stopped tenantId (s.updateRun id f) := by
  refine h.of_runs rfl rfl fun r' hr' hactive => Or.inr ?_
  rcases Tables.mem_update hr' with hm | ⟨r,hr,rfl⟩
  · exact ⟨r',hm,rfl,hactive⟩
  · obtain ⟨ht,ha⟩ := hf r hr
    exact ⟨r,List.mem_of_find?_eq_some hr,ht.symm,ha hactive⟩

theorem Stopped.atom (h : Stopped tenantId s) (ha : Atom late held s t) : Stopped tenantId t := by
  cases ha with
  | book tick nextId hle => exact h.of_eq rfl rfl rfl
  | start r hr =>
      refine h.of_runs rfl rfl fun r' hr' hactive => ?_
      rcases List.mem_append.mp hr' with hr' | hr'
      · exact Or.inr ⟨r',hr',rfl,hactive⟩
      · cases List.mem_singleton.mp hr'
        refine Or.inl fun he => ?_
        have hoff := hr.stopInactive
        rw [he,h.switch] at hoff
        cases hoff
  | drop r hr hrun hjob =>
      exact h.of_runs rfl rfl fun q hq hactive => Or.inr ⟨q,List.mem_of_mem_filter hq,rfl,hactive⟩
  | note id f hid hf =>
      refine h.updateRun fun r hr => ?_
      rcases hf r hr with he | hn
      · rw [he]
        exact ⟨rfl,fun ha => ha⟩
      · exact ⟨show (runCore (f r)).tenantId = (runCore r).tenantId by rw [hn.core],
          fun _ => hn.active⟩
  | verdict run finding row hrow =>
      have hupdate : Stopped tenantId (s.updateRun run.id verdicted) :=
        h.updateRun fun r _ => ⟨rfl,fun ha => nomatch ha⟩
      exact hupdate.of_eq rfl rfl rfl
  | cancel run hrun hactive =>
      have hupdate : Stopped tenantId (s.updateRun run.id cancelled) :=
        h.updateRun fun r _ => ⟨rfl,fun ha => nomatch ha⟩
      exact hupdate.of_eq rfl rfl rfl
  | job run row => exact h.of_eq rfl rfl rfl
  | scan id f x => exact h.of_eq rfl rfl rfl

theorem Stopped.flow (h : Stopped tenantId s) (hf : Flow late held s t) : Stopped tenantId t := by
  induction hf with
  | refl => exact h
  | tail _ ha ih => exact ih.atom ha

theorem Stopped.quiet (h : Stopped tenantId s) (hq : Quiet late s t) : Stopped tenantId t := by
  cases hq with
  | turns ht =>
      induction ht with
      | refl => exact h
      | tail _ ht ih =>
          cases ht with
          | atom ha => exact ih.atom ha
          | _ => exact ih.of_eq rfl rfl rfl
  | ingest job run hjob hopen hrun hof hactive =>
      have hupdate : Stopped tenantId (s.updateRun run.id fun r => collecting { r with
          probeExternalResult := true
          probeEvent := true }) := by
        refine h.updateRun fun r hr => ⟨rfl,fun _ => ?_⟩
        cases hr.symm.trans hrun
        exact hactive
      exact hupdate.of_eq rfl rfl rfl
  | highScale requests nextId hle hrunning =>
      refine ⟨h.switch,h.runs,fun x hx ht hrun => ?_⟩
      rcases hrunning x hx hrun with ⟨y,hy,hyt,hyrun⟩ | hoff
      · exact h.requests y hy (hyt.trans ht) hyrun
      · rw [ht,h.switch] at hoff
        cases hoff
  | _ => exact h.of_eq rfl rfl rfl

theorem Stopped.exec_quiet (h : Stopped tenantId s) (hs : Sound s) {ops : List Op}
    (hops : ∀ op ∈ ops,isSwitch op = false) : Stopped tenantId (exec E zone depth s ops) := by
  induction ops generalizing s with
  | nil => exact h
  | cons op ops ih =>
      have hop : Quiet true s (apply E zone depth s op) :=
        apply_quiet hs op (by simp) (isSwitch_eq_false.mp (hops op List.mem_cons_self))
      exact ih (h.quiet hop) (sound_apply hs op) fun o ho => hops o (List.mem_cons_of_mem op ho)

/-- A run is left as it was only where it was not in the list. -/
theorem mem_cancelRows (runs : List TestRun) (hs : Sound s) {r : TestRun}
    (hr : r ∈ (cancelRows s runs).testRuns) :
    r.status = .cancelled ∨ (r ∈ s.testRuns ∧ ∀ q ∈ runs,q.id ≠ r.id) := by
  induction runs generalizing s with
  | nil => exact Or.inr ⟨hr,by simp⟩
  | cons run runs ih =>
      rcases ih hs.cancelRow hr with hc | ⟨hm,hother⟩
      · exact Or.inl hc
      · have hfind := hs.cancelRow.findRun hm
        rw [findRun_cancelRow] at hfind
        split_ifs at hfind with he
        · obtain ⟨q,-,rfl⟩ := Option.map_eq_some_iff.mp hfind
          exact Or.inl rfl
        · refine Or.inr ⟨(findRun_mem hfind).1,fun q hq => ?_⟩
          rcases List.mem_cons.mp hq with rfl | hq
          · exact Ne.symm he
          · exact hother q hq

theorem frame_cancelRows (runs : List TestRun) :
    (cancelRows s runs).socKillSwitch = s.socKillSwitch ∧
      (cancelRows s runs).highScaleRequests = s.highScaleRequests := by
  induction runs generalizing s with
  | nil => exact ⟨rfl,rfl⟩
  | cons run runs ih => exact ih

/-- Every active run is cancelled before the first hook is called, and the hooks start none. -/
theorem stopped_sweep (hs : Sound s) (hswitch : isKillSwitchActiveForTenant s tenantId = true)
    (hrequests : ∀ x ∈ s.highScaleRequests,x.tenantId = tenantId → x.state ≠ .running) :
    Stopped tenantId (sweep E depth s tenantId) := by
  let runs := s.testRuns.filter fun r => r.tenantId == tenantId && r.status.active
  have hcancelled : Stopped tenantId (cancelRows s runs) := by
    obtain ⟨hk,hx⟩ := frame_cancelRows (s := s) runs
    refine ⟨(isActive_congr hk tenantId).trans hswitch,?_,by rw [hx]; exact hrequests⟩
    intro r hr ht
    rcases mem_cancelRows runs hs hr with hc | ⟨hm,hother⟩
    · rw [hc]
      rfl
    · by_contra hactive
      refine hother r (List.mem_filter.mpr ⟨hm,?_⟩) rfl
      simpa [ht] using hactive
  have hsound : Sound (cancelRows s runs) := by
    have hmoves : (runs.map TestRun.id).Nodup →
        (∀ r ∈ runs,s.findRun r.id = some r ∧ r.status.active = true) →
        Moves false [] s (cancelRows s runs) := moves_cancelRows runs
    refine (hmoves ?_ ?_ hs).sound hs
    · exact hs.runNodup.sublist (List.filter_sublist.map _)
    · intro r hr
      obtain ⟨hm,hp⟩ := List.mem_filter.mp hr
      simp only [Bool.and_eq_true] at hp
      exact ⟨hs.findRun hm,hp.2⟩
  have hnotify : Moves false [] (cancelRows s runs) (sweep E depth s tenantId) :=
    moves_notify (fun s run => moves_hooks depth [] s run) runs
  exact hcancelled.flow (hnotify hsound)

theorem stopped_setKillSwitch (hs : Sound s) :
    Stopped tenantId (setKillSwitch E depth s tenantId true) := by
  have hfirst : Stopped tenantId (sweep E depth (switched s tenantId true) tenantId) := by
    refine stopped_sweep (sound_switched hs) ?_ ?_
    · simp [switched,isKillSwitchActiveForTenant,autoStopRunningHighScaleRequests,killSwitchRecord]
    · intro x hx ht hrun
      obtain ⟨y,-,rfl⟩ := Tables.mem_updateAll hx
      split_ifs at ht hrun with hp
      simp [ht,hrun] at hp
  have hsecond : Moves false [] (sweep E depth (switched s tenantId true) tenantId)
      (setKillSwitch E depth s tenantId true) := moves_sweep
  have hsound : Sound (sweep E depth (switched s tenantId true) tenantId) := by
    have hmoves : Moves false [] (switched s tenantId true)
        (sweep E depth (switched s tenantId true) tenantId) := moves_sweep
    exact hmoves.sound (sound_switched hs)
  exact hfirst.flow (hsecond hsound)

end

/-- In every state after a tenant has set its switch and before anyone changes a switch again, no
run of the tenant is active, none of their jobs is open, and no high-scale request runs. -/
theorem nothing_runs_after_stop (E : Env) (zone : Zone) (depth tenantId : ℕ)
    (before after : List Op) (hafter : ∀ op ∈ after,isSwitch op = false) :
    let s := exec E zone depth Store.empty (before++.setKillSwitch tenantId true::after)
    (∀ r ∈ s.testRuns,r.tenantId = tenantId → r.status ≠ .planned ∧ r.status ≠ .running ∧
      r.status ≠ .collecting) ∧
    (∀ j ∈ s.probeJobs,∀ r ∈ s.testRuns,r.id = j.testRunId → r.tenantId = tenantId →
      j.status ≠ .pending ∧ j.status ≠ .leased) ∧
    ∀ x ∈ s.highScaleRequests,x.tenantId = tenantId → x.state ≠ .running := by
  intro s
  obtain ⟨hsound,hjobs⟩ : Sound s ∧ JobsKept s := jobsKept_exec _
  have hstopped : Stopped tenantId s := by
    have hbefore : Sound (exec E zone depth Store.empty before) := (jobsKept_exec before).1
    have hstop : Stopped tenantId (apply E zone depth (exec E zone depth Store.empty before)
        (.setKillSwitch tenantId true)) := stopped_setKillSwitch hbefore
    have hs : s = exec E zone depth (apply E zone depth (exec E zone depth Store.empty before)
        (.setKillSwitch tenantId true)) after := by
      simp only [s,exec,List.foldl_append,List.foldl_cons]
    rw [hs]
    exact hstop.exec_quiet (sound_apply hbefore _) hafter
  refine ⟨?_,?_,hstopped.requests⟩
  · intro r hr ht
    have hoff := hstopped.runs r hr ht
    refine ⟨?_,?_,?_⟩ <;>
    · intro he
      rw [he] at hoff
      cases hoff
  · intro j hj r hr hid ht
    have hclosed : j.status.isOpen = false := by
      by_contra hopen
      obtain ⟨q,hq,hqid,-,hactive,-⟩ := hjobs.owned j hj (by simpa using hopen)
      have hsame : q = r := List.inj_on_of_nodup_map hsound.runNodup hq hr (hqid.trans hid.symm)
      rw [hsame,hstopped.runs r hr ht] at hactive
      cases hactive
    constructor <;>
    · intro he
      rw [he] at hclosed
      cases hclosed

/-- Group 0 with target 1 and run 2, whose job 3 is pending when the switch is set. -/
theorem started_run_is_stopped :
    let s := exec RunLifecycle.signedWorker RunLifecycle.utc 0 Store.empty
      ([.addGroup 7,.addTarget 7 0,.start 0 ⟨7,0,some 1,5,none⟩ false]++
        .setKillSwitch 7 true::[.start 1 ⟨7,0,some 1,5,none⟩ false])
    s.testRuns.map TestRun.id = [2] ∧ s.probeJobs.map ProbeJob.testRunId = [2] ∧
    (∀ r ∈ s.testRuns,r.tenantId = 7 → r.status ≠ .planned ∧ r.status ≠ .running ∧
      r.status ≠ .collecting) ∧
    (∀ j ∈ s.probeJobs,∀ r ∈ s.testRuns,r.id = j.testRunId → r.tenantId = 7 →
      j.status ≠ .pending ∧ j.status ≠ .leased) ∧
    ∀ x ∈ s.highScaleRequests,x.tenantId = 7 → x.state ≠ .running := by
  refine ⟨by decide,by decide,?_⟩
  exact nothing_runs_after_stop RunLifecycle.signedWorker RunLifecycle.utc 0 7 _ _
    (by simp [isSwitch])

/-- A run that is over, with a job that is still leased: no sequence of requests leads here. -/
def leftOver : Store :=
  { Store.empty with
    testRuns := [⟨0,7,0,none,5,none,none,none,none,.verdicted,0,0,true,true,false⟩]
    probeJobs := [⟨1,7,0,.leased⟩]
    nextId := 2 }

/-- From any store at all, the sweep leaves the job of a run that it does not cancel. -/
theorem left_over_job_stays : ¬ ∀ (E : Env) (zone : Zone) (depth tenantId : ℕ) (start : Store)
    (after : List Op),(∀ op ∈ after,isSwitch op = false) →
    let s := exec E zone depth start (.setKillSwitch tenantId true::after)
    (∀ r ∈ s.testRuns,r.tenantId = tenantId → r.status ≠ .planned ∧ r.status ≠ .running ∧
      r.status ≠ .collecting) ∧
    (∀ j ∈ s.probeJobs,∀ r ∈ s.testRuns,r.id = j.testRunId → r.tenantId = tenantId →
      j.status ≠ .pending ∧ j.status ≠ .leased) ∧
    ∀ x ∈ s.highScaleRequests,x.tenantId = tenantId → x.state ≠ .running := by
  intro hall
  have hjobs := (hall RunLifecycle.signedWorker RunLifecycle.utc 0 7 leftOver [] (by simp)).2.1
  exact (hjobs _ (List.mem_singleton_self _) _ (List.mem_singleton_self _) rfl rfl).2 rfl

end AstraNull.StopGuarantees

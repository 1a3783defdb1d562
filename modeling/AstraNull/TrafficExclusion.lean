import Mathlib
import AstraNull.Tables
import AstraNull.RuntimeStore
import AstraNull.TestRuns
import AstraNull.Schedules
import AstraNull.ValidationScans
import AstraNull.ScanLifecycle
import AstraNull.EmergencyStop
import AstraNull.RuntimeFlow
import AstraNull.RuntimeMoves
import AstraNull.ScanTurns
import AstraNull.RuntimeOps

/-!
# One source of traffic for a target

The start of a run looks for active runs of the group and target, the creation of a scan looks at
every target of its plan, and a dispatch at every pair of a group and a target. Targets never
change their group, so the three checks add up: no two active runs share a target, and no two
active scans do.
-/
namespace AstraNull.TrafficExclusion
open RuntimeStore TestRuns Schedules ValidationScans ScanLifecycle EmergencyStop RuntimeFlow
  RuntimeMoves ScanTurns RuntimeOps

structure Exclusive (s : Store) : Prop where
  targetFresh : ∀ t ∈ s.targets,t.id < s.nextId
  targetNodup : (s.targets.map Target.id).Nodup
  runTarget : ∀ r ∈ s.testRuns,∃ t ∈ s.targets,
    r.targetId = some t.id ∧ t.tenantId = r.tenantId ∧ t.targetGroupId = r.targetGroupId
  runs : ∀ r ∈ s.testRuns,∀ r' ∈ s.testRuns,r.status.active = true → r'.status.active = true →
    r.tenantId = r'.tenantId → r.targetId = r'.targetId → r.id = r'.id
  planned : ∀ x ∈ s.validationScans,Planned s x
  scans : ∀ x ∈ s.validationScans,∀ y ∈ s.validationScans,x.status.active = true →
    y.status.active = true → x.tenantId = y.tenantId → x.id ≠ y.id →
    ∀ i ∈ scanTargetIds x,i ∉ scanTargetIds y

section
variable {s t : Store}

theorem target_unique (h : Exclusive s) {a b : Target} (ha : a ∈ s.targets) (hb : b ∈ s.targets)
    (he : a.id = b.id) : a = b := List.inj_on_of_nodup_map h.targetNodup ha hb he

/-- Runs keep whose they are, and none wakes up. -/
theorem Exclusive.of_runs (h : Exclusive s) (ht : t.targets = s.targets)
    (hx : t.validationScans = s.validationScans) (hn : s.nextId ≤ t.nextId)
    (hr : ∀ r' ∈ t.testRuns,∃ r ∈ s.testRuns,r.id = r'.id ∧ r.tenantId = r'.tenantId ∧
      r.targetGroupId = r'.targetGroupId ∧ r.targetId = r'.targetId ∧
      (r'.status.active = true → r.status.active = true)) : Exclusive t where
  targetFresh := by
    rw [ht]
    exact fun a ha => (h.targetFresh a ha).trans_le hn
  targetNodup := by
    rw [ht]
    exact h.targetNodup
  runTarget := by
    intro r' hr'
    obtain ⟨r,hm,-,htenant,hgroup,htarget,-⟩ := hr r' hr'
    obtain ⟨a,ha,hid,hat,hag⟩ := h.runTarget r hm
    exact ⟨a,ht ▸ ha,htarget ▸ hid,htenant ▸ hat,hgroup ▸ hag⟩
  runs := by
    intro p hp q hq hpa hqa htenant htarget
    obtain ⟨r,hrm,hrid,hrt,-,hrtarget,hra⟩ := hr p hp
    obtain ⟨r',hrm',hrid',hrt',-,hrtarget',hra'⟩ := hr q hq
    rw [← hrid,← hrid']
    exact h.runs r hrm r' hrm' (hra hpa) (hra' hqa) (by rw [hrt,hrt',htenant])
      (by rw [hrtarget,hrtarget',htarget])
  planned := by
    intro x hxm
    rw [hx] at hxm
    obtain ⟨hne,hc⟩ := h.planned x hxm
    exact ⟨hne,by rw [ht]; exact hc⟩
  scans := by
    rw [hx]
    exact h.scans

theorem Exclusive.of_eq (h : Exclusive s) (ht : t.targets = s.targets)
    (hr : t.testRuns = s.testRuns) (hx : t.validationScans = s.validationScans)
    (hn : s.nextId ≤ t.nextId) : Exclusive t := by
  refine h.of_runs ht hx hn fun r hrm => ?_
  rw [hr] at hrm
  exact ⟨r,hrm,rfl,rfl,rfl,rfl,fun ha => ha⟩

/-- What a run is about is part of its core. -/
theorem core_fields {r r' : TestRun} (h : runCore r' = runCore r) :
    r.id = r'.id ∧ r.tenantId = r'.tenantId ∧ r.targetGroupId = r'.targetGroupId ∧
      r.targetId = r'.targetId := by
  refine ⟨?_,?_,?_,?_⟩
  · exact show (runCore r).id = (runCore r').id by rw [h]
  · exact show (runCore r).tenantId = (runCore r').tenantId by rw [h]
  · exact show (runCore r).targetGroupId = (runCore r').targetGroupId by rw [h]
  · exact show (runCore r).targetId = (runCore r').targetId by rw [h]

theorem Exclusive.updateRun (h : Exclusive s) {id : ℕ} {f : TestRun → TestRun}
    (hf : ∀ r,s.findRun id = some r → runCore (f r) = runCore r ∧
      ((f r).status.active = true → r.status.active = true)) : Exclusive (s.updateRun id f) := by
  refine h.of_runs rfl rfl le_rfl fun r' hr' => ?_
  rcases Tables.mem_update hr' with hm | ⟨r,hr,rfl⟩
  · exact ⟨r',hm,rfl,rfl,rfl,rfl,fun ha => ha⟩
  · obtain ⟨hcore,hactive⟩ := hf r hr
    obtain ⟨h1,h2,h3,h4⟩ := core_fields hcore
    exact ⟨r,List.mem_of_find?_eq_some hr,h1,h2,h3,h4,hactive⟩

/-- A new run is the only active one of its target: an active run of the target would be in the
same group. -/
theorem Exclusive.pushRun (h : Exclusive s) {r : TestRun} (hr : Startable s r) :
    Exclusive (pushRun s r) := by
  obtain ⟨a,ha,hid,htenant,hgroup⟩ := hr.target
  have hblocked : ∀ q ∈ s.testRuns,q.status.active = true → q.tenantId = r.tenantId →
      q.targetId = r.targetId → False := by
    intro q hq hqa hqt hqtarget
    obtain ⟨b,hb,hbid,-,hbgroup⟩ := h.runTarget q hq
    have hab : b = a := target_unique h hb ha (by
      rw [hqtarget,hid] at hbid
      exact (Option.some.inj hbid).symm)
    have hno := hr.noActive q hq hqt (by rw [← hbgroup,hab,hgroup]) hqtarget
    rw [hno] at hqa
    cases hqa
  refine ⟨?_,h.targetNodup,?_,?_,
    fun x hx => ⟨(h.planned x hx).nonempty,(h.planned x hx).covered⟩,h.scans⟩
  · exact fun b hb => Nat.lt_succ_of_lt (h.targetFresh b hb)
  · intro q hq
    rcases List.mem_append.mp hq with hq | hq
    · exact h.runTarget q hq
    · cases List.mem_singleton.mp hq
      exact ⟨a,ha,hid,htenant,hgroup⟩
  · intro p hp q hq hpa hqa ht htarget
    rcases List.mem_append.mp hp with hp | hp <;> rcases List.mem_append.mp hq with hq | hq
    · exact h.runs p hp q hq hpa hqa ht htarget
    · cases List.mem_singleton.mp hq
      exact (hblocked p hp hpa ht htarget).elim
    · cases List.mem_singleton.mp hp
      exact (hblocked q hq hqa ht.symm htarget.symm).elim
    · cases List.mem_singleton.mp hp
      cases List.mem_singleton.mp hq
      rfl

/-- An active scan that includes a target is found by the check of its group. -/
theorem not_included (h : Exclusive s) {tenantId : ℕ} {excludeId : Option ℕ} {a : Target}
    (ha : a ∈ s.targets)
    (hclear : activeScanForGroup s tenantId a.targetGroupId excludeId a.id = none)
    {y : Scan} (hy : y ∈ s.validationScans) (hactive : y.status.active = true)
    (htenant : y.tenantId = tenantId) (hne : excludeId ≠ some y.id) : a.id ∉ scanTargetIds y := by
  intro hi
  obtain ⟨b,hb,hbid,-,hbgroup⟩ := (h.planned y hy).covered a.id hi
  cases target_unique h hb ha hbid
  rw [activeScanForGroup,List.find?_eq_none] at hclear
  have hincl : scanIncludesTarget y a.id a.targetGroupId = true := by
    rw [scanIncludesTarget,if_pos (List.ne_nil_of_mem hi)]
    simpa using hi
  refine hclear y hy ?_
  have hne' : (some y.id != excludeId) = true := by
    simpa [bne_iff_ne] using Ne.symm hne
  simp [htenant,hbgroup,hne',hincl,hactive]

theorem Exclusive.pushScan (h : Exclusive s) {x : Scan}
    (hplan : Planned s x ∨ ∃ y ∈ s.validationScans,SamePlan y x)
    (hclear : x.status.active = true → ∀ i ∈ scanTargetIds x,∃ t ∈ s.targets,t.id = i ∧
      t.tenantId = x.tenantId ∧ activeScanForGroup s x.tenantId t.targetGroupId none i = none) :
    Exclusive (pushScan s x) := by
  have hx : Planned s x := by
    rcases hplan with hp | ⟨y,hy,hp⟩
    · exact hp
    · exact hp.planned (h.planned y hy)
  have hfree : x.status.active = true → ∀ y ∈ s.validationScans,y.status.active = true →
      y.tenantId = x.tenantId → ∀ i ∈ scanTargetIds x,i ∉ scanTargetIds y := by
    intro hxa y hy hya ht i hi
    obtain ⟨a,ha,rfl,-,hnone⟩ := hclear hxa i hi
    exact not_included h ha hnone hy hya ht (by simp)
  refine ⟨?_,h.targetNodup,h.runTarget,h.runs,?_,?_⟩
  · intro a ha
    have := h.targetFresh a ha
    show a.id < s.nextId+1+x.steps.length
    omega
  · intro y hy
    rcases List.mem_append.mp hy with hy | hy
    · exact ⟨(h.planned y hy).nonempty,(h.planned y hy).covered⟩
    · cases List.mem_singleton.mp hy
      exact ⟨hx.nonempty,hx.covered⟩
  · intro y hy z hz hya hza ht hne i hi
    rcases List.mem_append.mp hy with hy | hy <;> rcases List.mem_append.mp hz with hz | hz
    · exact h.scans y hy z hz hya hza ht hne i hi
    · cases List.mem_singleton.mp hz
      exact fun hi' => hfree hza y hy hya ht i hi' hi
    · cases List.mem_singleton.mp hy
      exact hfree hya z hz hza ht.symm i hi
    · cases List.mem_singleton.mp hy
      cases List.mem_singleton.mp hz
      exact (hne rfl).elim

/-- A scan is rewritten; where it stays active its targets shrink, and where it becomes active no
other active scan has its targets. -/
theorem Exclusive.updateScan (h : Exclusive s) (hs : Sound s) {id : ℕ} {f : Scan → Scan} {x : Scan}
    (hx : s.findScan id = some x) (hid : ∀ y,(f y).id = y.id) (hplan : Planned s (f x))
    (hfree : (f x).status.active = true → ∀ y ∈ s.validationScans,y.status.active = true →
      y.tenantId = (f x).tenantId → y.id ≠ x.id → ∀ i ∈ scanTargetIds (f x),i ∉ scanTargetIds y) :
    Exclusive (s.updateScan id f) := by
  have hrows : ∀ y ∈ (s.updateScan id f).validationScans,
      (y ∈ s.validationScans ∧ y.id ≠ x.id) ∨ y = f x := by
    obtain ⟨hxm,hxid⟩ := findScan_mem hx
    have hfind : ∀ y ∈ (s.updateScan id f).validationScans,y.id = id → y = f x := by
      intro y hy hyid
      have hsound : Sound (s.updateScan id f) := hs.updateScan hid
      have hf := hsound.findScan hy
      rw [hyid,findScan_write hx hid] at hf
      exact (Option.some.inj hf).symm
    intro y hy
    by_cases hyid : y.id = id
    · exact Or.inr (hfind y hy hyid)
    · rcases Tables.mem_update hy with hm | ⟨z,hz,rfl⟩
      · exact Or.inl ⟨hm,by rw [hxid]; exact hyid⟩
      · exact absurd (by rw [hid]; exact (findScan_mem hz).2) hyid
  refine ⟨h.targetFresh,h.targetNodup,h.runTarget,h.runs,?_,?_⟩
  · intro y hy
    rcases hrows y hy with ⟨hm,-⟩ | rfl
    · exact ⟨(h.planned y hm).nonempty,(h.planned y hm).covered⟩
    · exact ⟨hplan.nonempty,hplan.covered⟩
  · intro y hy z hz hya hza ht hne i hi
    rcases hrows y hy with ⟨hym,hyx⟩ | rfl <;> rcases hrows z hz with ⟨hzm,hzx⟩ | rfl
    · exact h.scans y hym z hzm hya hza ht hne i hi
    · exact fun hi' => hfree hza y hym hya ht hyx i hi' hi
    · exact hfree hya z hzm hza ht.symm hzx i hi
    · exact (hne rfl).elim

/-- The scan keeps its targets and does not wake up. -/
theorem Exclusive.keepScan (h : Exclusive s) (hs : Sound s) {id : ℕ} {f : Scan → Scan} {x : Scan}
    (hx : s.findScan id = some x) (hid : ∀ y,(f y).id = y.id) (hplan : SamePlan x (f x))
    (hactive : (f x).status.active = true → x.status.active = true) :
    Exclusive (s.updateScan id f) := by
  have hm := (findScan_mem hx).1
  refine h.updateScan hs hx hid (hplan.planned (h.planned x hm)) ?_
  intro hfa y hy hya ht hne i hi
  rw [hplan.targetIds] at hi
  exact h.scans x hm y hy (hactive hfa) hya (by rw [ht,hplan.tenantId]) (Ne.symm hne) i hi

/-- Every target is still there, with its tenant and group. -/
theorem Exclusive.of_targets (h : Exclusive s) (hr : t.testRuns = s.testRuns)
    (hx : t.validationScans = s.validationScans) (hfresh : ∀ a ∈ t.targets,a.id < t.nextId)
    (hnodup : (t.targets.map Target.id).Nodup)
    (hkept : ∀ a ∈ s.targets,∃ b ∈ t.targets,b.id = a.id ∧ b.tenantId = a.tenantId ∧
      b.targetGroupId = a.targetGroupId) : Exclusive t where
  targetFresh := hfresh
  targetNodup := hnodup
  runTarget := by
    intro r hrm
    rw [hr] at hrm
    obtain ⟨a,ha,hid,htenant,hgroup⟩ := h.runTarget r hrm
    obtain ⟨b,hb,hbid,hbt,hbg⟩ := hkept a ha
    exact ⟨b,hb,hbid ▸ hid,hbt.trans htenant,hbg.trans hgroup⟩
  runs := by
    rw [hr]
    exact h.runs
  planned := by
    intro x hxm
    rw [hx] at hxm
    refine ⟨(h.planned x hxm).nonempty,fun i hi => ?_⟩
    obtain ⟨a,ha,hid,htenant,hgroup⟩ := (h.planned x hxm).covered i hi
    obtain ⟨b,hb,hbid,hbt,hbg⟩ := hkept a ha
    exact ⟨b,hb,hbid.trans hid,hbt.trans htenant,hbg ▸ hgroup⟩
  scans := by
    rw [hx]
    exact h.scans

theorem Exclusive.addTarget (h : Exclusive s) {a : Target} (ha : a.id = s.nextId) :
    Exclusive { s.reserve 1 with targets := s.targets++[a] } := by
  refine h.of_targets rfl rfl ?_ ?_ fun b hb => ⟨b,List.mem_append_left _ hb,rfl,rfl,rfl⟩
  · intro b hb
    show b.id < s.nextId+1
    rcases List.mem_append.mp hb with hb | hb
    · exact Nat.lt_succ_of_lt (h.targetFresh b hb)
    · cases List.mem_singleton.mp hb
      omega
  · rw [List.map_append,List.nodup_append]
    refine ⟨h.targetNodup,by simp,fun i hi j hj => ?_⟩
    obtain ⟨b,hb,rfl⟩ := List.mem_map.mp hi
    obtain ⟨c,hc,rfl⟩ := List.mem_map.mp hj
    cases List.mem_singleton.mp hc
    have := h.targetFresh b hb
    omega

theorem Exclusive.setTargetArchived (h : Exclusive s) {id : ℕ} {archived : Bool} :
    Exclusive (setTargetArchived s id archived) := by
  refine h.of_targets rfl rfl ?_ ?_ ?_
  · refine Tables.forall_update h.targetFresh fun a ha => ?_
    exact h.targetFresh a (List.mem_of_find?_eq_some ha)
  · have hmap : (RuntimeOps.setTargetArchived s id archived).targets.map Target.id =
        s.targets.map Target.id := Tables.map_update fun _ => rfl
    rw [hmap]
    exact h.targetNodup
  · -- the triples of identifier, tenant and group are those of before
    intro a ha
    have hmap : (RuntimeOps.setTargetArchived s id archived).targets.map
        (fun b => (b.id,b.tenantId,b.targetGroupId)) =
        s.targets.map fun b => (b.id,b.tenantId,b.targetGroupId) := Tables.map_update fun _ => rfl
    have hm : (a.id,a.tenantId,a.targetGroupId) ∈ s.targets.map
        fun b => (b.id,b.tenantId,b.targetGroupId) := List.mem_map.mpr ⟨a,ha,rfl⟩
    rw [← hmap] at hm
    obtain ⟨b,hb,he⟩ := List.mem_map.mp hm
    simp only [Prod.mk.injEq] at he
    exact ⟨b,hb,he⟩

theorem Exclusive.atom {late : Bool} {held : List ℕ} (h : Exclusive s) (hs : Sound s)
    (ha : Atom late held s t) : Exclusive t := by
  cases ha with
  | book tick nextId hle => exact h.of_eq rfl rfl rfl hle
  | start r hr => exact h.pushRun hr
  | drop r hr hrun hjob =>
      refine h.of_runs rfl rfl le_rfl fun q hq => ?_
      exact ⟨q,List.mem_of_mem_filter hq,rfl,rfl,rfl,rfl,fun ha => ha⟩
  | note id f hid hf =>
      refine h.updateRun fun r hr => ?_
      rcases hf r hr with he | hn
      · rw [he]
        exact ⟨rfl,fun ha => ha⟩
      · exact ⟨hn.core,fun _ => hn.active⟩
  | verdict run finding row hrow =>
      have hupdate : Exclusive (s.updateRun run.id verdicted) :=
        h.updateRun fun r _ => ⟨rfl,fun ha => nomatch ha⟩
      exact hupdate.of_eq rfl rfl rfl le_rfl
  | cancel run hrun hactive =>
      have hupdate : Exclusive (s.updateRun run.id cancelled) :=
        h.updateRun fun r _ => ⟨rfl,fun ha => nomatch ha⟩
      exact hupdate.of_eq rfl rfl rfl le_rfl
  | job run row hrow => exact h.of_eq rfl rfl rfl (Nat.le_succ _)
  | scan id f x hheld hf hx hsx hsx' hactive =>
      exact h.keepScan hs hx (fun y => (hf y).id_eq) (samePlan_of_keeps (hf x)) hactive

theorem Exclusive.flow {late : Bool} {held : List ℕ} (h : Exclusive s) (hs : Sound s)
    (hf : Flow late held s t) : Exclusive t := by
  induction hf with
  | refl => exact h
  | tail hf ha ih => exact ih.atom (Flow.sound hf hs) ha

/-- A dispatched scan was checked for every group and target it has. -/
theorem Exclusive.turn {late : Bool} (h : Exclusive s) (hs : Sound s) (ht : Turn late s t) :
    Exclusive t := by
  cases ht with
  | atom ha => exact h.atom hs ha
  | push x hid hplan hclear => exact h.pushScan hplan hclear
  | edit id f x hid hx hplan hactive =>
      rcases hplan with hplan | ⟨hplan,hoff⟩
      · exact h.keepScan hs hx hid hplan hactive
      · refine h.updateScan hs hx hid hplan fun hon => ?_
        rw [hoff] at hon
        cases hon
  | dispatch id f x hid hx htenant hplan hclear =>
      have hm := (findScan_mem hx).1
      have hplanned : Planned s (f x) ∧ scanTargetIds (f x) ⊆ scanTargetIds x := by
        rcases hplan with hplan | hplan
        · exact ⟨hplan.planned (h.planned x hm),fun i hi => hplan.targetIds ▸ hi⟩
        · exact hplan
      refine h.updateScan hs hx hid hplanned.1 fun _ y hy hya hyt hne i hi => ?_
      obtain ⟨a,ha,rfl,-,hgroup⟩ := (h.planned x hm).covered i (hplanned.2 hi)
      have hnone := hclear a.targetGroupId hgroup a.id (hplanned.2 hi)
      exact not_included h ha hnone hy hya (hyt.trans htenant) fun he =>
        hne (Option.some.inj he).symm

theorem Exclusive.quiet {late : Bool} (h : Exclusive s) (hs : Sound s) (hq : Quiet late s t) :
    Exclusive t := by
  cases hq with
  | turns ht =>
      induction ht with
      | refl => exact h
      | tail hf ht ih => exact ih.turn (Turns.sound hf hs) ht
  | ingest job run hjob hopen hrun hof hactive =>
      have hupdate : Exclusive (s.updateRun run.id fun r => collecting { r with
          probeExternalResult := true
          probeEvent := true }) := by
        refine h.updateRun fun r hr => ⟨?_,fun _ => ?_⟩
        · simp only [collecting]
          split_ifs <;> rfl
        · cases hr.symm.trans hrun
          exact hactive
      exact hupdate.of_eq rfl rfl rfl le_rfl
  | jobs p hp => exact h.of_eq rfl rfl rfl le_rfl
  | policies policies dispatches nextId hle => exact h.of_eq rfl rfl rfl hle
  | highScale requests nextId hle hrunning => exact h.of_eq rfl rfl rfl hle
  | target a ha => exact h.addTarget ha
  | archive id archived => exact h.setTargetArchived
  | directory groups tenants nextId hle => exact h.of_eq rfl rfl rfl hle

theorem Exclusive.effect {E : Env} {depth : ℕ} {late : Bool} (h : Exclusive s) (hs : Sound s)
    (he : Effect E depth late s t) : Exclusive t := by
  cases he with
  | quiet hq => exact h.quiet hs hq
  | stop tenantId active =>
      obtain ⟨requests,he⟩ := switched_eq (s := s) tenantId active
      have hswitched : Exclusive (switched s tenantId active) := by
        rw [he]
        exact h.of_eq rfl rfl rfl le_rfl
      exact hswitched.flow (sound_switched hs) (flow_setKillSwitch hs)

theorem exclusive_empty : Exclusive Store.empty where
  targetFresh := by simp [Store.empty]
  targetNodup := by simp [Store.empty]
  runTarget := by simp [Store.empty]
  runs := by simp [Store.empty]
  planned := by simp [Store.empty]
  scans := by simp [Store.empty]

end

/-- After any sequence of requests, two active runs of a tenant have different targets, and two
active scans of a tenant have no target in common. -/
theorem traffic_exclusive (E : Env) (zone : Zone) (depth : ℕ) (ops : List Op) :
    let s := exec E zone depth Store.empty ops
    (∀ r ∈ s.testRuns,∀ r' ∈ s.testRuns,r.status.active = true → r'.status.active = true →
      r.tenantId = r'.tenantId → r.targetId = r'.targetId → r = r') ∧
    ∀ x ∈ s.validationScans,∀ y ∈ s.validationScans,x.status.active = true →
      y.status.active = true → x.tenantId = y.tenantId → x ≠ y →
      ∀ i ∈ scanTargetIds x,i ∉ scanTargetIds y := by
  obtain ⟨hs,h⟩ : Sound (exec E zone depth Store.empty ops) ∧
      Exclusive (exec E zone depth Store.empty ops) :=
    exec_invariant (fun s s' hs h he => h.effect hs he) sound_empty exclusive_empty ops
  constructor
  · intro r hr r' hr' ha ha' ht htarget
    have hid := h.runs r hr r' hr' ha ha' ht htarget
    exact List.inj_on_of_nodup_map hs.runNodup hr hr' hid
  · intro x hx y hy ha ha' ht hne
    refine h.scans x hx y hy ha ha' ht fun hid => hne ?_
    exact List.inj_on_of_nodup_map hs.scanNodup hx hy hid

end AstraNull.TrafficExclusion

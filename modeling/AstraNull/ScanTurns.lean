import Mathlib
import AstraNull.Tables
import AstraNull.RuntimeStore
import AstraNull.TestRuns
import AstraNull.Schedules
import AstraNull.ScanPlanning
import AstraNull.ValidationScans
import AstraNull.ScanLifecycle
import AstraNull.RuntimeFlow
import AstraNull.RuntimeMoves

/-!
# Requests about scans as writes

Creating, dispatching, reading, patching and cancelling scans add four kinds of writes to those
of the executor: a scan is stored, a scan that is not dispatched is edited, a scheduled scan is
dispatched, and a scan is closed. `Turn` says them with what was checked.
-/
namespace AstraNull.ScanTurns
open RuntimeStore TestRuns Schedules ScanPlanning ValidationScans ScanLifecycle RuntimeFlow
  RuntimeMoves

/-- The targets of a scan are declared, and their groups are groups of the scan. -/
structure Planned (s : Store) (x : Scan) : Prop where
  nonempty : scanTargetIds x ≠ []
  covered : ∀ i ∈ scanTargetIds x,∃ t ∈ s.targets,
    t.id = i ∧ t.tenantId = x.tenantId ∧ t.targetGroupId ∈ scanGroups x

/-- The same tenant, targets and groups. -/
structure SamePlan (x y : Scan) : Prop where
  tenantId : y.tenantId = x.tenantId
  targetIds : scanTargetIds y = scanTargetIds x
  groups : scanGroups y = scanGroups x

theorem SamePlan.refl (x : Scan) : SamePlan x x := ⟨rfl,rfl,rfl⟩

theorem SamePlan.planned {s : Store} {x y : Scan} (h : SamePlan x y) (hx : Planned s x) :
    Planned s y where
  nonempty := by
    rw [h.targetIds]
    exact hx.nonempty
  covered := by
    rw [h.targetIds,h.groups,h.tenantId]
    exact hx.covered

theorem mem_scanTargetIds {x : Scan} {i : ℕ} :
    i ∈ scanTargetIds x ↔ i ∈ x.planTargetIds ∨ x.targetId = some i ∨
      i ∈ x.steps.map ScanStep.targetId := by
  simp [scanTargetIds,List.mem_eraseDups]

theorem samePlan_of_keeps {x y : Scan} (h : Keeps x y) : SamePlan x y := by
  have hcore := h.core
  have hsteps : y.steps.map ScanStep.targetId = x.steps.map ScanStep.targetId := by
    have := congrArg (List.map fun k : ℕ × ℕ × ℕ => k.2.2) h.steps
    simpa [List.map_map,Function.comp_def,stepKey] using this
  have htenant : y.tenantId = x.tenantId :=
    show (scanCore y).tenantId = (scanCore x).tenantId by rw [hcore]
  have hgroup : y.targetGroupId = x.targetGroupId :=
    show (scanCore y).targetGroupId = (scanCore x).targetGroupId by rw [hcore]
  have htarget : y.targetId = x.targetId :=
    show (scanCore y).targetId = (scanCore x).targetId by rw [hcore]
  have hplan : y.planTargetIds = x.planTargetIds :=
    show (scanCore y).planTargetIds = (scanCore x).planTargetIds by rw [hcore]
  have hbindings : y.planBindings = x.planBindings :=
    show (scanCore y).planBindings = (scanCore x).planBindings by rw [hcore]
  exact ⟨htenant,by simp [scanTargetIds,hplan,htarget,hsteps],by simp [scanGroups,hgroup,hbindings]⟩

structure GoodPlan (s : Store) (tenantId : ℕ) (input : PlanInput) (plan : Plan) : Prop where
  live : ∀ t ∈ plan.targets,t ∈ s.targets ∧ t.tenantId = tenantId
  steps : ∀ p ∈ plan.steps,p.targetId ∈ planTargetIds plan
  nonempty : plan.steps ≠ []
  exact_target : ∀ id,input.targetId = some id → id ∈ planTargetIds plan
  requested : ∀ ids,input.targetIds = some ids → ∀ i ∈ planTargetIds plan,i ∈ ids

theorem liveTarget_mem {s : Store} {tenantId id : ℕ} {t : Target}
    (h : liveTarget s tenantId id = some t) : t ∈ s.targets ∧ t.id = id ∧ t.tenantId = tenantId := by
  have hp := List.find?_some h
  simp only [Bool.and_eq_true,beq_iff_eq] at hp
  exact ⟨List.mem_of_find?_eq_some h,hp.1.1,hp.1.2⟩

theorem mem_of_mapM {α β : Type} {f : α → Option β} {l : List α} {k : List β}
    (h : l.mapM f = some k) : ∀ b ∈ k,∃ a ∈ l,f a = some b := by
  induction l generalizing k with
  | nil =>
      simp only [List.mapM_nil,Option.pure_def,Option.some.injEq] at h
      simp [← h]
  | cons a l ih =>
      simp only [List.mapM_cons,Option.pure_def,Option.bind_eq_bind,Option.bind_eq_some_iff,
        Option.some.injEq] at h
      obtain ⟨b,hb,k,hk,rfl⟩ := h
      intro c hc
      rcases List.mem_cons.mp hc with rfl | hc
      · exact ⟨a,List.mem_cons_self,hb⟩
      · obtain ⟨a',ha',he⟩ := ih hk c hc
        exact ⟨a',List.mem_cons_of_mem a ha',he⟩

theorem requestedTargets_mem {s : Store} {tenantId groupId : ℕ} {ids : Option (List ℕ)}
    {targets : List Target} (h : requestedTargets s tenantId groupId ids = some targets) :
    (∀ t ∈ targets,t ∈ s.targets ∧ t.tenantId = tenantId) ∧
      ∀ l,ids = some l → ∀ t ∈ targets,t.id ∈ l := by
  cases ids with
  | none =>
      cases h
      refine ⟨fun t ht => ?_,by simp⟩
      obtain ⟨hm,hp⟩ := List.mem_filter.mp ht
      simp only [Bool.and_eq_true,beq_iff_eq] at hp
      exact ⟨hm,hp.1.1⟩
  | some l =>
      have hmem := mem_of_mapM h
      constructor
      · intro t ht
        obtain ⟨i,-,he⟩ := hmem t ht
        exact ⟨(liveTarget_mem he).1,(liveTarget_mem he).2.2⟩
      · rintro l' hl t ht
        cases hl
        obtain ⟨i,hi,he⟩ := hmem t ht
        rw [(liveTarget_mem he).2.1]
        exact hi

theorem planScanSteps_mem {choice : PlanChoice} {checkIds : List ℕ} {targets : List Target}
    {targetId : Option ℕ} {plan : StepPlan}
    (h : planScanSteps choice checkIds targets targetId = .ok plan) :
    ∀ p ∈ plan.steps,∃ t ∈ (match targetId with
      | none => targets
      | some id => targets.filter fun t => t.id == id),t.id = p.targetId := by
  unfold planScanSteps at h
  simp only at h
  split_ifs at h
  cases h
  intro p hp
  obtain ⟨hp,-⟩ := List.mem_filter.mp hp
  obtain ⟨c,-,hp⟩ := List.mem_flatMap.mp hp
  obtain ⟨t,ht,rfl⟩ := List.mem_map.mp hp
  exact ⟨t,ht,rfl⟩

theorem buildPlan_ok {s : Store} {choice : PlanChoice} {tenantId : ℕ} {input : PlanInput}
    {plan : Plan} (h : buildPlan s choice tenantId input = .ok plan) :
    GoodPlan s tenantId input plan := by
  unfold buildPlan at h
  simp only at h
  split at h
  · cases h
  split at h
  · cases h
  split at h
  · cases h
  next targets htargets =>
  split_ifs at h with hgroups hconflict hexact
  split at h
  · cases h
  next steps hsteps =>
  split_ifs at h with hexcluded hreason hempty
  have hsub : ∀ t ∈ plan.targets,t ∈ targets := by
    cases h
    intro t ht
    dsimp only at ht
    split at ht
    · exact List.mem_of_mem_filter ht
    · exact ht
  cases h
  obtain ⟨hlive,hids⟩ := requestedTargets_mem htargets
  have hmem := planScanSteps_mem hsteps
  exact {
    live := fun t ht => hlive t (hsub t ht)
    steps := by
      intro p hp
      obtain ⟨t,ht,he⟩ := hmem p hp
      refine List.mem_map.mpr ⟨t,?_,he⟩
      cases hid : input.targetId with
      | none => simpa [hid] using ht
      | some id => simpa [hid] using ht
    nonempty := hempty
    exact_target := by
      intro id hid
      simp only [hid,Option.any_some,Bool.not_eq_true,Bool.not_eq_false',List.any_eq_true,
        beq_iff_eq] at hexact
      obtain ⟨t,ht,he⟩ := hexact
      exact List.mem_map.mpr ⟨t,by simp [hid,ht,he],he⟩
    requested := by
      intro ids hids' i hi
      obtain ⟨t,ht,rfl⟩ := List.mem_map.mp hi
      exact hids ids hids' t (hsub t ht) }

theorem map_targetId_materializeSteps (n : ℕ) (steps : List PlannedStep) :
    (materializeSteps n steps).map ScanStep.targetId = steps.map PlannedStep.targetId := by
  simp only [materializeSteps,List.map_map]
  conv_rhs => rw [← List.zipIdx_map_fst 0 steps,List.map_map]
  rfl

/-- A scan whose plan, steps and exact target come from one plan. -/
theorem planned_of_plan {s : Store} {tenantId n : ℕ} {input : PlanInput} {plan : Plan} {x : Scan}
    (h : GoodPlan s tenantId input plan) (htenant : x.tenantId = tenantId)
    (hids : x.planTargetIds = planTargetIds plan) (hbind : x.planBindings = targetPolicyBindings plan)
    (hsteps : x.steps = materializeSteps n plan.steps) (htarget : x.targetId = input.targetId) :
    (∀ i ∈ scanTargetIds x,i ∈ planTargetIds plan) ∧ Planned s x := by
  have hsub : ∀ i ∈ scanTargetIds x,i ∈ planTargetIds plan := by
    intro i hi
    rw [mem_scanTargetIds,hids,htarget,hsteps,map_targetId_materializeSteps] at hi
    rcases hi with hi | hi | hi
    · exact hi
    · exact h.exact_target i hi
    · obtain ⟨p,hp,rfl⟩ := List.mem_map.mp hi
      exact h.steps p hp
  refine ⟨hsub,?_,?_⟩
  · obtain ⟨p,hp⟩ := List.exists_mem_of_ne_nil _ h.nonempty
    refine List.ne_nil_of_mem (mem_scanTargetIds.mpr (Or.inl ?_) : p.targetId ∈ scanTargetIds x)
    rw [hids]
    exact h.steps p hp
  · intro i hi
    obtain ⟨t,ht,rfl⟩ := List.mem_map.mp (hsub i hi)
    refine ⟨t,(h.live t ht).1,rfl,by rw [htenant]; exact (h.live t ht).2,?_⟩
    rw [scanGroups,hbind]
    exact List.mem_cons_of_mem _ (List.mem_map.mpr ⟨(t.id,t.targetGroupId),
      List.mem_map.mpr ⟨t,ht,rfl⟩,rfl⟩)

inductive Turn (late : Bool) (s : Store) : Store → Prop
  | atom {s' : Store} (h : Atom late [] s s') : Turn late s s'
  | push (x : Scan) (hid : x.id = s.nextId)
      (hplan : Planned s x ∨ ∃ y ∈ s.validationScans,SamePlan y x)
      (hclear : x.status.active = true → ∀ i ∈ scanTargetIds x,∃ t ∈ s.targets,t.id = i ∧
        t.tenantId = x.tenantId ∧ activeScanForGroup s x.tenantId t.targetGroupId none i = none) :
      Turn late s (pushScan s x)
  | edit (id : ℕ) (f : Scan → Scan) (x : Scan) (hid : ∀ y,(f y).id = y.id)
      (hx : s.findScan id = some x)
      (hplan : SamePlan x (f x) ∨ (Planned s (f x) ∧ (f x).status.active = false))
      (hactive : (f x).status.active = true → x.status.active = true) :
      Turn late s (s.updateScan id f)
  | dispatch (id : ℕ) (f : Scan → Scan) (x : Scan) (hid : ∀ y,(f y).id = y.id)
      (hx : s.findScan id = some x) (htenant : (f x).tenantId = x.tenantId)
      (hplan : SamePlan x (f x) ∨ (Planned s (f x) ∧ scanTargetIds (f x) ⊆ scanTargetIds x))
      (hclear : ∀ g ∈ scanGroups x,∀ i ∈ scanTargetIds x,
        activeScanForGroup s x.tenantId g (some x.id) i = none) :
      Turn late s (s.updateScan id f)

abbrev Turns (late : Bool) : Store → Store → Prop := Relation.ReflTransGen (Turn late)

theorem sound_pushScan {s : Store} {x : Scan} (hid : x.id = s.nextId) (h : Sound s) :
    Sound (pushScan s x) where
  runFresh := fun r hr => (h.runFresh r hr).trans_le (by simp only [pushScan]; omega)
  runNodup := h.runNodup
  jobFresh := fun j hj => (h.jobFresh j hj).trans_le (by simp only [pushScan]; omega)
  verdictFresh := fun v hv => (h.verdictFresh v hv).trans_le (by simp only [pushScan]; omega)
  verdictStored := h.verdictStored
  scanFresh := by
    intro y hy
    show y.id < s.nextId+1+x.steps.length
    rcases List.mem_append.mp hy with hy | hy
    · have := h.scanFresh y hy
      omega
    · cases List.mem_singleton.mp hy
      omega
  scanNodup := by
    simp only [pushScan,List.map_append,List.map_cons,List.map_nil]
    refine List.nodup_append.mpr ⟨h.scanNodup,by simp,?_⟩
    intro a ha b hb
    obtain ⟨y,hy,rfl⟩ := List.mem_map.mp ha
    cases List.mem_singleton.mp hb
    have := h.scanFresh y hy
    omega

theorem Turn.sound {late : Bool} {s s' : Store} (ht : Turn late s s') (h : Sound s) : Sound s' := by
  cases ht with
  | atom ha => exact ha.sound h
  | push x hid => exact sound_pushScan hid h
  | edit id f x hid => exact h.updateScan hid
  | dispatch id f x hid => exact h.updateScan hid

theorem Turns.sound {late : Bool} {s s' : Store} (ht : Turns late s s') (h : Sound s) :
    Sound s' := by
  induction ht with
  | refl => exact h
  | tail _ ht ih => exact ht.sound ih

/-- From a store with fresh identifiers. -/
def Goes (late : Bool) (s s' : Store) : Prop := Sound s → Turns late s s'

section
variable {late : Bool} {s t u : Store}

theorem Goes.refl (s : Store) : Goes late s s := fun _ => .refl

theorem Goes.trans (h : Goes late s t) (k : Goes late t u) : Goes late s u :=
  fun hs => (h hs).trans (k ((h hs).sound hs))

theorem Goes.single (h : Sound s → Turn late s t) : Goes late s t := fun hs => .single (h hs)

theorem goes_of_moves (h : Moves late [] s t) : Goes late s t :=
  fun hs => Relation.ReflTransGen.mono (fun _ _ => Turn.atom) _ _ (h hs)

theorem updateScan_absent {id : ℕ} {f : Scan → Scan} (h : s.findScan id = none) :
    s.updateScan id f = s := by
  have hl : ∀ l : List Scan,(l.find? fun x => x.id == id) = none →
      Tables.update (fun x => x.id == id) f l = l := by
    intro l hl
    induction l with
    | nil => rfl
    | cons x l ih =>
        by_cases hx : (x.id == id) = true
        · simp [hx] at hl
        · simp only [List.find?_cons,hx] at hl
          simp [Tables.update,hx,ih hl]
  simp only [Store.updateScan,hl _ h]

/-- A write that keeps the plan and wakes up no scan. -/
theorem goes_keep {id : ℕ} {f : Scan → Scan} (hid : ∀ y,(f y).id = y.id)
    (hplan : ∀ y,SamePlan y (f y)) (hactive : ∀ y,(f y).status.active = true → y.status.active = true) :
    Goes late s (s.updateScan id f) := by
  cases hx : s.findScan id with
  | none =>
      rw [updateScan_absent hx]
      exact .refl s
  | some x => exact .single fun _ => .edit id f x hid hx (Or.inl (hplan x)) (hactive x)

theorem goes_step {id i : ℕ} {f : ScanStep → ScanStep} (hf : ∀ p,stepKey (f p) = stepKey p) :
    Goes late s (s.updateScan id fun x => x.updateStep i f) :=
  goes_keep (fun _ => rfl) (fun _ => samePlan_of_keeps (keeps_updateStep hf)) fun _ h => h

theorem goes_nextTick : Goes late s (nextTick s) := goes_of_moves moves_nextTick

theorem goes_reserve (n : ℕ) : Goes late s (s.reserve n) := goes_of_moves (moves_reserve n)

end

section Requests
variable {E : Env} {zone : Zone} {depth : ℕ} {late : Bool} {s : Store}

theorem goes_runScan {tenantId id requested : ℕ} {now : ℤ} :
    Goes late s (runScan E depth s tenantId id now requested) :=
  goes_of_moves ((moves_advanceScan (moves_hooks depth)).weaken (List.Subset.refl _))

theorem occupied_false {tenantId groupId targetId : ℕ} {excludeId : Option ℕ}
    (h : occupied s tenantId groupId targetId excludeId = false) :
    activeScanForGroup s tenantId groupId excludeId targetId = none := by
  simp only [occupied,Bool.or_eq_false_iff] at h
  simpa using h.2

/-- A new scan is stored with the checks of its creation. -/
theorem goes_pushNewScan {choice : PlanChoice} {tenantId : ℕ} {input : ScanInput}
    {planInput : PlanInput} {plan : Plan} (hplan : buildPlan s choice tenantId planInput = .ok plan)
    (htarget : planInput.targetId = input.targetId.join)
    (hfree : ¬ (input.scheduledFor.join.isNone &&
      plan.targets.any fun t => occupied s tenantId t.targetGroupId t.id none) = true) :
    Goes late s (pushScan s (newScan s tenantId input plan)) := by
  have hgood := buildPlan_ok hplan
  have hx : (newScan s tenantId input plan).targetId = planInput.targetId := htarget.symm
  obtain ⟨hsub,hplanned⟩ := planned_of_plan hgood rfl rfl rfl rfl hx
  refine .single fun _ => .push _ rfl (Or.inl hplanned) ?_
  intro hactive i hi
  obtain ⟨t,ht,rfl⟩ := List.mem_map.mp (hsub i hi)
  refine ⟨t,(hgood.live t ht).1,rfl,(hgood.live t ht).2,occupied_false ?_⟩
  show occupied s tenantId t.targetGroupId t.id none = false
  -- a scan that is active at once has no time, so the targets were looked at
  have hnow : input.scheduledFor.join.isNone = true := by
    by_contra hsched
    simp only [Option.isNone_iff_eq_none,← Option.not_isSome_iff_eq_none,not_not] at hsched
    simp only [newScan] at hactive
    rw [if_pos hsched] at hactive
    cases hactive
  simp only [hnow,Bool.true_and,Bool.not_eq_true,List.any_eq_false] at hfree
  simpa using hfree t ht

theorem goes_createValidationScan {now : ℤ} {tenantId : ℕ} {body : ScanBody} :
    Goes late s (createValidationScan E depth s now tenantId body).1 := by
  unfold createValidationScan
  split
  · exact .refl s
  next input hinput =>
  refine Goes.trans goes_nextTick ?_
  simp only
  split
  · exact .refl _
  next plan hplan =>
  split_ifs with hbusy hpending
  · exact .refl _
  · exact (goes_pushNewScan hplan rfl hbusy).trans goes_runScan
  · exact goes_pushNewScan hplan rfl hbusy

theorem samePlan_successor (scan : Scan) (n : ℕ) (nextAt : ℤ) :
    SamePlan scan (successor scan n nextAt) := by
  refine ⟨rfl,?_,rfl⟩
  have hsteps : (successor scan n nextAt).steps.map ScanStep.targetId =
      scan.steps.map ScanStep.targetId := by
    simp [successor,map_targetId_materializeSteps]
  simp only [scanTargetIds,hsteps]
  rfl

theorem goes_linkNext {id n : ℕ} : Goes late s (s.updateScan id (linkNext n)) :=
  goes_keep (fun _ => rfl) (fun _ => ⟨rfl,rfl,rfl⟩) fun _ h => h

theorem goes_createNextOccurrence {s' : Store} {id : ℕ} {now : ℤ}
    (h : createNextOccurrence zone s id now = some s') : Goes late s s' := by
  unfold createNextOccurrence at h
  split at h
  · cases h
    exact .refl s
  next scan hscan =>
  split at h
  · cases h
    exact .refl s
  split_ifs at h
  · cases h
    exact .refl s
  split at h
  · cases h
  next nextAt _ =>
  simp only at h
  split at h
  · cases h
    exact goes_linkNext
  · cases h
    have hpush : Goes late s (pushScan s (successor scan s.nextId nextAt)) := by
      refine .single fun _ => .push _ rfl
        (Or.inr ⟨scan,(findScan_mem hscan).1,samePlan_successor scan _ _⟩) ?_
      intro hactive
      cases hactive
    exact hpush.trans goes_linkNext

/-- The occurrence itself only learns its successor. -/
theorem findScan_createNextOccurrence {s' : Store} {id : ℕ} {now : ℤ} {scan : Scan}
    (hscan : s.findScan id = some scan) (h : createNextOccurrence zone s id now = some s') :
    ∃ n,s'.findScan id = some { scan with nextScanId := n } := by
  unfold createNextOccurrence at h
  rw [hscan] at h
  simp only at h
  split at h
  · cases h
    exact ⟨scan.nextScanId,hscan⟩
  split_ifs at h
  · cases h
    exact ⟨scan.nextScanId,hscan⟩
  split at h
  · cases h
  next nextAt _ =>
  split at h
  · next next hnext =>
      cases h
      exact ⟨some next.id,findScan_write hscan fun _ => rfl⟩
  · cases h
    have hfind : (pushScan s (successor scan s.nextId nextAt)).findScan id = some scan :=
      Tables.find?_append_of_some hscan
    exact ⟨some (successor scan s.nextId nextAt).id,findScan_write hfind fun _ => rfl⟩

theorem goes_claimLease {id token : ℕ} {now : ℤ} :
    Goes late s (s.updateScan id (claimLease now token)) :=
  goes_keep (fun _ => rfl) (fun _ => ⟨rfl,rfl,rfl⟩) fun _ h => h

theorem goes_releaseLease {id : ℕ} : Goes late s (s.updateScan id releaseLease) :=
  goes_keep (fun _ => rfl) (fun _ => ⟨rfl,rfl,rfl⟩) fun _ h => h

theorem goes_refreshSummary {id : ℕ} : Goes late s (s.updateScan id refreshSummary) :=
  goes_keep (fun _ => rfl) (fun _ => ⟨rfl,rfl,rfl⟩) fun _ h => h

theorem goes_scheduleDenied {id : ℕ} {code : String} :
    Goes late s (s.updateScan id (scheduleDenied code)) := by
  refine goes_keep (fun _ => rfl) (fun y => ?_) fun y h => nomatch h
  have hk : Keeps y (scheduleDenied code y) := ⟨rfl,Tables.map_updateAll fun _ => rfl⟩
  exact samePlan_of_keeps hk

/-- The gates have looked at every group and target of the scan. -/
theorem dispatchGates_ok {scan : Scan} {choice : PlanChoice} {plan : Plan}
    (h : dispatchGates s scan choice = .ok plan) :
    GoodPlan s scan.tenantId
      { targetGroupId := some scan.targetGroupId
        targetId := scan.targetId
        targetIds := some scan.planTargetIds
        checkIds := scan.checkIds } plan ∧
    ∀ g ∈ scanGroups scan,∀ i ∈ scanTargetIds scan,
      activeScanForGroup s scan.tenantId g (some scan.id) i = none := by
  unfold dispatchGates at h
  split_ifs at h
  split at h
  · cases h
  next hnone =>
  split at h
  · cases h
  next hplan =>
  cases h
  refine ⟨buildPlan_ok hplan,?_⟩
  intro g hg i hi
  rw [List.findSome?_eq_none_iff] at hnone
  have hgroup := hnone g (List.mem_eraseDups.mpr hg)
  unfold groupDenial at hgroup
  split_ifs at hgroup with hmissing hbusy
  simp only [Bool.not_eq_true,List.any_eq_false] at hbusy
  exact occupied_false (by simpa using hbusy i hi)

/-- The plan of a dispatched scan is the old one or a part of it. -/
theorem dispatched_plan {x : Scan} {n : ℕ} {plan : Plan} {input : PlanInput}
    (hplan : GoodPlan s x.tenantId input plan) (htarget : input.targetId = x.targetId)
    (hids : input.targetIds = some x.planTargetIds) :
    SamePlan x (dispatched n plan x) ∨
      (Planned s (dispatched n plan x) ∧ scanTargetIds (dispatched n plan x) ⊆ scanTargetIds x) := by
  by_cases hx : x.targetId.isSome = true
  · left
    simp only [dispatched,hx,if_true]
    exact ⟨rfl,rfl,rfl⟩
  · right
    have hnone : x.targetId = none := by simpa using hx
    have hd : dispatched n plan x = refreshSummary (releaseLease { x with
        steps := materializeSteps n plan.steps
        planTargetIds := planTargetIds plan
        planBindings := targetPolicyBindings plan
        status := .running }) := by
      simp only [dispatched,hnone]
      rfl
    rw [hd]
    obtain ⟨hsub,hplanned⟩ := planned_of_plan (n := n) (x := refreshSummary (releaseLease { x with
        steps := materializeSteps n plan.steps
        planTargetIds := planTargetIds plan
        planBindings := targetPolicyBindings plan
        status := .running })) hplan rfl rfl rfl rfl htarget.symm
    refine ⟨hplanned,fun i hi => mem_scanTargetIds.mpr (Or.inl ?_)⟩
    exact hplan.requested x.planTargetIds hids i (hsub i hi)

theorem goes_dispatchScheduledScan {id requested : ℕ} {now : ℤ} :
    Goes late s (dispatchScheduledScan E zone depth s id now requested).1 := by
  unfold dispatchScheduledScan
  split
  · exact .refl s
  next scan hscan =>
  split_ifs
  · exact .refl s
  · exact .refl s
  have hclaim : Goes late s
      ((s.reserve 1).updateScan id (claimLease now s.nextId)) :=
    (goes_reserve 1).trans goes_claimLease
  refine hclaim.trans ?_
  have hclaimed : ((s.reserve 1).updateScan id
      (claimLease now s.nextId)).findScan id = some (claimLease now s.nextId scan) :=
    findScan_write hscan fun _ => rfl
  simp only
  generalize ((s.reserve 1).updateScan id
    (claimLease now s.nextId)) = t at hclaimed ⊢
  split
  · exact .refl t
  next u hu =>
  obtain ⟨n,hrow⟩ := findScan_createNextOccurrence hclaimed hu
  refine (goes_createNextOccurrence hu).trans ?_
  refine Goes.trans goes_nextTick ?_
  split
  · exact goes_scheduleDenied
  next plan hgates =>
  obtain ⟨hgood,hclear⟩ := dispatchGates_ok hgates
  refine Goes.trans ?_ goes_runScan
  refine Goes.trans (goes_reserve plan.steps.length) ?_
  refine .single fun _ => .dispatch id _ { claimLease now s.nextId scan with nextScanId := n }
    (fun y => ?_) hrow ?_ ?_ hclear
  · simp only [dispatched]
    split_ifs <;> rfl
  · simp only [dispatched]
    split_ifs <;> rfl
  · have hgood : GoodPlan ((nextTick u).reserve plan.steps.length) scan.tenantId _ plan :=
      ⟨hgood.live,hgood.steps,hgood.nonempty,hgood.exact_target,hgood.requested⟩
    exact dispatched_plan hgood rfl rfl

theorem goes_dispatchDue {id requested : ℕ} {now : ℤ} :
    Goes late s (dispatchDue E zone depth s now requested id) := by
  have hd : Goes late s (dispatchScheduledScan E zone depth s id now requested).1 :=
    goes_dispatchScheduledScan
  unfold dispatchDue
  split
  · next t ht =>
      rw [ht] at hd
      exact hd.trans goes_releaseLease
  · next t _ _ ht =>
      rw [ht] at hd
      exact hd

theorem goes_foldl {α : Type} {f : Store → α → Store} (hf : ∀ s a,Goes late s (f s a))
    (l : List α) (s : Store) : Goes late s (l.foldl f s) := by
  induction l generalizing s with
  | nil => exact .refl s
  | cons a l ih => exact (hf s a).trans (ih (f s a))

theorem goes_dispatchDueValidationScans {now : ℤ} {tenantId limit requested : ℕ} :
    Goes late s (dispatchDueValidationScans E zone depth s now tenantId limit requested) :=
  goes_foldl (fun _ _ => goes_dispatchDue) _ s

theorem goes_getValidationScan {now : ℤ} {tenantId id : ℕ} {mayAdvance : Bool} :
    Goes late s (getValidationScan E zone depth s now tenantId id mayAdvance) := by
  unfold getValidationScan
  split
  · exact .refl s
  · unfold readPathAdvance
    split_ifs
    · exact .refl s
    · exact goes_dispatchScheduledScan
    · exact goes_runScan
    · exact .refl s

theorem findTenantScan_find (hs : Sound s) {tenantId id : ℕ} {x : Scan}
    (h : findTenantScan s tenantId id = some x) : s.findScan id = some x ∧ x.tenantId = tenantId := by
  have hp := List.find?_some h
  simp only [Bool.and_eq_true,beq_iff_eq] at hp
  have hfind := hs.findScan (List.mem_of_find?_eq_some h)
  rw [hp.1] at hfind
  exact ⟨hfind,hp.2⟩

theorem goes_patchValidationScan {now : ℤ} {tenantId id : ℕ} {body : ScanBody} :
    Goes late s (patchValidationScan E s now tenantId id body).1 := by
  unfold patchValidationScan
  split
  · exact .refl s
  next scan hscan =>
  split_ifs with heditable
  · exact .refl s
  split
  · exact .refl s
  next input hinput =>
  split
  · exact .refl s
  next scheduledFor _ =>
  refine Goes.trans goes_nextTick ?_
  simp only
  split
  · exact .refl _
  next plan hplan =>
  refine Goes.trans (goes_reserve plan.steps.length) ?_
  refine .single fun hs => ?_
  obtain ⟨hfind,htenant⟩ := findTenantScan_find hs hscan
  have hsched : scan.status.active = false := by
    have hs : scan.status = .scheduled := by
      by_contra hne
      exact heditable (Or.inl hne)
    rw [hs]
    rfl
  have hgood := buildPlan_ok hplan
  have hgood : GoodPlan ((nextTick s).reserve plan.steps.length) tenantId _ plan :=
    ⟨hgood.live,hgood.steps,hgood.nonempty,hgood.exact_target,hgood.requested⟩
  have hrow : (patched (nextTick s).nextId plan (mergeInput scan input) scheduledFor
      (input.recurrence.getD scan.recurrence) scan).tenantId = tenantId := htenant
  exact .edit id _ scan (fun _ => rfl) hfind
    (Or.inr ⟨(planned_of_plan hgood hrow rfl rfl rfl rfl).2,hsched⟩) fun h => h

theorem goes_cancelScanRow {id : ℕ} : Goes late s (s.updateScan id cancelScanRow) :=
  goes_keep (fun _ => rfl) (fun _ => ⟨rfl,rfl,rfl⟩) fun _ h => nomatch h

theorem goes_stopSeries {id : ℕ} : Goes late s (s.updateScan id stopSeries) :=
  goes_keep (fun _ => rfl) (fun _ => ⟨rfl,rfl,rfl⟩) fun _ h => h

theorem goes_cancelRun {tenantId runId : ℕ} : Goes late s (cancelRun E depth s tenantId runId) := by
  unfold cancelRun
  split
  · exact .refl s
  · split_ifs
    · exact goes_of_moves (moves_cancelTestRun (moves_hooks depth []))
    · exact .refl s

theorem goes_cancelActiveStep {scan : Scan} {stepId : ℕ} :
    Goes late s (cancelActiveStep E depth scan s stepId) := by
  unfold cancelActiveStep
  split
  · exact .refl s
  · split_ifs
    · exact .refl s
    · refine Goes.trans ?_ (goes_step fun _ => rfl)
      split
      · exact .refl s
      · exact goes_cancelRun

theorem goes_cancelOrphan {scan : Scan} {runId : ℕ} :
    Goes late s (cancelOrphan E depth scan s runId) := by
  unfold cancelOrphan
  split
  · exact .refl s
  · split_ifs
    · exact .refl s
    · refine Goes.trans (goes_cancelRun : Goes late s (cancelRun E depth s scan.tenantId runId)) ?_
      split
      · exact .refl _
      · refine goes_step fun p => ?_
        split_ifs <;> rfl

theorem goes_cancelScanWork {scan : Scan} : Goes late s (cancelScanWork E depth s scan) := by
  have hsteps : ∀ (l : List ℕ) t,Goes late t (l.foldl (cancelActiveStep E depth scan) t) :=
    goes_foldl fun _ _ => goes_cancelActiveStep
  have hruns : ∀ (l : List ℕ) t,Goes late t (l.foldl (cancelOrphan E depth scan) t) :=
    goes_foldl fun _ _ => goes_cancelOrphan
  have hskip : ∀ t : Store,Goes late t
      (t.updateScan scan.id (skipRemainingSteps "scan_cancelled")) := fun t =>
    goes_keep (fun _ => rfl) (fun _ => samePlan_of_keeps keeps_skipRemainingSteps) fun _ h => h
  exact ((hsteps _ s).trans (hruns _ _)).trans (hskip _)

theorem goes_cancelValidationScan {now : ℤ} {tenantId id : ℕ} {cancelSeries : Bool} (fuel : ℕ) :
    Goes late s (cancelValidationScan E zone depth fuel s now tenantId id cancelSeries).1 := by
  induction fuel using Nat.strong_induction_on generalizing s id cancelSeries with
  | _ fuel ih =>
      unfold cancelValidationScan
      split
      · exact .refl s
      next scan hscan =>
      split_ifs
      · exact .refl s
      all_goals
        refine Goes.trans (goes_cancelScanRow.trans goes_cancelScanWork :
          Goes late s (cancelScanWork E depth (s.updateScan id cancelScanRow) scan)) ?_
      · have hstop : ∀ t : Store,Goes late t (t.updateScan id stopSeries) := fun _ => goes_stopSeries
        refine Goes.trans (hstop _) ?_
        refine Goes.trans ?_ goes_refreshSummary
        split
        · exact .refl _
        · exact goes_foldl (fun _ _ => ih _ (Nat.lt_succ_self _)) _ _
      · simp only
        split
        · exact .refl _
        · next t ht => exact (goes_createNextOccurrence ht).trans goes_refreshSummary

end Requests

end AstraNull.ScanTurns

import Mathlib
import AstraNull.Tables
import AstraNull.RuntimeStore
import AstraNull.TestRuns
import AstraNull.Schedules
import AstraNull.ValidationScans
import AstraNull.EmergencyStop
import AstraNull.RuntimeFlow
import AstraNull.RuntimeMoves
import AstraNull.ScanTurns
import AstraNull.RuntimeOps

/-!
# The life of a test run

Verdicted and cancelled are final, a run has one verdict, and nothing is published for a run
after it was cancelled, as long as results are not finalised for cancelled runs.
`maybeFinalizeRunAfterProbeIngest` has no such check of its own.
-/
namespace AstraNull.RunLifecycle
open RuntimeStore TestRuns Schedules ValidationScans EmergencyStop RuntimeFlow RuntimeMoves
  ScanTurns RuntimeOps

def verdictsOf (s : Store) (id : ℕ) : List Verdict := s.verdicts.filter fun v => v.testRunId == id

def findingsOf (s : Store) (id : ℕ) : List ℕ := s.findings.filter fun i => i == id

/-- Runs that are over stay as they are, with what was published for them. -/
def Settles (s s' : Store) : Prop :=
  ∀ id r,s.findRun id = some r → r.status.active = false →
    s'.findRun id = some r ∧ verdictsOf s' id = verdictsOf s id ∧ findingsOf s' id = findingsOf s id

def OneVerdict (s : Store) : Prop := ∀ id,(verdictsOf s id).length ≤ 1

section
variable {E : Env} {depth : ℕ} {s t u : Store}

theorem Settles.refl (s : Store) : Settles s s := fun _ _ hr _ => ⟨hr,rfl,rfl⟩

theorem Settles.trans (h : Settles s t) (k : Settles t u) : Settles s u := by
  intro id r hr hs
  obtain ⟨ht,hv,hf⟩ := h id r hr hs
  obtain ⟨hu,hv',hf'⟩ := k id r ht hs
  exact ⟨hu,hv'.trans hv,hf'.trans hf⟩

/-- Runs, verdicts and findings are not written. -/
theorem settles_of_eq (hr : t.testRuns = s.testRuns) (hv : t.verdicts = s.verdicts)
    (hf : t.findings = s.findings) : Settles s t := by
  intro id r hid hs
  refine ⟨?_,by rw [verdictsOf,hv]; rfl,by rw [findingsOf,hf]; rfl⟩
  rw [Store.findRun,hr]
  exact hid

/-- A run that is not over is written. -/
theorem settles_updateRun {id : ℕ} {f : TestRun → TestRun} (hid : ∀ r,(f r).id = r.id)
    (hf : ∀ r,s.findRun id = some r → f r = r ∨ r.status.active = true) :
    Settles s (s.updateRun id f) := by
  intro i r hr hs
  refine ⟨?_,rfl,rfl⟩
  rw [findRun_updateRun hid]
  split_ifs with he
  · subst he
    rcases hf r hr with h | h
    · rw [hr,Option.map_some,h]
    · rw [h] at hs
      cases hs
  · exact hr

theorem settles_pushRun {r : TestRun} : Settles s (pushRun s r) := fun _ _ hr _ =>
  ⟨Tables.find?_append_of_some hr,rfl,rfl⟩

theorem settles_dropStartedRun {r : TestRun} (hr : s.findRun r.id = some r)
    (hrun : r.status = .running) : Settles s (dropStartedRun s r.id) := by
  intro id q hq hs
  refine ⟨?_,rfl,rfl⟩
  have hne : id ≠ r.id := by
    rintro rfl
    cases hq.symm.trans hr
    rw [hrun] at hs
    cases hs
  simp only [dropStartedRun,Store.findRun,List.find?_filter] at hq ⊢
  rw [← hq]
  congr 1
  funext x
  by_cases hx : x.id = id
  · simp [hx,hne]
  · simp [hx]

theorem settles_withVerdict {run row : TestRun} {finding : Bool} (hrow : s.findRun run.id = some row)
    (hactive : row.status.active = true) : Settles s (withVerdict s run finding) := by
  intro id r hr hs
  have hne : id ≠ run.id := by
    rintro rfl
    cases hr.symm.trans hrow
    rw [hactive] at hs
    cases hs
  refine ⟨?_,?_,?_⟩
  · show (s.updateRun run.id verdicted).findRun id = some r
    rw [findRun_updateRun verdicted_id,if_neg hne]
    exact hr
  · simp [withVerdict,verdictsOf,List.filter_append,Ne.symm hne]
  · simp only [withVerdict,findingsOf]
    split_ifs
    · simp [List.filter_append,Ne.symm hne]
    · rfl

theorem settles_cancelRow {run : TestRun} (hrun : s.findRun run.id = some run)
    (hactive : run.status.active = true) : Settles s (cancelRow s run) := by
  have hupdate : Settles s (s.updateRun run.id cancelled) := by
    refine settles_updateRun cancelled_id fun r hr => Or.inr ?_
    cases hr.symm.trans hrun
    exact hactive
  exact hupdate.trans (settles_of_eq rfl rfl rfl)

theorem settles_of_atom {held : List ℕ} (h : Atom false held s t) : Settles s t := by
  cases h with
  | book tick nextId hle => exact settles_of_eq rfl rfl rfl
  | start r hr => exact settles_pushRun
  | drop r hr hrun hjob => exact settles_dropStartedRun hr hrun
  | note id f hid hf => exact settles_updateRun hid fun r hr => (hf r hr).imp_right Notes.active
  | verdict run finding row hrow htenant hevidence hlate hnone =>
      exact settles_withVerdict hrow (hlate rfl)
  | cancel run hrun hactive => exact settles_cancelRow hrun hactive
  | job run row => exact settles_of_eq rfl rfl rfl
  | scan id f x => exact settles_of_eq rfl rfl rfl

theorem settles_of_flow {held : List ℕ} (h : Flow false held s t) : Settles s t := by
  induction h with
  | refl => exact .refl s
  | tail _ ha ih => exact ih.trans (settles_of_atom ha)

theorem settles_of_turns (h : Turns false s t) : Settles s t := by
  induction h with
  | refl => exact .refl s
  | tail _ ht ih =>
      refine ih.trans ?_
      cases ht with
      | atom ha => exact settles_of_atom ha
      | push x => exact settles_of_eq rfl rfl rfl
      | edit id f => exact settles_of_eq rfl rfl rfl
      | dispatch id f => exact settles_of_eq rfl rfl rfl

theorem settles_setKillSwitch {tenantId : ℕ} {active : Bool} (hs : Sound s) :
    Settles s (setKillSwitch E depth s tenantId active) := by
  have hswitch : Settles s (switched s tenantId active) := by
    obtain ⟨requests,he⟩ := switched_eq (s := s) tenantId active
    rw [he]
    exact settles_of_eq rfl rfl rfl
  exact hswitch.trans (settles_of_flow (flow_setKillSwitch hs))

/-- No request that finalises in time touches a run that is over. -/
theorem settles_of_quiet (h : Quiet false s t) : Settles s t := by
  cases h with
  | turns h => exact settles_of_turns h
  | ingest job run hjob hopen hrun hof hactive =>
      have hupdate : Settles s (s.updateRun run.id fun r => collecting { r with
          probeExternalResult := true
          probeEvent := true }) := by
        refine settles_updateRun (fun _ => rfl) fun r hr => Or.inr ?_
        cases hr.symm.trans hrun
        exact hactive
      exact hupdate.trans (settles_of_eq rfl rfl rfl)
  | jobs p hp => exact settles_of_eq rfl rfl rfl
  | policies policies dispatches nextId hle => exact settles_of_eq rfl rfl rfl
  | highScale requests nextId hle hrunning => exact settles_of_eq rfl rfl rfl
  | target t ht => exact settles_of_eq rfl rfl rfl
  | archive id archived => exact settles_of_eq rfl rfl rfl
  | directory groups tenants nextId hle => exact settles_of_eq rfl rfl rfl

theorem settles_of_effect (hs : Sound s) (h : Effect E depth false s t) : Settles s t := by
  cases h with
  | quiet h => exact settles_of_quiet h
  | stop tenantId active => exact settles_setKillSwitch hs

theorem oneVerdict_of_eq (h : OneVerdict s) (hv : t.verdicts = s.verdicts) : OneVerdict t := by
  intro id
  rw [verdictsOf,hv]
  exact h id

theorem oneVerdict_of_atom {late : Bool} {held : List ℕ} (ha : Atom late held s t)
    (h : OneVerdict s) : OneVerdict t := by
  cases ha with
  | verdict run finding row hrow htenant hevidence hlate hnone =>
      intro id
      simp only [withVerdict,verdictsOf,List.filter_append,List.length_append]
      by_cases he : run.id = id
      · subst he
        have hnil : (s.verdicts.filter fun v => v.testRunId == run.id) = [] := by
          simpa [hasVerdict,List.filter_eq_nil_iff] using hnone
        simp [hnil]
      · simpa [he,verdictsOf] using h id
  | _ => exact oneVerdict_of_eq h rfl

theorem oneVerdict_of_flow {late : Bool} {held : List ℕ} (hf : Flow late held s t)
    (h : OneVerdict s) : OneVerdict t := by
  induction hf with
  | refl => exact h
  | tail _ ha ih => exact oneVerdict_of_atom ha ih

theorem oneVerdict_of_quiet {late : Bool} (hq : Quiet late s t) (h : OneVerdict s) :
    OneVerdict t := by
  cases hq with
  | turns ht =>
      induction ht with
      | refl => exact h
      | tail _ ht ih =>
          cases ht with
          | atom ha => exact oneVerdict_of_atom ha ih
          | _ => exact oneVerdict_of_eq ih rfl
  | _ => exact oneVerdict_of_eq h rfl

theorem oneVerdict_of_effect {late : Bool} (hs : Sound s) (he : Effect E depth late s t)
    (h : OneVerdict s) : OneVerdict t := by
  cases he with
  | quiet hq => exact oneVerdict_of_quiet hq h
  | stop tenantId active =>
      refine oneVerdict_of_flow (flow_setKillSwitch hs) ?_
      obtain ⟨requests,he⟩ := switched_eq (s := s) tenantId active
      rw [he]
      exact oneVerdict_of_eq h rfl

end

section
variable (E : Env) (zone : Zone) (depth : ℕ)

/-- Each result is finalised for a run that is not cancelled at that moment. -/
def TimelyRun (s : Store) : List Op → Prop
  | [] => True
  | op::ops => Timely s op ∧ TimelyRun (apply E zone depth s op) ops

/-- Between two moments of a run of the service: final statuses are final, there is one verdict
for a run, and nothing is published for a run that is cancelled. -/
def Lifecycle (before after : List Op) : Prop :=
  let s := exec E zone depth Store.empty before
  let s' := exec E zone depth s after
  (∀ id r,s.findRun id = some r → r.status = .verdicted ∨ r.status = .cancelled →
    (s'.findRun id).map TestRun.status = some r.status) ∧
  (∀ id,(verdictsOf s' id).length ≤ 1) ∧
  ∀ id r,s.findRun id = some r → r.status = .cancelled →
    verdictsOf s' id = verdictsOf s id ∧ findingsOf s' id = findingsOf s id

variable {E zone depth}

theorem settles_exec {s : Store} (hs : Sound s) (ops : List Op) (h : TimelyRun E zone depth s ops) :
    Settles s (exec E zone depth s ops) := by
  induction ops generalizing s with
  | nil => exact .refl s
  | cons op ops ih =>
      obtain ⟨hop,hops⟩ := h
      have hstep : Settles s (apply E zone depth s op) :=
        settles_of_effect hs (apply_effect hs op fun _ => hop)
      exact hstep.trans (ih (sound_apply hs op) hops)

theorem lifecycle_of_timely (before after : List Op)
    (h : TimelyRun E zone depth (exec E zone depth Store.empty before) after) :
    Lifecycle E zone depth before after := by
  have hone : ∀ ops s,Sound s → OneVerdict s →
      Sound (exec E zone depth s ops) ∧ OneVerdict (exec E zone depth s ops) := fun ops s hs ho =>
    exec_invariant (fun s s' hs ho he => oneVerdict_of_effect hs he ho) hs ho ops
  have hempty : OneVerdict Store.empty := by
    intro id
    simp [verdictsOf,Store.empty]
  obtain ⟨hs,ho⟩ := hone before Store.empty sound_empty hempty
  have hsettles := settles_exec hs after h
  have hinactive : ∀ r : TestRun,r.status = .verdicted ∨ r.status = .cancelled →
      r.status.active = false := by
    intro r hr
    rcases hr with hr | hr <;> rw [hr] <;> rfl
  refine ⟨?_,(hone after _ hs ho).2,?_⟩
  · intro id r hr hover
    rw [(hsettles id r hr (hinactive r hover)).1]
    rfl
  · intro id r hr hc
    exact (hsettles id r hr (hinactive r (Or.inr hc))).2

end

/-- Every check passes, a start leaves a job behind, and a verdict writes a finding. -/
def signedWorker : Env where
  start := fun _ => ⟨.pass,none,.pass,.job,120000⟩
  plan := fun _ => ⟨none,fun _ _ => none⟩
  createsFinding := fun _ => true
  acts := fun _ => []
  completes := fun _ => true
  clock := fun _ => 0
  dispatchReady := true

def utc : Zone := fun _ _ => ⟨1970,1,1,0,0,0,4⟩

/-- Group 0 with target 1, then run 2 with job 3 whose result is in. -/
def reported : List Op :=
  [.addGroup 7,.addTarget 7 0,.start 0 ⟨7,0,some 1,5,none⟩ false,.ingest 3 .pass]

theorem reported_run_is_verdicted :
    Lifecycle signedWorker utc 0 reported
      [.finalizeAfterIngest 1 (some 7) 2,.cancelRun 7 2,.finalizeAfterIngest 1 (some 7) 2] := by
  have hcollecting : ((exec signedWorker utc 0 Store.empty reported).findRun 2).map
      TestRun.status = some .collecting := by decide
  have hverdicted : ((exec signedWorker utc 0 Store.empty
      (reported++[.finalizeAfterIngest 1 (some 7) 2,.cancelRun 7 2])).findRun 2).map
      TestRun.status = some .verdicted := by decide
  refine lifecycle_of_timely _ _ ⟨?_,trivial,?_,trivial⟩
  · intro r hr
    rw [hr] at hcollecting
    simp only [Option.map_some,Option.some.injEq] at hcollecting
    simp [hcollecting]
  · intro r hr
    rw [exec,List.foldl_append] at hverdicted
    have hv := (congrArg (Option.map TestRun.status) hr).symm.trans hverdicted
    simp only [Option.map_some,Option.some.injEq] at hv
    simp [hv]

/-- The run is cancelled between its result and the finalisation, and a verdict is published. -/
theorem cancelled_run_gets_verdict :
    ¬ Lifecycle signedWorker utc 0 (reported++[.cancelRun 7 2])
      [.finalizeAfterIngest 1 (some 7) 2] := by
  rintro ⟨hstatus,-,-⟩
  have hbefore : ((exec signedWorker utc 0 Store.empty (reported++[.cancelRun 7 2])).findRun 2).map
      TestRun.status = some .cancelled := by decide
  obtain ⟨r,hr,hs⟩ := Option.map_eq_some_iff.mp hbefore
  have hafter := hstatus 2 r hr (Or.inr hs)
  rw [hs] at hafter
  exact absurd hafter (by decide)

end AstraNull.RunLifecycle

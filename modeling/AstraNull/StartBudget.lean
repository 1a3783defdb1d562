import Mathlib
import AstraNull.Tables
import AstraNull.Runs
import AstraNull.RuntimeStore
import AstraNull.TestRuns
import AstraNull.ScanPlanning
import AstraNull.ValidationScans
import AstraNull.RuntimeFlow
import AstraNull.RuntimeMoves
import AstraNull.ScanLifecycle

/-!
# The start attempts of a step

What the executor does to the steps of one scan, start by start. A step is given up with
`start_test_run_failed` when its counter of attempts has reached the limit. The counter goes up
before a start, and it is set back when the scan's own run blocked the start but not when the
start was deferred: a deferred start uses up an attempt like a lost one.
-/
namespace AstraNull.StartBudget
open RuntimeStore TestRuns ScanPlanning ValidationScans RuntimeFlow RuntimeMoves Runs
open ScanLifecycle

/-- What became of a start. -/
inductive Fate where
  | started
  /-- A rate or an entitlement limit. -/
  | deferred
  /-- An error that is tried again. -/
  | failed
  /-- Blocked by a run of the same scan. -/
  | ownRun
  | refused
  /-- The scan or the step moved on in the meantime. -/
  | orphaned
deriving DecidableEq

inductive Event where
  | start (stepId : ℕ) (fate : Fate)
  /-- The step was active and has no run. -/
  | noRun (stepId : ℕ)
deriving DecidableEq

/-- The starts of a step that were lost and those that were deferred; whether its last start is
neither, so far. -/
structure Ledger where
  lost : ℕ
  deferred : ℕ
  opened : Bool
deriving DecidableEq

def Ledger.empty : Ledger := ⟨0,0,false⟩

def Ledger.settle (l : Ledger) : Fate → Ledger
  | .deferred => ⟨l.lost,l.deferred+1,false⟩
  | .failed => ⟨l.lost+1,l.deferred,false⟩
  | .ownRun => ⟨l.lost,l.deferred,false⟩
  | _ => ⟨l.lost,l.deferred,true⟩

def Ledger.note (stepId : ℕ) (l : Ledger) : Event → Ledger
  | .start j fate => if j = stepId then l.settle fate else l
  | .noRun j => if j = stepId ∧ l.opened = true then ⟨l.lost+1,l.deferred,false⟩ else l

/-- The ledger of a step after a history of its scan. -/
def ledger (stepId : ℕ) (h : List Event) : Ledger := h.foldl (Ledger.note stepId) .empty

def Ledger.used (l : Ledger) : ℕ := l.lost+l.deferred

theorem ledger_append (stepId : ℕ) (h k : List Event) :
    ledger stepId (h++k) = k.foldl (Ledger.note stepId) (ledger stepId h) := List.foldl_append

theorem note_other {i : ℕ} {l : Ledger} {e : Event}
    (h : ∀ fate,e ≠ .start i fate) (hn : e ≠ .noRun i) : l.note i e = l := by
  cases e with
  | start j fate => exact if_neg fun hj => h fate (by rw [hj])
  | noRun j => exact if_neg fun hj => hn (by rw [hj.1])

/-- Without a deferred start only lost ones are used up. -/
theorem deferred_eq_zero {i : ℕ} {h : List Event} (hno : .start i .deferred ∉ h) :
    (ledger i h).deferred = 0 := by
  induction h using List.reverseRecOn with
  | nil => rfl
  | append_singleton h e ih =>
      rw [List.mem_append,not_or,List.mem_singleton] at hno
      have hrest := ih hno.1
      rw [ledger_append,List.foldl_cons,List.foldl_nil]
      cases e with
      | start j fate =>
          rw [Ledger.note]
          split
          · next hj =>
              subst hj
              cases fate <;> first | exact hrest | exact absurd rfl hno.2
          · exact hrest
      | noRun j =>
          rw [Ledger.note]
          split
          · exact hrest
          · exact hrest

/-- The step was given up. -/
def StartFailed (p : ScanStep) : Prop :=
  p.status = .denied ∧ p.errorCode = some "start_test_run_failed"

def Waits (p : ScanStep) : Prop := p.status = .pending ∨ p.status = .deferred

structure Within (l : Ledger) (p : ScanStep) : Prop where
  spent : p.attempts ≤ l.used+l.opened.toNat
  waiting : Waits p → p.attempts ≤ l.used
  failed : StartFailed p → maxStepStartAttempts ≤ l.used

section Within
variable {l : Ledger} {p q : ScanStep}

theorem Within.fresh (hp : p.attempts = 0) (hs : p.status = .pending) : Within l p where
  spent := by omega
  waiting _ := by omega
  failed h := by
    rw [StartFailed,hs] at h
    cases h.1

/-- A change outside the starts: the step is as it was, or over or active. -/
def Rest (q p : ScanStep) : Prop :=
  p.id = q.id ∧ p.attempts = q.attempts ∧
    ((p.status = q.status ∧ p.errorCode = q.errorCode) ∨ (¬ Waits p ∧ ¬ StartFailed p))

theorem Within.rest (h : Within l q) (hr : Rest q p) : Within l p := by
  obtain ⟨-,ha,⟨hs,he⟩ | ⟨hw,hf⟩⟩ := hr
  · refine ⟨ha ▸ h.spent,fun hp => ?_,fun hp => ?_⟩
    · rw [Waits,hs] at hp
      exact ha ▸ h.waiting hp
    · rw [StartFailed,hs,he] at hp
      exact h.failed hp
  · exact ⟨ha ▸ h.spent,fun hp => absurd hp hw,fun hp => absurd hp hf⟩

/-- An active step without a run is tried again, or given up. -/
theorem Within.giveUp (h : Within l p) (i : ℕ) : Within (l.note i (.noRun i)) (giveUpStep p) := by
  have hspent := h.spent
  have hused : p.attempts ≤ (l.note i (.noRun i)).used := by
    cases ho : l.opened
    · simpa [Ledger.note,ho] using hspent
    · simp only [Ledger.note,Ledger.used,ho,and_true,if_true,Bool.toNat_true] at hspent ⊢
      omega
  unfold giveUpStep
  split
  · next hmax =>
      refine ⟨Nat.le_add_right_of_le hused,fun hw => ?_,fun _ => hmax.trans hused⟩
      rcases hw with hw | hw <;> cases hw
  · refine ⟨Nat.le_add_right_of_le hused,fun _ => hused,fun hf => ?_⟩
    cases hf.1

/-- A start that is neither lost nor deferred leaves the step active or over. -/
theorem Within.open {fate : Fate} (hl : l.settle fate = ⟨l.lost,l.deferred,true⟩)
    (hp : p.attempts ≤ l.used+1) (hw : ¬ Waits p) (hf : ¬ StartFailed p) :
    Within (l.settle fate) p := by
  rw [hl]
  exact ⟨hp,fun h => absurd h hw,fun h => absurd h hf⟩

/-- A start that is lost or deferred has used up its attempt. -/
theorem Within.closed {fate : Fate} (hl : (l.settle fate).used = l.used+1)
    (hp : p.attempts ≤ l.used+1) (hf : StartFailed p → maxStepStartAttempts ≤ p.attempts) :
    Within (l.settle fate) p := by
  rw [← hl] at hp
  exact ⟨Nat.le_add_right_of_le hp,fun _ => hp,fun h => (hf h).trans hp⟩

end Within

theorem mem_write {ps : List ScanStep} {i : ℕ} {f : ScanStep → ScanStep} {p : ScanStep}
    (hn : (ps.map ScanStep.id).Nodup) (hp : p ∈ Tables.update (fun q => q.id == i) f ps) :
    (p ∈ ps ∧ p.id ≠ i) ∨ ∃ q ∈ ps,q.id = i ∧ p = f q := by
  induction ps with
  | nil => simp at hp
  | cons q ps ih =>
      obtain ⟨hq,hn⟩ := List.nodup_cons.mp hn
      by_cases hi : q.id = i
      · simp only [Tables.update,hi,beq_self_eq_true,if_true,List.mem_cons] at hp
        rcases hp with rfl | hp
        · exact Or.inr ⟨q,List.mem_cons_self,hi,rfl⟩
        · refine Or.inl ⟨List.mem_cons_of_mem q hp,fun he => hq ?_⟩
          rw [hi,← he]
          exact List.mem_map_of_mem hp
      · simp only [Tables.update,beq_iff_eq,hi,if_false,List.mem_cons] at hp
        rcases hp with rfl | hp
        · exact Or.inl ⟨List.mem_cons_self,hi⟩
        · rcases ih hn hp with ⟨hp,hne⟩ | ⟨r,hr,hri,rfl⟩
          · exact Or.inl ⟨List.mem_cons_of_mem q hp,hne⟩
          · exact Or.inr ⟨r,List.mem_cons_of_mem q hr,hri,rfl⟩

/-- Every step is within its ledger. -/
structure Budgeted (h : List Event) (ps : List ScanStep) : Prop where
  nodup : (ps.map ScanStep.id).Nodup
  within : ∀ p ∈ ps,Within (ledger p.id h) p

/-- The steps while one of them is being started. -/
structure Begun (i : ℕ) (h : List Event) (ps : List ScanStep) : Prop where
  nodup : (ps.map ScanStep.id).Nodup
  others : ∀ p ∈ ps,p.id ≠ i → Within (ledger p.id h) p
  counted : ∀ p ∈ ps,p.id = i → 1 ≤ p.attempts ∧ p.attempts ≤ (ledger i h).used+1

/-- Changes outside the starts; steps may be planned anew. -/
def Rests (ps ps' : List ScanStep) : Prop :=
  (ps.map ScanStep.id).Nodup → (ps'.map ScanStep.id).Nodup ∧
    ∀ p ∈ ps',(p.attempts = 0 ∧ p.status = .pending) ∨ ∃ q ∈ ps,Rest q p

section Steps
variable {h : List Event} {ps ps' : List ScanStep} {i : ℕ} {f : ScanStep → ScanStep}

theorem Budgeted.rests (hb : Budgeted h ps) (hr : Rests ps ps') : Budgeted h ps' := by
  obtain ⟨hn,hall⟩ := hr hb.nodup
  refine ⟨hn,fun p hp => ?_⟩
  rcases hall p hp with ⟨ha,hs⟩ | ⟨q,hq,hrest⟩
  · exact .fresh ha hs
  · rw [hrest.1]
    exact (hb.within q hq).rest hrest

theorem Rests.refl (ps : List ScanStep) : Rests ps ps :=
  fun hn => ⟨hn,fun p hp => Or.inr ⟨p,hp,rfl,rfl,Or.inl ⟨rfl,rfl⟩⟩⟩

theorem rests_update (hf : ∀ q,Rest q (f q)) : Rests ps (Tables.update (fun q => q.id == i) f ps) := by
  intro hn
  rw [Tables.map_update fun q => (hf q).1]
  refine ⟨hn,fun p hp => Or.inr ?_⟩
  rcases Tables.mem_update hp with hp | ⟨q,hq,rfl⟩
  · exact ⟨p,hp,rfl,rfl,Or.inl ⟨rfl,rfl⟩⟩
  · exact ⟨q,List.mem_of_find?_eq_some hq,hf q⟩

theorem rests_updateAll {c : ScanStep → Bool} (hf : ∀ q,Rest q (f q)) :
    Rests ps (Tables.updateAll c f ps) := by
  intro hn
  rw [Tables.map_updateAll fun q => (hf q).1]
  refine ⟨hn,fun p hp => Or.inr ?_⟩
  obtain ⟨q,hq,rfl⟩ := Tables.mem_updateAll hp
  refine ⟨q,hq,?_⟩
  split
  · exact hf q
  · exact ⟨rfl,rfl,Or.inl ⟨rfl,rfl⟩⟩

theorem Budgeted.giveUp (hb : Budgeted h ps) :
    Budgeted (h++[.noRun i]) (Tables.update (fun q => q.id == i) giveUpStep ps) := by
  have hid : ∀ q,(giveUpStep q).id = q.id := fun q => congrArg Prod.fst (stepKey_giveUpStep q)
  refine ⟨by rw [Tables.map_update hid]; exact hb.nodup,fun p hp => ?_⟩
  rw [ledger_append,List.foldl_cons,List.foldl_nil]
  rcases mem_write hb.nodup hp with ⟨hp,hne⟩ | ⟨q,hq,rfl,rfl⟩
  · rw [note_other (fun _ => by simp) (by simpa using Ne.symm hne)]
    exact hb.within p hp
  · rw [hid]
    exact (hb.within q hq).giveUp q.id

theorem Budgeted.begin (hb : Budgeted h ps) {step : ScanStep} (hstep : step ∈ ps)
    (hw : Waits step) : Begun step.id h (Tables.update (fun q => q.id == step.id) beginStep ps) := by
  have hid : ∀ q,(beginStep q).id = q.id := fun _ => rfl
  refine ⟨by rw [Tables.map_update hid]; exact hb.nodup,fun p hp hne => ?_,fun p hp hi => ?_⟩
  · rcases mem_write hb.nodup hp with ⟨hp,-⟩ | ⟨q,hq,hqi,rfl⟩
    · exact hb.within p hp
    · exact absurd hqi hne
  · rcases mem_write hb.nodup hp with ⟨-,hne⟩ | ⟨q,hq,hqi,rfl⟩
    · exact absurd hi hne
    · obtain rfl := List.inj_on_of_nodup_map hb.nodup hq hstep hqi
      have := (hb.within q hq).waiting hw
      exact ⟨Nat.le_add_left 1 _,Nat.succ_le_succ this⟩

theorem Begun.follow (hb : Begun i h ps) {own : ℕ} (hf : ∀ q,Rest q (f q)) :
    Begun i h (Tables.update (fun q => q.id == own) f ps) := by
  refine ⟨by rw [Tables.map_update fun q => (hf q).1]; exact hb.nodup,fun p hp hne => ?_,
    fun p hp hi => ?_⟩
  · rcases Tables.mem_update hp with hp | ⟨q,hq,rfl⟩
    · exact hb.others p hp hne
    · rw [(hf q).1] at hne ⊢
      exact (hb.others q (List.mem_of_find?_eq_some hq) hne).rest (hf q)
  · rcases Tables.mem_update hp with hp | ⟨q,hq,rfl⟩
    · exact hb.counted p hp hi
    · rw [(hf q).1] at hi
      rw [(hf q).2.1]
      exact hb.counted q (List.mem_of_find?_eq_some hq) hi

theorem Begun.settle (hb : Begun i h ps) {fate : Fate} (hid : ∀ q,(f q).id = q.id)
    (hf : ∀ q ∈ ps,q.id = i → 1 ≤ q.attempts → q.attempts ≤ (ledger i h).used+1 →
      Within ((ledger i h).settle fate) (f q)) :
    Budgeted (h++[.start i fate]) (Tables.update (fun q => q.id == i) f ps) := by
  refine ⟨by rw [Tables.map_update hid]; exact hb.nodup,fun p hp => ?_⟩
  rw [ledger_append,List.foldl_cons,List.foldl_nil]
  rcases mem_write hb.nodup hp with ⟨hp,hne⟩ | ⟨q,hq,rfl,rfl⟩
  · rw [note_other (fun _ => by simpa using fun hi => absurd hi.symm hne) (by simp)]
    exact hb.others p hp hne
  · rw [hid,Ledger.note,if_pos rfl]
    obtain ⟨hone,hle⟩ := hb.counted q hq rfl
    exact hf q hq rfl hone hle

end Steps

def Named (d : Denial) : Prop := d.error ≠ "start_test_run_failed"

/-- No check of a start refuses under the name that the executor keeps for itself. -/
structure OwnErrors (E : Env) : Prop where
  early : ∀ n d,(E.start n).early = .refuse d → Named d
  limit : ∀ n e,(E.start n).limit = some e → e ≠ "start_test_run_failed"
  late : ∀ n d,(E.start n).late = .refuse d → Named d
  launch : ∀ n d,(E.start n).launch = .lineageRefused d → Named d

section Refusals
variable {E : Env} {hook : Hook} {s : Store} {now : ℤ} {body : StartBody} {opts : StartOptions}
  {d : Denial}

theorem validatePolicyBinding_named (h : validatePolicyBinding s now body opts = .error d) :
    Named d := by
  unfold validatePolicyBinding at h
  repeat' split at h
  all_goals first | cases h; done | (obtain rfl := Except.error.inj h; simp [Named])

theorem validateScanBinding_named (h : validateScanBinding s body opts = .error d) :
    Named d := by
  unfold validateScanBinding at h
  repeat' split at h
  all_goals first | cases h; done | (obtain rfl := Except.error.inj h; simp [Named])

theorem named_of_literal {α : Type} {error : String} {status : ℕ}
    (he : error ≠ "start_test_run_failed")
    (h : (Except.error ⟨error,status⟩ : Except Denial α) = .error d) : Named d := by
  obtain rfl := Except.error.inj h
  exact he

theorem startGates_named (hE : OwnErrors E) {n : ℕ}
    (h : startGates s now (E.start n) body opts = .error d) : Named d := by
  unfold startGates at h
  simp only [bind,Except.bind,pure,Except.pure,throw,throwThe,MonadExceptOf.throw] at h
  split at h
  · exact named_of_literal (by decide) h
  split at h
  · exact named_of_literal (by decide) h
  split at h
  · exact named_of_literal (by decide) h
  split at h
  · next limit => exact named_of_literal (hE.limit n _ limit) h
  split at h
  · exact named_of_literal (by decide) h
  split at h
  · exact named_of_literal (by decide) h
  split at h
  · exact named_of_literal (by decide) h
  split at h
  · exact named_of_literal (by decide) h
  split at h
  · next scan =>
      obtain rfl := Except.error.inj h
      exact validateScanBinding_named scan
  split at h
  · next policy =>
      obtain rfl := Except.error.inj h
      exact validatePolicyBinding_named policy
  · cases h

theorem launchRun_named {run : TestRun} {launch : Launch}
    (hl : ∀ d,launch = .lineageRefused d → Named d)
    (h : (launchRun hook s run launch).2 = .refused d) : Named d := by
  cases launch with
  | lineageRefused denial =>
      obtain rfl := StartResult.refused.inj h
      exact hl _ rfl
  | eventCap =>
      obtain rfl := StartResult.refused.inj h
      simp [Named]
  | jobFails =>
      obtain rfl := StartResult.refused.inj h
      simp [Named]
  | _ => cases h

theorem startTestRun_named (hE : OwnErrors E)
    (h : (startTestRun E hook s now body opts).2 = .refused d) : Named d := by
  unfold startTestRun at h
  simp only at h
  split at h
  · next early =>
      obtain rfl := StartResult.refused.inj h
      exact hE.early _ _ early
  · cases h
  split at h
  · next gates =>
      obtain rfl := StartResult.refused.inj h
      exact startGates_named hE gates
  split at h
  · cases h
  split at h
  · next late =>
      obtain rfl := StartResult.refused.inj h
      exact hE.late _ _ late
  · cases h
  · exact launchRun_named (hE.launch _) h

/-- What the executor denies a step for is never called like its own failure. -/
theorem outcome_named (hE : OwnErrors E)
    (h : outcome (startTestRun E hook s now body opts).2 = .error d)
    (hc : classifyStartDenial d ≠ .retry) : Named d := by
  cases hr : (startTestRun E hook s now body opts).2 with
  | refused denial =>
      rw [hr] at h
      obtain rfl := Except.error.inj h
      exact startTestRun_named hE hr
  | threw =>
      rw [hr] at h
      obtain rfl := Except.error.inj h
      exact absurd (by decide) hc
  | started run replay =>
      rw [hr] at h
      cases h

end Refusals

/-- The fate of a start that the executor has an answer to. -/
def fate (s : Store) (scan : Scan) (step : ScanStep) : Except Denial TestRun → Fate
  | .ok _ => .started
  | .error denial => match classifyStartDenial denial with
    | .defer => .deferred
    | .abort =>
        if denial.error = "concurrent_run_blocked" ∧ (ownBlockingStep s scan step).isSome then .ownRun
        else .refused
    | .step => .refused
    | .retry => .failed

section Start
variable {E : Env} {id depth : ℕ} {held : List ℕ} {s t u : Store} {scan x : Scan}
  {step : ScanStep} {now : ℤ}

/-- The store while the step is being started, as far as the scan goes. -/
theorem findScan_started (hs : Sound s) (hx : s.findScan id = some x) (hid : scan.id = id)
    (body : StartBody) (opts : StartOptions) (at_ : ℤ) :
    Sound (startTestRun E (hooks E depth (id::held)) (beginStart s scan step now) at_ body opts).1 ∧
    (startTestRun E (hooks E depth (id::held)) (beginStart s scan step now) at_ body opts).1.findScan
      id = some (claimLease now s.nextId (x.updateStep step.id beginStep)) := by
  subst hid
  have hreserve : Sound (s.reserve 1) := hs.bump (Nat.le_add_right _ _)
  have hbegun : Sound (beginStart s scan step now) := hreserve.updateScan fun _ => rfl
  have hfound : (beginStart s scan step now).findScan scan.id =
      some (claimLease now s.nextId (x.updateStep step.id beginStep)) :=
    findScan_write hx fun _ => rfl
  have hmoves : Moves false (scan.id::held) (beginStart s scan step now)
      (startTestRun E (hooks E depth (scan.id::held)) (beginStart s scan step now) at_ body opts).1 :=
    moves_startTestRun (moves_hooks depth (scan.id::held))
  exact ⟨hmoves.sound hbegun,(hmoves hbegun).findScan_held.trans hfound⟩

/-- The answer to a start, with the scan as it then is. -/
theorem startStep_answered (hs : Sound s) (hx : s.findScan id = some x) (hid : scan.id = id)
    {result : Except Denial TestRun}
    (h : startStep E (hooks E depth (id::held)) s scan step now = (u,some result)) :
    Sound u ∧ ∃ y,u.findScan id = some y ∧
      y.steps = Tables.update (fun q => q.id == step.id) beginStep x.steps := by
  unfold startStep at h
  simp only at h
  split at h
  · obtain ⟨rfl,-⟩ := Prod.mk.inj h
    obtain ⟨hsound,hfound⟩ := @findScan_started E id depth held s scan x step now hs hx hid
      (stepBody scan step) (stepOptions scan step s.nextId now)
      (E.clock (beginStart s scan step now).tick)
    refine ⟨hsound.updateScan fun _ => rfl,releaseLease (claimLease now s.nextId
      (x.updateStep step.id beginStep)),?_,rfl⟩
    rw [hid]
    exact findScan_write hfound fun _ => rfl
  · cases h

theorem startStep_named {hook : Hook} (hE : OwnErrors E) {d : Denial}
    (h : startStep E hook s scan step now = (u,some (.error d)))
    (hc : classifyStartDenial d ≠ .retry) : Named d := by
  unfold startStep at h
  simp only at h
  split at h
  · exact outcome_named hE (Option.some.inj (Prod.mk.inj h).2) hc
  · cases h

/-- A step that moved on, with the run of its start. -/
def orphanStep (run : Option TestRun) (p : ScanStep) : ScanStep :=
  { p with
    status := .cancelled
    testRunId := (run.map TestRun.id).or p.testRunId }

theorem cancelOrphanedRun_spec (hs : Sound s) (hx : s.findScan id = some x) (tenantId stepId : ℕ)
    (run : Option TestRun) :
    Sound (cancelOrphanedRun (hooks E depth (id::held)) s id tenantId stepId run) ∧
    (cancelOrphanedRun (hooks E depth (id::held)) s id tenantId stepId run).findScan id =
      some (x.updateStep stepId (orphanStep run)) := by
  have hwrite : ∀ w,Sound w → w.findScan id = some x →
      Sound (w.updateScan id fun x => x.updateStep stepId (orphanStep run)) ∧
      (w.updateScan id fun x => x.updateStep stepId (orphanStep run)).findScan id =
        some (x.updateStep stepId (orphanStep run)) :=
    fun w hw hfind => ⟨hw.updateScan fun _ => rfl,findScan_write hfind fun _ => rfl⟩
  cases run with
  | none => exact hwrite s hs hx
  | some run =>
      have hcancel : Moves false (id::held) s
          (cancelTestRun (hooks E depth (id::held)) s tenantId run.id).1 :=
        moves_cancelTestRun (moves_hooks depth (id::held))
      simp only [cancelOrphanedRun]
      split
      · exact hwrite _ (hcancel.sound hs) ((hcancel hs).findScan_held.trans hx)
      · exact hwrite s hs hx

theorem startStep_orphaned (hs : Sound s) (hx : s.findScan id = some x) (hid : scan.id = id)
    (h : startStep E (hooks E depth (id::held)) s scan step now = (u,none)) :
    Sound u ∧ ∃ y run,u.findScan id = some y ∧
      y.steps = Tables.update (fun q => q.id == step.id) (orphanStep run)
        (Tables.update (fun q => q.id == step.id) beginStep x.steps) := by
  unfold startStep at h
  simp only at h
  split at h
  · cases h
  · obtain ⟨rfl,-⟩ := Prod.mk.inj h
    obtain ⟨hsound,hfound⟩ := @findScan_started E id depth held s scan x step now hs hx hid
      (stepBody scan step) (stepOptions scan step s.nextId now)
      (E.clock (beginStart s scan step now).tick)
    rw [hid]
    obtain ⟨hleft,hscan⟩ := @cancelOrphanedRun_spec E id depth held _ _ hsound hfound scan.tenantId
      step.id _
    exact ⟨hleft,_,_,hscan,rfl⟩

theorem waits_of_startable (h : nextStartableStep x now = some step) :
    step ∈ x.steps ∧ Waits step := by
  rw [nextStartableStep,Option.or_eq_some_iff] at h
  rcases h with h | ⟨-,h⟩
  · have hp := List.find?_some h
    exact ⟨List.mem_of_find?_eq_some h,Or.inl (by simpa using hp)⟩
  · have hp := List.find?_some h
    simp only [Bool.and_eq_true,beq_iff_eq] at hp
    exact ⟨List.mem_of_find?_eq_some h,Or.inr hp.1⟩

end Start

section After
variable {h : List Event} {u : Store} {scan y : Scan} {step : ScanStep} {now : ℤ} {id : ℕ}

theorem rest_followRun (run : TestRun) (q : ScanStep) : Rest q (followRun run q) := by
  refine ⟨rfl,rfl,Or.inr ⟨?_,?_⟩⟩
  · rintro (hw | hw) <;> simp only [followRun] at hw <;> split at hw <;> cases hw
  · rintro ⟨hd,-⟩
    simp only [followRun] at hd
    split at hd <;> cases hd

theorem rest_bindRun (runId : ℕ) (q : ScanStep) : Rest q (bindRun runId q) :=
  ⟨rfl,rfl,Or.inl ⟨rfl,rfl⟩⟩

theorem rest_skipStep (reason : String) (q : ScanStep) : Rest q (skipStep reason q) := by
  refine ⟨rfl,rfl,Or.inr ⟨?_,?_⟩⟩
  · rintro (hw | hw) <;> cases hw
  · rintro ⟨hd,-⟩
    cases hd

theorem rest_completeStep (run : TestRun) (q : ScanStep) : Rest q (completeStep run q) := by
  refine ⟨rfl,rfl,Or.inr ⟨?_,?_⟩⟩
  · rintro (hw | hw) <;> simp only [completeStep] at hw <;> split_ifs at hw
  · rintro ⟨hd,he⟩
    simp only [completeStep] at hd he
    split_ifs at hd with hv hf
    rw [if_pos hf] at he
    simp at he

theorem begun_started (hb : Begun step.id h y.steps) (run : TestRun) :
    Budgeted (h++[.start step.id .started]) (y.updateStep step.id (startedStep run)).steps := by
  refine hb.settle (fun _ => rfl) fun q _ _ _ hle => .open rfl hle ?_ ?_
  · rintro (hw | hw) <;> simp only [startedStep] at hw <;> split_ifs at hw
  · rintro ⟨hd,-⟩
    simp only [startedStep] at hd
    split_ifs at hd

theorem begun_refused (hb : Begun step.id h y.steps) {error : String}
    (he : error ≠ "start_test_run_failed") :
    Budgeted (h++[.start step.id .refused]) (y.updateStep step.id (denyStep error)).steps := by
  refine hb.settle (fun _ => rfl) fun q _ _ _ hle => .open rfl hle ?_ ?_
  · rintro (hw | hw) <;> cases hw
  · rintro ⟨-,hd⟩
    exact he (Option.some.inj hd)

theorem begun_orphaned (hb : Begun step.id h y.steps) (run : Option TestRun) :
    Budgeted (h++[.start step.id .orphaned]) (y.updateStep step.id (orphanStep run)).steps := by
  refine hb.settle (fun _ => rfl) fun q _ _ _ hle => .open rfl hle ?_ ?_
  · rintro (hw | hw) <;> cases hw
  · rintro ⟨hd,-⟩
    cases hd

theorem begun_deferred (hb : Begun step.id h y.steps) (eligibleAt : ℤ) :
    Budgeted (h++[.start step.id .deferred]) (y.updateStep step.id fun p => { p with
      status := .deferred
      eligibleAt := some eligibleAt }).steps := by
  refine hb.settle (fun _ => rfl) fun q _ _ _ hle => .closed rfl hle ?_
  rintro ⟨hd,-⟩
  cases hd

theorem begun_retried (hb : Begun step.id h y.steps) :
    Budgeted (h++[.start step.id .failed])
      (y.updateStep step.id fun p => { p with status := .pending }).steps := by
  refine hb.settle (fun _ => rfl) fun q _ _ _ hle => .closed ?_ hle ?_
  · simp only [Ledger.settle,Ledger.used]
    omega
  · rintro ⟨hd,-⟩
    cases hd

theorem begun_ownRun (hb : Begun step.id h y.steps) (blocking : TestRun) (ownStepId : ℕ) :
    Budgeted (h++[.start step.id .ownRun]) (resumeOwnStep blocking ownStepId step.id y).steps := by
  have hown : Begun step.id h
      (y.updateStep ownStepId fun p => followRun blocking (bindRun blocking.id p)).steps :=
    hb.follow fun q => rest_followRun blocking (bindRun blocking.id q)
  refine hown.settle (fun _ => rfl) fun q _ _ hone hle => ?_
  have hle : q.attempts-1 ≤ (ledger step.id h).used := by omega
  exact ⟨Nat.le_add_right_of_le hle,fun _ => hle,fun hf => nomatch hf.1⟩

theorem begun_givenUp (hb : Begun step.id h y.steps)
    (hmax : maxStepStartAttempts ≤ (ledger step.id h).used+1) :
    Budgeted (h++[.start step.id .failed])
      (y.updateStep step.id (denyStep "start_test_run_failed")).steps := by
  refine hb.settle (fun _ => rfl) fun q _ _ _ hle => ?_
  have hused : ((ledger step.id h).settle .failed).used = (ledger step.id h).used+1 := by
    simp only [Ledger.settle,Ledger.used]
    omega
  rw [← hused] at hle hmax
  exact ⟨Nat.le_add_right_of_le hle,fun _ => hle,fun _ => hmax⟩

theorem begun_aborted (hb : Begun step.id h y.steps) {error : String}
    (he : error ≠ "start_test_run_failed") :
    Budgeted (h++[.start step.id .refused]) (abortScan step.id error y).steps := by
  have hdenied := begun_refused hb he
  exact hdenied.rests (rests_updateAll fun q => rest_skipStep _ q)

/-- Each exit of the executor after a start, with the fate of the start. -/
theorem afterStart_budgeted (hs : Sound u) (hy : u.findScan id = some y) (hid : scan.id = id)
    (hb : Begun step.id h y.steps) (hstep : step.attempts ≤ (ledger step.id h).used)
    {result : Except Denial TestRun}
    (hnamed : ∀ d,result = .error d → classifyStartDenial d ≠ .retry → Named d) :
    Sound (afterStart u scan step now result).1 ∧
    ∃ z,(afterStart u scan step now result).1.findScan id = some z ∧
      Budgeted (h++[.start step.id (fate u scan step result)]) z.steps := by
  subst hid
  have hwrite : ∀ {f : Scan → Scan} {e : Fate},(∀ x,(f x).id = x.id) →
      Budgeted (h++[.start step.id e]) (f y).steps → Sound (u.updateScan scan.id f) ∧
      ∃ z,(u.updateScan scan.id f).findScan scan.id = some z ∧
        Budgeted (h++[.start step.id e]) z.steps :=
    fun hf hbud => ⟨hs.updateScan hf,_,findScan_write hy hf,hbud⟩
  cases result with
  | ok run => exact hwrite (fun _ => rfl) (begun_started hb run)
  | error d =>
      simp only [afterStart,fate]
      cases hc : classifyStartDenial d with
      | defer => exact hwrite (fun _ => rfl) (begun_deferred hb _)
      | step =>
          have hd : Named d := hnamed d rfl (by simp [hc])
          exact hwrite (fun _ => rfl) (begun_refused hb hd)
      | retry =>
          simp only
          split
          · next hmax => exact hwrite (fun _ => rfl) (begun_givenUp hb (by omega))
          · exact hwrite (fun _ => rfl) (begun_retried hb)
      | abort =>
          have hd : Named d := hnamed d rfl (by simp [hc])
          simp only
          by_cases hblocked : d.error = "concurrent_run_blocked"
          · cases hown : ownBlockingStep u scan step with
            | none =>
                simp only [hblocked,if_true,Option.isSome_none,Bool.false_eq_true,and_false,
                  if_false]
                exact hwrite (fun _ => rfl) (begun_aborted hb (by simp))
            | some own =>
                obtain ⟨blocking,ownStepId⟩ := own
                simp only [hblocked,if_true,Option.isSome_some,and_self]
                exact hwrite (fun _ => rfl) (begun_ownRun hb blocking ownStepId)
          · simp only [hblocked,if_false,false_and]
            exact hwrite (fun _ => rfl) (begun_aborted hb hd)

end After

/-- The scan is running, before a start. -/
def markRunning (x : Scan) : Scan :=
  { x with
    status := .running
    nextEligibleAt := none }

/-- What happens to a scan: its own executor starts a step or finds a step without a run; any
other write of the row; anything that leaves the row alone. -/
inductive Act (E : Env) (id : ℕ) : Store → List Event → Store → Prop
  | elsewhere {s t : Store} : Sound t → t.findScan id = s.findScan id → Act E id s [] t
  | write {s : Store} {f : Scan → Scan} : (∀ x,(f x).id = x.id) →
      (∀ x,Rests x.steps (f x).steps) → Act E id s [] (s.updateScan id f)
  | lost {s : Store} {scan : Scan} {active : ScanStep} : s.findScan id = some scan →
      (scan.steps.find? fun p => p.status.active) = some active →
      runOfStep s scan.tenantId active = none →
      Act E id s [.noRun active.id]
        (s.updateScan id fun x => x.updateStep active.id giveUpStep)
  | start {s u : Store} {scan : Scan} {step : ScanStep} {now : ℤ} {depth : ℕ} {held : List ℕ}
      {result : Except Denial TestRun} : s.findScan id = some scan →
      nextStartableStep scan now = some step →
      startStep E (hooks E depth (id::held)) (s.updateScan id markRunning) scan step now =
        (u,some result) →
      Act E id s [.start step.id (fate u scan step result)] (afterStart u scan step now result).1
  | orphan {s u : Store} {scan : Scan} {step : ScanStep} {now : ℤ} {depth : ℕ} {held : List ℕ} :
      s.findScan id = some scan → nextStartableStep scan now = some step →
      startStep E (hooks E depth (id::held)) (s.updateScan id markRunning) scan step now =
        (u,none) →
      Act E id s [.start step.id .orphaned] u

/-- The store is sound and the steps of the scan are within their ledgers. -/
structure Kept (id : ℕ) (h : List Event) (s : Store) : Prop where
  sound : Sound s
  budgeted : ∀ x,s.findScan id = some x → Budgeted h x.steps

theorem Kept.act {E : Env} {id : ℕ} {h e : List Event} {s t : Store} (hE : OwnErrors E)
    (hk : Kept id h s) (ha : Act E id s e t) : Kept id (h++e) t := by
  cases ha with
  | elsewhere ht hfind =>
      rw [List.append_nil]
      exact ⟨ht,fun x hx => hk.budgeted x (hfind ▸ hx)⟩
  | @write f hf hrests =>
      rw [List.append_nil]
      refine ⟨hk.sound.updateScan hf,fun x hx => ?_⟩
      rw [findScan_updateScan hf,if_pos rfl] at hx
      obtain ⟨y,hy,rfl⟩ := Option.map_eq_some_iff.mp hx
      exact (hk.budgeted y hy).rests (hrests y)
  | @lost scan active hscan hactive hrun =>
      refine ⟨hk.sound.updateScan fun _ => rfl,fun x hx => ?_⟩
      have hfound : (s.updateScan id fun x => x.updateStep active.id giveUpStep).findScan id =
          some (scan.updateStep active.id giveUpStep) := findScan_write hscan fun _ => rfl
      obtain rfl := Option.some.inj (hfound.symm.trans hx)
      exact (hk.budgeted scan hscan).giveUp
  | @start u scan step now depth held result hscan hstep hstart =>
      obtain ⟨hmem,hw⟩ := waits_of_startable hstep
      have hb := hk.budgeted scan hscan
      have hmark : (s.updateScan id markRunning).findScan id = some (markRunning scan) :=
        findScan_write hscan fun _ => rfl
      have hsound : Sound (s.updateScan id markRunning) := hk.sound.updateScan fun _ => rfl
      have hid := (findScan_mem hscan).2
      obtain ⟨hu,y,hy,hsteps⟩ := startStep_answered hsound hmark hid hstart
      have hnamed : ∀ d,result = .error d → classifyStartDenial d ≠ .retry → Named d := by
        rintro d rfl hc
        exact startStep_named hE hstart hc
      have hbegun : Begun step.id h y.steps := by
        rw [hsteps]
        exact hb.begin hmem hw
      obtain ⟨hsound',z,hz,hbud⟩ := afterStart_budgeted hu hy hid hbegun
        ((hb.within step hmem).waiting hw) hnamed
      refine ⟨hsound',fun x hx => ?_⟩
      obtain rfl := Option.some.inj (hz.symm.trans hx)
      exact hbud
  | @orphan _ scan step now depth held hscan hstep hstart =>
      obtain ⟨hmem,hw⟩ := waits_of_startable hstep
      have hb := hk.budgeted scan hscan
      have hmark : (s.updateScan id markRunning).findScan id = some (markRunning scan) :=
        findScan_write hscan fun _ => rfl
      have hsound : Sound (s.updateScan id markRunning) := hk.sound.updateScan fun _ => rfl
      obtain ⟨ht,y,run,hy,hsteps⟩ := startStep_orphaned hsound hmark (findScan_mem hscan).2 hstart
      refine ⟨ht,fun x hx => ?_⟩
      obtain rfl := Option.some.inj (hy.symm.trans hx)
      rw [hsteps]
      exact begun_orphaned (y := (markRunning scan).updateStep step.id beginStep)
        (hb.begin hmem hw) run

/-- The second store is reached from the first by what happens to the scan. -/
def Acts (E : Env) (id : ℕ) (s t : Store) : Prop :=
  Sound s → Sound t ∧ ∃ h,Run (Act E id) s h t

section Executor
variable {E : Env} {id depth : ℕ} {held : List ℕ} {s t u : Store} {f : Scan → Scan}

theorem Acts.refl : Acts E id s s := fun hs => ⟨hs,[],.start⟩

theorem Acts.trans (h : Acts E id s t) (k : Acts E id t u) : Acts E id s u := by
  intro hs
  obtain ⟨ht,e,he⟩ := h hs
  obtain ⟨hu,e',he'⟩ := k ht
  exact ⟨hu,_,he.append he'⟩

theorem Acts.single {e : List Event} (ht : Sound s → Sound t) (h : Act E id s e t) :
    Acts E id s t := fun hs => ⟨ht hs,_,.step (h := []) .start h⟩

theorem acts_write (hf : ∀ x,(f x).id = x.id) (hr : ∀ x,Rests x.steps (f x).steps) :
    Acts E id s (s.updateScan id f) := .single (fun hs => hs.updateScan hf) (.write hf hr)

theorem acts_moves (h : Moves false (id::held) s t) : Acts E id s t := fun hs =>
  ⟨h.sound hs,_,.step (h := []) .start (.elsewhere (h.sound hs) (h hs).findScan_held)⟩

theorem acts_reconcileActiveStep :
    Acts E id s (reconcileActiveStep E (hooks E depth (id::held)) s id).1 := by
  unfold reconcileActiveStep
  split
  · exact .refl
  next scan hscan =>
  split
  · exact .refl
  next active hactive =>
  split
  · next hrun => exact .single (fun hs => hs.updateScan fun _ => rfl) (.lost hscan hactive hrun)
  next run hrun =>
  have hbind : Acts E id s (s.updateScan id fun x => x.updateStep active.id (bindRun run.id)) :=
    acts_write (fun _ => rfl) fun _ => rests_update (rest_bindRun run.id)
  have hread : Acts E id s (getTestRun E (hooks E depth (id::held))
      (s.updateScan id fun x => x.updateStep active.id (bindRun run.id))
      (E.clock (s.updateScan id fun x => x.updateStep active.id (bindRun run.id)).tick)
      scan.tenantId run.id).1 :=
    hbind.trans (acts_moves (moves_getTestRun (moves_hooks depth (id::held))))
  simp only
  split_ifs
  · exact hread.trans (acts_write (fun _ => rfl) fun _ => rests_update (rest_completeStep _))
  · exact hread.trans (acts_write (fun _ => rfl) fun _ => rests_update (rest_followRun _))

theorem afterStart_write (scan : Scan) (step : ScanStep) (now : ℤ)
    (result : Except Denial TestRun) : ∃ f : Scan → Scan,
      (afterStart s scan step now result).1 = s.updateScan scan.id f ∧ ∀ x,(f x).id = x.id := by
  unfold afterStart
  repeat' split
  all_goals exact ⟨_,rfl,fun _ => rfl⟩

/-- Whatever the executor does to the store, the scan lives through such a history. -/
theorem acts_advanceLoop {now : ℤ} (starts : ℕ) :
    Acts E id s (advanceLoop E (hooks E depth (id::held)) s id now starts).1 := by
  induction starts using Nat.strong_induction_on generalizing s with
  | _ starts ih =>
      have hrec : Acts E id s (reconcileActiveStep E (hooks E depth (id::held)) s id).1 :=
        acts_reconcileActiveStep
      have hsame : ∀ (w : Store) (f : Scan → Scan),(∀ x,(f x).id = x.id) →
          (∀ x,(f x).steps = x.steps) → Acts E id w (w.updateScan id f) := fun w f hf hst =>
        acts_write hf fun x => by rw [hst]; exact .refl x.steps
      unfold advanceLoop
      split
      · next t ht =>
          rw [ht] at hrec
          exact hrec.trans (hsame t refreshSummary (fun _ => rfl) fun _ => rfl)
      next t ht =>
      rw [ht] at hrec
      refine hrec.trans ?_
      clear hrec ht
      split
      · exact .refl
      next scan hscan =>
      split
      · split_ifs
        · exact hsame t _ (fun _ => rfl) fun _ => rfl
        · exact hsame t finishScan (fun _ => rfl) fun _ => rfl
      next step hstep =>
      split
      · exact hsame t refreshSummary (fun _ => rfl) fun _ => rfl
      next starts =>
      split_ifs
      · exact hsame t refreshSummary (fun _ => rfl) fun _ => rfl
      have hid := (findScan_mem hscan).2
      have hmark : (t.updateScan id markRunning).findScan id = some (markRunning scan) :=
        findScan_write hscan fun _ => rfl
      have hsound : Sound t → Sound (t.updateScan id markRunning) := fun hs =>
        hs.updateScan fun _ => rfl
      dsimp only
      split
      · next u hu =>
          have horphan : Acts E id t u := .single
            (fun hs => (startStep_orphaned (hsound hs) hmark hid hu).1) (.orphan hscan hstep hu)
          exact horphan.trans (hsame u refreshSummary (fun _ => rfl) fun _ => rfl)
      next u result hu =>
      have hstart : Acts E id t (afterStart u scan step now result).1 := by
        refine .single (fun hs => ?_) (.start hscan hstep hu)
        obtain ⟨f,hwrite,hf⟩ := afterStart_write (s := u) scan step now result
        rw [hwrite]
        exact (startStep_answered (hsound hs) hmark hid hu).1.updateScan hf
      split
      · next v advance hv =>
          rw [hv] at hstart
          exact hstart
      next v hv =>
      rw [hv] at hstart
      exact hstart.trans (ih starts (Nat.lt_succ_self starts))

end Executor

theorem nodup_materializeSteps (firstId : ℕ) (steps : List PlannedStep) :
    ((materializeSteps firstId steps).map ScanStep.id).Nodup := by
  have hids : (materializeSteps firstId steps).map ScanStep.id =
      steps.zipIdx.map fun p => firstId+p.2 := by
    simp [materializeSteps,pendingStep,Function.comp_def]
  have hidx : (steps.zipIdx.map fun p => firstId+p.2) =
      (steps.zipIdx.map Prod.snd).map (firstId+·) := by
    rw [List.map_map]
    rfl
  rw [hids,hidx,List.zipIdx_map_snd]
  exact (List.nodup_range' ..).map fun a b hab => Nat.add_left_cancel hab

/-- Steps that are planned anew start from nothing. -/
theorem rests_materializeSteps (ps : List ScanStep) (firstId : ℕ) (steps : List PlannedStep) :
    Rests ps (materializeSteps firstId steps) := by
  refine fun _ => ⟨nodup_materializeSteps firstId steps,fun p hp => Or.inl ?_⟩
  obtain ⟨q,-,rfl⟩ := List.mem_map.mp hp
  exact ⟨rfl,rfl⟩

theorem rests_patched (firstId : ℕ) (plan : Plan) (merged : PlanInput) (scheduledFor : ℤ)
    (recurrence : Option Recurrence) (x : Scan) :
    Rests x.steps (patched firstId plan merged scheduledFor recurrence x).steps :=
  rests_materializeSteps x.steps firstId plan.steps

theorem rests_dispatched (firstId : ℕ) (plan : Plan) (x : Scan) :
    Rests x.steps (dispatched firstId plan x).steps := by
  unfold dispatched
  split
  · exact .refl x.steps
  · exact rests_materializeSteps x.steps firstId plan.steps

theorem rests_scheduleDenied (code : String) (x : Scan) :
    Rests x.steps (scheduleDenied code x).steps :=
  rests_updateAll fun q => rest_skipStep _ q

theorem rests_cancelStep (x : Scan) (i : ℕ) : Rests x.steps (x.updateStep i cancelStep).steps := by
  refine rests_update fun q => ⟨rfl,rfl,Or.inr ⟨?_,?_⟩⟩
  · rintro (hw | hw) <;> cases hw
  · rintro ⟨hd,-⟩
    cases hd

/-- In every history of a scan from its creation on, a step is given up only after so many of its
starts were lost or deferred. -/
theorem budget_used {E : Env} {id : ℕ} {s t : Store} {h : List (List Event)} (hE : OwnErrors E)
    (hs : Kept id [] s) (hr : Run (Act E id) s h t) {x : Scan} (hx : t.findScan id = some x)
    {p : ScanStep} (hp : p ∈ x.steps) (hf : StartFailed p) :
    maxStepStartAttempts ≤ (ledger p.id h.flatten).used := by
  have hkept : Kept id h.flatten t := by
    refine hr.invariant (I := fun h s => Kept id h.flatten s) hs ?_
    intro h t e u hk ha
    rw [List.flatten_append,List.flatten_singleton]
    exact hk.act hE ha
  exact ((hkept.budgeted x hx).within p hp).failed hf

/-- A sound store in which the steps of the scan are as they are planned. -/
def Planned (id : ℕ) (s : Store) : Prop :=
  Sound s ∧ ∀ x,s.findScan id = some x → (x.steps.map ScanStep.id).Nodup ∧
    ∀ p ∈ x.steps,p.attempts = 0 ∧ p.status = .pending

theorem Planned.kept {id : ℕ} {s : Store} (h : Planned id s) : Kept id [] s := by
  refine ⟨h.1,fun x hx => ?_⟩
  obtain ⟨hn,hall⟩ := h.2 x hx
  exact ⟨hn,fun p hp => .fresh (hall p hp).1 (hall p hp).2⟩

/-- In every history without a deferred start of the step, it is given up only after so many of
its starts failed or left no run. -/
theorem given_up_after_lost_starts {E : Env} {id : ℕ} {s t : Store} {h : List (List Event)}
    (hE : OwnErrors E) (hs : Planned id s) (hr : Run (Act E id) s h t) {x : Scan}
    (hx : t.findScan id = some x) {p : ScanStep} (hp : p ∈ x.steps) (hf : StartFailed p)
    (hno : .start p.id .deferred ∉ h.flatten) :
    maxStepStartAttempts ≤ (ledger p.id h.flatten).lost := by
  have hused := budget_used hE hs.kept hr hx hp hf
  rwa [Ledger.used,deferred_eq_zero hno,Nat.add_zero] at hused

/-- A start that throws, after so many that meet the limit of the subscription. -/
def cappedThenThrows (capped : ℕ) : Env where
  start n := ⟨if n < capped then .pass else .throws,some "entitlement_limit_exceeded",.pass,.job,0⟩
  plan _ := ⟨none,fun _ _ => none⟩
  createsFinding _ := false
  acts _ := []
  completes _ := false
  clock _ := 0
  dispatchReady := true

theorem ownErrors_cappedThenThrows (capped : ℕ) : OwnErrors (cappedThenThrows capped) where
  early n d h := by
    simp only [cappedThenThrows] at h
    split at h
    · cases h
    · cases h
  limit n e h := by
    obtain rfl := Option.some.inj h
    decide
  late _ _ h := nomatch h
  launch _ _ h := nomatch h

def oneStep : ScanStep := ⟨2,7,8,.pending,none,none,none,none,0⟩

def oneScan : Scan where
  id := 1
  tenantId := 0
  targetGroupId := 6
  targetId := some 8
  status := .pending
  checkIds := [7]
  planTargetIds := [8]
  planBindings := []
  steps := [oneStep]
  scheduledFor := none
  recurrence := none
  seriesId := 1
  occurrenceKey := none
  occurrenceIndex := 0
  previousScanId := none
  nextScanId := none
  lease := none
  nextEligibleAt := none
  abortReason := none
  summary := computeScanSummary [oneStep]
  revision := 1

def oneScanStore : Store := { Store.empty with
  targetGroups := [⟨6,0,false⟩]
  validationScans := [oneScan]
  nextId := 9 }

theorem planned_oneScanStore : Planned 1 oneScanStore := by
  refine ⟨?_,fun x hx => ?_⟩
  · constructor <;> simp [oneScanStore,Store.empty,oneScan]
  · obtain rfl : oneScan = x := Option.some.inj hx
    simp [oneScan,oneStep]

/-- One start of the step in the store, answered with the error. -/
def oneStart (E : Env) (s : Store) (scan : Scan) (step : ScanStep) (now : ℤ) : Store :=
  (startStep E (hooks E 0 [1]) (s.updateScan 1 markRunning) scan step now).1

def thrown : Denial := ⟨"start_test_run_failed",500⟩

def rateCapped : Denial := ⟨"entitlement_limit_exceeded",403⟩

/-- The step as the first start has left it. -/
def secondStep (status : StepStatus) (eligibleAt : Option ℤ) : ScanStep :=
  { oneStep with
    status := status
    eligibleAt := eligibleAt
    attempts := 1 }

def secondScan (step : ScanStep) (nextEligibleAt : Option ℤ) : Scan :=
  { oneScan with
    status := .running
    steps := [step]
    nextEligibleAt := nextEligibleAt
    summary := computeScanSummary [step] }

theorem thrown_twice_run : ∃ t,Run (Act (cappedThenThrows 0) 1) oneScanStore
    [[.start 2 .failed],[.start 2 .failed]] t ∧ ∃ x p,t.findScan 1 = some x ∧ p ∈ x.steps ∧
      p.id = 2 ∧ StartFailed p := by
  have hfirst := @Act.start (cappedThenThrows 0) 1 oneScanStore
    (oneStart (cappedThenThrows 0) oneScanStore oneScan oneStep 0) oneScan oneStep 0 0 []
    (.error thrown) rfl rfl (Prod.ext rfl rfl)
  refine ⟨_,.cons hfirst (.cons (@Act.start _ _ _ _ (secondScan (secondStep .pending none) none)
    (secondStep .pending none) 0 0 [] (.error thrown) rfl rfl (Prod.ext rfl rfl)) .start),?_⟩
  exact ⟨_,_,rfl,List.mem_singleton.mpr rfl,rfl,rfl,rfl⟩

theorem thrown_twice_given_up : OwnErrors (cappedThenThrows 0) ∧
    maxStepStartAttempts ≤ (ledger 2 [.start 2 .failed,.start 2 .failed]).lost := by
  obtain ⟨t,hrun,x,p,hx,hp,hid,hf⟩ := thrown_twice_run
  refine ⟨ownErrors_cappedThenThrows 0,?_⟩
  have hlost := given_up_after_lost_starts (ownErrors_cappedThenThrows 0) planned_oneScanStore hrun
    hx hp hf (by rw [hid]; decide)
  rwa [hid] at hlost

theorem capped_then_thrown_run : ∃ t,Run (Act (cappedThenThrows 1) 1) oneScanStore
    [[.start 2 .deferred],[.start 2 .failed]] t ∧ ∃ x p,t.findScan 1 = some x ∧ p ∈ x.steps ∧
      p.id = 2 ∧ StartFailed p := by
  have hfirst := @Act.start (cappedThenThrows 1) 1 oneScanStore
    (oneStart (cappedThenThrows 1) oneScanStore oneScan oneStep 0) oneScan oneStep 0 0 []
    (.error rateCapped) rfl rfl (Prod.ext rfl rfl)
  refine ⟨_,.cons hfirst (.cons (@Act.start _ _ _ _
    (secondScan (secondStep .deferred (some 3601000)) (some 3601000))
    (secondStep .deferred (some 3601000)) 3601000 0 [] (.error thrown) rfl rfl
    (Prod.ext rfl rfl)) .start),?_⟩
  exact ⟨_,_,rfl,List.mem_singleton.mpr rfl,rfl,rfl,rfl⟩

/-- A start that was deferred and one that failed, and the step is given up. -/
theorem deferred_start_uses_budget :
    ¬ ∀ (E : Env) (id : ℕ) (s t : Store) (h : List (List Event)),OwnErrors E → Planned id s →
      Run (Act E id) s h t → ∀ x,t.findScan id = some x → ∀ p ∈ x.steps,StartFailed p →
        maxStepStartAttempts ≤ (ledger p.id h.flatten).lost := by
  intro hall
  obtain ⟨t,hrun,x,p,hx,hp,hid,hf⟩ := capped_then_thrown_run
  have hlost := hall _ _ _ _ _ (ownErrors_cappedThenThrows 1) planned_oneScanStore hrun x hx p hp hf
  rw [hid] at hlost
  exact absurd hlost (by decide)

end AstraNull.StartBudget

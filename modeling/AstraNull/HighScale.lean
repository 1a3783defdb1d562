import Mathlib
import AstraNull.JsonText
import AstraNull.CanonicalJson
import AstraNull.Tables
import AstraNull.TestRuns
import AstraNull.EmergencyStop

/-!
# Transitions of a high-scale request

`transitionHighScale` of `highScale.mjs` with the execution adapter, in the order of its gates
and writes. Every refusal but one comes before the first write. A start fills the window and
renews the scope hash before the adapter compares that hash with the one it was sent, which no
route sends.
-/
namespace AstraNull.HighScale
open JsonText CanonicalJson
open RuntimeStore (HighScaleState)
open TestRuns (Denial)
open EmergencyStop (HighScaleAction allowed nextState)

/-- `requested_window`, normalised at the intake. -/
structure RequestedWindow where
  windowStart : JsString
  windowEnd : JsString
  start_ne : windowStart ≠ []
  end_ne : windowEnd ≠ []

structure ScheduledWindow where
  windowStart : JsString
  windowEnd : JsString
  scopeHash : Option JsString
deriving DecidableEq

structure Approval where
  userId : ℕ
  time : JsString
deriving DecidableEq

structure Adapter where
  status : String
  startedAt : Option JsString
  stoppedAt : Option JsString
  stopReason : Option JsString
  lastAction : String
deriving DecidableEq

/-- The members of `metadata` that a transition reads. -/
structure Metadata where
  windowStart : Option JsString
  windowEnd : Option JsString
  adapterMode : Option String
  scopeHash : Option JsString
  reason : Option JsString

structure TrailEntry where
  action : HighScaleAction
  time : JsString
  userId : ℕ
  metadata : Metadata

structure Request where
  id : ℕ
  tenantId : ℕ
  targetGroupId : JsString
  targetIds : Option (List JsString)
  requestedWindow : Option RequestedWindow
  state : HighScaleState
  scopeHash : Option JsString
  scheduledWindow : Option ScheduledWindow
  socApprovals : List Approval
  adapter : Option Adapter
  auditTrail : List TrailEntry

structure Target where
  id : JsString
  tenantId : ℕ
  targetGroupId : JsString
  kind : JsString
  value : JsString
  deleted : Bool

structure TargetGroup where
  id : JsString
  tenantId : ℕ
  deleted : Bool
  archived : Bool

structure Store where
  targets : List Target
  targetGroups : List TargetGroup
  highScaleRequests : List Request
  /-- Tenant and request of every report after a test. -/
  socReports : List (ℕ × ℕ)
  /-- `isKillSwitchActiveForTenant` -/
  killSwitch : ℕ → Bool

structure Platform where
  sha256 : JsString → JsString
  toISOString : ℤ → JsString
  iso_ne : ∀ t,toISOString t ≠ []

/-- Who acts, and when. -/
structure Call where
  tenantId : ℕ
  userId : ℕ
  now : ℤ

inductive Reply where
  | missing
  | refused (denial : Denial)
  | moved
deriving DecidableEq

section
variable (P : Platform)

def scopedTargets (s : Store) (tenantId : ℕ) (groupId : JsString) (ids : Option (List JsString)) :
    List Target :=
  s.targets.filter fun t => t.tenantId == tenantId && !t.deleted && match ids with
    | none => t.targetGroupId == groupId
    | some ids => ids.contains t.id

def computeScopeHashFromTargets (groupId : JsString) (targets : List Target) : JsString :=
  let parts := targets.map fun t => t.id++js ":"++t.kind++js ":"++t.value
  let sorted := parts.insertionSort keyLE
  P.sha256 (groupId++js "|"++(sorted.intersperse (js "|")).flatten)

def computeTargetGroupScopeHash (s : Store) (tenantId : ℕ) (groupId : JsString)
    (ids : Option (List JsString)) : JsString :=
  computeScopeHashFromTargets P groupId (scopedTargets s tenantId groupId ids)

/-- The hash of what the request covers now. -/
def currentHash (s : Store) (c : Call) (r : Request) : JsString :=
  computeTargetGroupScopeHash P s c.tenantId r.targetGroupId r.targetIds

def validateHighScaleTargetScope (s : Store) (tenantId : ℕ) (groupId : JsString)
    (ids : List JsString) : Option Denial :=
  let targets := scopedTargets s tenantId groupId (some ids)
  if groupId = [] then some ⟨"missing_target_group_id",400⟩
  else if (s.targetGroups.find? fun g => g.id == groupId && g.tenantId == tenantId).isNone then
    some ⟨"target_group_not_found",404⟩
  else if targets.any fun t => !s.targetGroups.any fun g =>
      g.id == t.targetGroupId && g.tenantId == tenantId && !g.deleted && !g.archived then
    some ⟨"target_execution_policy_unavailable",409⟩
  else if ids.any fun id => !targets.any fun t => t.id == id then some ⟨"target_not_found",404⟩
  else if targets = [] then some ⟨"target_group_empty",400⟩
  else none

def getHighScaleRequest (s : Store) (tenantId id : ℕ) : Option Request :=
  s.highScaleRequests.find? fun r => r.id == id && r.tenantId == tenantId

def evaluateHighScaleAdapterStartGate (mode : Option String) : Option Denial :=
  let mode := mode.getD "dry-run"
  if mode = "dry-run" then none
  else if mode = "disabled" then some ⟨"adapter_disabled",409⟩
  else if mode = "governed-adapter" then some ⟨"governed_adapter_not_configured",503⟩
  else some ⟨"invalid_adapter_mode",500⟩

def scopeGate (s : Store) (c : Call) (r : Request) (action : HighScaleAction) : Option Denial :=
  match r.targetIds with
  | none => none
  | some ids =>
      if action = .approve ∨ action = .schedule ∨ action = .start then
        validateHighScaleTargetScope s c.tenantId r.targetGroupId ids
      else none

/-- The refusals before any write. -/
def gate (s : Store) (c : Call) (r : Request) (action : HighScaleAction) (metadata : Metadata) :
    Option Denial :=
  match scopeGate s c r action with
  | some denial => some denial
  | none =>
      if action = .stop ∧ r.state ≠ .running then some ⟨"not_running",409⟩
      else if allowed action r.state = false then some ⟨"invalid_transition",409⟩
      else if action = .close ∧ (c.tenantId,r.id) ∉ s.socReports then
        some ⟨"post_test_report_required",409⟩
      else if action = .start then
        if s.killSwitch c.tenantId then some ⟨"kill_switch_active",409⟩
        else evaluateHighScaleAdapterStartGate metadata.adapterMode
      else none

def sevenDays : ℤ := 7*86400000

/-- A window from the request, or the week that begins now. -/
def windowFrom (c : Call) (r : Request) (start stop : Option JsString) (hash : Option JsString) :
    ScheduledWindow where
  windowStart := start.getD
    ((r.requestedWindow.map RequestedWindow.windowStart).getD (P.toISOString c.now))
  windowEnd := stop.getD
    ((r.requestedWindow.map RequestedWindow.windowEnd).getD (P.toISOString (c.now+sevenDays)))
  scopeHash := hash

def approve (s : Store) (c : Call) (r : Request) : Request :=
  { r with
    socApprovals := r.socApprovals++[⟨c.userId,P.toISOString c.now⟩]
    scopeHash := some (currentHash P s c r) }

/-- Present and not the empty text. -/
def given (text : Option JsString) : Bool := text.any fun t => t ≠ []

def schedule (s : Store) (c : Call) (metadata : Metadata) (r : Request) : Request :=
  let hash := if given r.scopeHash then r.scopeHash else some (currentHash P s c r)
  { r with
    scopeHash := hash
    scheduledWindow := some (windowFrom P c r metadata.windowStart metadata.windowEnd hash) }

/-- Both ends of the scheduled window are recorded. -/
def hasWindow (r : Request) : Bool :=
  r.scheduledWindow.any fun w => w.windowStart ≠ [] && w.windowEnd ≠ []

/-- What a start records before it asks the adapter. -/
def prepareStart (s : Store) (c : Call) (r : Request) : Request :=
  let window := if hasWindow r then r.scheduledWindow
    else some (windowFrom P c r none none r.scopeHash)
  { r with
    scheduledWindow := window
    scopeHash := some (currentHash P s c r) }

/-- `start` of the adapter, after the kill switch was found clear. -/
def adapterRefuses (r : Request) (metadata : Metadata) : Bool :=
  metadata.scopeHash.any fun sent => sent ≠ [] && some sent ≠ r.scopeHash

def adapterStart (c : Call) (r : Request) : Request :=
  { r with adapter := some ⟨"stub_running",some (P.toISOString c.now),none,none,"start"⟩ }

def adapterStop (c : Call) (metadata : Metadata) (r : Request) : Request :=
  { r with adapter := some ⟨"stub_stopped",r.adapter.bind Adapter.startedAt,
    some (P.toISOString c.now),metadata.reason,"stop"⟩ }

def finish (c : Call) (action : HighScaleAction) (metadata : Metadata) (r : Request) : Request :=
  { r with
    state := nextState action
    auditTrail := r.auditTrail++[⟨action,P.toISOString c.now,c.userId,metadata⟩] }

/-- The record after the writes of an action, and the refusal of the adapter. -/
def perform (s : Store) (c : Call) (action : HighScaleAction) (metadata : Metadata) (r : Request) :
    Request × Option Denial :=
  match action with
  | .approve => (finish P c .approve metadata (approve P s c r),none)
  | .schedule => (finish P c .schedule metadata (schedule P s c metadata r),none)
  | .start =>
      let prepared := prepareStart P s c r
      if adapterRefuses prepared metadata then (prepared,some ⟨"scope_hash_mismatch",409⟩)
      else (finish P c .start metadata (adapterStart P c prepared),none)
  | .stop => (finish P c .stop metadata (adapterStop P c metadata r),none)
  | .close => (finish P c .close metadata r,none)

def updateRequest (s : Store) (tenantId id : ℕ) (f : Request → Request) : Store :=
  { s with highScaleRequests :=
    Tables.update (fun r => r.id == id && r.tenantId == tenantId) f s.highScaleRequests }

def transitionHighScale (s : Store) (c : Call) (id : ℕ) (action : HighScaleAction)
    (metadata : Metadata) : Store × Reply :=
  match getHighScaleRequest s c.tenantId id with
  | none => (s,.missing)
  | some r => match gate s c r action metadata with
    | some denial => (s,.refused denial)
    | none =>
        let stored := updateRequest s c.tenantId id fun r => (perform P s c action metadata r).1
        match (perform P s c action metadata r).2 with
        | some denial => (stored,.refused denial)
        | none => (stored,.moved)

/-- A refused transition leaves every request as it was. -/
def Atomic (s : Store) (c : Call) (id : ℕ) (action : HighScaleAction) (metadata : Metadata) :
    Prop :=
  ∀ denial,(transitionHighScale P s c id action metadata).2 = .refused denial →
    (transitionHighScale P s c id action metadata).1.highScaleRequests = s.highScaleRequests

/-- The hash sent with a start is not that of the targets covered now. -/
def sendsOtherHash (s : Store) (c : Call) (r : Request) (metadata : Metadata) : Prop :=
  ∃ sent,metadata.scopeHash = some sent ∧ sent ≠ [] ∧ sent ≠ currentHash P s c r

/-- A start that passes the gates with another hash has nothing left to fill in. -/
def Settled (s : Store) (c : Call) (id : ℕ) (action : HighScaleAction) (metadata : Metadata) :
    Prop :=
  ∀ r,getHighScaleRequest s c.tenantId id = some r → action = .start →
    gate s c r action metadata = none → sendsOtherHash P s c r metadata →
    hasWindow r = true ∧ r.scopeHash = some (currentHash P s c r)

section
variable {P} {s : Store} {c : Call} {id : ℕ} {action : HighScaleAction} {metadata : Metadata}
  {r : Request}

theorem adapterRefuses_iff : adapterRefuses (prepareStart P s c r) metadata = true ↔
    sendsOtherHash P s c r metadata := by
  unfold adapterRefuses sendsOtherHash prepareStart
  rw [Option.any_eq_true]
  refine exists_congr fun sent => ?_
  simp

/-- The window a start fills in has both ends. -/
theorem windowFrom_complete (hash : Option JsString) :
    (windowFrom P c r none none hash).windowStart ≠ [] ∧
      (windowFrom P c r none none hash).windowEnd ≠ [] := by
  unfold windowFrom
  cases r.requestedWindow with
  | none => exact ⟨P.iso_ne _,P.iso_ne _⟩
  | some w => exact ⟨w.start_ne,w.end_ne⟩

theorem hasWindow_prepareStart : hasWindow (prepareStart P s c r) = true := by
  by_cases h : hasWindow r = true
  · have hsame : (prepareStart P s c r).scheduledWindow = r.scheduledWindow := if_pos h
    unfold hasWindow
    rw [hsame]
    exact h
  · have hfilled : (prepareStart P s c r).scheduledWindow =
        some (windowFrom P c r none none r.scopeHash) := if_neg h
    obtain ⟨hstart,hend⟩ := @windowFrom_complete P c r r.scopeHash
    unfold hasWindow
    rw [hfilled]
    simp [hstart,hend]

/-- Nothing was left to record exactly when the record does not change. -/
theorem prepareStart_eq_self_iff : prepareStart P s c r = r ↔
    hasWindow r = true ∧ r.scopeHash = some (currentHash P s c r) := by
  constructor
  · intro h
    have hhash : some (currentHash P s c r) = r.scopeHash := congrArg Request.scopeHash h
    exact ⟨by rw [← h]; exact hasWindow_prepareStart,hhash.symm⟩
  · rintro ⟨hwindow,hhash⟩
    unfold prepareStart
    rw [if_pos hwindow,← hhash]

theorem perform_refused_iff : (perform P s c action metadata r).2.isSome = true ↔
    action = .start ∧ sendsOtherHash P s c r metadata := by
  cases action with
  | start =>
      rw [← adapterRefuses_iff]
      unfold perform
      by_cases h : adapterRefuses (prepareStart P s c r) metadata = true <;> simp [h]
  | approve | schedule | stop | close => simp [perform]

theorem perform_refused_record (h : sendsOtherHash P s c r metadata) :
    perform P s c .start metadata r = (prepareStart P s c r,some ⟨"scope_hash_mismatch",409⟩) :=
  if_pos (adapterRefuses_iff.mpr h)

/-- A start the adapter refuses keeps what was recorded for it. -/
theorem start_refused (hfind : getHighScaleRequest s c.tenantId id = some r)
    (hgate : gate s c r .start metadata = none) (hsent : sendsOtherHash P s c r metadata) :
    transitionHighScale P s c id .start metadata =
      (updateRequest s c.tenantId id fun r => (perform P s c .start metadata r).1,
        .refused ⟨"scope_hash_mismatch",409⟩) := by
  unfold transitionHighScale
  simp only [hfind,hgate,perform_refused_record hsent]

theorem updated_requests_iff (hfind : getHighScaleRequest s c.tenantId id = some r)
    (hsent : sendsOtherHash P s c r metadata) :
    (updateRequest s c.tenantId id fun r => (perform P s c .start metadata r).1).highScaleRequests =
      s.highScaleRequests ↔ hasWindow r = true ∧ r.scopeHash = some (currentHash P s c r) := by
  have hwritten : (perform P s c .start metadata r).1 = prepareStart P s c r := by
    rw [perform_refused_record hsent]
  rw [updateRequest,Tables.update_eq_self_iff hfind,hwritten,prepareStart_eq_self_iff]

end

/-- A refused transition leaves the record as it was exactly when a start that is sent another
hash finds its window and its own hash already recorded. -/
theorem refused_transition_atomic_iff (s : Store) (c : Call) (id : ℕ) (action : HighScaleAction)
    (metadata : Metadata) : Atomic P s c id action metadata ↔ Settled P s c id action metadata := by
  unfold Atomic Settled
  cases hfind : getHighScaleRequest s c.tenantId id with
  | none =>
      unfold transitionHighScale
      rw [hfind]
      refine iff_of_true (fun _ hmissing => ?_) fun _ hnone => ?_
      · cases hmissing
      · cases hnone
  | some r =>
      simp only [Option.some.injEq,forall_eq']
      cases hgate : gate s c r action metadata with
      | some denial =>
          unfold transitionHighScale
          simp only [hfind,hgate]
          refine iff_of_true (fun _ _ => trivial) fun _ hopen => ?_
          cases hopen
      | none =>
          by_cases hrefused : action = .start ∧ sendsOtherHash P s c r metadata
          · obtain ⟨rfl,hsent⟩ := hrefused
            simp only [start_refused hfind hgate hsent,Reply.refused.injEq,forall_eq',true_implies]
            rw [updated_requests_iff hfind hsent]
            exact ⟨fun h _ => h,fun h => h hsent⟩
          · have hnone : (perform P s c action metadata r).2 = none := by
              rw [← Option.not_isSome_iff_eq_none,perform_refused_iff]
              exact hrefused
            unfold transitionHighScale
            simp only [hfind,hgate,hnone]
            refine iff_of_true (fun _ hmoved => ?_) fun hstart _ hsent =>
              absurd ⟨hstart,hsent⟩ hrefused
            cases hmoved

theorem settled_of_no_hash (s : Store) (c : Call) (id : ℕ) (action : HighScaleAction)
    {metadata : Metadata} (h : action = .start → metadata.scopeHash = none) :
    Settled P s c id action metadata := by
  intro r _ hstart _ hsent
  obtain ⟨sent,hsent,-⟩ := hsent
  rw [h hstart] at hsent
  cases hsent

/-- What the routes of the server send with an action: with a start the mode of the adapter, with
a schedule the body of the request, and nothing with the others. -/
def routeMetadata (adapterMode : Option String) (body : Metadata) : HighScaleAction → Metadata
  | .start => ⟨none,none,adapterMode,none,none⟩
  | .schedule => body
  | _ => ⟨none,none,none,none,none⟩

/-- A refused transition leaves every request as it was, whatever a route sends with it, and
whatever any caller sends that names no hash of its own. -/
theorem refused_transition_atomic (s : Store) (c : Call) (id : ℕ) (action : HighScaleAction) :
    (∀ adapterMode body,Atomic P s c id action (routeMetadata adapterMode body action)) ∧
    ∀ metadata : Metadata,metadata.scopeHash = none → Atomic P s c id action metadata := by
  refine ⟨fun adapterMode body => ?_,fun metadata h => ?_⟩
  · rw [refused_transition_atomic_iff]
    refine settled_of_no_hash P s c id action fun hstart => ?_
    rw [hstart]
    rfl
  · rw [refused_transition_atomic_iff]
    exact settled_of_no_hash P s c id action fun _ => h

end

/-- Submitted, with no window scheduled yet. -/
def submitted : Request where
  id := 1
  tenantId := 1
  targetGroupId := js "tg_edge"
  targetIds := none
  requestedWindow := none
  state := .submitted
  scopeHash := none
  scheduledWindow := none
  socApprovals := []
  adapter := none
  auditTrail := []

def stoppedStore : Store := ⟨[],[],[submitted],[],fun _ => true⟩

def samplePlatform : Platform := ⟨fun text => text,fun _ => [48],fun _ => List.cons_ne_nil _ _⟩

/-- A start that the kill switch refuses fills in no window. -/
theorem stopped_start_fills_nothing :
    (transitionHighScale samplePlatform stoppedStore ⟨1,1,0⟩ 1 .start
      ⟨none,none,some "dry-run",none,none⟩).2 = .refused ⟨"kill_switch_active",409⟩ ∧
    (transitionHighScale samplePlatform stoppedStore ⟨1,1,0⟩ 1 .start
      ⟨none,none,some "dry-run",none,none⟩).1.highScaleRequests = [submitted] :=
  ⟨rfl,(refused_transition_atomic samplePlatform stoppedStore ⟨1,1,0⟩ 1 .start).2 _ rfl _ rfl⟩

end AstraNull.HighScale

import Mathlib
import AstraNull.Tables
import AstraNull.RuntimeStore
import AstraNull.TestRuns
import AstraNull.ValidationScans

/-!
# The emergency stop and high-scale requests

`services/highScale.mjs`: the transitions of a high-scale request and `setKillSwitch`, which
writes the one record of the switch before it stops requests and sweeps over the runs twice.
-/
namespace AstraNull.EmergencyStop
open RuntimeStore TestRuns ValidationScans

inductive HighScaleAction where
  | approve
  | schedule
  | start
  | stop
  | close
deriving DecidableEq

def preExecution (state : HighScaleState) : Bool :=
  state == .submitted || state == .underReview || state == .approved || state == .scheduled

def allowed : HighScaleAction → HighScaleState → Bool
  | .approve,state => state == .submitted || state == .underReview
  | .schedule,state => preExecution state
  | .start,state => preExecution state
  | .stop,state => state == .running
  | .close,state => state == .stopped

def nextState : HighScaleAction → HighScaleState
  | .approve => .approved
  | .schedule => .scheduled
  | .start => .running
  | .stop => .stopped
  | .close => .closed

def updateRequest (s : Store) (tenantId id : ℕ) (f : HighScaleRequest → HighScaleRequest) : Store :=
  { s with
    highScaleRequests := Tables.update (fun r => r.id == id && r.tenantId == tenantId) f
      s.highScaleRequests }

def submitHighScale (s : Store) (tenantId : ℕ) : Store :=
  { s.reserve 1 with
    highScaleRequests := s.highScaleRequests++[⟨s.nextId,tenantId,.submitted⟩] }

/-- `scope` answers for the targets of the request and `gate` for the report and the adapter. -/
def transitionHighScale (s : Store) (tenantId id : ℕ) (action : HighScaleAction)
    (scope gate : Option Denial) : Store × Except Denial Unit :=
  match s.highScaleRequests.find? fun r => r.id == id && r.tenantId == tenantId with
  | none => (s,.error ⟨"not_found",404⟩)
  | some request =>
      if let some denial := scope then (s,.error denial)
      else if action = .stop ∧ request.state ≠ .running then (s,.error ⟨"not_running",409⟩)
      else if !allowed action request.state then (s,.error ⟨"invalid_transition",409⟩)
      else if action = .start ∧ isKillSwitchActiveForTenant s tenantId = true then
        (s,.error ⟨"kill_switch_active",409⟩)
      else match gate with
        | some denial => (s,.error denial)
        | none => (updateRequest s tenantId id fun r => { r with state := nextState action },.ok ())

/-- The adapter refuses to stop only a request that is missing or not running. -/
def autoStopRunningHighScaleRequests (s : Store) (tenantId : ℕ) : Store :=
  { s with
    highScaleRequests := Tables.updateAll (fun r => r.tenantId == tenantId && r.state == .running)
      (fun r => { r with state := .stopped }) s.highScaleRequests }

def killSwitchRecord (tenantId : ℕ) (active : Bool) : KillSwitch := ⟨active,some tenantId,none⟩

section
variable (E : Env) (depth : ℕ)

def sweep (s : Store) (tenantId : ℕ) : Store :=
  (autoCancelActiveSafeRunsForKillSwitch (hooks E depth []) s tenantId).1

/-- The record is written first, so that the gate of a start is closed during both passes. -/
def setKillSwitch (s : Store) (tenantId : ℕ) (active : Bool) : Store :=
  let s := { s with socKillSwitch := some (killSwitchRecord tenantId active) }
  if active then
    sweep E depth (sweep E depth (autoStopRunningHighScaleRequests s tenantId) tenantId) tenantId
  else s

end

end AstraNull.EmergencyStop

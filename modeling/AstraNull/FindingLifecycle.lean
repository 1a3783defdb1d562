import Mathlib
import AstraNull.JsonText
import AstraNull.ScriptText
import AstraNull.FindingRecords

/-!
# The lifecycle plan of a finding

`lib/findingLifecycle.mjs`: what a patch of the customer does to a finding, and what a passing
retest does. Neither writes; both return a plan or the reason why there is none.
-/
namespace AstraNull.FindingLifecycle
open JsonText ScriptText FindingRecords

structure Refusal where
  error : String
  status : ℕ
  field : Option String
  permission : Option String
  message : Option String

/-- Members of the decision that are strings. -/
structure RiskInput where
  reason : Option JsString
  reviewAt : Option JsString

structure PatchBody where
  /-- The body has an own member `system_summary`. -/
  systemSummary : Bool
  status : Option String
  riskAcceptance : Option RiskInput
  assignee : Option (Option JsString)
  notes : Option (Option JsString)

structure Ctx where
  tenantId : String
  userId : Option String
  /-- `roleHasPermission(ctx.role,'finding:accept_risk')` -/
  acceptsRisk : Bool
  scopes : Option (List String)

/-- The plan: a member that is absent is `none`, a null member is `some none`. -/
structure Patch where
  status : Option Status
  riskAcceptance : Option (Option RiskAcceptance)
  closedAt : Option (Option ℤ)

def reasonMin : ℕ := 20

def reasonMax : ℕ := 2000

def maxReviewDays : ℤ := 365

def dayMs : ℤ := 24*60*60*1000

def riskAcceptanceRequired (message field : String) : Refusal :=
  ⟨"risk_acceptance_required",400,some field,none,some message⟩

/-- `parse` reads a time in the accepted format. -/
def validateRiskAcceptance (parse : JsString → Option ℤ) (input : Option RiskInput) (now : ℤ) :
    Except Refusal (JsString × ℤ) :=
  match input with
  | none => .error (riskAcceptanceRequired
      "Accepting risk needs a reason and a review date." "risk_acceptance")
  | some input =>
      let reason := trim (input.reason.getD [])
      if reason.length < reasonMin ∨ reasonMax < reason.length then
        .error (riskAcceptanceRequired "The reason must be 20 to 2000 characters."
          "risk_acceptance.reason")
      else match parse (trim (input.reviewAt.getD [])) with
        | none => .error (riskAcceptanceRequired
            "The review date must be in the future and within 365 days." "risk_acceptance.review_at")
        | some reviewAt =>
            if reviewAt ≤ now ∨ now+maxReviewDays*dayMs < reviewAt then
              .error (riskAcceptanceRequired
                "The review date must be in the future and within 365 days."
                "risk_acceptance.review_at")
            else .ok (reason,reviewAt)

def authorizeRiskAcceptance (ctx : Ctx) : Bool :=
  ctx.acceptsRisk && (match ctx.scopes with
    | none => true
    | some scopes => scopes.contains "*" || scopes.contains "finding:accept_risk")

/-- Closure sets a time and reopening clears it; every status but accepted risk clears the
decision. -/
def planFindingPatch (parse : JsString → Option ℤ) (body : PatchBody) (ctx : Ctx) (now : ℤ) :
    Except Refusal Patch :=
  if body.systemSummary then
    .error ⟨"system_summary_immutable",400,none,none,some "The recorded explanation cannot be edited."⟩
  else match body.status with
    | none => .ok ⟨none,none,none⟩
    | some text =>
        if text = "" then .ok ⟨none,none,none⟩
        else match lifecycle.find? fun s => s.text == text with
          | none => .error ⟨"invalid_lifecycle",400,none,none,none⟩
          | some status =>
              let closedAt := if status.isClosure then some (some now)
                else if status = .opened ∨ status = .inProgress then some none else none
              if status = .acceptedRisk then
                if !authorizeRiskAcceptance ctx then
                  .error ⟨"forbidden",403,none,some "finding:accept_risk",none⟩
                else match validateRiskAcceptance parse body.riskAcceptance now with
                  | .error refusal => .error refusal
                  | .ok (reason,reviewAt) =>
                      .ok ⟨some status,some (some ⟨reason,reviewAt,ctx.userId,now⟩),closedAt⟩
              else .ok ⟨some status,some none,closedAt⟩

/-- A run with its verdict. `evidence` says what the recorded metadata and versions establish for a
finding, `none` where they establish nothing. -/
structure Retest where
  runId : Option String
  checkId : Option String
  targetId : Option String
  targetGroupId : Option String
  originBindingId : Option String
  verdictId : Option String
  verdictCheckId : Option String
  verdictTargetId : Option String
  checkVersion : Option String
  gradingVersion : Option String
  evidence : Finding → Option Basis

def present (a : Option String) : Bool := a.any fun s => s != ""

/-- Both are present and differ. -/
def mismatch (a b : Option String) : Bool := present a && present b && a != b

structure RetestPatch where
  closedAt : ℤ
  verifyingRunId : Option String
  lastVerdictId : Option String
  verificationBasis : Basis

def planFixVerifiedFromRetest (finding : Finding) (retest : Retest) (now : ℤ) : Option RetestPatch :=
  if !finding.status.isOpen then none
  else if finding.checkId ≠ retest.checkId ∧ finding.checkId ≠ retest.verdictCheckId then none
  else if mismatch finding.targetId (retest.targetId.or retest.verdictTargetId) then none
  else if mismatch finding.targetGroupId retest.targetGroupId then none
  else (retest.evidence finding).map fun basis =>
    ⟨now,retest.runId,retest.verdictId.or finding.lastVerdictId,basis⟩

end AstraNull.FindingLifecycle

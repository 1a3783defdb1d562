import Mathlib
import AstraNull.JsonText
import AstraNull.Tables
import AstraNull.FindingRecords
import AstraNull.FindingLifecycle
import AstraNull.ProtectionFindings

/-!
# The findings of the in-memory runtime

`services/findings.mjs`: the four operations that write findings. Each of them runs to its end
without waiting, so a run of the service is a sequence of them.
-/
namespace AstraNull.Findings
open JsonText FindingRecords FindingLifecycle ProtectionFindings

structure VerdictInput where
  verdictId : String
  severity : Option String
  runId : String
  targetGroupId : Option String
  targetId : String
  checkId : Option String
  checkVersion : Option String
  gradingVersion : Option String

/-- The open finding of the same group, target and check. -/
def sameOpen (tenantId : String) (v : VerdictInput) (f : Finding) : Bool :=
  f.tenantId == tenantId && f.targetGroupId == v.targetGroupId && f.targetId == some v.targetId &&
    f.checkId == v.checkId && f.status == .opened && !isProtectionValidationFinding f

def newFinding (tenantId : String) (v : VerdictInput) (id : ℕ) (now : ℤ) : Finding where
  id := id
  tenantId := tenantId
  targetGroupId := v.targetGroupId
  targetId := some v.targetId
  checkId := v.checkId
  checkVersion := v.checkVersion
  gradingVersion := v.gradingVersion
  testRunId := some v.runId
  verdictId := some v.verdictId
  lastVerdictId := none
  severity := v.severity.getD "medium"
  status := .opened
  assignee := none
  notes := none
  protection := none
  closedAt := none
  riskAcceptance := none
  verificationBasis := none
  verifyingRunId := none
  createdAt := now
  updatedAt := now

def push (s : Store) (f : Finding) : Store := ⟨s.findings++[f],s.nextId+1⟩

def upsertFindingFromVerdict (s : Store) (tenantId : String) (v : VerdictInput) (now : ℤ) : Store :=
  if (s.findings.find? (sameOpen tenantId v)).isSome then
    { s with
      findings := Tables.update (sameOpen tenantId v) (fun f => { f with
        lastVerdictId := some v.verdictId
        updatedAt := now }) s.findings }
  else push s (newFinding tenantId v s.nextId now)

/-- `target` is the target of the run, where it is known. -/
def retestApplies (tenantId : String) (retest : Retest) (target : Option String) (f : Finding) : Bool :=
  f.tenantId == tenantId && f.status.isOpen && f.checkId == retest.checkId &&
    !mismatch f.targetId (target.or (retest.targetId.or retest.verdictTargetId)) &&
    protectionRetestRunScopeMatches f retest

def retestRow (tenantId : String) (retest : Retest) (target : Option String) (now : ℤ) (f : Finding) :
    Finding :=
  if !retestApplies tenantId retest target f then f
  else match planFixVerifiedFromRetest f retest now with
    | none => f
    | some patch => { f with
        status := .fixVerified
        closedAt := some patch.closedAt
        verifyingRunId := patch.verifyingRunId
        lastVerdictId := patch.lastVerdictId
        verificationBasis := some patch.verificationBasis
        checkVersion := retest.checkVersion
        gradingVersion := retest.gradingVersion
        updatedAt := now }

def applyPassingRetestToFindings (s : Store) (tenantId : String) (retest : Retest)
    (target : Option String) (now : ℤ) : Store :=
  { s with findings := s.findings.map (retestRow tenantId retest target now) }

def ofTenant (tenantId : String) (f : Finding) : Bool :=
  f.tenantId == tenantId && isProtectionValidationFinding f

def hasId (tenantId : String) (id : ℕ) (f : Finding) : Bool := f.id == id && f.tenantId == tenantId

def patchRow (s : Store) (tenantId : String) (id : ℕ) (patch : UpsertPatch) (now : ℤ) : Store :=
  { s with
    findings := Tables.update (hasId tenantId id)
      (fun f => applyProtectionFindingPatch f patch now) s.findings }

def upsertCandidate (tenantId : String) (now : ℤ) (s : Store) (c : Candidate) : Store :=
  if c.tenantId ≠ tenantId then s
  else match planProtectionFindingUpsert (s.findings.filter (ofTenant tenantId)) c with
    | .none _ => s
    | .escalate id patch => patchRow s tenantId id patch now
    | .recordObservation id patch => patchRow s tenantId id patch now
    | .exceptionRetained id patch => patchRow s tenantId id patch now
    | .create recurrenceOf escalatedFrom =>
        push s (toProtectionFindingRow c s.nextId now recurrenceOf escalatedFrom)

/-- The row as it is now, where it is still open. -/
def closeFinding (o : Passing) (now : ℤ) (f : Finding) : Finding :=
  if !f.status.isOpen then f
  else { f with
    status := .fixVerified
    closedAt := some (f.closedAt.getD now)
    verifyingRunId := o.testRunId
    updatedAt := now }

/-- `row` is a row of the snapshot the inner loop goes through. -/
def closeRow (tenantId : String) (now : ℤ) (o : Passing) (s : Store) (row : Finding) : Store :=
  if !protectionFindingClosureSignal row o then s
  else { s with findings := Tables.update (hasId tenantId row.id) (closeFinding o now) s.findings }

def closeObserved (tenantId : String) (now : ℤ) (s : Store) (o : Passing) : Store :=
  (s.findings.filter (ofTenant tenantId)).foldl (closeRow tenantId now o) s

def upsertProtectionFindingsFromEvaluation (P : Platform) (s : Store) (tenantId : String)
    (evaluation : Evaluation) (d : Declarations) (now : ℤ) : Store × Except String Unit :=
  match deriveProtectionFindingCandidates P evaluation d with
  | .error reason => (s,.error reason)
  | .ok derived =>
      let s := (dedupeProtectionFindingCandidates P derived.candidates).foldl
        (upsertCandidate tenantId now) s
      (derived.passing.foldl (closeObserved tenantId now) s,.ok ())

def patchedRow (patch : Patch) (body : PatchBody) (now : ℤ) (f : Finding) : Finding :=
  { f with
    status := patch.status.getD f.status
    riskAcceptance := patch.riskAcceptance.getD f.riskAcceptance
    closedAt := match patch.closedAt with
      | none => f.closedAt
      | some none => none
      | some (some at_) => some (f.closedAt.getD at_)
    verificationBasis := if patch.status = some .opened ∨ patch.status = some .inProgress then none
      else f.verificationBasis
    assignee := body.assignee.getD f.assignee
    notes := body.notes.getD f.notes
    updatedAt := now }

def patchFinding (parse : JsString → Option ℤ) (s : Store) (ctx : Ctx) (id : ℕ) (body : PatchBody)
    (now : ℤ) : Store × Except String Unit :=
  match s.findings.find? (hasId ctx.tenantId id) with
  | none => (s,.error "not_found")
  | some _ => match planFindingPatch parse body ctx now with
      | .error refusal => (s,.error refusal.error)
      | .ok patch =>
          let findings := Tables.update (hasId ctx.tenantId id) (patchedRow patch body now) s.findings
          ({ s with findings := findings },.ok ())

inductive Op where
  | verdict (tenantId : String) (input : VerdictInput) (now : ℤ)
  | evaluation (tenantId : String) (evaluation : Evaluation) (declarations : Declarations) (now : ℤ)
  | retest (tenantId : String) (retest : Retest) (target : Option String) (now : ℤ)
  | patch (ctx : Ctx) (id : ℕ) (body : PatchBody) (now : ℤ)

section
variable (P : Platform) (parse : JsString → Option ℤ)

def apply (s : Store) : Op → Store × Except String Unit
  | .verdict tenantId input now => (upsertFindingFromVerdict s tenantId input now,.ok ())
  | .evaluation tenantId evaluation d now =>
      upsertProtectionFindingsFromEvaluation P s tenantId evaluation d now
  | .retest tenantId retest target now =>
      (applyPassingRetestToFindings s tenantId retest target now,.ok ())
  | .patch ctx id body now => patchFinding parse s ctx id body now

def exec (s : Store) (ops : List Op) : Store := ops.foldl (fun s op => (apply P parse s op).1) s

end

end AstraNull.Findings

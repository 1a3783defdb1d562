import Mathlib
import AstraNull.JsonText

/-!
# Findings, candidates and evaluations

The rows of the findings table and what they are derived from: a comparison evaluation with its
items and evidence references, and the candidates for protection findings. Times are milliseconds
and absent or null members are `none`.
-/
namespace AstraNull.FindingRecords
open JsonText

inductive Status where
  | opened
  | inProgress
  | acceptedRisk
  | resolved
  | closed
  | falsePositive
  | accepted
  | fixVerified
deriving DecidableEq

def Status.text : Status → String
  | .opened => "open"
  | .inProgress => "in_progress"
  | .acceptedRisk => "accepted_risk"
  | .resolved => "resolved"
  | .closed => "closed"
  | .falsePositive => "false_positive"
  | .accepted => "accepted"
  | .fixVerified => "fix_verified"

/-- `FINDING_LIFECYCLE` -/
def lifecycle : List Status :=
  [.opened,.inProgress,.acceptedRisk,.resolved,.closed,.falsePositive,.accepted,.fixVerified]

/-- `CLOSURE_STATUSES` -/
def Status.isClosure (s : Status) : Bool :=
  [Status.acceptedRisk,.resolved,.closed,.falsePositive,.accepted,.fixVerified].contains s

/-- `OPEN_STATUSES` -/
def Status.isOpen (s : Status) : Bool := [Status.opened,.inProgress].contains s

/-- `EXCEPTION_STATUSES` -/
def Status.isException (s : Status) : Bool :=
  [Status.acceptedRisk,.falsePositive,.accepted].contains s

/-- `COMPARISON_KINDS` -/
inductive Kind where
  | pathValidation
  | firewallChange
deriving DecidableEq

inductive PathOutcome where
  | scopedApplicationBypass
  | reachabilityExposure
  | suspectedAlternateApplicationRoute
  | weakerObservedEnforcement
  | consistentEnforcement
  | intentionalPublicAccess
  | inconclusive
  | notTested
  | skipped
  | other
deriving DecidableEq

inductive FirewallStatus where
  | matched
  | improvement
  | regression
  | inconclusive
  | notTested
  | stale
  | notComparable
  | other
deriving DecidableEq

inductive GapKind where
  | forbiddenServiceNewlyReachable
  | requiredServiceNewlyUnavailable
deriving DecidableEq

structure EvidenceRef where
  testRunId : String
  checkId : Option String
  checkVersion : Option String
  gradingVersion : Option String
  verdictId : Option String
  targetId : Option String
  /-- `none` where it is no array. -/
  evidenceIds : Option (List String)
  observedAt : String
  finalized : Bool

/-- An item of either kind; members the other kind has are absent. -/
structure Item where
  entryPathId : Option String
  scenario : Option String
  outcome : PathOutcome
  reasons : List String
  expectationId : Option String
  status : FirewallStatus
  gapKind : Option GapKind
  expectationMet : Option Bool
  complete : Option Bool
  comparisonComplete : Option Bool
  observationOnly : Option Bool
  evidenceRefs : Option (List EvidenceRef)

structure Evaluation where
  id : Option String
  kind : Option Kind
  tenantId : String
  items : Option (List Item)
  evaluationDigest : Option String
  evaluatedAt : ℤ
  comparisonComplete : Option Bool

inductive RelationKind where
  | primaryRoute
  | alternateHostname
  | declaredApiUrl
  | declaredLoginUrl
  | origin
  | fallbackBackendRoute
deriving DecidableEq

structure EntryPath where
  id : String
  tenantId : Option String
  anchorTargetId : String
  entryTargetId : String
  relationKind : RelationKind
  originBindingId : Option String
  /-- `expected_behavior === 'must_not_be_reachable'` -/
  mustNotBeReachable : Bool

structure ServiceEndpoint where
  service : Option String
  port : Option ℕ
  path : Option String
deriving DecidableEq

structure Expectation where
  id : String
  tenantId : Option String
  protocol : String
  serviceEndpoint : Option ServiceEndpoint
  port : Option ℕ
  destinationTargetId : String
  postDestinationTargetId : Option String
  sourcePerspective : String
  /-- `expected === 'deny'` -/
  expectedDeny : Bool

inductive FindingClass where
  | unavailableEvidence
  | suspectedBypass
  | observedEnforcementGap
  | observedAvailabilityGap
  | confirmedExposure
deriving DecidableEq

inductive Priority where
  | p1
  | p2
  | p3
  | p4
deriving DecidableEq

inductive ChangeEffect where
  | regression
  | unchangedFailure
deriving DecidableEq

structure Candidate where
  tenantId : String
  dedupeKey : String
  comparisonKind : Kind
  findingClass : FindingClass
  priority : Priority
  severity : String
  changeEffect : Option ChangeEffect
  targetId : Option String
  checkId : Option String
  checkVersion : Option String
  gradingVersion : Option String
  testRunId : Option String
  verdictId : Option String
  evidenceIds : List String
  originBindingId : Option String
  evaluationId : String
  evaluationDigest : String
  evaluatedAt : ℤ
  itemIndex : ℕ
  strongestObservedClass : Option FindingClass
  sourceEvaluationIds : List String
  observationCount : ℕ

/-- `latest_observation` -/
structure Observation where
  findingClass : FindingClass
  evaluationId : String
  evaluationDigest : String
  itemIndex : ℕ
  evaluatedAt : ℤ
  testRunId : Option String

/-- `protection_validation`: the candidate as it was, and what later observations changed. -/
structure Protection where
  candidate : Candidate
  findingClass : FindingClass
  priority : Priority
  latestObservation : Option Observation
  lastEvaluationId : Option String
  escalatedFromClass : Option FindingClass
  recurrenceOfFindingId : Option ℕ
  escalatedFromFindingId : Option ℕ

structure RiskAcceptance where
  reason : JsString
  reviewAt : ℤ
  acceptedBy : Option String
  acceptedAt : ℤ

inductive Basis where
  | passingRetest
  | violationNotReproduced
deriving DecidableEq

structure Finding where
  id : ℕ
  tenantId : String
  targetGroupId : Option String
  targetId : Option String
  checkId : Option String
  checkVersion : Option String
  gradingVersion : Option String
  testRunId : Option String
  verdictId : Option String
  lastVerdictId : Option String
  severity : String
  status : Status
  assignee : Option JsString
  notes : Option JsString
  protection : Option Protection
  closedAt : Option ℤ
  riskAcceptance : Option RiskAcceptance
  verificationBasis : Option Basis
  verifyingRunId : Option String
  createdAt : ℤ
  updatedAt : ℤ

def isProtectionValidationFinding (f : Finding) : Bool := f.protection.isSome

def findingDedupeKey (f : Finding) : Option String := f.protection.map fun p => p.candidate.dedupeKey

def findingClassOf (f : Finding) : Option FindingClass := f.protection.map Protection.findingClass

/-- The table of findings; identifiers come from one counter. -/
structure Store where
  findings : List Finding
  nextId : ℕ

def Store.empty : Store := ⟨[],0⟩

end AstraNull.FindingRecords

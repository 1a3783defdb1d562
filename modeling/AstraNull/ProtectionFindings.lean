import Mathlib
import AstraNull.FindingRecords
import AstraNull.FindingLifecycle

/-!
# Protection findings from comparison evaluations

`lib/protectionValidationFindings.mjs`: candidates and passing observations of an evaluation, one
candidate for each dedupe key, the plan for a candidate among the stored findings, and the signal
that closes a finding. Titles, summaries and explanations are left out.
-/
namespace AstraNull.ProtectionFindings
open FindingRecords FindingLifecycle

/-- What a dedupe key is the digest of. -/
inductive DedupeBasis where
  | entryPathScope (tenantId anchorTargetId entryTargetId : String) (relationKind : RelationKind)
      (originBindingId scenario : Option String)
  | entryPathId (tenantId : String) (entryPathId scenario : Option String)
  | firewallExpectationScope (tenantId destinationTargetId protocol : String)
      (endpoint : ServiceEndpoint) (sourcePerspective : String) (expectedDeny : Bool)
  | expectationId (tenantId : String) (expectationId : Option String)

/-- Digests, dates and the order of texts. -/
structure Platform where
  digest : DedupeBasis → String
  /-- `none` where the digest cannot be computed. -/
  evaluationDigest : Evaluation → Option String
  parseDate : String → Option ℤ
  localeCompare : String → String → Ordering

def classRank : FindingClass → ℤ
  | .unavailableEvidence => 0
  | .suspectedBypass => 1
  | .observedEnforcementGap => 2
  | .observedAvailabilityGap => 2
  | .confirmedExposure => 3

def protectionFindingClassRank : Option FindingClass → ℤ
  | none => -1
  | some c => classRank c

def protectionPrioritySeverity : Priority → String
  | .p1 => "critical"
  | .p2 => "high"
  | .p3 => "medium"
  | .p4 => "low"

def severityRank (severity : String) : ℕ :=
  if severity = "low" then 1
  else if severity = "medium" then 2
  else if severity = "high" then 3
  else if severity = "critical" then 4
  else 0

structure Classification where
  findingClass : FindingClass
  priority : Priority
  changeEffect : Option ChangeEffect

def classifyPathItem (item : Item) (relation : Option EntryPath) : Option Classification :=
  match item.outcome with
  | .scopedApplicationBypass => some ⟨.confirmedExposure,.p1,none⟩
  | .reachabilityExposure =>
      let declaredUnreachable := match relation with
        | some r => r.mustNotBeReachable
        | none => !item.reasons.contains "enforcement_not_measured"
      if declaredUnreachable then some ⟨.confirmedExposure,.p2,none⟩
      else some ⟨.suspectedBypass,.p2,none⟩
  | .suspectedAlternateApplicationRoute => some ⟨.suspectedBypass,.p2,none⟩
  | .weakerObservedEnforcement => some ⟨.observedEnforcementGap,.p3,none⟩
  | _ => none

def classifyFirewallItem (item : Item) (expectation : Option Expectation) : Option Classification :=
  let unmetUnchanged := item.status == .matched && item.expectationMet == some false
  if item.status = .regression ∧ item.gapKind = some .forbiddenServiceNewlyReachable then
    some ⟨.confirmedExposure,.p2,some .regression⟩
  else if item.status = .regression ∧ item.gapKind = some .requiredServiceNewlyUnavailable then
    some ⟨.observedAvailabilityGap,.p2,some .regression⟩
  else if unmetUnchanged && expectation.any Expectation.expectedDeny then
    some ⟨.confirmedExposure,.p2,some .unchangedFailure⟩
  else if unmetUnchanged then some ⟨.observedAvailabilityGap,.p3,some .unchangedFailure⟩
  else none

def isPassing (kind : Kind) (item : Item) : Bool :=
  match kind with
  | .firewallChange =>
      (item.status == .matched || item.status == .improvement) && item.expectationMet == some true
  | .pathValidation =>
      item.outcome == .consistentEnforcement || item.outcome == .intentionalPublicAccess

def pathUnresolved (outcome : PathOutcome) : Bool :=
  outcome == .inconclusive || outcome == .notTested || outcome == .skipped

def firewallUnresolved (status : FirewallStatus) : Bool :=
  status == .inconclusive || status == .notTested || status == .stale || status == .notComparable

section
variable (P : Platform)

def hasFinalizedEvidence (item : Item) : Bool :=
  match item.evidenceRefs with
  | none => false
  | some refs => !refs.isEmpty && refs.all fun ref => ref.finalized &&
      ref.evidenceIds.any (fun ids => !ids.isEmpty) && (P.parseDate ref.observedAt).isSome

def isUnavailableEvidenceItem (kind : Kind) (item : Item) : Bool :=
  (match kind with
    | .firewallChange => firewallUnresolved item.status
    | .pathValidation => pathUnresolved item.outcome) || !hasFinalizedEvidence P item

def refOrder (a b : EvidenceRef) : Ordering :=
  (P.localeCompare b.observedAt a.observedAt).then (P.localeCompare b.testRunId a.testRunId)

def latestRef (refs : List EvidenceRef) : Option EvidenceRef :=
  (refs.insertionSort fun a b => refOrder P a b ≠ .gt).head?

def refsForTarget (refs : List EvidenceRef) (targetId : Option String) : List EvidenceRef :=
  let scopedRefs := if present targetId then refs.filter fun ref => ref.targetId == targetId else refs
  if scopedRefs.isEmpty then refs else scopedRefs

def uniqueSorted (texts : List String) : List String :=
  texts.eraseDups.insertionSort fun a b => a ≤ b

def pathDedupeBasis (tenantId : String) (relation : Option EntryPath) (item : Item) : DedupeBasis :=
  match relation with
  | some r => .entryPathScope tenantId r.anchorTargetId r.entryTargetId r.relationKind
      r.originBindingId item.scenario
  | none => .entryPathId tenantId item.entryPathId item.scenario

def firewallDedupeBasis (tenantId : String) (expectation : Option Expectation) (item : Item) :
    DedupeBasis :=
  match expectation with
  | some e =>
      let endpoint : ServiceEndpoint := if e.protocol = "service" then
          e.serviceEndpoint.getD ⟨none,none,none⟩
        else ⟨none,e.port,none⟩
      .firewallExpectationScope tenantId e.destinationTargetId e.protocol endpoint
        e.sourcePerspective e.expectedDeny
  | none => .expectationId tenantId item.expectationId

def protectionFindingDedupeKey (kind : Kind) (tenantId : String) (relation : Option EntryPath)
    (expectation : Option Expectation) (item : Item) : String :=
  P.digest (match kind with
    | .firewallChange => firewallDedupeBasis tenantId expectation item
    | .pathValidation => pathDedupeBasis tenantId relation item)

structure Passing where
  dedupeKey : String
  evaluationId : String
  itemIndex : ℕ
  evaluatedAt : ℤ
  closesFindings : Bool
  testRunId : Option String
  checkVersion : Option String
  gradingVersion : Option String

inductive ItemReading where
  | skipped
  | passing (observation : Passing)
  | candidate (candidate : Candidate)

/-- An evaluation whose digest was verified, with its kind and items. -/
structure Verified where
  evaluation : Evaluation
  id : String
  kind : Kind
  items : List Item
  digest : String

def verifyProtectionEvaluation (evaluation : Evaluation) : Except String Verified :=
  match evaluation.id with
  | none => .error "evaluation_not_recorded"
  | some id =>
      if id = "" then .error "evaluation_not_recorded"
      else match evaluation.kind,evaluation.items,evaluation.evaluationDigest with
        | none,_,_ => .error "evaluation_kind_invalid"
        | _,none,_ => .error "evaluation_items_missing"
        | _,_,none => .error "evaluation_digest_missing"
        | some kind,some items,some digest =>
            if P.evaluationDigest evaluation = some digest then .ok ⟨evaluation,id,kind,items,digest⟩
            else .error "evaluation_digest_mismatch"

def buildCandidate (v : Verified) (item : Item) (index : ℕ) (relation : Option EntryPath)
    (expectation : Option Expectation) (classification : Classification) : Candidate :=
  let refs := item.evidenceRefs.getD []
  let newestTarget := (latestRef P refs).bind EvidenceRef.targetId
  let targetId := match v.kind with
    | .firewallChange => match expectation with
        | some e => some (e.postDestinationTargetId.getD e.destinationTargetId)
        | none => newestTarget
    | .pathValidation => match relation with
        | some r => some r.entryTargetId
        | none => newestTarget
  let scopedRefs := refsForTarget refs targetId
  let newest := latestRef P scopedRefs
  let checkIds := uniqueSorted (scopedRefs.filterMap EvidenceRef.checkId)
  { tenantId := v.evaluation.tenantId
    dedupeKey := protectionFindingDedupeKey P v.kind v.evaluation.tenantId relation expectation item
    comparisonKind := v.kind
    findingClass := classification.findingClass
    priority := classification.priority
    severity := protectionPrioritySeverity classification.priority
    changeEffect := classification.changeEffect
    targetId := targetId
    checkId := (newest.bind EvidenceRef.checkId).or checkIds.head?
    checkVersion := newest.bind EvidenceRef.checkVersion
    gradingVersion := newest.bind EvidenceRef.gradingVersion
    testRunId := newest.map EvidenceRef.testRunId
    verdictId := newest.bind EvidenceRef.verdictId
    evidenceIds := uniqueSorted (scopedRefs.flatMap fun ref => ref.evidenceIds.getD [])
    originBindingId := match v.kind with
      | .firewallChange => none
      | .pathValidation => relation.bind EntryPath.originBindingId
    evaluationId := v.id
    evaluationDigest := v.digest
    evaluatedAt := v.evaluation.evaluatedAt
    itemIndex := index
    strongestObservedClass := none
    sourceEvaluationIds := []
    observationCount := 1 }

/-- The records an evaluation is read with. -/
structure Declarations where
  entryPaths : List EntryPath
  expectations : List Expectation

/-- A map built from rows: of two rows with one id the later one is found. -/
def entryPathFor (d : Declarations) (tenantId : String) (id : Option String) : Option EntryPath :=
  d.entryPaths.reverse.find? fun row =>
    row.tenantId.all (fun t => t == tenantId) && some row.id == id

def expectationFor (d : Declarations) (tenantId : String) (id : Option String) : Option Expectation :=
  d.expectations.reverse.find? fun row =>
    row.tenantId.all (fun t => t == tenantId) && some row.id == id

def isIncomplete (v : Verified) (item : Item) : Bool :=
  item.complete == some false || item.comparisonComplete == some false ||
    item.observationOnly == some true || v.evaluation.comparisonComplete == some false

/-- The body of the loop over the items. -/
def readItem (d : Declarations) (v : Verified) (item : Item) (index : ℕ) : ItemReading :=
  let tenantId := v.evaluation.tenantId
  let relation := match v.kind with
    | .pathValidation => entryPathFor d tenantId item.entryPathId
    | .firewallChange => none
  let expectation := match v.kind with
    | .firewallChange => expectationFor d tenantId item.expectationId
    | .pathValidation => none
  if isUnavailableEvidenceItem P v.kind item then .skipped
  else if isPassing v.kind item then
    let newest := latestRef P (item.evidenceRefs.getD [])
    .passing ⟨protectionFindingDedupeKey P v.kind tenantId relation expectation item,v.id,index,
      v.evaluation.evaluatedAt,!isIncomplete v item,newest.map EvidenceRef.testRunId,
      newest.bind EvidenceRef.checkVersion,newest.bind EvidenceRef.gradingVersion⟩
  else match (match v.kind with
      | .firewallChange => classifyFirewallItem item expectation
      | .pathValidation => classifyPathItem item relation) with
    | none => .skipped
    | some classification => .candidate (buildCandidate P v item index relation expectation classification)

def candidateOf : ItemReading → Option Candidate
  | .candidate c => some c
  | _ => none

def passingOf : ItemReading → Option Passing
  | .passing o => some o
  | _ => none

structure Derived where
  candidates : List Candidate
  passing : List Passing

def readings (d : Declarations) (v : Verified) : List ItemReading :=
  v.items.zipIdx.map fun p => readItem P d v p.1 p.2

def deriveProtectionFindingCandidates (evaluation : Evaluation) (d : Declarations) :
    Except String Derived :=
  match verifyProtectionEvaluation P evaluation with
  | .error reason => .error reason
  | .ok v => .ok ⟨(readings P d v).filterMap candidateOf,(readings P d v).filterMap passingOf⟩

def candidateOrder (a b : Candidate) : Ordering :=
  (compare b.evaluatedAt a.evaluatedAt).then <|
  (compare (classRank b.findingClass) (classRank a.findingClass)).then <|
  (P.localeCompare b.evaluationId a.evaluationId).then (compare a.itemIndex b.itemIndex)

def mergeGroup (group : List Candidate) : Option Candidate :=
  match (group.insertionSort fun a b => candidateOrder P a b ≠ .gt).head?,
      (group.insertionSort fun a b => classRank b.findingClass ≤ classRank a.findingClass).head? with
  | some newest,some strongest => some { newest with
      strongestObservedClass := some strongest.findingClass
      sourceEvaluationIds := uniqueSorted (group.map Candidate.evaluationId)
      observationCount := group.length }
  | _,_ => none

def groupKey (c : Candidate) : String × String := (c.tenantId,c.dedupeKey)

def dedupeProtectionFindingCandidates (candidates : List Candidate) : List Candidate :=
  let groups := (candidates.map groupKey).eraseDups.map fun key =>
    candidates.filter fun c => groupKey c == key
  (groups.filterMap (mergeGroup P)).insertionSort fun a b =>
    P.localeCompare a.dedupeKey b.dedupeKey ≠ .gt

end

def latestObservation (c : Candidate) : Observation :=
  ⟨c.findingClass,c.evaluationId,c.evaluationDigest,c.itemIndex,c.evaluatedAt,c.testRunId⟩

structure Escalation where
  findingClass : FindingClass
  priority : Priority
  escalatedFromClass : Option FindingClass

structure UpsertPatch where
  latestObservation : Observation
  lastEvaluationId : Option String
  severity : Option String
  escalation : Option Escalation

inductive Plan where
  | none (reason : String)
  | escalate (findingId : ℕ) (patch : UpsertPatch)
  | recordObservation (findingId : ℕ) (patch : UpsertPatch)
  | exceptionRetained (findingId : ℕ) (patch : UpsertPatch)
  | create (recurrenceOfFindingId escalatedFromFindingId : Option ℕ)

/-- Findings of the key, the newest first. -/
def matching (existing : List Finding) (c : Candidate) : List Finding :=
  (existing.filter fun row => row.tenantId == c.tenantId &&
    findingDedupeKey row == some c.dedupeKey).insertionSort fun a b => b.createdAt ≤ a.createdAt

def planProtectionFindingUpsert (existing : List Finding) (c : Candidate) : Plan :=
  if c.findingClass = .unavailableEvidence then .none "unavailable_evidence_ignored"
  else match (matching existing c).find? fun row => row.status.isOpen with
    | some row =>
        let currentClass := findingClassOf row
        let severity := if severityRank row.severity < severityRank c.severity then c.severity
          else row.severity
        let observed : UpsertPatch := ⟨latestObservation c,some c.evaluationId,some severity,none⟩
        if protectionFindingClassRank currentClass < classRank c.findingClass then
          .escalate row.id { observed with
            escalation := some ⟨c.findingClass,c.priority,currentClass⟩ }
        else .recordObservation row.id observed
    | none => match (matching existing c).find? fun row => row.status.isException with
        | some row =>
            if classRank c.findingClass ≤ protectionFindingClassRank (findingClassOf row) then
              .exceptionRetained row.id ⟨latestObservation c,none,none,none⟩
            else .create none (some row.id)
        | none => .create ((matching existing c).head?.map Finding.id) none

/-- The status and the closure are not touched. -/
def applyProtectionFindingPatch (row : Finding) (patch : UpsertPatch) (now : ℤ) : Finding :=
  { row with
    severity := patch.severity.getD row.severity
    updatedAt := now
    protection := row.protection.map fun p => { p with
      latestObservation := some patch.latestObservation
      lastEvaluationId := patch.lastEvaluationId.or p.lastEvaluationId
      findingClass := (patch.escalation.map Escalation.findingClass).getD p.findingClass
      priority := (patch.escalation.map Escalation.priority).getD p.priority
      escalatedFromClass := match patch.escalation with
        | some e => e.escalatedFromClass
        | none => p.escalatedFromClass } }

def toProtectionFindingRow (c : Candidate) (id : ℕ) (now : ℤ)
    (recurrenceOfFindingId escalatedFromFindingId : Option ℕ) : Finding where
  id := id
  tenantId := c.tenantId
  targetGroupId := none
  targetId := c.targetId
  checkId := c.checkId
  checkVersion := c.checkVersion
  gradingVersion := c.gradingVersion
  testRunId := c.testRunId
  verdictId := c.verdictId
  lastVerdictId := none
  severity := c.severity
  status := .opened
  assignee := none
  notes := none
  protection := some ⟨c,c.findingClass,c.priority,none,none,none,recurrenceOfFindingId,
    escalatedFromFindingId⟩
  closedAt := none
  riskAcceptance := none
  verificationBasis := none
  verifyingRunId := none
  createdAt := now
  updatedAt := now

def versionsAlign (f : Finding) (o : Passing) : Bool :=
  let checkVersion := f.checkVersion.or (f.protection.bind fun p => p.candidate.checkVersion)
  let gradingVersion := f.gradingVersion.or (f.protection.bind fun p => p.candidate.gradingVersion)
  !mismatch checkVersion o.checkVersion && !mismatch gradingVersion o.gradingVersion

/-- The signal compares no times. -/
def protectionFindingClosureSignal (f : Finding) (o : Passing) : Bool :=
  o.closesFindings && findingDedupeKey f == some o.dedupeKey && f.status.isOpen && versionsAlign f o

/-- A retest keeps the declared origin relation. -/
def protectionRetestRunScopeMatches (f : Finding) (retest : Retest) : Bool :=
  match f.protection with
  | none => true
  | some p => p.candidate.comparisonKind != .pathValidation ||
      p.candidate.originBindingId == retest.originBindingId

end AstraNull.ProtectionFindings

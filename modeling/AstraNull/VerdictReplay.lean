import Mathlib
import AstraNull.Correlation
import AstraNull.ScriptObject

/-!
# Replayed verdicts

A run is finalised from its accepted probe event, and a replay derives the verdict again from
the stored run and the event. The two take the external result from different places, the event
first or the run first, and agree because whoever stores an accepted event writes its result to
the run in the same step. The store is followed through every operation that writes runs, probe
events or verdicts.

The regrading of retained response features is an arbitrary function: it is not reached without
features. Hooks of a finished run are later steps.
-/
namespace AstraNull.VerdictReplay
open JsonText ScriptText ScriptValue ScriptObject Correlation

inductive RunStatus where
  | running
  | collecting
  | verdicted
  | cancelled
deriving DecidableEq

inductive Signal where
  | probeResult
  | probeActivity
  | other
deriving DecidableEq

inductive ProducerKind where
  | legacyUntrusted
  | publicApi
  | signedProbe
  | internalSimulation
  | internalControlPlane
deriving DecidableEq

structure Run where
  id : ℕ
  tenantId : ℕ
  checkId : JsString
  producerKind : JsVal
  expectedBehaviorJson : JsVal
  /-- `correlation.nonce_hash` -/
  nonceHash : Option JsString
  probeExternalResult : JsVal
  probeMetadata : JsVal
  status : RunStatus

structure Event where
  id : ℕ
  tenantId : ℕ
  testRunId : Option ℕ
  signal : Signal
  producerKind : Option ProducerKind
  nonceHash : Option JsString
  metadata : JsVal
  metadataJson : JsVal
  responseFeatures : JsVal

inductive JobStatus where
  | pending
  | leased
  | completed
  | cancelled
deriving DecidableEq

structure ProbeJob where
  id : ℕ
  tenantId : ℕ
  testRunId : ℕ
  nonceHash : JsString
  status : JobStatus
  leasedBy : Option ℕ
  /-- The constraints name a reviewed operation. -/
  reviewedOperation : Bool
  /-- `probe_profile.declarations` -/
  declarations : JsVal

def confidenceText : String := "external_only"

structure VerdictRow where
  tenantId : ℕ
  testRunId : ℕ
  checkId : JsString
  verdict : Verdict
  confidence : String
  explanation : JsVal
  explanationReason : Option JsString
  evidenceIds : List ℕ
  severity : Option Severity
  gradingVersion : JsVal
  signatureCorpusVersion : JsVal
  sourcePerspective : JsVal
  exposureBasis : Option JsString
  portResults : Option (List PortResult)

structure Store where
  runs : List Run
  events : List Event
  jobs : List ProbeJob
  verdicts : List VerdictRow

/-- What the two derivations read besides the store. -/
structure Engine where
  /-- `getCheckById`, undefined for an unknown check. -/
  check : JsString → JsVal
  surroundings : Surroundings
  scrubText : JsVal → JsVal

def verdictExpectedBehaviorForRun (F : Engine) (run : Run) : JsVal :=
  let stamped := match run.producerKind with
    | .str s => trim s ≠ []
    | _ => false
  if !stamped then
    orElse (field (F.check run.checkId) "default_expected_behavior") (say "must_block_before_origin")
  else match run.expectedBehaviorJson with
    | .obj kvs =>
        let snapshot := .obj kvs
        match field snapshot "value" with
        | .str value =>
            if (nullish (field snapshot "check_id") ||
                strictEq (field snapshot "check_id") (.str run.checkId)) && trim value ≠ [] then
              .str (trim value)
            else .null
        | _ => .null
    | _ => .null

def isTrustedProducerEvent (e : Event) : Bool :=
  match e.signal with
  | .probeResult => match e.producerKind with
    | none => true
    | some kind => kind = .signedProbe || kind = .internalSimulation
  | .probeActivity => match e.producerKind with
    | none => true
    | some kind => kind = .signedProbe
  | .other => true

def Event.recorded (e : Event) : JsVal := orElse e.metadata e.metadataJson

def probeEventHasProbeIo (probeEvent : Option Event) : Bool :=
  let metadata := (probeEvent.map Event.recorded).getD .undefined
  let sent := field (field metadata "safety_attestation") "probe_requests_sent"
  isSafeInteger sent && positive sent

/-- A trusted result of the run under its nonce. -/
def acceptedBy (run : Run) (e : Event) : Bool :=
  e.testRunId = some run.id && e.tenantId = run.tenantId && e.signal = .probeResult &&
    isTrustedProducerEvent e && run.nonceHash.any fun n => n ≠ [] && e.nonceHash = some n

def acceptedEvent (s : Store) (run : Run) : Option Event := s.events.find? (acceptedBy run)

def hasExternalProbeEvidence (s : Store) (run : Run) : Bool :=
  !nullish run.probeExternalResult && !is run.probeExternalResult "" ||
    (acceptedEvent s run).isSome

def probeResultCompletesEvidence (check : JsVal) : Bool :=
  match field check "evidence_required" with
  | .arr [required] => is required "probe_result"
  | _ => false

def withoutDeclared (metadata : JsVal) : JsVal :=
  remove (remove (remove metadata "declarations") "expected_behavior") "declared_limit"

def probeKindOf (F : Engine) (run : Run) : JsVal :=
  orElse (field (field (F.check run.checkId) "probe_profile") "kind") .null

/-- What a call of the finaliser is given or reads from elsewhere. -/
structure Closing where
  finalizedWithoutObservation : Bool
  windowExpired : Bool
  /-- `controlDeclarationsFromTarget(target)` -/
  targetDeclarations : JsVal
  originBinding : JsVal

inductive Finalized where
  | existing
  | waiting
  | stored (verdict : VerdictRow)

def declarationsFor (s : Store) (run : Run) (c : Closing) : JsVal :=
  let signedJob := s.jobs.find? fun j => j.testRunId = run.id
  orElse c.targetDeclarations (orElse ((signedJob.map ProbeJob.declarations).getD .undefined) .null)

def finalizeInput (F : Engine) (run : Run) (probeEvent : Option Event)
    (declarations originBinding : JsVal) : Input :=
  let probeMetadata := orElse ((probeEvent.map Event.recorded).getD .undefined) (.obj [])
  { externalResult := orElse (field probeMetadata "external_result") (say "not_run")
    expectedBehavior := verdictExpectedBehaviorForRun F run
    probeKind := probeKindOf F run
    probeIoObserved := probeEventHasProbeIo probeEvent
    probeMetadata := withoutDeclared (spread probeMetadata)
    declarations := declarations
    originBinding := originBinding
    checkId := .str run.checkId }

def verdictRow (run : Run) (probeEvent : Option Event) (result : Outcome) : VerdictRow :=
  let probeMetadata := orElse ((probeEvent.map Event.recorded).getD .undefined) (.obj [])
  { tenantId := run.tenantId
    testRunId := run.id
    checkId := run.checkId
    verdict := result.verdict
    confidence := confidenceText
    explanation := result.explanation
    explanationReason := result.explanationReason
    evidenceIds := (probeEvent.map Event.id).toList
    severity := result.severity
    gradingVersion := orElse (field probeMetadata "grading_version") .null
    signatureCorpusVersion := orElse (field probeMetadata "signature_corpus_version") .null
    sourcePerspective := orElse (field probeMetadata "source_perspective") .null
    exposureBasis := result.metadata.bind ResultMetadata.exposureBasis
    portResults := result.metadata.bind ResultMetadata.portResults }

/-- Write the runs with an id. -/
def Store.updateRun (s : Store) (id : ℕ) (f : Run → Run) : Store :=
  { s with runs := s.runs.map fun r => if r.id = id then f r else r }

def Run.verdictedRun (r : Run) : Run := { r with status := .verdicted }

/-- No result is an exception of the engine; the store is then as before. -/
def finalizeVerdictIfReady (F : Engine) (s : Store) (run : Run) (c : Closing) :
    Option (Store × Finalized) :=
  if s.verdicts.any fun v => v.testRunId = run.id then some (s,.existing)
  else if !hasExternalProbeEvidence s run then some (s,.waiting)
  else
    let probeEvent := acceptedEvent s run
    if !c.finalizedWithoutObservation && !c.windowExpired &&
        !(probeEvent.isSome && probeResultCompletesEvidence (F.check run.checkId)) then
      some (s,.waiting)
    else do
      let result ← correlateExternalOnlyVerdict F.surroundings
        (finalizeInput F run probeEvent (declarationsFor s run c) c.originBinding)
      let verdict := verdictRow run probeEvent result
      some ({ s with verdicts := s.verdicts++[verdict] }.updateRun run.id Run.verdictedRun,
        .stored verdict)

def wafGradingVersion : String := "waf-grading.v3"

def signatureCorpusVersion : String := "waf-signatures.2026-10-13.2"

/-- What a regrading of retained features returns. -/
inductive Regrading where
  | unavailable (reason : String)
  | regraded (placements : JsVal) (updates : List (String × Bool × JsVal))

structure Replay where
  testRunId : ℕ
  checkId : JsString
  verdict : Verdict
  confidence : String
  explanation : JsVal
  severity : Option Severity
  createsFinding : Bool
  declarationsApplied : Bool
  evidenceAvailable : Bool
  regraded : Bool
  regradeUnavailableReason : Option String
  retestRequired : Bool
  changed : Option Bool
  gradingVersionGap : Option String
  placements : JsVal

def asObject : JsVal → JsVal
  | .obj kvs => .obj kvs
  | _ => .obj []

def gradingVersionGap (stored : Option VerdictRow) (metadata : JsVal) : Option String :=
  let grading := orElse ((stored.map VerdictRow.gradingVersion).getD .undefined)
    (field metadata "grading_version")
  let corpus := orElse ((stored.map VerdictRow.signatureCorpusVersion).getD .undefined)
    (field metadata "signature_corpus_version")
  if nullish grading && nullish corpus then none
  else if !truthy grading then some "missing_grading_version"
  else if !is grading wafGradingVersion then some "grading_version_mismatch"
  else if !truthy corpus then some "missing_signature_corpus_version"
  else if !is corpus signatureCorpusVersion then some "signature_corpus_version_mismatch"
  else none

def retainedFeatures (run : Run) (probeEvent : Option Event) (metadata : JsVal) : JsVal :=
  orElse (field metadata "response_features")
    (orElse ((probeEvent.map Event.responseFeatures).getD .undefined)
      (field run.probeMetadata "response_features"))

def replayInput (F : Engine) (run : Run) (probeEvent : Option Event) (metadata probeMetadata : JsVal)
    (declarations originBinding : JsVal) : Input :=
  { externalResult := orElse run.probeExternalResult
      (orElse (field metadata "external_result") .null)
    expectedBehavior := verdictExpectedBehaviorForRun F run
    probeKind := probeKindOf F run
    probeIoObserved := probeEventHasProbeIo probeEvent
    probeMetadata := probeMetadata
    declarations := orElse declarations .null
    originBinding := originBinding
    checkId := .str run.checkId }

/-- A feature that was stored before signature bases were. -/
def oldFeature (f : JsVal) : Bool := truthy f && (field f "signature_basis").isUndefined

def buildVerdictReplay (F : Engine) (regrade : JsVal → JsVal → JsVal → JsVal → Regrading) (run : Run)
    (storedVerdict : Option VerdictRow) (probeEvent : Option Event)
    (declarations originBinding : JsVal) : Option Replay := do
  let metadata := asObject ((probeEvent.map Event.recorded).getD .undefined)
  let features := retainedFeatures run probeEvent metadata
  let recordedMetadata := withoutDeclared (spread metadata)
  let regrading := if truthy features then regrade features metadata declarations (F.check run.checkId)
    else .unavailable "missing_response_features"
  let correlate := fun probeMetadata => correlateExternalOnlyVerdict F.surroundings
    (replayInput F run probeEvent metadata probeMetadata declarations originBinding)
  let first ← correlate (match regrading with
    | .regraded _ updates => applySteps updates recordedMetadata
    | .unavailable _ => recordedMetadata)
  let disowned := match regrading,storedVerdict with
    | .regraded _ _,some stored => stored.verdict ≠ first.verdict &&
        (elements features).any oldFeature
    | _,_ => false
  let derived ← if disowned then correlate recordedMetadata else some first
  let regrading := if disowned then .unavailable "insufficient_features" else regrading
  let reason := match regrading with
    | .unavailable reason => some reason
    | .regraded _ _ => none
  let gap := gradingVersionGap storedVerdict metadata
  some
    { testRunId := run.id
      checkId := run.checkId
      verdict := derived.verdict
      confidence := confidenceText
      explanation := if nullish derived.explanation then .null else F.scrubText derived.explanation
      severity := derived.severity
      createsFinding := derived.createsFinding
      declarationsApplied := truthy declarations
      evidenceAvailable := probeEvent.isSome
      regraded := reason.isNone
      regradeUnavailableReason := reason
      retestRequired := reason = some "insufficient_features" && gap.isSome
      changed := storedVerdict.map fun stored => stored.verdict ≠ derived.verdict
      gradingVersionGap := gap
      placements := match regrading with
        | .regraded placements _ => placements
        | .unavailable _ => orElse (field recordedMetadata "placements") .null }

/-- A validated result body, with what the coordinator adds to its metadata. -/
structure WorkerResult where
  externalResult : JsString
  workerMetadata : JsVal
  safetyAttestation : JsVal
  probeJobId : JsVal
  profileKind : JsVal
  probeWorkerId : JsVal
  sourcePerspective : JsVal
  claimedPerspectiveId : JsVal
  perspectiveAuthenticated : Bool
  executionReceipt : JsVal
  /-- The catalog version and entry count, for the fingerprint check. -/
  catalog : Option (JsVal × JsVal)

/-- The metadata of a result event, `external_result` before the other names. -/
def WorkerResult.metadata (w : WorkerResult) : JsVal :=
  applySteps
    [("probe_job_id",true,w.probeJobId),("profile_kind",true,w.profileKind),
      ("probe_worker_id",true,w.probeWorkerId),("source_perspective",true,w.sourcePerspective),
      ("claimed_perspective_id",true,w.claimedPerspectiveId),
      ("perspective_authenticated",true,.bool w.perspectiveAuthenticated),
      ("execution_receipt",true,w.executionReceipt),("safety_attestation",true,w.safetyAttestation),
      ("waf_fingerprint_catalog_version",w.catalog.isSome,(w.catalog.map Prod.fst).getD .null),
      ("waf_fingerprint_catalog_entry_count",w.catalog.isSome,(w.catalog.map Prod.snd).getD .null)]
    (put w.workerMetadata "external_result" (.str w.externalResult))

structure WorkerContext where
  workerId : ℕ
  tenantId : Option ℕ
  /-- `jobClaimableByPerspective` -/
  claimable : Bool
  eventId : ℕ

def resultEvent (job : ProbeJob) (run : Run) (eventId : ℕ) (w : WorkerResult) : Event :=
  ⟨eventId,run.tenantId,some run.id,.probeResult,some .signedProbe,some job.nonceHash,w.metadata,
    .undefined,.undefined⟩

def Run.withResult (job : ProbeJob) (w : WorkerResult) (r : Run) : Run :=
  { r with
    nonceHash := some job.nonceHash
    probeExternalResult := .str w.externalResult
    status := if r.status = .running then .collecting else r.status }

/-- A trusted result of the run under the nonce of a job. -/
def resultOf (run : Run) (job : ProbeJob) (e : Event) : Bool :=
  e.testRunId = some run.id && e.signal = .probeResult && isTrustedProducerEvent e &&
    e.nonceHash = some job.nonceHash

def ProbeJob.complete (workerId : ℕ) (j : ProbeJob) : ProbeJob :=
  { j with status := .completed, leasedBy := j.leasedBy.or (some workerId) }

def Store.addResult (s : Store) (job : ProbeJob) (run : Run) (ctx : WorkerContext)
    (w : WorkerResult) : Store :=
  Store.updateRun
    { s with
      events := s.events++[resultEvent job run ctx.eventId w]
      jobs := s.jobs.map fun j => if j.id = job.id then j.complete ctx.workerId else j }
    run.id (Run.withResult job w)

/-- The result body is an error of its validation or its receipt, or a result. -/
def ingestProbeResult (s : Store) (ctx : WorkerContext) (jobId : ℕ)
    (body : Except String WorkerResult) : Except String Store :=
  match s.jobs.find? fun j => j.id = jobId with
  | none => .error "job_not_found"
  | some job =>
      if ctx.tenantId.any (· ≠ job.tenantId) then .error "job_not_found"
      else if job.reviewedOperation then .error "reviewed_operation_execution_unavailable"
      else match s.runs.find? fun r => r.id = job.testRunId ∧ r.tenantId = job.tenantId with
      | none => .error "run_not_found"
      | some run =>
          if run.status ≠ .running ∧ run.status ≠ .collecting then .error "run_not_collecting"
          else if job.status = .completed then
            if s.events.any (resultOf run job) then .error "probe_already_ingested"
            else .error "job_not_open"
          else if !ctx.claimable then .error "probe_perspective_mismatch"
          else if job.status = .leased ∧ job.leasedBy ≠ some ctx.workerId then
            .error "job_leased_to_another_worker"
          else if job.status ≠ .pending ∧ job.status ≠ .leased then .error "job_not_open"
          else match body with
          | .error e => .error e
          | .ok w =>
              if s.events.any (resultOf run job) then .error "probe_already_ingested"
              else .ok (s.addResult job run ctx w)

/-- What a new run takes from its request and check. -/
structure Intent where
  id : ℕ
  tenantId : ℕ
  checkId : JsString
  producerKind : JsVal
  expectedBehaviorJson : JsVal

def Intent.run (i : Intent) (status : RunStatus) (nonceHash : Option JsString)
    (probeExternalResult : JsVal) : Run :=
  ⟨i.id,i.tenantId,i.checkId,i.producerKind,i.expectedBehaviorJson,nonceHash,probeExternalResult,
    .undefined,status⟩

/-- A probe that ran inside the control plane. -/
structure InlineProbe where
  eventId : ℕ
  nonceHash : JsString
  metadata : JsVal
  externalResult : JsString

def InlineProbe.event (i : Intent) (p : InlineProbe) : Event :=
  ⟨p.eventId,i.tenantId,some i.id,.probeResult,some .internalSimulation,some p.nonceHash,
    put p.metadata "external_result" (.str p.externalResult),.undefined,.undefined⟩

/-- One operation on runs, probe events, probe jobs and verdicts. New runs have fresh ids. -/
inductive Step (F : Engine) : Store → Store → Prop
  /-- A run with a signed job for a worker. -/
  | startSigned {s : Store} (i : Intent) (job : ProbeJob) : (∀ r ∈ s.runs,r.id ≠ i.id) →
      job.testRunId = i.id → job.tenantId = i.tenantId →
      Step F s { s with
        runs := s.runs++[i.run .running (some job.nonceHash) .undefined]
        jobs := s.jobs++[job] }
  /-- A simulated run. -/
  | startSimulated {s : Store} (i : Intent) (p : InlineProbe) : (∀ r ∈ s.runs,r.id ≠ i.id) →
      Step F s { s with
        runs := s.runs++[i.run .collecting (some p.nonceHash) (.str p.externalResult)]
        events := s.events++[p.event i] }
  /-- An inline readiness run, with a verdict of its own. -/
  | startOpsReadiness {s : Store} (i : Intent) (p : InlineProbe) (v : VerdictRow) :
      (∀ r ∈ s.runs,r.id ≠ i.id) → v.testRunId = i.id →
      Step F s { s with
        runs := s.runs++[i.run .verdicted (some p.nonceHash) (.str p.externalResult)]
        events := s.events++[p.event i]
        verdicts := s.verdicts++[v] }
  /-- A run that lacks an input is verdicted without a probe. -/
  | startMissingInput {s : Store} (i : Intent) (v : VerdictRow) : (∀ r ∈ s.runs,r.id ≠ i.id) →
      v.testRunId = i.id →
      Step F s { s with
        runs := s.runs++[i.run .verdicted none (say "unsupported_target")]
        verdicts := s.verdicts++[v] }
  | ingest {s t : Store} (ctx : WorkerContext) (jobId : ℕ) (body : Except String WorkerResult) :
      ingestProbeResult s ctx jobId body = .ok t → Step F s t
  /-- A public event or a probe activity; results are reserved for the coordinator. -/
  | record {s : Store} (e : Event) : e.signal ≠ .probeResult →
      Step F s { s with events := s.events++[e] }
  | collect {s : Store} {run : Run} : run ∈ s.runs → run.status = .running →
      Step F s (s.updateRun run.id fun r => { r with status := .collecting })
  | finalize {s t : Store} {run : Run} {r : Finalized} (c : Closing) : run ∈ s.runs →
      finalizeVerdictIfReady F s run c = some (t,r) → Step F s t
  | cancel {s : Store} {run : Run} : run ∈ s.runs →
      run.status = .running ∨ run.status = .collecting →
      Step F s (s.updateRun run.id fun r => { r with status := .cancelled })
  /-- Leases and revocations of jobs. -/
  | jobs {s : Store} (f : ProbeJob → JobStatus × Option ℕ) :
      Step F s { s with jobs := s.jobs.map fun j =>
        { j with status := (f j).1, leasedBy := (f j).2 } }
  /-- Retention. -/
  | purge {s : Store} (keep : Event → Bool) : Step F s { s with events := s.events.filter keep }

abbrev Steps (F : Engine) : Store → Store → Prop := Relation.ReflTransGen (Step F)

def Store.empty : Store := ⟨[],[],[],[]⟩

/-- The event has a text as its result and the run has the same. -/
def Recorded (r : Run) (e : Event) : Prop :=
  (∃ kvs,e.metadata = .obj kvs) ∧
    ∃ t,r.probeExternalResult = .str t ∧ field e.metadata "external_result" = .str t

structure Consistent (s : Store) : Prop where
  unique : ∀ r ∈ s.runs,∀ r' ∈ s.runs,r.id = r'.id → r = r'
  owned : ∀ e ∈ s.events,e.signal = .probeResult → ∃ r ∈ s.runs,e.testRunId = some r.id
  plain : ∀ r ∈ s.runs,r.probeMetadata = .undefined
  result : ∀ r ∈ s.runs,∀ e ∈ s.events,acceptedBy r e = true → Recorded r e

theorem acceptedBy_iff {r : Run} {e : Event} : acceptedBy r e = true ↔
    e.testRunId = some r.id ∧ e.tenantId = r.tenantId ∧ e.signal = .probeResult ∧
      isTrustedProducerEvent e = true ∧ ∃ n,r.nonceHash = some n ∧ n ≠ [] ∧ e.nonceHash = some n := by
  unfold acceptedBy
  cases hn : r.nonceHash with
  | none => simp
  | some n => simp [and_assoc]

theorem mem_updateRun {s : Store} {id : ℕ} {f : Run → Run} {r : Run}
    (h : r ∈ (s.updateRun id f).runs) : ∃ q ∈ s.runs,(q.id = id ∧ r = f q) ∨ (q.id ≠ id ∧ r = q) := by
  obtain ⟨q,hq,rfl⟩ := List.mem_map.mp h
  refine ⟨q,hq,?_⟩
  by_cases hid : q.id = id
  · exact .inl ⟨hid,if_pos hid⟩
  · exact .inr ⟨hid,if_neg hid⟩

theorem unique_updateRun {s : Store} {id : ℕ} {f : Run → Run} (hf : ∀ r,(f r).id = r.id)
    (hs : ∀ r ∈ s.runs,∀ r' ∈ s.runs,r.id = r'.id → r = r') :
    ∀ r ∈ (s.updateRun id f).runs,∀ r' ∈ (s.updateRun id f).runs,r.id = r'.id → r = r' := by
  intro r hr r' hr' hid
  obtain ⟨q,hq,hcase⟩ := mem_updateRun hr
  obtain ⟨q',hq',hcase'⟩ := mem_updateRun hr'
  have hkeep : ∀ {a b : Run},(a.id = id ∧ b = f a) ∨ (a.id ≠ id ∧ b = a) → b.id = a.id := by
    rintro a b (⟨_,rfl⟩ | ⟨_,rfl⟩)
    · exact hf a
    · rfl
  have hqq := hs q hq q' hq' (by rw [← hkeep hcase,← hkeep hcase',hid])
  subst hqq
  rcases hcase with ⟨ha,rfl⟩ | ⟨ha,rfl⟩ <;> rcases hcase' with ⟨hb,rfl⟩ | ⟨hb,rfl⟩
  · rfl
  · exact absurd ha hb
  · exact absurd hb ha
  · rfl

theorem owned_updateRun {s : Store} {id : ℕ} {f : Run → Run} (hf : ∀ r,(f r).id = r.id) {e : Event}
    (h : ∃ r ∈ s.runs,e.testRunId = some r.id) :
    ∃ r ∈ (s.updateRun id f).runs,e.testRunId = some r.id := by
  obtain ⟨r,hr,he⟩ := h
  refine ⟨_,List.mem_map_of_mem hr,?_⟩
  split_ifs
  · rw [hf,he]
  · exact he

/-- A step that only writes the status of runs. -/
theorem Consistent.status {s : Store} (h : Consistent s) (id : ℕ) (status : Run → RunStatus) :
    Consistent (s.updateRun id fun r => { r with status := status r }) := by
  refine ⟨unique_updateRun (fun _ => rfl) h.unique,fun e he hsig => ?_,fun r hr => ?_,
    fun r hr e he hacc => ?_⟩
  · have hf : ∀ r : Run,({ r with status := status r } : Run).id = r.id := fun _ => rfl
    exact owned_updateRun hf (h.owned e he hsig)
  · obtain ⟨q,hq,⟨_,rfl⟩ | ⟨_,rfl⟩⟩ := mem_updateRun hr
    · exact h.plain q hq
    · exact h.plain _ hq
  · obtain ⟨q,hq,⟨_,rfl⟩ | ⟨_,rfl⟩⟩ := mem_updateRun hr
    · exact h.result q hq e he hacc
    · exact h.result _ hq e he hacc

theorem Consistent.of_rows {s t : Store} (h : Consistent s) (hruns : t.runs = s.runs)
    (hevents : ∀ e ∈ t.events,e ∈ s.events ∨ e.signal ≠ .probeResult) : Consistent t := by
  refine ⟨hruns ▸ h.unique,fun e he hsig => ?_,hruns ▸ h.plain,fun r hr e he hacc => ?_⟩
  · rw [hruns]
    rcases hevents e he with hold | hne
    · exact h.owned e hold hsig
    · exact absurd hsig hne
  · rcases hevents e he with hold | hne
    · exact h.result r (hruns ▸ hr) e hold hacc
    · exact absurd (acceptedBy_iff.mp hacc).2.2.1 hne

theorem Consistent.withVerdicts {s : Store} (h : Consistent s) (verdicts : List VerdictRow) :
    Consistent { s with verdicts := verdicts } := h.of_rows rfl fun _ he => .inl he

/-- A new run, with no event or its own. -/
theorem Consistent.add {s t : Store} (h : Consistent s) {run : Run} {events : List Event}
    (hfresh : ∀ r ∈ s.runs,r.id ≠ run.id) (hplain : run.probeMetadata = .undefined)
    (hruns : t.runs = s.runs++[run]) (hevents : t.events = s.events++events)
    (hown : ∀ e ∈ events,e.testRunId = some run.id ∧ Recorded run e) : Consistent t := by
  have hmem : ∀ {r},r ∈ t.runs → r ∈ s.runs ∨ r = run := by
    intro r hr
    rw [hruns] at hr
    exact (List.mem_append.mp hr).imp_right List.mem_singleton.mp
  have hevent : ∀ {e},e ∈ t.events → e ∈ s.events ∨ e ∈ events := by
    intro e he
    rw [hevents] at he
    exact List.mem_append.mp he
  refine ⟨fun r hr r' hr' hid => ?_,fun e he hsig => ?_,fun r hr => ?_,fun r hr e he hacc => ?_⟩
  · rcases hmem hr with hr | rfl <;> rcases hmem hr' with hr' | rfl
    · exact h.unique r hr r' hr' hid
    · exact absurd hid (hfresh r hr)
    · exact absurd hid.symm (hfresh r' hr')
    · rfl
  · rw [hruns]
    rcases hevent he with he | he
    · obtain ⟨r,hr,htest⟩ := h.owned e he hsig
      exact ⟨r,List.mem_append_left _ hr,htest⟩
    · exact ⟨run,by simp,(hown e he).1⟩
  · rcases hmem hr with hr | rfl
    · exact h.plain r hr
    · exact hplain
  · have hacc' := acceptedBy_iff.mp hacc
    rcases hmem hr with hr | rfl <;> rcases hevent he with he | he
    · exact h.result r hr e he hacc
    · have := hacc'.1.symm.trans (hown e he).1
      exact absurd (Option.some.inj this) (hfresh r hr)
    · obtain ⟨q,hq,htest⟩ := h.owned e he hacc'.2.2.1
      exact absurd (Option.some.inj (htest.symm.trans hacc'.1)) (hfresh q hq)
    · exact (hown e he).2

theorem recorded_inline (i : Intent) (p : InlineProbe) (status : RunStatus) :
    Recorded (i.run status (some p.nonceHash) (.str p.externalResult)) (p.event i) :=
  ⟨⟨_,rfl⟩,p.externalResult,rfl,field_put_self _ _ _⟩

theorem applySteps_obj (steps : List (String × Bool × JsVal)) (kvs : List (JsString × JsVal)) :
    ∃ kvs',applySteps steps (.obj kvs) = .obj kvs' := by
  induction steps generalizing kvs with
  | nil => exact ⟨kvs,rfl⟩
  | cons step steps ih =>
      rw [applySteps,List.foldl_cons]
      split_ifs
      · exact ih _
      · exact ih _

theorem externalResult_metadata (w : WorkerResult) :
    field w.metadata "external_result" = .str w.externalResult := by
  unfold WorkerResult.metadata
  rw [field_applySteps,field_put_self]
  simp only [List.forall_mem_cons,List.not_mem_nil,false_implies,implies_true,and_true]
  decide

theorem ingest_ok {s t : Store} {ctx : WorkerContext} {jobId : ℕ}
    {body : Except String WorkerResult} (h : ingestProbeResult s ctx jobId body = .ok t) :
    ∃ job run w,run ∈ s.runs ∧ (run.status = .running ∨ run.status = .collecting) ∧
      s.events.any (resultOf run job) = false ∧ t = s.addResult job run ctx w := by
  unfold ingestProbeResult at h
  cases hjob : s.jobs.find? fun j => j.id = jobId with
  | none =>
      rw [hjob] at h
      cases h
  | some job =>
      simp only [hjob] at h
      rw [ite_eq_iff] at h
      obtain ⟨_,h⟩ | ⟨_,h⟩ := h
      · cases h
      rw [ite_eq_iff] at h
      obtain ⟨_,h⟩ | ⟨_,h⟩ := h
      · cases h
      cases hrun : s.runs.find? fun r => r.id = job.testRunId ∧ r.tenantId = job.tenantId with
      | none =>
          simp only [hrun] at h
          cases h
      | some run =>
          simp only [hrun] at h
          cases body with
          | error e => split_ifs at h
          | ok w =>
              split_ifs at h with hstatus _ _ _ _ _ hdup
              refine ⟨job,run,w,List.mem_of_find?_eq_some hrun,?_,by simpa using hdup,
                (Except.ok.inj h).symm⟩
              by_contra hnot
              exact hstatus ⟨fun hr => hnot (.inl hr),fun hr => hnot (.inr hr)⟩

theorem Consistent.addResult {s : Store} (h : Consistent s) {job : ProbeJob} {run : Run}
    (hrun : run ∈ s.runs) (hnone : s.events.any (resultOf run job) = false) (ctx : WorkerContext)
    (w : WorkerResult) : Consistent (s.addResult job run ctx w) := by
  have hkeep : ∀ r,(Run.withResult job w r).id = r.id := fun _ => rfl
  have hmem : ∀ {r},r ∈ (s.addResult job run ctx w).runs →
      ∃ q ∈ s.runs,(q.id = run.id ∧ r = Run.withResult job w q) ∨ (q.id ≠ run.id ∧ r = q) :=
    fun hr => mem_updateRun hr
  have hevent : ∀ {e},e ∈ (s.addResult job run ctx w).events →
      e ∈ s.events ∨ e = resultEvent job run ctx.eventId w :=
    fun he => (List.mem_append.mp he).imp_right List.mem_singleton.mp
  refine ⟨unique_updateRun hkeep h.unique,fun e he hsig => ?_,fun r hr => ?_,
    fun r hr e he hacc => ?_⟩
  · rcases hevent he with he | rfl
    · exact owned_updateRun hkeep (h.owned e he hsig)
    · exact owned_updateRun hkeep ⟨run,hrun,rfl⟩
  · obtain ⟨q,hq,⟨_,rfl⟩ | ⟨_,rfl⟩⟩ := hmem hr
    · exact h.plain q hq
    · exact h.plain _ hq
  · obtain ⟨htest,_,hsig,htrust,n,hn,_,hnonce⟩ := acceptedBy_iff.mp hacc
    obtain ⟨q,hq,⟨hid,rfl⟩ | ⟨hid,rfl⟩⟩ := hmem hr <;> rcases hevent he with he | rfl
    · -- an older event under the nonce of the job was ruled out
      have hjob : e.nonceHash = some job.nonceHash := by
        rw [hnonce,← hn]
        rfl
      have hdup : resultOf run job e = true := by
        simp [resultOf,htest,hsig,htrust,hjob,hid,hkeep]
      rw [List.any_eq_true.mpr ⟨e,he,hdup⟩] at hnone
      cases hnone
    · exact ⟨applySteps_obj _ _,w.externalResult,rfl,externalResult_metadata w⟩
    · exact h.result _ hq e he hacc
    · exact absurd (Option.some.inj htest).symm hid

theorem finalize_rows {F : Engine} {s t : Store} {run : Run} {c : Closing} {r : Finalized}
    (h : finalizeVerdictIfReady F s run c = some (t,r)) :
    (t = s ∧ ∀ v,r ≠ .stored v) ∨
      ∃ result,correlateExternalOnlyVerdict F.surroundings (finalizeInput F run (acceptedEvent s run)
          (declarationsFor s run c) c.originBinding) = some result ∧
        t = Store.updateRun { s with
          verdicts := s.verdicts++[verdictRow run (acceptedEvent s run) result] } run.id
            Run.verdictedRun ∧
        r = .stored (verdictRow run (acceptedEvent s run) result) := by
  unfold finalizeVerdictIfReady at h
  simp only at h
  split_ifs at h
  · cases h
    exact .inl ⟨rfl,fun v hv => by cases hv⟩
  · cases h
    exact .inl ⟨rfl,fun v hv => by cases hv⟩
  · cases h
    exact .inl ⟨rfl,fun v hv => by cases hv⟩
  · obtain ⟨result,hresult,heq⟩ := Option.bind_eq_some_iff.mp h
    cases heq
    exact .inr ⟨result,hresult,rfl,rfl⟩

theorem Consistent.step {F : Engine} {s t : Store} (h : Consistent s) (hstep : Step F s t) :
    Consistent t := by
  cases hstep with
  | startSigned i job hfresh _ _ =>
      exact h.add hfresh rfl rfl (List.append_nil _).symm (fun e he => by cases he)
  | startSimulated i p hfresh =>
      refine h.add hfresh rfl rfl rfl fun e he => ?_
      rw [List.mem_singleton.mp he]
      exact ⟨rfl,recorded_inline i p _⟩
  | startOpsReadiness i p v hfresh _ =>
      refine h.add hfresh rfl rfl rfl fun e he => ?_
      rw [List.mem_singleton.mp he]
      exact ⟨rfl,recorded_inline i p _⟩
  | startMissingInput i v hfresh _ =>
      exact h.add hfresh rfl rfl (List.append_nil _).symm (fun e he => by cases he)
  | ingest ctx jobId body hok =>
      obtain ⟨job,run,w,hrun,_,hnone,rfl⟩ := ingest_ok hok
      exact h.addResult hrun hnone ctx w
  | record e hsig =>
      refine h.of_rows rfl fun e' he => ?_
      rcases List.mem_append.mp he with he | he
      · exact .inl he
      · exact .inr (List.mem_singleton.mp he ▸ hsig)
  | collect hrun hstatus => exact h.status _ _
  | finalize c hrun hfin =>
      rcases finalize_rows hfin with ⟨rfl,_⟩ | ⟨result,_,rfl,_⟩
      · exact h
      · exact (h.withVerdicts _).status _ fun _ => .verdicted
  | cancel hrun hstatus => exact h.status _ _
  | jobs f => exact h.of_rows rfl fun e he => .inl he
  | purge keep => exact h.of_rows rfl fun e he => .inl (List.mem_filter.mp he).1

theorem Consistent.steps {F : Engine} {s t : Store} (h : Consistent s) (hsteps : Steps F s t) :
    Consistent t := by
  induction hsteps with
  | refl => exact h
  | tail _ hstep ih => exact ih.step hstep

theorem consistent_empty : Consistent .empty := by
  constructor <;> intro r hr <;> cases hr

theorem updateRun_other {s : Store} {id : ℕ} {f : Run → Run} {run run' : Run}
    (h : run' ∈ (s.updateRun id f).runs) (hsame : run'.id = run.id) (hne : run.id ≠ id)
    (hf : ∀ r,(f r).id = r.id) : run' ∈ s.runs := by
  obtain ⟨q,hq,⟨hid,rfl⟩ | ⟨_,rfl⟩⟩ := mem_updateRun h
  · exact absurd (hsame.symm.trans ((hf q).trans hid)) hne
  · exact hq

theorem verdicted_step {F : Engine} {s t : Store} (h : Consistent s) (hstep : Step F s t)
    {run run' : Run} (hrun : run ∈ s.runs) (hstatus : run.status = .verdicted) (hrun' : run' ∈ t.runs)
    (hid : run'.id = run.id) : run' = run := by
  have hold : run' ∈ s.runs → run' = run := fun hmem => h.unique run' hmem run hrun hid
  have hactive : ∀ {r : Run},r ∈ s.runs → r.status = .running ∨ r.status = .collecting →
      run.id ≠ r.id := by
    intro r hr hst heq
    rw [← h.unique run hrun r hr heq,hstatus] at hst
    rcases hst with hst | hst <;> cases hst
  have hadd : ∀ {new : Run},(∀ r ∈ s.runs,r.id ≠ new.id) → run' ∈ s.runs++[new] → run' = run := by
    intro new hfresh hmem
    rcases List.mem_append.mp hmem with hmem | hmem
    · exact hold hmem
    · rw [List.mem_singleton.mp hmem] at hid
      exact absurd hid.symm (hfresh run hrun)
  cases hstep with
  | startSigned i job hfresh _ _ => exact hadd hfresh hrun'
  | startSimulated i p hfresh => exact hadd hfresh hrun'
  | startOpsReadiness i p v hfresh _ => exact hadd hfresh hrun'
  | startMissingInput i v hfresh _ => exact hadd hfresh hrun'
  | ingest ctx jobId body hok =>
      obtain ⟨job,r,w,hr,hst,_,rfl⟩ := ingest_ok hok
      exact hold (updateRun_other hrun' hid (hactive hr hst) fun _ => rfl)
  | record e hsig => exact hold hrun'
  | collect hr hst => exact hold (updateRun_other hrun' hid (hactive hr (.inl hst)) fun _ => rfl)
  | finalize c hr hfin =>
      rcases finalize_rows hfin with ⟨rfl,_⟩ | ⟨result,_,rfl,_⟩
      · exact hold hrun'
      · obtain ⟨q,hq,⟨_,rfl⟩ | ⟨_,rfl⟩⟩ := mem_updateRun hrun'
        · have hqq := h.unique q hq run hrun hid
          rw [hqq,Run.verdictedRun,← hstatus]
        · exact hold hq
  | cancel hr hst => exact hold (updateRun_other hrun' hid (hactive hr hst) fun _ => rfl)
  | jobs f => exact hold hrun'
  | purge keep => exact hold hrun'

/-- No operation removes a run or changes its id. -/
theorem run_kept {F : Engine} {s t : Store} (hstep : Step F s t) {run : Run} (hrun : run ∈ s.runs) :
    ∃ run' ∈ t.runs,run'.id = run.id := by
  have hupdate : ∀ {u : Store} {id : ℕ} {f : Run → Run},u.runs = s.runs → (∀ r,(f r).id = r.id) →
      ∃ run' ∈ (u.updateRun id f).runs,run'.id = run.id := by
    intro u id f hu hf
    refine ⟨_,List.mem_map_of_mem (hu ▸ hrun),?_⟩
    split_ifs
    · exact hf run
    · rfl
  cases hstep with
  | startSigned => exact ⟨run,List.mem_append_left _ hrun,rfl⟩
  | startSimulated => exact ⟨run,List.mem_append_left _ hrun,rfl⟩
  | startOpsReadiness => exact ⟨run,List.mem_append_left _ hrun,rfl⟩
  | startMissingInput => exact ⟨run,List.mem_append_left _ hrun,rfl⟩
  | ingest ctx jobId body hok =>
      obtain ⟨job,r,w,_,_,_,rfl⟩ := ingest_ok hok
      exact hupdate rfl fun _ => rfl
  | record => exact ⟨run,hrun,rfl⟩
  | collect => exact hupdate rfl fun _ => rfl
  | finalize c hr hfin =>
      rcases finalize_rows hfin with ⟨rfl,_⟩ | ⟨result,_,rfl,_⟩
      · exact ⟨run,hrun,rfl⟩
      · exact hupdate rfl fun _ => rfl
  | cancel => exact hupdate rfl fun _ => rfl
  | jobs => exact ⟨run,hrun,rfl⟩
  | purge => exact ⟨run,hrun,rfl⟩

theorem verdicted_steps {F : Engine} {s t : Store} (h : Consistent s) (hsteps : Steps F s t)
    {run run' : Run} (hrun : run ∈ s.runs) (hstatus : run.status = .verdicted) (hrun' : run' ∈ t.runs)
    (hid : run'.id = run.id) : run' = run := by
  induction hsteps generalizing run' with
  | refl => exact h.unique run' hrun' run hrun hid
  | tail hprior hstep ih =>
      rename_i u v
      have hmid : run ∈ u.runs := by
        have : ∃ q ∈ u.runs,q.id = run.id := by
          clear ih hstep hrun' hid
          induction hprior with
          | refl => exact ⟨run,hrun,rfl⟩
          | tail _ hstep ih =>
              obtain ⟨q,hq,hqid⟩ := ih
              obtain ⟨q',hq',hqid'⟩ := run_kept hstep hq
              exact ⟨q',hq',hqid'.trans hqid⟩
        obtain ⟨q,hq,hqid⟩ := this
        rwa [← ih hq hqid]
      exact verdicted_step (h.steps hprior) hstep hmid hstatus hrun' hid

theorem declarationsFor_orElse (s : Store) (run : Run) (c : Closing) :
    orElse (declarationsFor s run c) .null = declarationsFor s run c := by
  unfold declarationsFor orElse
  cases c.targetDeclarations <;> simp [nullish] <;> split_ifs with h <;> simp_all

/-- On a recorded event the two inputs are the same. -/
theorem replayInput_eq (F : Engine) {run : Run} {e : Event} (h : Recorded run e)
    (declarations originBinding : JsVal) (hdecl : orElse declarations .null = declarations) :
    replayInput F run (some e) (asObject e.recorded) (withoutDeclared (spread (asObject e.recorded)))
      declarations originBinding = finalizeInput F run (some e) declarations originBinding := by
  obtain ⟨⟨kvs,hobj⟩,t,hrun,hevent⟩ := h
  have hrec : e.recorded = .obj kvs := by
    rw [Event.recorded,hobj]
    rfl
  have hobject : ∀ w,orElse (.obj kvs) w = .obj kvs := fun _ => rfl
  have htext : ∀ w,orElse (.str t) w = .str t := fun _ => rfl
  rw [hobj] at hevent
  simp only [replayInput,finalizeInput,Option.map_some,Option.getD_some,hrec,asObject,hrun,hdecl,
    hobject,htext,hevent]

theorem replay_without_features {F : Engine} {regrade : JsVal → JsVal → JsVal → JsVal → Regrading}
    {run : Run} {stored : Option VerdictRow} {e : Event} {declarations originBinding : JsVal}
    {result : Outcome}
    (hnone : truthy (retainedFeatures run (some e) (asObject e.recorded)) = false)
    (hresult : correlateExternalOnlyVerdict F.surroundings (replayInput F run (some e)
      (asObject e.recorded) (withoutDeclared (spread (asObject e.recorded))) declarations
        originBinding) = some result) :
    ∃ r,buildVerdictReplay F regrade run stored (some e) declarations originBinding = some r ∧
      r.verdict = result.verdict ∧ r.confidence = confidenceText ∧ r.severity = result.severity := by
  unfold buildVerdictReplay
  simp only [Option.map_some,Option.getD_some,hnone,Bool.false_eq_true,if_false,hresult,
    Option.bind_eq_bind,Option.bind_some]
  exact ⟨_,rfl,rfl,rfl,rfl⟩

/-- A run that was finalised on an event without retained features replays to the verdict,
confidence and severity that were stored, whatever happens to the store in between. -/
theorem replay_equals_finalisation (F : Engine)
    (regrade : JsVal → JsVal → JsVal → JsVal → Regrading) {s t u : Store} {run later : Run}
    {e : Event} {c : Closing} {v : VerdictRow} (stored : Option VerdictRow)
    (hreach : Steps F .empty s) (hrun : run ∈ s.runs)
    (hfinal : finalizeVerdictIfReady F s run c = some (t,.stored v))
    (hevent : acceptedEvent s run = some e)
    (hmetadata : nullish (field e.recorded "response_features") = true)
    (hfeatures : nullish e.responseFeatures = true)
    (hlater : Steps F t u) (hmem : later ∈ u.runs) (hid : later.id = run.id) :
    ∃ r,buildVerdictReplay F regrade later stored (some e) (declarationsFor s run c)
        c.originBinding = some r ∧
      r.verdict = v.verdict ∧ r.confidence = v.confidence ∧ r.severity = v.severity := by
  have hs := consistent_empty.steps hreach
  rcases finalize_rows hfinal with ⟨_,hnot⟩ | ⟨result,hresult,ht,hv⟩
  · exact absurd rfl (hnot v)
  cases hv
  have hstep : Step F s t := .finalize c hrun hfinal
  have hverdicted : run.verdictedRun ∈ t.runs := by
    rw [ht]
    exact List.mem_map.mpr ⟨run,hrun,if_pos rfl⟩
  have heq : later = run.verdictedRun :=
    verdicted_steps (hs.step hstep) hlater hverdicted rfl hmem hid
  have hacc : acceptedBy run e = true := List.find?_some hevent
  have hrecorded := hs.result run hrun e (List.mem_of_find?_eq_some hevent) hacc
  have hinput := replayInput_eq F hrecorded (declarationsFor s run c) c.originBinding
    (declarationsFor_orElse s run c)
  have hnone : truthy (retainedFeatures later (some e) (asObject e.recorded)) = false := by
    have hplain : later.probeMetadata = .undefined := by
      rw [heq]
      exact hs.plain run hrun
    obtain ⟨⟨kvs,hobj⟩,_⟩ := hrecorded
    have hrec : e.recorded = .obj kvs := by
      rw [Event.recorded,hobj]
      rfl
    rw [hrec] at hmetadata
    simp only [retainedFeatures,hrec,asObject,orElse,hmetadata,hplain,Option.map_some,
      Option.getD_some,hfeatures,if_true]
    rfl
  have hlaterInput : ∀ metadata probeMetadata : JsVal,
      replayInput F later (some e) metadata probeMetadata (declarationsFor s run c)
        c.originBinding = replayInput F run (some e) metadata probeMetadata
          (declarationsFor s run c) c.originBinding := by
    intro metadata probeMetadata
    rw [heq]
    rfl
  rw [hevent,← hinput,← hlaterInput] at hresult
  exact replay_without_features hnone hresult

section Example

/-- Every check is a metadata marker. -/
def markerEngine : Engine :=
  ⟨fun _ => .obj [(js "probe_profile",.obj [(js "kind",say "metadata_marker")])],
    ⟨some [],fun _ _ => [],id⟩,id⟩

def simulatedIntent : Intent := ⟨1,1,js "meta",.undefined,.null⟩

def simulatedProbe : InlineProbe := ⟨2,js "n",.obj [],js "not_run"⟩

def simulatedRun : Run := simulatedIntent.run .collecting (some (js "n")) (.str (js "not_run"))

def simulatedStore : Store := ⟨[simulatedRun],[simulatedProbe.event simulatedIntent],[],[]⟩

def forcedClosing : Closing := ⟨true,false,.null,.null⟩

theorem simulated_run_replays : ∃ t v r,
    finalizeVerdictIfReady markerEngine simulatedStore simulatedRun forcedClosing =
      some (t,.stored v) ∧
    buildVerdictReplay markerEngine (fun _ _ _ _ => .unavailable "") simulatedRun.verdictedRun
      (some v) (some (simulatedProbe.event simulatedIntent))
      (declarationsFor simulatedStore simulatedRun forcedClosing) .null = some r ∧
    r.verdict = v.verdict ∧ r.confidence = v.confidence ∧ r.severity = v.severity := by
  have hreach : Steps markerEngine .empty simulatedStore :=
    .single (.startSimulated simulatedIntent simulatedProbe (by simp [Store.empty]))
  have hfinal : ∃ t v,finalizeVerdictIfReady markerEngine simulatedStore simulatedRun
      forcedClosing = some (t,.stored v) := ⟨_,_,rfl⟩
  obtain ⟨t,v,hfinal⟩ := hfinal
  have hmem : simulatedRun.verdictedRun ∈ t.runs := by
    rcases finalize_rows hfinal with ⟨_,hnot⟩ | ⟨_,_,rfl,_⟩
    · exact absurd rfl (hnot v)
    · exact List.mem_singleton.mpr rfl
  obtain ⟨r,hr⟩ := replay_equals_finalisation markerEngine (fun _ _ _ _ => .unavailable "") (some v)
    hreach (List.mem_singleton.mpr rfl) hfinal rfl rfl rfl .refl hmem rfl
  exact ⟨t,v,r,hfinal,hr⟩

end Example

end AstraNull.VerdictReplay

import Mathlib
import AstraNull.NumberText
import AstraNull.JsonText
import AstraNull.ScriptText
import AstraNull.ScriptValue
import AstraNull.ScriptObject
import AstraNull.CheckedObjects
import AstraNull.ProbeExecution
import AstraNull.ProbeProfile
import AstraNull.ProbeActivityItems
import AstraNull.ActivityIngest
import AstraNull.ActivityChannel

/-!
# The activity of a run as it is shown

`projectRunActivity` of `lib/probeActivity.mjs`. The items of a run are what its row says and what
its signed events say, sorted by the time at which they were recorded and read in pages. The view of
the capture lists the numbers that are missing under the lease of the job and says whether the
capture is complete.
-/
namespace AstraNull.ActivityProjection
open NumberText JsonText ScriptText ScriptValue ScriptObject ProbeExecution ProbeActivityItems
open CheckedObjects ActivityIngest ActivityChannel
open ProbeProfile (numeral isString integerIn)

structure ActivityRun where
  id : JsString
  tenantId : JsString
  checkId : JsString
  status : JsString
  vectorFamily : JsVal
  createdAt : JsVal
  startedAt : JsVal
  completedAt : JsVal
  collectionDeadlineAt : JsVal

def ActivityRun.isCancelled (run : ActivityRun) : Bool :=
  run.status = js "cancelled" || run.status = js "canceled"

def runItem (run : ActivityRun) (suffix stage : String) (at_ : JsVal) : JsVal :=
  .obj [(js "id",.str (js "run:"++run.id++js suffix)),(js "at",at_),(js "stage",.str (js stage)),
    (js "source",.str (js "run_state")),(js "operation",.str run.checkId)]

/-- What the row of the run says. -/
def runItems (run : ActivityRun) : List JsVal :=
  let startedAt := orElse run.startedAt run.createdAt
  (if truthy startedAt then [runItem run ":started"
    (if truthy run.startedAt then "run_started" else "run_created") startedAt] else [])++
  if run.isCancelled && truthy run.completedAt then
    [runItem run ":stopped" "stop_requested" run.completedAt] else []

def sourceContext (e : Event) : JsVal :=
  .obj [(js "job_id",orElse (field e.metadata "probe_job_id") .null),
    (js "worker_id",orElse (field e.metadata "probe_worker_id") .null),
    (js "leased_at",orElse (field e.metadata "leased_at") .null)]

/-- `operationCount` -/
def operationCount (value : JsVal) : JsVal := if integerIn value 0 1048576 then value else .null

def observedFields : List String :=
  ["query_name","qtype","rcode","response_bytes","response_received","tls_protocol","tls_cipher",
    "cipher","authorized","tls_authorized","cert_expiry","port","protocol","http_method",
    "http_version","dns_rcode","dns_qtype","record_count","alpn_protocol","reply_received",
    "websocket_status","redirect_hops","axfr_leak","websocket_upgrade","grpc_status",
    "amplification_ratio","dns_cname_lookups","baseline_status_code","audit_host","query_type",
    "dnssec_enabled","waf_detected","cdn_detected","detected_vendor","detected_product",
    "response_reason","phases_completed","request_counting_basis","enforcement",
    "baseline_blocked"]

/-- Texts are cut, booleans and numbers are taken as they are. -/
def observed : JsVal → Option JsVal
  | .str s => some (.str (s.take 253))
  | .bool b => some (.bool b)
  | .num n => some (.num n)
  | _ => none

def observedPorts : JsVal → Option JsVal
  | .arr ports => some (.arr ((ports.filter (integerIn · 1 65535)).take 15))
  | _ => none

def observations (read : JsVal → Option JsVal) (metadata : JsVal) (fields : List String) : JsVal :=
  .obj (fields.filterMap fun name => (read (field metadata name)).map fun v => (js name,v))

section
variable (S : ItemPlatform)

def recordedAt (e : Event) : JsVal :=
  e.ingestedAt.elim e.timestamp fun t => .str (S.toISOString t)

/-- What is added to an activity item. -/
def provenance (run : ActivityRun) (e : Event) : JsVal :=
  .obj [(js "recorded_at",recordedAt S e),(js "source",.str (js "signed_worker")),
    (js "source_context",sourceContext e),(js "check_id",.str e.checkId),
    (js "vector_family",orElse (field e.metadata "vector_family") (orElse run.vectorFamily .null)),
    (js "probe_kind",orElse (field e.metadata "probe_kind") .null),
    (js "marker_class",orElse (field e.metadata "marker_class") .null)]

/-- An item is read again at its own time. -/
def activityItem (run : ActivityRun) (e : Event) : Option JsVal :=
  let activity := field e.metadata "activity"
  (S.newDate (field activity "at")).bind fun at_ =>
    (normalizeProbeActivityItem S activity at_).map fun normalized =>
      merged [.obj [(js "id",.str e.id)],normalized,provenance S run e]

def requestsSent (e : Event) : JsVal :=
  field (field e.metadata "safety_attestation") "requests_sent"

def resultItem (e : Event) : JsVal :=
  .obj ([(js "id",.str e.id),(js "at",e.timestamp),(js "recorded_at",recordedAt S e),
    (js "stage",.str (js "result_received")),(js "source",.str (js
      (if e.producerKind = js "signed_probe" then "signed_worker" else "simulation"))),
    (js "operation",orElse (field e.metadata "probe_kind") (.str (js "probe")))]++
    (if isIntegerValue (field e.metadata "status_code") then
      [(js "status_code",field e.metadata "status_code")] else [])++
    (if isString (field e.metadata "external_result") then
      [(js "outcome",field e.metadata "external_result")] else [])++
    (if isIntegerValue (requestsSent e) then [(js "requests_sent",requestsSent e)] else [])++
    (if isToken (field e.metadata "error_class") then
      [(js "error_class",field e.metadata "error_class")] else [])++
    [(js "observations",observations observed e.metadata observedFields),
      (js "port_observations",
        observations observedPorts e.metadata ["open_ports","filtered_ports","closed_ports"])])

def isActivity (e : Event) : Bool :=
  e.signalType = js "probe_activity" && e.producerKind = js "signed_probe"

def isResult (e : Event) : Bool :=
  e.signalType = js "probe_result" &&
    (e.producerKind = js "signed_probe" || e.producerKind = js "internal_simulation")

def ofRun (run : ActivityRun) (e : Event) : Bool :=
  e.tenantId = run.tenantId && e.testRunId = run.id

def eventItems (run : ActivityRun) (e : Event) : List JsVal :=
  if ofRun run e then
    (if isActivity e then (activityItem S run e).toList else [])++
      if isResult e then [resultItem S e] else []
  else []

def activityItems (run : ActivityRun) (events : List Event) : List JsVal :=
  runItems run++events.flatMap (eventItems S run)

end

structure Accounting where
  probeLogicalAttempts : JsVal
  destinationVettingResolverAttempts : JsVal
  totalOperations : JsVal
  logicalOperations : Bool

def Accounting.none : Accounting := ⟨.null,.null,.null,false⟩

def accountingOf (e : Event) : Accounting :=
  let attested := field e.metadata "safety_attestation"
  let recorded := field e.metadata "request_accounting"
  ⟨operationCount (orElse (field attested "probe_requests_sent")
      (field recorded "probe_logical_attempts")),
    operationCount (orElse (field attested "destination_resolver_attempts")
      (field recorded "destination_vetting_resolver_attempts")),
    operationCount (orElse (field attested "total_operations")
      (orElse (field recorded "total_operations") (requestsSent e))),
    is (field e.metadata "request_counting_basis") "logical_operations"⟩

/-- The last result counts; a count that is none leaves the one before it. -/
def countResult (run : ActivityRun) (counts : JsVal × Accounting) (e : Event) :
    JsVal × Accounting :=
  if ofRun run e && isResult e then
    (if isIntegerValue (requestsSent e) && 0 ≤ integerOf (requestsSent e) then requestsSent e
      else counts.1,accountingOf e)
  else counts

def countResults (run : ActivityRun) (events : List Event) : JsVal × Accounting :=
  events.foldl (countResult run) (.null,.none)

structure Page where
  items : List JsVal
  nextCursor : Option JsString
  hasMore : Bool
  totalRecorded : ℕ

/-- `Math.max(1,Math.min(256,Math.floor(Number(limit)) || 200))` -/
def boundedLimit : Numeric → ℕ
  | .nan => 200
  | .infinite neg => if neg then 1 else maxProbeActivityItems
  | .finite n =>
      if ⌊rational n⌋ = 0 then 200 else (max 1 (min (maxProbeActivityItems : ℤ) ⌊rational n⌋)).toNat

section
variable (localeCompare : JsString → JsString → Ordering)

def shownAt (item : JsVal) : JsString :=
  toStr (orElse (field item "recorded_at") (field item "at"))

def itemId (item : JsVal) : JsString := toStr (field item "id")

def compareItems (a b : JsVal) : Ordering :=
  (localeCompare (shownAt a) (shownAt b)).then (localeCompare (itemId a) (itemId b))

def sortItems (items : List JsVal) : List JsVal :=
  items.mergeSort fun a b => compareItems localeCompare a b ≠ .gt

end

def pageFrom (items : List JsVal) (cursor : Option JsString) (start limit : ℕ) : Page :=
  let page := (items.drop start).take limit
  ⟨page,(page.getLast?.map itemId).or cursor,start+page.length < items.length,items.length⟩

/-- An empty cursor is none. -/
def pageAfter (items : List JsVal) (cursor : Option JsString) (limit : ℕ) : Except Refusal Page :=
  match cursor with
  | none => .ok (pageFrom items none 0 limit)
  | some [] => .ok (pageFrom items (some []) 0 limit)
  | some id =>
      match items.findIdx? fun item => strictEq (field item "id") (.str id) with
      | none => refuse "invalid_activity_cursor" 400
      | some i => .ok (pageFrom items (some id) (i+1) limit)

structure Gap where
  first : ℕ
  last : ℕ
deriving DecidableEq

/-- A missing number extends the last gap, or opens one. -/
def addGap (gaps : List Gap) (sequence : ℕ) : List Gap :=
  match gaps.getLast? with
  | some prior =>
      if prior.last+1 = sequence then gaps.dropLast++[⟨prior.first,sequence⟩]
      else gaps++[⟨sequence,sequence⟩]
  | none => [⟨sequence,sequence⟩]

/-- The loop up to a number. -/
def sequenceGaps (seen : List ℤ) : ℕ → List Gap
  | 0 => []
  | n+1 =>
      if ((n+1 : ℕ) : ℤ) ∈ seen then sequenceGaps seen n else addGap (sequenceGaps seen n) (n+1)

inductive CaptureStatus where
  | unknown
  | incomplete
  | complete
  | recording
deriving DecidableEq

structure CaptureView where
  status : CaptureStatus
  recordedCount : ℕ
  droppedCount : Option ℕ
  deliveryFailures : Option ℕ
  sequenceGaps : List Gap
  finalizedAt : Option Time

section
variable (S : ItemPlatform)

/-- The item is activity under the lease of the job. -/
def isCurrent (job : Option ActivityJob) (item : JsVal) : Bool :=
  is (field item "source") "signed_worker" && !nullish (field item "sequence") &&
    job.all fun job =>
      strictEq (field (field item "source_context") "job_id") (.str job.id) &&
      strictEq (field (field item "source_context") "leased_at")
        (job.leasedAt.elim .null fun t => .str (S.toISOString t))

/-- The numbers of the current items, each once. -/
def seenSequences (job : Option ActivityJob) (items : List JsVal) : List ℤ :=
  ((items.filter (isCurrent S job)).map fun item => integerOf (field item "sequence")).dedup

def captureView (job : Option ActivityJob) (items : List JsVal) : CaptureView :=
  let stats := job.bind fun job => job.capture
  let seen := seenSequences S job items
  let expected := stats.elim (seen.foldl max 0).toNat Capture.lastSequence
  let gaps := sequenceGaps seen (min maxProbeActivityItems expected)
  { status := match stats with
      | none => .unknown
      | some capture =>
          if gaps ≠ [] ∨ 0 < capture.droppedCount ∨ 0 < capture.deliveryFailures then .incomplete
          else if capture.finalizedAt.isSome then .complete else .recording
    recordedCount := seen.length
    droppedCount := stats.map Capture.droppedCount
    deliveryFailures := stats.map Capture.deliveryFailures
    sequenceGaps := gaps
    finalizedAt := stats.bind Capture.finalizedAt }

inductive StopState where
  | acknowledged
  | notRequested
  | deadlineElapsed
  | unreachable
  | requested
deriving DecidableEq

structure StopView where
  state : StopState
  requestedAt : JsVal
  acknowledgedAt : Option Time
  deadlineAt : JsVal
  reason : Option JsString

/-- `Date.parse(value)` -/
def dateParse (value : JsVal) : Option Time := S.newDate (.str (toStr value))

def stopView (run : ActivityRun) (job : Option ActivityJob) (now : Time) : StopView :=
  let requestedAt := if run.isCancelled then orElse run.completedAt .null else .null
  let acknowledgment := job.bind fun job => job.stopAcknowledgment
  let deadline := orElse (job.elim .undefined fun job => field job.constraints "not_after")
    (orElse run.collectionDeadlineAt .null)
  { state :=
      if acknowledgment.isSome then .acknowledged
      else if !truthy requestedAt then .notRequested
      else if (dateParse S deadline).any fun t => t ≤ now then .deadlineElapsed
      else if (dateParse S requestedAt).any fun t => 4000 ≤ now-t then .unreachable else .requested
    requestedAt := requestedAt
    acknowledgedAt := acknowledgment.map StopAcknowledgment.acknowledgedAt
    deadlineAt := deadline
    reason := (acknowledgment.map StopAcknowledgment.reason).or
      (if truthy requestedAt then some (js "worker_acknowledgment_not_received") else none) }

structure RunActivity where
  requestsSent : JsVal
  accounting : Accounting
  telemetryRecorded : Bool
  capture : CaptureView
  stop : StopView
  page : Page

def projectRunActivity (localeCompare : JsString → JsString → Ordering) (run : ActivityRun)
    (events : List Event) (job : Option ActivityJob) (cursor : Option JsString) (limit : Numeric)
    (now : Time) : Except Refusal RunActivity :=
  let items := sortItems localeCompare (activityItems S run events)
  match pageAfter items cursor (boundedLimit limit) with
  | .error refusal => .error refusal
  | .ok page => .ok {
      requestsSent := (countResults run events).1
      accounting := (countResults run events).2
      telemetryRecorded := items.any fun item =>
        is (field item "source") "signed_worker" && !is (field item "stage") "result_received"
      capture := captureView S job items
      stop := stopView S run job now
      page := page }

end

/-- The gaps are the missing numbers up to a bound, in ranges that do not touch. -/
structure Ranges (missing : ℕ → Prop) (n : ℕ) (gaps : List Gap) : Prop where
  covers : ∀ k,(∃ g ∈ gaps,g.first ≤ k ∧ k ≤ g.last) ↔ 1 ≤ k ∧ k ≤ n ∧ missing k
  apart : gaps.Pairwise fun a b => a.last+1 < b.first
  proper : ∀ g ∈ gaps,g.first ≤ g.last

section
variable {missing : ℕ → Prop} {n : ℕ} {gaps front : List Gap} {prior : Gap}

theorem Ranges.last_le (h : Ranges missing n gaps) {g : Gap} (hg : g ∈ gaps) : g.last ≤ n :=
  ((h.covers g.last).mp ⟨g,hg,h.proper g hg,le_rfl⟩).2.1

theorem Ranges.seen (h : Ranges missing n gaps) (hseen : ¬ missing (n+1)) :
    Ranges missing (n+1) gaps where
  covers := fun k => by
    rw [h.covers k]
    constructor
    · intro hk
      exact ⟨hk.1,hk.2.1.trans (Nat.le_succ n),hk.2.2⟩
    · rintro ⟨hfirst,hlast,hmissing⟩
      have hne : k ≠ n+1 := by
        rintro rfl
        exact hseen hmissing
      exact ⟨hfirst,by omega,hmissing⟩
  apart := h.apart
  proper := h.proper

theorem addGap_concat (front : List Gap) (prior : Gap) (sequence : ℕ) :
    addGap (front++[prior]) sequence =
      if prior.last+1 = sequence then front++[⟨prior.first,sequence⟩]
      else front++[prior]++[⟨sequence,sequence⟩] := by
  simp only [addGap,List.getLast?_append,List.getLast?_singleton,Option.some_or,
    List.dropLast_concat]

/-- What the gaps cover grows by the missing number. -/
theorem covers_addGap (h : Ranges missing n gaps) (k : ℕ) :
    (∃ g ∈ addGap gaps (n+1),g.first ≤ k ∧ k ≤ g.last) ↔
      (∃ g ∈ gaps,g.first ≤ k ∧ k ≤ g.last) ∨ k = n+1 := by
  rcases gaps.eq_nil_or_concat' with rfl | ⟨front,prior,rfl⟩
  · simp only [addGap,List.getLast?_nil,List.mem_singleton,exists_eq_left,List.not_mem_nil,
      false_and,exists_false,false_or]
    omega
  · have hproper := h.proper prior (by simp)
    rw [addGap_concat]
    split_ifs with hnext
    · simp only [List.mem_append,List.mem_singleton,or_and_right,exists_or,exists_eq_left,or_assoc]
      refine or_congr_right ?_
      omega
    · simp only [List.mem_append,List.mem_singleton,or_and_right,exists_or,exists_eq_left]
      refine or_congr_right ?_
      omega

theorem Ranges.adds (h : Ranges missing n gaps) (hmissing : missing (n+1)) :
    Ranges missing (n+1) (addGap gaps (n+1)) where
  covers := fun k => by
    rw [covers_addGap h,h.covers k]
    constructor
    · rintro (hk | rfl)
      · exact ⟨hk.1,hk.2.1.trans (Nat.le_succ n),hk.2.2⟩
      · exact ⟨Nat.le_add_left 1 n,le_rfl,hmissing⟩
    · rintro ⟨hfirst,hlast,hk⟩
      rcases Nat.lt_or_ge n k with hlt | hle
      · exact .inr (by omega)
      · exact .inl ⟨hfirst,hle,hk⟩
  apart := by
    rcases gaps.eq_nil_or_concat' with rfl | ⟨front,prior,rfl⟩
    · exact List.pairwise_singleton _ _
    · obtain ⟨hfront,-,hprior⟩ := List.pairwise_append.mp h.apart
      rw [addGap_concat]
      split_ifs with hnext
      · refine List.pairwise_append.mpr ⟨hfront,List.pairwise_singleton _ _,fun a ha b hb => ?_⟩
        rw [List.mem_singleton.mp hb]
        exact hprior a ha prior (List.mem_singleton_self prior)
      · refine List.pairwise_append.mpr ⟨h.apart,List.pairwise_singleton _ _,fun a ha b hb => ?_⟩
        rw [List.mem_singleton.mp hb]
        have hlast := h.last_le (g := prior) (by simp)
        rcases List.mem_append.mp ha with ha | ha
        · have hbefore := hprior a ha prior (List.mem_singleton_self prior)
          have hproper := h.proper prior (by simp)
          dsimp only
          omega
        · rw [List.mem_singleton.mp ha]
          dsimp only
          omega
  proper := by
    rcases gaps.eq_nil_or_concat' with rfl | ⟨front,prior,rfl⟩
    · intro g hg
      rw [List.mem_singleton.mp hg]
    · have hproper := h.proper
      have hprior := h.last_le (g := prior) (by simp)
      rw [addGap_concat]
      split_ifs with hnext
      · intro g hg
        rcases List.mem_append.mp hg with hg | hg
        · exact hproper g (List.mem_append_left _ hg)
        · rw [List.mem_singleton.mp hg]
          exact (hproper prior (by simp)).trans (hprior.trans (Nat.le_succ n))
      · intro g hg
        rcases List.mem_append.mp hg with hg | hg
        · exact hproper g hg
        · rw [List.mem_singleton.mp hg]

theorem ranges_sequenceGaps (seen : List ℤ) (n : ℕ) :
    Ranges (fun k => (k : ℤ) ∉ seen) n (sequenceGaps seen n) := by
  induction n with
  | zero => exact ⟨fun k => by simp [sequenceGaps]; omega,.nil,by simp [sequenceGaps]⟩
  | succ n ih =>
      rw [sequenceGaps]
      split_ifs with hseen
      · exact ih.seen (not_not.mpr hseen)
      · exact ih.adds hseen

theorem sequenceGaps_eq_nil {seen : List ℤ} {n : ℕ} :
    sequenceGaps seen n = [] ↔ ∀ k : ℕ,1 ≤ k → k ≤ n → (k : ℤ) ∈ seen := by
  have h := ranges_sequenceGaps seen n
  constructor
  · intro hnil k hfirst hlast
    by_contra hk
    obtain ⟨g,hg,-⟩ := (h.covers k).mpr ⟨hfirst,hlast,hk⟩
    rw [hnil] at hg
    cases hg
  · intro hall
    refine List.eq_nil_iff_forall_not_mem.mpr fun g hg => ?_
    obtain ⟨hfirst,hlast,hmissing⟩ := (h.covers g.last).mp ⟨g,hg,h.proper g hg,le_rfl⟩
    exact hmissing (hall g.last hfirst hlast)

end

section
variable {S : ItemPlatform} {run : ActivityRun} {e : Event} {item : JsVal}

theorem orElse_null {v w : JsVal} (h : orElse v .null = w) (hw : nullish w = false) : v = w := by
  rw [orElse] at h
  split_ifs at h with hv
  · rw [← h] at hw
    cases hw
  · exact h

/-- What an activity item shows of its event. -/
theorem fields_activityItem (h : activityItem S run e = some item) : ∃ at_ normalized,
    normalizeProbeActivityItem S (field e.metadata "activity") at_ = some normalized ∧
    field item "sequence" = field normalized "sequence" ∧
    field item "source" = .str (js "signed_worker") ∧
    field item "source_context" = sourceContext e := by
  unfold activityItem at h
  obtain ⟨at_,-,h⟩ := Option.bind_eq_some_iff.mp h
  obtain ⟨normalized,hnormalized,rfl⟩ := Option.map_eq_some_iff.mp h
  have hfirst : has (.obj [(js "id",.str e.id)]) "sequence" = false := rfl
  have hsequence : has (provenance S run e) "sequence" = false := rfl
  have hsource : has (provenance S run e) "source" = true := rfl
  have hcontext : has (provenance S run e) "source_context" = true := rfl
  simp only [merged,List.foldl_cons,List.foldl_nil,field_assigned,hfirst,hsequence,hsource,hcontext,
    if_true,Bool.false_eq_true,if_false]
  refine ⟨at_,normalized,hnormalized,?_,rfl,rfl⟩
  split_ifs with hhas
  · rfl
  · exact (field_of_not_has (Bool.not_eq_true _ ▸ hhas)).symm

theorem eq_of_mem_ite {α : Type*} {a b : α} {p : Bool} (h : a ∈ if p then [b] else []) : a = b := by
  split_ifs at h
  · exact List.mem_singleton.mp h
  · cases h

theorem sequence_resultItem (e : Event) : field (resultItem S e) "sequence" = .undefined := by
  refine field_of_absent ?_
  rw [List.mem_map]
  rintro ⟨p,hp,hname⟩
  simp only [List.mem_append] at hp
  rcases hp with ((((hp | hp) | hp) | hp) | hp) | hp
  · have hnames : js "sequence" ∉
        ["id","at","recorded_at","stage","source","operation"].map js := by decide
    exact hnames (hname ▸ List.mem_map_of_mem (f := Prod.fst) hp)
  · exact absurd (hname.symm.trans (congrArg Prod.fst (eq_of_mem_ite hp)))
      (show js "sequence" ≠ js "status_code" by decide)
  · exact absurd (hname.symm.trans (congrArg Prod.fst (eq_of_mem_ite hp)))
      (show js "sequence" ≠ js "outcome" by decide)
  · exact absurd (hname.symm.trans (congrArg Prod.fst (eq_of_mem_ite hp)))
      (show js "sequence" ≠ js "requests_sent" by decide)
  · exact absurd (hname.symm.trans (congrArg Prod.fst (eq_of_mem_ite hp)))
      (show js "sequence" ≠ js "error_class" by decide)
  · have hnames : js "sequence" ∉ ["observations","port_observations"].map js := by decide
    exact hnames (hname ▸ List.mem_map_of_mem (f := Prod.fst) hp)

theorem source_runItems (h : item ∈ runItems run) :
    field item "source" = .str (js "run_state") := by
  rcases List.mem_append.mp h with h | h
  · rw [eq_of_mem_ite h]
    rfl
  · rw [eq_of_mem_ite h]
    rfl

theorem mem_eventItems : item ∈ eventItems S run e ↔ ofRun run e = true ∧
    (isActivity e = true ∧ activityItem S run e = some item ∨
      isResult e = true ∧ item = resultItem S e) := by
  rw [eventItems]
  cases ofRun run e with
  | false => simp
  | true => cases isActivity e <;> cases isResult e <;> simp

/-- A current item is that of a signed event of the job and the lease. -/
theorem event_of_current {events : List Event} {job : ActivityJob}
    (h : item ∈ activityItems S run events) (hcurrent : isCurrent S (some job) item = true) :
    ∃ e ∈ events,ofRun run e = true ∧ isActivity e = true ∧ activityItem S run e = some item ∧
      field e.metadata "probe_job_id" = .str job.id ∧
      orElse (field e.metadata "leased_at") .null =
        job.leasedAt.elim .null fun t => .str (S.toISOString t) := by
  rw [isCurrent,Option.all_some,Bool.and_eq_true,Bool.and_eq_true,Bool.and_eq_true] at hcurrent
  obtain ⟨⟨hsource,hsequence⟩,hjob,hleased⟩ := hcurrent
  rcases List.mem_append.mp h with h | h
  · rw [source_runItems h] at hsource
    cases hsource
  · obtain ⟨e,he,h⟩ := List.mem_flatMap.mp h
    obtain ⟨hrun,⟨hactivity,hitem⟩ | ⟨-,rfl⟩⟩ := mem_eventItems.mp h
    · obtain ⟨-,-,-,-,-,hcontext⟩ := fields_activityItem hitem
      rw [hcontext] at hjob hleased
      exact ⟨e,he,hrun,hactivity,hitem,orElse_null (eq_of_strictEq hjob) rfl,
        eq_of_strictEq hleased⟩
    · rw [sequence_resultItem] at hsequence
      cases hsequence

end

section
variable {S : ItemPlatform} {digest : JsString → JsString} {lease : Lease} {c : Channel}
  {run : ActivityRun} {job : ActivityJob}

/-- The text of the lease in the row. -/
theorem leased_holds (h : lease.Holds S job) :
    (job.leasedAt.elim .null fun t => .str (S.toISOString t) : JsVal) =
      .str (S.toISOString lease.leasedAt) := by
  have htext := leasedText_holds h
  cases hleased : job.leasedAt with
  | none =>
      rw [Lease.Holds,hleased] at h
      cases h
  | some t =>
      rw [hleased] at htext
      exact congrArg JsVal.str htext

/-- The record of an entry is shown under the number of the entry. -/
theorem shown_of_record (hS : Documented S) (run : ActivityRun) {entry : JsVal} {e : Event}
    (h : IsRecord S digest lease entry e) (hid : job.id = lease.jobId)
    (hholds : lease.Holds S job) :
    ∃ item,activityItem S run e = some item ∧ isCurrent S (some job) item = true ∧
      field item "sequence" = field entry "sequence" := by
  obtain ⟨item,now,owner,hitem,howner,hjob,hmetadata⟩ := h.metadata
  have hactivity : field e.metadata "activity" = item := by
    rw [hmetadata]
    rfl
  obtain ⟨-,hsequence,hinteger,hdate,-⟩ := normalize_spec hS hitem
  obtain ⟨htime,-⟩ := normalize_cases hitem
  obtain ⟨at_,hat,-⟩ := (Option.any_eq_true _ _).mp htime
  rw [← hdate] at hat
  have hown : timely S (field item "at") at_ = true := by
    rw [timely,hat,Option.any_some,sub_self]
    decide
  obtain ⟨-,kvs,-,hagain,-⟩ := normalize_again hS hitem hown
  have hshown : activityItem S run e =
      some (merged [.obj [(js "id",.str e.id)],.obj kvs,provenance S run e]) := by
    rw [activityItem,hactivity]
    simp only [hat,Option.bind_some,hagain,Option.map_some]
  obtain ⟨at',normalized,hnormalized,hnumber,hsource,hcontext⟩ := fields_activityItem hshown
  have hfield : field (merged [.obj [(js "id",.str e.id)],.obj kvs,provenance S run e]) "sequence" =
      field entry "sequence" := by
    rw [hnumber,(normalize_spec hS hnormalized).2.1,hactivity,hsequence]
  have hsome : nullish (field entry "sequence") = false := by
    rw [← hsequence]
    unfold integerIn at hinteger
    split at hinteger
    · next n hn => rw [hn]; rfl
    · cases hinteger
  have hcurrent : field (sourceContext e) "job_id" = .str job.id ∧
      field (sourceContext e) "leased_at" = .str (S.toISOString lease.leasedAt) := by
    have hleased : field e.metadata "leased_at" = .str (S.toISOString lease.leasedAt) := by
      rw [hmetadata,← leased_holds howner]
      rfl
    have howner : field e.metadata "probe_job_id" = .str job.id := by
      rw [hmetadata,hid,← hjob]
      rfl
    constructor
    · change orElse (field e.metadata "probe_job_id") .null = _
      rw [howner]
      rfl
    · change orElse (field e.metadata "leased_at") .null = _
      rw [hleased]
      rfl
  refine ⟨_,hshown,?_,hfield⟩
  rw [isCurrent,Option.all_some,hsource,hfield,hsome,hcontext,hcurrent.1,hcurrent.2,
    leased_holds hholds]
  simp [is,strictEq]

theorem mem_seenSequences {items : List JsVal} {z : ℤ} : z ∈ seenSequences S (some job) items ↔
    ∃ item ∈ items,isCurrent S (some job) item = true ∧ integerOf (field item "sequence") = z := by
  simp only [seenSequences,List.mem_dedup,List.mem_map,List.mem_filter,and_assoc]

theorem mem_sortItems {localeCompare : JsString → JsString → Ordering} {items : List JsVal}
    {item : JsVal} : item ∈ sortItems localeCompare items ↔ item ∈ items :=
  (List.mergeSort_perm items _).mem_iff

/-- The numbers that are seen are those of the stored entries. -/
theorem seen_iff (hS : Documented S) (h : Sound S digest lease c) (hid : run.id = lease.testRunId)
    (htenant : run.tenantId = lease.tenantId)
    (hjob : c.desk.jobs lease.tenantId lease.jobId = some job) (hholds : lease.Holds S job)
    (localeCompare : JsString → JsString → Ordering) (z : ℤ) :
    z ∈ seenSequences S (some job) (sortItems localeCompare (activityItems S run c.desk.events)) ↔
      ∃ i entry,c.recorded[i]? = some entry ∧ Stored S digest lease c.desk entry ∧
        z = (i+1 : ℕ) := by
  have hjobId := (c.desk.found _ _ _ hjob).1
  have hnumber : ∀ i entry,c.recorded[i]? = some entry →
      integerOf (field entry "sequence") = (i+1 : ℕ) := by
    intro i entry hentry
    obtain ⟨hlt,-⟩ := List.getElem?_eq_some_iff.mp hentry
    have hsmall := h.count.le.trans h.small
    rw [maxProbeActivityItems] at hsmall
    rw [h.number i entry hentry,integerOf_numeral (by omega)]
  rw [mem_seenSequences]
  constructor
  · rintro ⟨item,hitem,hcurrent,hz⟩
    obtain ⟨e,he,hrun,hactivity,hshown,howner,hleased⟩ :=
      event_of_current (mem_sortItems.mp hitem) hcurrent
    rw [ofRun,Bool.and_eq_true,decide_eq_true_eq,decide_eq_true_eq,htenant] at hrun
    rw [isActivity,Bool.and_eq_true,decide_eq_true_eq,decide_eq_true_eq] at hactivity
    rw [leased_holds hholds] at hleased
    have hclaims : lease.Claims S e := ⟨hrun.1,hactivity.1,hactivity.2,hjobId ▸ howner,
      orElse_null hleased rfl⟩
    obtain ⟨entry,hentry,hrecord⟩ := h.events e he (.inr hclaims)
    obtain ⟨i,hi⟩ := List.getElem?_of_mem hentry
    obtain ⟨again,hagain,-,hsequence⟩ := shown_of_record hS run hrecord hjobId hholds
    rw [hshown,Option.some.injEq] at hagain
    rw [hagain,hsequence,hnumber i entry hi] at hz
    exact ⟨i,entry,hi,⟨e,he,hrecord⟩,hz.symm⟩
  · rintro ⟨i,entry,hi,⟨e,he,hrecord⟩,rfl⟩
    obtain ⟨item,hshown,hcurrent,hsequence⟩ := shown_of_record hS run hrecord hjobId hholds
    have hmem : item ∈ eventItems S run e := by
      refine mem_eventItems.mpr ⟨?_,.inl ⟨?_,hshown⟩⟩
      · rw [ofRun,hrecord.tenantId,hrecord.testRunId,htenant,hid]
        simp
      · rw [isActivity,hrecord.signed.1,hrecord.signed.2]
        simp
    refine ⟨item,mem_sortItems.mpr (List.mem_append_right _ (List.mem_flatMap.mpr ⟨e,he,hmem⟩)),
      hcurrent,?_⟩
    rw [hsequence,hnumber i entry hi]

/-- When the channel has closed in order, the row of the lease says so. -/
theorem closed_row (h : Sound S digest lease c) (hclosed : c.reporter.closed = true)
    (hstopped : c.reporter.stopped = false) (hpending : c.reporter.pending = [])
    (hfailures : c.reporter.failures = 0)
    (hjob : c.desk.jobs lease.tenantId lease.jobId = some job) (hholds : lease.Holds S job) :
    ∃ capture,job.capture = some capture ∧ capture.lastSequence = c.reporter.sequence ∧
      capture.finalizedAt.isSome = true ∧ capture.deliveryFailures = 0 ∧
      (c.reporter.dropped = 0 → capture.droppedCount = 0) := by
  obtain ⟨hsending,hphase⟩ := h.calm.closed hclosed hstopped
  obtain ⟨i,n,request,hanswer,hrequest,hfinal,hsequence⟩ :=
    h.closing hfailures hstopped hphase hsending
  obtain ⟨other,hother,-,hcovers⟩ := h.answers i n hanswer
  rw [hrequest,Option.some.injEq] at hother
  subst hother
  obtain ⟨capture,hcapture,hle,hend⟩ := hcovers hstopped job hjob hholds
  obtain ⟨hlast,hdropped,hnone⟩ := (h.row job hjob hholds).2 hstopped capture hcapture
  rw [hsequence hpending] at hle
  exact ⟨capture,hcapture,le_antisymm hlast hle,hend hfinal,hnone hfailures,hdropped⟩

theorem status_complete {items : List JsVal} {capture : Capture} (h : job.capture = some capture) :
    (captureView S (some job) items).status = .complete ↔ capture.finalizedAt.isSome = true ∧
      capture.droppedCount = 0 ∧ capture.deliveryFailures = 0 ∧
      (captureView S (some job) items).sequenceGaps = [] := by
  simp only [captureView,Option.bind_some,h,Option.elim_some]
  split_ifs with hlost hend
  · constructor
    · intro hfalse
      cases hfalse
    · rintro ⟨-,hdropped,hfailures,hgaps⟩
      rw [hdropped,hfailures] at hlost
      simp [hgaps] at hlost
  · simp only [not_or,not_not,not_lt,Nat.le_zero] at hlost
    exact ⟨fun _ => ⟨hend,hlost.2.1,hlost.2.2,hlost.1⟩,fun _ => rfl⟩
  · constructor
    · intro hfalse
      cases hfalse
    · intro hfinal
      exact absurd hfinal.1 hend

/-- Distinct numbers from one on are counted by their predecessors. -/
theorem length_eq_card {seen : List ℤ} {numbers : Finset ℕ} (hnodup : seen.Nodup)
    (h : ∀ z,z ∈ seen ↔ ∃ i ∈ numbers,z = (i+1 : ℕ)) : seen.length = numbers.card := by
  have himage : seen.toFinset = numbers.image fun i => ((i+1 : ℕ) : ℤ) := by
    ext z
    rw [List.mem_toFinset,h z,Finset.mem_image]
    simp only [eq_comm]
  rw [← List.toFinset_card_of_nodup hnodup,himage,Finset.card_image_of_injective]
  intro i j hij
  dsimp only at hij
  omega

/-- The view of a capture in terms of the positions whose numbers are seen. -/
theorem captureView_spec {items : List JsVal} {numbers : Finset ℕ}
    (h : ∀ z,z ∈ seenSequences S (some job) items ↔ ∃ i ∈ numbers,z = (i+1 : ℕ)) :
    (captureView S (some job) items).recordedCount = numbers.card ∧
    ∀ capture,job.capture = some capture →
      (∀ n,(∃ g ∈ (captureView S (some job) items).sequenceGaps,g.first ≤ n ∧ n ≤ g.last) ↔
        1 ≤ n ∧ n ≤ min maxProbeActivityItems capture.lastSequence ∧ n-1 ∉ numbers) ∧
      (captureView S (some job) items).sequenceGaps.Pairwise (fun a b => a.last+1 < b.first) ∧
      ((captureView S (some job) items).sequenceGaps = [] ↔
        ∀ i < min maxProbeActivityItems capture.lastSequence,i ∈ numbers) := by
  refine ⟨length_eq_card (List.nodup_dedup _) h,fun capture hcapture => ?_⟩
  have hseen : ∀ n : ℕ,1 ≤ n → ((n : ℤ) ∈ seenSequences S (some job) items ↔ n-1 ∈ numbers) := by
    intro n hn
    rw [h]
    constructor
    · rintro ⟨i,hi,hni⟩
      rwa [show n-1 = i by omega]
    · intro hmem
      exact ⟨n-1,hmem,by rw [Nat.sub_add_cancel hn]⟩
  have hgaps : (captureView S (some job) items).sequenceGaps = sequenceGaps
      (seenSequences S (some job) items) (min maxProbeActivityItems capture.lastSequence) := by
    simp only [captureView,Option.bind_some,hcapture,Option.elim_some]
  have hranges := ranges_sequenceGaps (seenSequences S (some job) items)
    (min maxProbeActivityItems capture.lastSequence)
  rw [hgaps]
  refine ⟨fun n => ?_,hranges.apart,?_⟩
  · rw [hranges.covers n]
    constructor
    · rintro ⟨hfirst,hlast,hmissing⟩
      exact ⟨hfirst,hlast,fun hn => hmissing ((hseen n hfirst).mpr hn)⟩
    · rintro ⟨hfirst,hlast,hmissing⟩
      exact ⟨hfirst,hlast,fun hn => hmissing ((hseen n hfirst).mp hn)⟩
  · rw [sequenceGaps_eq_nil]
    constructor
    · intro hall i hi
      exact (hseen (i+1) (Nat.le_add_left 1 i)).mp (hall (i+1) (Nat.le_add_left 1 i) hi)
    · intro hall k hfirst hlast
      exact (hseen k hfirst).mpr (hall (k-1) (by omega))

/-- The positions of the stored entries. -/
theorem exists_storedNumbers (hS : Documented S) (h : Sound S digest lease c)
    (hid : run.id = lease.testRunId) (htenant : run.tenantId = lease.tenantId)
    (hjob : c.desk.jobs lease.tenantId lease.jobId = some job) (hholds : lease.Holds S job)
    (localeCompare : JsString → JsString → Ordering) : ∃ numbers : Finset ℕ,
      (∀ i,i ∈ numbers ↔ ∃ entry,c.recorded[i]? = some entry ∧ Stored S digest lease c.desk entry) ∧
      ∀ z,z ∈ seenSequences S (some job)
        (sortItems localeCompare (activityItems S run c.desk.events)) ↔
          ∃ i ∈ numbers,z = (i+1 : ℕ) := by
  have hseen := seen_iff hS h hid htenant hjob hholds localeCompare
  generalize seenSequences S (some job)
    (sortItems localeCompare (activityItems S run c.desk.events)) = seen at hseen
  have hstored : ∀ i,i ∈ (Finset.range c.recorded.length).filter (fun i => ((i+1 : ℕ) : ℤ) ∈ seen) ↔
      ∃ entry,c.recorded[i]? = some entry ∧ Stored S digest lease c.desk entry := by
    intro i
    rw [Finset.mem_filter,Finset.mem_range,hseen]
    constructor
    · rintro ⟨_,j,entry,hj,hentry,hij⟩
      rw [show i = j by omega]
      exact ⟨entry,hj,hentry⟩
    · rintro ⟨entry,hi,hentry⟩
      exact ⟨(List.getElem?_eq_some_iff.mp hi).choose,i,entry,hi,hentry,rfl⟩
  refine ⟨_,hstored,fun z => ?_⟩
  rw [hseen]
  constructor
  · rintro ⟨i,entry,hi,hentry,hz⟩
    exact ⟨i,(hstored i).mpr ⟨entry,hi,hentry⟩,hz⟩
  · rintro ⟨i,hi,hz⟩
    obtain ⟨entry,hentry,hkept⟩ := (hstored i).mp hi
    exact ⟨i,entry,hentry,hkept,hz⟩

theorem capture_projected {localeCompare : JsString → JsString → Ordering} {events : List Event}
    {cursor : Option JsString} {limit : Numeric} {now : Time} {activity : RunActivity}
    (h : projectRunActivity S localeCompare run events (some job) cursor limit now = .ok activity) :
    activity.capture =
      captureView S (some job) (sortItems localeCompare (activityItems S run events)) := by
  unfold projectRunActivity at h
  dsimp only at h
  split at h
  · cases h
  · cases h
    rfl

/-- What is shown of a capture is what has happened. Whatever the network did, the count is that of
the recorded entries that are stored, the gaps are the ranges of the numbers up to the last one
reported that are not, and the capture is shown as complete when there are none of these and nothing
was lost. A channel that has closed in order without a failure is shown as complete. -/
theorem capture_shown_as_recorded (hS : Documented S) (hdigest : Function.Injective digest)
    {c₀ : Channel} (hstart : Fresh S digest lease c₀)
    (hrun : Relation.ReflTransGen (Step S digest lease) c₀ c) (hid : run.id = lease.testRunId)
    (htenant : run.tenantId = lease.tenantId)
    (hjob : c.desk.jobs lease.tenantId lease.jobId = some job) (hholds : lease.Holds S job)
    {localeCompare : JsString → JsString → Ordering} {cursor : Option JsString} {limit : Numeric}
    {now : Time} {activity : RunActivity} (hshown : projectRunActivity S localeCompare run
      c.desk.events (some job) cursor limit now = .ok activity) :
    ∃ numbers : Finset ℕ,
      (∀ i,i ∈ numbers ↔ ∃ entry,c.recorded[i]? = some entry ∧ Stored S digest lease c.desk entry) ∧
      activity.capture.recordedCount = numbers.card ∧
      (∀ capture,job.capture = some capture →
        (∀ n,(∃ g ∈ activity.capture.sequenceGaps,g.first ≤ n ∧ n ≤ g.last) ↔
          1 ≤ n ∧ n ≤ min maxProbeActivityItems capture.lastSequence ∧ n-1 ∉ numbers) ∧
        activity.capture.sequenceGaps.Pairwise (fun a b => a.last+1 < b.first) ∧
        (activity.capture.status = .complete ↔ capture.finalizedAt.isSome = true ∧
          capture.droppedCount = 0 ∧ capture.deliveryFailures = 0 ∧
          ∀ i < min maxProbeActivityItems capture.lastSequence,i ∈ numbers)) ∧
      (c.reporter.closed = true → c.reporter.stopped = false → c.reporter.pending = [] →
        c.reporter.failures = 0 → c.reporter.dropped = 0 → activity.capture.status = .complete ∧
          activity.capture.recordedCount = c.reporter.sequence ∧
          activity.capture.sequenceGaps = []) := by
  have h := sound_run hS hdigest hstart hrun
  obtain ⟨numbers,hstored,hseen⟩ := exists_storedNumbers hS h hid htenant hjob hholds localeCompare
  obtain ⟨hcount,hview⟩ := captureView_spec hseen
  rw [capture_projected hshown]
  refine ⟨numbers,hstored,hcount,fun capture hcapture => ?_,?_⟩
  · obtain ⟨hcovers,hapart,hnone⟩ := hview capture hcapture
    exact ⟨hcovers,hapart,by rw [status_complete hcapture,hnone]⟩
  · intro hclosed hstopped hpending hfailures hdropped
    obtain ⟨capture,hcapture,hlast,hfinal,hlost,hzero⟩ :=
      closed_row h hclosed hstopped hpending hfailures hjob hholds
    have hall : numbers = Finset.range c.reporter.sequence := by
      ext i
      rw [hstored,Finset.mem_range,← h.count]
      constructor
      · rintro ⟨entry,hi,_⟩
        exact (List.getElem?_eq_some_iff.mp hi).choose
      · intro hi
        have hentry := List.getElem?_eq_getElem hi
        have hkept := h.stored_or_held hstopped _ (List.mem_of_getElem? hentry)
        refine ⟨_,hentry,hkept.resolve_right ?_⟩
        rw [Reporter.held,(h.calm.closed hclosed hstopped).1,hpending]
        exact List.not_mem_nil
    have hnil := (hview capture hcapture).2.2.mpr fun i hi => by
      rw [hall,Finset.mem_range]
      omega
    refine ⟨(status_complete hcapture).mpr ⟨hfinal,hzero hdropped,hlost,hnil⟩,?_,hnil⟩
    rw [hcount,hall,Finset.card_range]

end

/-- The reporter of an idle job while it attests the end. -/
def attesting : Reporter := { Reporter.start 0 with
  finalizedAt := some 0
  phase := .closing
  sending := some ⟨[],none⟩ }

def attested : Capture := ⟨0,0,0,0,some 0⟩

theorem attestation_taken :
    ingestProbeActivity plainPlatform id quietDesk (js "t") (js "w") (js "j")
      (batchBody plainPlatform firstLease attesting []) 40 =
        (quietDesk.writeCapture (js "t") (js "j") (some attested),.ok 0) := by
  have hcapture : normalizeProbeCapture (itemDates plainPlatform)
      (attesting.snapshot plainPlatform) 40 = some attested := by
    refine capture_taken (Nat.zero_le _) (Nat.zero_le _) (Nat.zero_le _) fun t ht => ?_
    cases ht
    exact ⟨rfl,by norm_num⟩
  have hbatch : normalizeProbeActivityBatch plainPlatform
      (batchBody plainPlatform firstLease attesting []) leasedJob 40 = .ok ([],some attested) :=
    batch_taken rfl rfl (Nat.zero_le _) rfl rfl List.nodup_nil rfl hcapture
  exact @ingest_accepts plainPlatform id quietDesk (js "t") (js "w") (js "j") _ 40 leasedJob [] _ rfl
    rfl rfl rfl rfl rfl hbatch rfl

/-- The attestation has arrived and is answered, and the reporter is closed. -/
def attestedChannel : Channel where
  reporter := { attesting with
    sending := none
    lastAcknowledgment := 50
    closed := true }
  recorded := []
  requests := [⟨[],attesting⟩]
  answers := [(0,.ok 0)]
  desk := quietDesk.writeCapture (js "t") (js "j") (some attested)

def closingChannel : Channel := { firstChannel with
  reporter := { Reporter.start 0 with
    finalizedAt := some 0
    phase := .draining } }

def sentChannel : Channel := { firstChannel with
  reporter := { attesting with sending := some ⟨[],some 0⟩ }
  requests := [⟨[],attesting⟩] }

theorem attestation_delivered :
    sentChannel.deliver plainPlatform id firstLease 0 ⟨[],attesting⟩ 40 = { sentChannel with
      answers := [(0,.ok 0)]
      desk := quietDesk.writeCapture (js "t") (js "j") (some attested) } := by
  have htaken : ingestProbeActivity plainPlatform id sentChannel.desk firstLease.tenantId
      firstLease.workerId firstLease.jobId
      (batchBody plainPlatform firstLease attesting []) 40 = _ := attestation_taken
  rw [Channel.deliver,htaken]
  rfl

theorem run_attested :
    Relation.ReflTransGen (Step plainPlatform id firstLease) firstChannel attestedChannel := by
  have hclose : Step plainPlatform id firstLease firstChannel closingChannel := .close _ 0 rfl
  have hdrain : Step plainPlatform id firstLease closingChannel
      { firstChannel with reporter := attesting } := .drain _ rfl
  have hsend : Step plainPlatform id firstLease { firstChannel with reporter := attesting }
      sentChannel := .send _ [] rfl
  have hdeliver : Step plainPlatform id firstLease sentChannel { sentChannel with
      answers := [(0,.ok 0)]
      desk := quietDesk.writeCapture (js "t") (js "j") (some attested) } :=
    attestation_delivered ▸ .deliver sentChannel 0 _ 40 rfl
  have hanswer : Step plainPlatform id firstLease { sentChannel with
      answers := [(0,.ok 0)]
      desk := quietDesk.writeCapture (js "t") (js "j") (some attested) }
      { attestedChannel with reporter := { attestedChannel.reporter with closed := false } } :=
    .answer _ [] 0 (.ok 0) 50 rfl List.mem_cons_self
  have hfinish : Step plainPlatform id firstLease
      { attestedChannel with reporter := { attestedChannel.reporter with closed := false } }
      attestedChannel := .finish _ (by decide) (.inr ⟨rfl,rfl⟩)
  exact .tail (.tail (.tail (.tail (.tail (.single hclose) hdrain) hsend) hdeliver) hanswer) hfinish

def attestedJob : ActivityJob := { leasedJob with capture := some attested }

def quietRun : ActivityRun where
  id := js "r"
  tenantId := js "t"
  checkId := js "check"
  status := js "running"
  vectorFamily := .null
  createdAt := .str (js "1970-01-01T00:00:00.000Z")
  startedAt := .undefined
  completedAt := .undefined
  collectionDeadlineAt := .undefined

/-- A channel that has closed in order is shown as complete; after a batch that arrived twice one
entry is counted, and the number of the other is a gap. -/
theorem attested_shown_complete :
    (∃ activity,projectRunActivity plainPlatform (fun _ _ => .eq) quietRun
        attestedChannel.desk.events (some attestedJob) none .nan 60 = .ok activity ∧
      activity.capture.status = .complete ∧ activity.capture.recordedCount = 0) ∧
    ∃ first second e c activity,Repeated first second e c ∧
      projectRunActivity plainPlatform (fun _ _ => .eq) quietRun c.desk.events (some countedJob) none
        .nan 60 = .ok activity ∧
      activity.capture.recordedCount = 1 ∧ activity.capture.status ≠ .complete ∧
      ∀ n,(∃ g ∈ activity.capture.sequenceGaps,g.first ≤ n ∧ n ≤ g.last) ↔ n = 2 := by
  have hrun : quietRun.id = firstLease.testRunId ∧ quietRun.tenantId = firstLease.tenantId :=
    ⟨rfl,rfl⟩
  have hshown : ∀ events job,∃ activity,projectRunActivity plainPlatform (fun _ _ => .eq) quietRun
      events (some job) none .nan 60 = .ok activity := fun _ _ => ⟨_,rfl⟩
  constructor
  · obtain ⟨activity,hactivity⟩ := hshown attestedChannel.desk.events attestedJob
    have hjob : attestedChannel.desk.jobs firstLease.tenantId firstLease.jobId =
      some attestedJob := rfl
    have hholds : firstLease.Holds plainPlatform attestedJob := rfl
    obtain ⟨numbers,-,-,-,hclosed⟩ := capture_shown_as_recorded documented_plain
      Function.injective_id fresh_first run_attested hrun.1 hrun.2 hjob hholds hactivity
    obtain ⟨hstatus,hcount,-⟩ := hclosed rfl rfl rfl rfl rfl
    exact ⟨activity,hactivity,hstatus,hcount⟩
  · obtain ⟨first,second,e,c,h⟩ := exists_repeated
    obtain ⟨activity,hactivity⟩ := hshown c.desk.events countedJob
    have hholds : firstLease.Holds plainPlatform countedJob := rfl
    obtain ⟨numbers,hstored,hcount,hview,-⟩ := capture_shown_as_recorded documented_plain
      Function.injective_id fresh_first h.run hrun.1 hrun.2 h.row hholds hactivity
    obtain ⟨hgaps,-,hstatus⟩ := hview countedTwo rfl
    have hnumbers : numbers = {0} := by
      ext i
      rw [hstored,h.recorded,Finset.mem_singleton]
      constructor
      · rintro ⟨entry,hentry,e',he',hrecord⟩
        rw [h.events] at he'
        cases List.mem_singleton.mp he'
        rcases i with _ | _ | i
        · rfl
        · cases hentry
          exact absurd hrecord h.missing
        · cases hentry
      · rintro rfl
        exact ⟨first,rfl,e,by simp [h.events],h.record⟩
    subst hnumbers
    refine ⟨first,second,e,c,activity,h,hactivity,hcount,fun hcomplete => ?_,fun n => ?_⟩
    · have hfinal := (hstatus.mp hcomplete).1
      cases hfinal
    · rw [hgaps,Finset.mem_singleton]
      have hlast : min maxProbeActivityItems countedTwo.lastSequence = 2 := rfl
      omega

end AstraNull.ActivityProjection

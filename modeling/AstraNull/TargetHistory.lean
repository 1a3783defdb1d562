import Mathlib
import AstraNull.Tables
import AstraNull.JsonText
import AstraNull.ScriptText
import AstraNull.ScriptValue
import AstraNull.ScriptObject
import AstraNull.ProbeJobSigning

/-!
# Retained observations of a target

`acceptTargetObservation` of `services/targetHistory.mjs`: the checks on an observation, the
search for rows it repeats, the append, and the pointers to the latest successful and the latest
failed row of a target and family.
-/
namespace AstraNull.TargetHistory
open Tables NumberText JsonText ScriptText ScriptValue

/-- Milliseconds since the epoch. -/
abbrev Time := ℤ

structure Platform where
  /-- The hexadecimal digest of a text. -/
  sha256 : List Char → JsString
  /-- The instant of a text, as `new Date(text)` reads it. -/
  parseDate : JsString → Option Time
  toISOString : Time → JsString
  /-- `FORBIDDEN_PROVENANCE.test(key)` -/
  forbiddenProvenance : JsString → Bool
  /-- `FORBIDDEN_VALUE.test(value)` -/
  forbiddenValue : JsString → Bool

def observationFamilies : List String :=
  ["waf","cdn","cloud","dns","origin_hosting","maintenance"]

def successfulOutcomes : List String :=
  ["detected","not_detected","pass","fail","reachable","unreachable","denied"]

def transportFailureOutcomes : List String :=
  ["timeout","tls_failure","dns_failure","transport_failure","source_disconnected"]

def retainedOutcomes : List String :=
  ["inconclusive","canceled","cancelled","stale","error","pending"]

def clockSkewMs : ℤ := 120000

def sourceKinds : List String := ["edge_detection","validation_run","explicit_record"]

def producerKinds : List String :=
  ["live_external","signed_probe","internal_simulation","customer_declaration","manual"]

inductive AttemptClass where
  | successful
  | failedAttempt
  | retainedNoncurrent
deriving DecidableEq

def classifyAttempt (outcome : JsVal) : Option AttemptClass :=
  if oneOf outcome successfulOutcomes then some .successful
  else if oneOf outcome transportFailureOutcomes then some .failedAttempt
  else if oneOf outcome retainedOutcomes then some .retainedNoncurrent
  else none

def isDigit (u : UInt16) : Bool := 48 ≤ u.toNat && u.toNat ≤ 57

/-- The instant of a number, if a date can hold it. -/
def timeClip (v : ℚ) : Option Time :=
  if |v| ≤ 8640000000000000 then some (if v < 0 then -⌊-v⌋ else ⌊v⌋) else none

/-- `replace(/\.(\d{3})Z$/,'.$1000Z')` -/
def padMicros (s : JsString) : JsString :=
  match s.reverse with
  | z::a::b::c::dot::_ =>
      if z = 90 ∧ isDigit a ∧ isDigit b ∧ isDigit c ∧ dot = 46 then s.dropLast++js "000Z" else s
  | _ => s

def takeDigits (n : ℕ) (s : JsString) : Option (JsString × JsString) :=
  if n ≤ s.length ∧ (s.take n).all isDigit then some (s.take n,s.drop n) else none

def takeUnit (allowed : String) (s : JsString) : Option (UInt16 × JsString) :=
  match s with
  | u::rest => if (js allowed).contains u then some (u,rest) else none
  | [] => none

structure Stamp where
  datePart : JsString
  timePart : JsString
  fraction : JsString
  offset : JsString

/-- The part of `TIMESTAMP_SHAPE` after the seconds. -/
def matchOffset (s : JsString) : Option JsString :=
  if s = [] ∨ s = js "Z" ∨ s = js "z" then some s
  else do
    let (sign,rest) ← takeUnit "+-" s
    let (hours,rest) ← takeDigits 2 rest
    let rest := match takeUnit ":" rest with
      | some (_,after) => after
      | none => rest
    let (minutes,rest) ← takeDigits 2 rest
    if rest = [] then some (sign::hours++js ":"++minutes) else none

def matchTimestamp (s : JsString) : Option Stamp := do
  let (year,s) ← takeDigits 4 s
  let (_,s) ← takeUnit "-" s
  let (month,s) ← takeDigits 2 s
  let (_,s) ← takeUnit "-" s
  let (day,s) ← takeDigits 2 s
  let (_,s) ← takeUnit "Tt " s
  let (hours,s) ← takeDigits 2 s
  let (_,s) ← takeUnit ":" s
  let (minutes,s) ← takeDigits 2 s
  let (_,s) ← takeUnit ":" s
  let (seconds,s) ← takeDigits 2 s
  let (fraction,s) ← match takeUnit "." s with
    | none => some ([],s)
    | some (_,rest) =>
        let digits := rest.takeWhile isDigit
        if 1 ≤ digits.length ∧ digits.length ≤ 9 then some (digits,rest.drop digits.length)
        else none
  let offset ← matchOffset s
  some ⟨year++js "-"++month++js "-"++day,hours++js ":"++minutes++js ":"++seconds,fraction,offset⟩

section
variable (P : Platform)

def normalizeInstant (v : ℚ) : Option JsString :=
  (timeClip v).map fun t => padMicros (P.toISOString t)

def normalizeText (text : JsString) : Option JsString :=
  if text = [] then none
  else match matchTimestamp text with
    | some m =>
        let offset := if m.offset = [] then [] else if m.offset = js "z" then js "Z" else m.offset
        (P.parseDate (m.datePart++js "T"++m.timePart++offset)).map fun base =>
          (P.toISOString base).take 19++js "."++(m.fraction++js "000000").take 6++js "Z"
    | none => (P.parseDate text).map fun t => padMicros (P.toISOString t)

/-- UTC text with six fractional digits. -/
def normalizeObservationTimestamp (value : JsVal) : Option JsString :=
  match value with
  | .undefined => none
  | .null => none
  | .num n => normalizeInstant P (rational n)
  | v => normalizeText P (trim (toStr v))

/-- What a pointer keeps of a row. -/
structure Pointer where
  id : JsString
  observedAt : JsString
  sourceCompletedAt : Option JsString
deriving DecidableEq

def stampText (stamp : Option JsString) : JsString :=
  (stamp.bind fun s => normalizeObservationTimestamp P (.str s)).getD []

def compareObservationOrder (left right : Pointer) : Ordering :=
  (compare (stampText P (some left.observedAt)) (stampText P (some right.observedAt))).then
    ((compare (stampText P left.sourceCompletedAt) (stampText P right.sourceCompletedAt)).then
      (compare left.id right.id))

structure Refusal where
  code : String
  status : ℕ
  field : Option String
deriving DecidableEq

def refuse {α : Type} (code : String) (status : ℕ) : Except Refusal α := .error ⟨code,status,none⟩

structure Times where
  observedAt : JsString
  sourceCompletedAt : Option JsString
  declaredAt : JsString

/-- The value is given and is not an empty text. -/
def supplied (v : JsVal) : Bool := !nullish v && !is v ""

def observationTimeError (observedAt sourceCompletedAt declaredAt : JsVal) (now : Time) :
    Except Refusal Times :=
  let completed := if supplied sourceCompletedAt then
    normalizeObservationTimestamp P sourceCompletedAt else none
  match normalizeObservationTimestamp P observedAt with
  | none => .error ⟨"invalid_timestamp",400,some "observed_at"⟩
  | some observed =>
      if supplied sourceCompletedAt ∧ completed = none then
        .error ⟨"invalid_timestamp",400,some "source_completed_at"⟩
      else match normalizeObservationTimestamp P declaredAt with
        | none => refuse "declaration_time_unknown" 409
        | some declared =>
            let latest := normalizeInstant P (now+clockSkewMs)
            if latest.any fun l => compare observed l = .gt ∨
                completed.any fun c => compare c l = .gt then refuse "future_timestamp" 400
            else if compare observed declared = .lt ∨
                completed.any fun c => compare c declared = .lt then
              refuse "before_declaration" 400
            else .ok ⟨observed,completed,declared⟩

def redactProvenance (input : JsVal) : JsVal :=
  .obj ((ScriptObject.members input).filter fun p => !P.forbiddenProvenance p.1 &&
    match p.2 with
    | .str s => !(decide (200 < s.length) || P.forbiddenValue s)
    | .num _ => true
    | .bool _ => true
    | _ => false)

structure Target where
  tenantId : JsString
  id : JsString
  targetGroupId : JsVal
  createdAt : JsVal
  deletedAt : JsVal
  archivedAt : JsVal

structure OriginBinding where
  tenantId : JsString
  id : JsString
  originTargetId : JsVal
  protectedTargetId : JsVal
  createdAt : JsString

structure Record where
  tenantId : JsString
  targetId : JsString
  targetGroupId : JsVal
  family : JsString
  checkId : JsString
  testRunId : JsVal
  sourceKind : JsVal
  sourceId : JsVal
  corpusVersion : JsVal
  scenarioVersion : JsVal
  checkVersion : JsVal
  observedAt : JsString
  sourceCompletedAt : Option JsString
  outcome : JsVal
  attemptClass : AttemptClass
  producerKind : JsVal
  originBindingId : JsVal
  provenance : JsVal
  nonce : Option JsString
  eventId : Option JsString

def orNull (s : Option JsString) : JsVal := (s.map JsVal.str).getD .null

def observationDigest (r : Record) : JsString :=
  P.sha256 (ProbeJobSigning.stableStringify (.obj [(js "tenant_id",.str r.tenantId),
    (js "target_id",.str r.targetId),(js "family",.str r.family),(js "check_id",.str r.checkId),
    (js "test_run_id",r.testRunId),(js "source_kind",r.sourceKind),(js "source_id",r.sourceId),
    (js "corpus_version",r.corpusVersion),(js "scenario_version",r.scenarioVersion),
    (js "check_version",r.checkVersion),(js "observed_at",.str r.observedAt),
    (js "source_completed_at",orNull r.sourceCompletedAt),(js "outcome",r.outcome),
    (js "producer_kind",r.producerKind),(js "origin_binding_id",r.originBindingId),
    (js "provenance",r.provenance)]))

/-- A text that is not blank, trimmed. -/
def trimmed (v : JsVal) : Option JsString :=
  match v with
  | .str s => if trim s = [] then none else some (trim s)
  | _ => none

/-- A text that is not empty. -/
def nonemptyText (v : JsVal) : Option JsString :=
  match v with
  | .str s => if s = [] then none else some s
  | _ => none

def literalText (v : JsVal) (literals : List String) : Option JsString :=
  match v with
  | .str s => if literals.any fun l => s = js l then some s else none
  | _ => none

/-- The checks on the binding an observation names. -/
def bindingError (input : JsVal) (tenantId : JsString) (target : Target)
    (binding : Option OriginBinding) (serverDerived : Bool) (observedAt : JsString) :
    Option Refusal :=
  if !truthy (field input "origin_binding_id") then none
  else match binding with
    | none => some ⟨"unknown_origin_binding",404,none⟩
    | some b =>
        if b.tenantId ≠ tenantId ∨ strictEq (.str b.id) (field input "origin_binding_id") = false then
          some ⟨"unknown_origin_binding",404,none⟩
        else if strictEq b.originTargetId (.str target.id) = false ∧
            ¬ (serverDerived ∧ is (field input "check_id") "nfw.origin_lockdown.safe" ∧
              strictEq b.protectedTargetId (.str target.id)) then
          some ⟨"binding_target_mismatch",409,none⟩
        else match P.parseDate observedAt,P.parseDate b.createdAt with
          | some observed,some created =>
              if observed < created then some ⟨"observation_predates_binding",409,none⟩ else none
          | _,_ => none

/-- The part of the preparation after the checks of the body's kinds. -/
def finishObservation (input : JsVal) (tenantId family checkId : JsString) (target : Target)
    (binding : Option OriginBinding) (now : Time) (serverDerived : Bool)
    (attemptClass : AttemptClass) (producer : JsVal) : Except Refusal Record :=
  match observationTimeError P (field input "observed_at") (field input "source_completed_at")
      target.createdAt now with
  | .error refusal => .error refusal
  | .ok times =>
      let nonce := trimmed (field input "nonce")
      let eventId := trimmed (field input "event_id")
      if nonce = none ∧ eventId = none then refuse "missing_idempotency" 400
      else match bindingError P input tenantId target binding serverDerived times.observedAt with
        | some refusal => .error refusal
        | none => .ok {
            tenantId := tenantId
            targetId := target.id
            targetGroupId := target.targetGroupId
            family := family
            checkId := checkId
            testRunId := orElse (field input "test_run_id") .null
            sourceKind := field input "source_kind"
            sourceId := orElse (field input "source_id") .null
            corpusVersion := orFalsy (field input "corpus_version") .null
            scenarioVersion := orFalsy (field input "scenario_version") .null
            checkVersion := if serverDerived then orFalsy (field input "check_version") .null
              else .null
            observedAt := times.observedAt
            sourceCompletedAt := times.sourceCompletedAt
            outcome := field input "outcome"
            attemptClass := attemptClass
            producerKind := if serverDerived then producer else .null
            originBindingId := orElse (field input "origin_binding_id") .null
            provenance := redactProvenance P (field input "provenance")
            nonce := nonce
            eventId := eventId }

def prepareObservation (input : JsVal) (tenantId : Option JsString) (target : Option Target)
    (binding : Option OriginBinding) (now : Time) (serverDerived : Bool) :
    Except Refusal Record :=
  match tenantId.filter (fun t => t ≠ []) with
  | none => refuse "invalid_tenant" 400
  | some tenantId => match target.filter (fun t =>
        t.tenantId = tenantId ∧ truthy t.deletedAt = false ∧ truthy t.archivedAt = false) with
    | none => refuse "unknown_target" 404
    | some target =>
        if serverDerived = false ∧ (nullish (field input "producer_kind") = false ∨
            nullish (field input "check_version") = false ∨
            isTrue (field input "server_derived")) then refuse "body_supplied_version" 400
        else if truthy (field input "target_group_id") ∧
            strictEq (field input "target_group_id") target.targetGroupId = false then
          refuse "target_group_mismatch" 409
        else match literalText (field input "family") observationFamilies with
          | none => refuse "invalid_family" 400
          | some family => match nonemptyText (field input "check_id") with
            | none => refuse "invalid_check" 400
            | some checkId =>
                let producer := orElse (field input "producer_kind") .null
                if oneOf (field input "source_kind") sourceKinds = false then
                  refuse "invalid_source" 400
                else match classifyAttempt (field input "outcome") with
                  | none => refuse "invalid_outcome" 400
                  | some attemptClass =>
                      if nullish producer = false ∧ oneOf producer producerKinds = false then
                        refuse "invalid_producer" 400
                      else finishObservation P input tenantId family checkId target binding now
                        serverDerived attemptClass producer

structure Row extends Record where
  digest : JsString
  id : JsString
  createdAt : Option JsString

structure Key where
  tenantId : JsString
  targetId : JsString
  family : JsString
deriving DecidableEq

def Record.key (r : Record) : Key := ⟨r.tenantId,r.targetId,r.family⟩

structure Current where
  key : Key
  successful : Option Pointer
  failed : Option Pointer
  updatedAt : Option JsString
deriving DecidableEq

structure State where
  rows : List Row
  currents : List Current

def repeats (a b : Option JsString) : Bool := a.isSome && a == b

def matchingRows (rows : List Row) (r : Record) (digest : JsString) : List Row :=
  rows.filter fun row => row.tenantId == r.tenantId &&
    (repeats r.nonce row.nonce || repeats r.eventId row.eventId || row.digest == digest)

/-- `[...new Map(rows.map((row) => [row.id,row])).values()]` -/
def distinctRows (rows : List Row) : List Row :=
  rows.foldl (fun seen row =>
    if seen.any fun x => x.id == row.id then
      seen.map fun x => if x.id == row.id then row else x
    else seen++[row]) []

def differs (a b : Option JsString) : Bool := a.isSome && b.isSome && a != b

def relationConflict (existing : Row) (r : Record) (digest : JsString) : Bool :=
  existing.digest != digest || differs r.nonce existing.nonce || differs r.eventId existing.eventId

def pointerTimes (row : Row) : Pointer := ⟨row.id,row.observedAt,row.sourceCompletedAt⟩

def preferPointer (current : Option Pointer) (candidate : Pointer) : Pointer :=
  match current with
  | none => candidate
  | some current => if compareObservationOrder P candidate current = .gt then candidate else current

/-- The pointer of the class of the row, and the time of the update. -/
def movePointer (row : Row) (c : Current) : Current :=
  let moved := match row.attemptClass with
    | .successful => { c with successful := some (preferPointer P c.successful (pointerTimes row)) }
    | .failedAttempt => { c with failed := some (preferPointer P c.failed (pointerTimes row)) }
    | .retainedNoncurrent => c
  { moved with updatedAt := row.createdAt }

def applyCurrent (currents : List Current) (row : Row) : List Current :=
  if row.attemptClass = .retainedNoncurrent then currents
  else
    let currents := if currents.any fun c => c.key == row.key then currents
      else currents++[⟨row.key,none,none,row.createdAt⟩]
    update (fun c => c.key == row.key) (movePointer P row) currents

/-- A call: what the other tables hold, the caller, the body and the random part of the id. -/
structure Request where
  targets : List Target
  originBindings : List OriginBinding
  tenantId : Option JsString
  input : JsVal
  now : Time
  internal : Bool
  random : JsString

inductive Reply where
  | refused (refusal : Refusal)
  | replayed (row : Row)
  | stored (row : Row)
  /-- The body is null and reading it throws. -/
  | thrown

def findTarget (q : Request) : Option Target :=
  q.targets.find? fun t => (some t.tenantId == q.tenantId) &&
    strictEq (.str t.id) (field q.input "target_id")

def findBinding (q : Request) : Option OriginBinding :=
  if truthy (field q.input "origin_binding_id") then
    q.originBindings.find? fun b => strictEq (.str b.id) (field q.input "origin_binding_id") &&
      (some b.tenantId == q.tenantId)
  else none

def acceptTargetObservation (s : State) (q : Request) : State × Reply :=
  if q.input matches .null then (s,.thrown)
  else match prepareObservation P q.input q.tenantId (findTarget q) (findBinding q) q.now
      q.internal with
    | .error refusal => (s,.refused refusal)
    | .ok record =>
        let digest := observationDigest P record
        match distinctRows (matchingRows s.rows record digest) with
        | [] =>
            let row : Row := { record with
              digest := digest
              id := js "obs_"++q.random
              createdAt := normalizeInstant P q.now }
            (⟨s.rows++[row],applyCurrent P s.currents row⟩,.stored row)
        | [existing] =>
            if relationConflict existing record digest then
              (s,.refused ⟨"idempotency_conflict",409,none⟩)
            else (s,.replayed existing)
        | _ => (s,.refused ⟨"idempotency_conflict",409,none⟩)

def acceptAll (s : State) (qs : List Request) : State :=
  qs.foldl (fun s q => (acceptTargetObservation P s q).1) s

end

end AstraNull.TargetHistory

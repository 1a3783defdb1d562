import Mathlib

/-!
# DNS over TCP

The framing of `dnsTcpWire.mjs` and its two readers, the zone transfer session and the plain
query. A reader appends each chunk to its buffer and parses the buffer as far as it goes, so
what it reports may depend on where a chunk ends: the transaction id of a frame with a
malformed length is read from the bytes that happen to be there, and the size limit is
applied to the whole buffer although a complete frame may be at its start. The plain query
drops a frame of another query by a call inside the call that found it, so the frames of one
chunk have to fit on the stack.

The message parser after the header is an arbitrary function of the message: the results
say nothing about it and need nothing from it.
-/
namespace AstraNull.DnsTcp

abbrev Bytes := List UInt8

/-- `readUInt16BE(i)`. -/
def uint16 (b : Bytes) (i : ℕ) : ℕ := (b.getD i 0).toNat*256+(b.getD (i+1) 0).toNat

structure ParsedHeader where
  transactionId : Option ℕ
  rcode : Option ℕ
  answerCount : ℕ
  authoritative : Option Bool
  truncated : Option Bool
  dnsMessage : Bytes
  incomplete : Bool
  axfrRefused : Option Bool
  reason : Option String
deriving DecidableEq

def idAt (b : Bytes) (i : ℕ) : Option ℕ := if i+2 ≤ b.length then some (uint16 b i) else none

/-- A header that is not there yet. -/
def pending (id : Option ℕ) (message : Bytes) : ParsedHeader :=
  ⟨id,none,0,none,none,message,true,none,none⟩

/-- A frame that is refused, with a reason. -/
def refused (id : Option ℕ) (message : Bytes) (reason : String) : ParsedHeader :=
  ⟨id,none,0,none,none,message,false,some false,some reason⟩

def readHeader (message : Bytes) : ParsedHeader :=
  ⟨some (uint16 message 0),some ((message.getD 3 0).toNat%16),uint16 message 6,
    some ((message.getD 2 0).toNat/4%2 = 1),some ((message.getD 2 0).toNat/2%2 = 1),message,false,
    none,none⟩

/-- `parseDnsResponseHeader` on a framed buffer. -/
def parseDnsResponseHeader (buffer : Bytes) : ParsedHeader :=
  if buffer.length < 2 then pending none buffer
  else
    let declaredLen := uint16 buffer 0
    if declaredLen < 12 then refused (idAt buffer 2) buffer "malformed_response"
    else if buffer.length < declaredLen+2 then pending (idAt buffer 2) buffer
    else
      let dnsMessage := (buffer.drop 2).take declaredLen
      if dnsMessage.length < 12 then pending (idAt dnsMessage 0) dnsMessage
      else readHeader dnsMessage

def maxDnsTcpResponseBytes : ℕ := 2+0xffff

structure Accumulated where
  buffer : Bytes
  parsed : ParsedHeader
  complete : Bool

def accumulateDnsTcpResponse (responseBuffer chunk : Bytes) : Accumulated :=
  let buffer := responseBuffer++chunk
  if maxDnsTcpResponseBytes < buffer.length then
    ⟨buffer.take maxDnsTcpResponseBytes,refused (idAt buffer 2) [] "response_too_large",true⟩
  else
    let parsed := parseDnsResponseHeader buffer
    ⟨buffer,parsed,!parsed.incomplete⟩

/-- What `parseDnsResponseStructure` reports of a message. -/
structure MessageStructure where
  completeAnswerCount : ℕ
  soaAnswerCount : ℕ
  hasCompleteAnswer : Bool
  hasCompleteSoa : Bool
  questionMatches : Option Bool
  axfrBoundarySoaMatch : Bool
  structureValid : Bool
  reason : Option String

/-- The outcome object; a field is nothing when the object does not have it. -/
structure AxfrOutcome where
  axfrRefused : Bool
  reason : Option String
  axfrLeak : Option Bool := none
  errorClass : Option String := none
  rcode : Option (Option ℕ) := none
  answerCount : Option ℕ := none
  transactionIdMatch : Option (Option Bool) := none
  completeAnswerCount : Option ℕ := none
  soaAnswerCount : Option ℕ := none
  hasCompleteAnswer : Option Bool := none
  hasCompleteSoa : Option Bool := none
  questionMatches : Option Bool := none
  responseMessage : Option Bool := none
  protocolIdentityConfirmed : Option Bool := none
  transferComplete : Option Bool := none
  axfrRecordsObserved : Option ℕ := none
deriving DecidableEq

/-- The outcome of a well-formed header with the expected id. -/
def messageOutcome (structureOf : Bytes → MessageStructure) (parsed : ParsedHeader) : AxfrOutcome :=
  let message := parsed.dnsMessage
  let found := structureOf message
  let flags := (message.getD 2 0).toNat
  let metadata : AxfrOutcome :=
    { axfrRefused := false, reason := none, rcode := some parsed.rcode,
      answerCount := some parsed.answerCount, transactionIdMatch := some (some true),
      completeAnswerCount := some found.completeAnswerCount,
      soaAnswerCount := some found.soaAnswerCount,
      hasCompleteAnswer := some found.hasCompleteAnswer,
      hasCompleteSoa := some found.hasCompleteSoa,
      questionMatches := some (found.questionMatches.getD false),
      responseMessage := some (flags/128 = 1) }
  if flags/128 ≠ 1 ∨ flags/8%16 ≠ 0 ∨ flags/2%2 = 1 then
    { metadata with reason := some "not_dns_response" }
  else if !found.structureValid then
    { metadata with reason := some (found.reason.getD "malformed_response") }
  else if parsed.rcode ≠ some 0 then
    { metadata with
      axfrRefused := parsed.rcode = some 5, axfrLeak := some false,
      protocolIdentityConfirmed := some true, transferComplete := some false,
      reason := some (if parsed.rcode = some 5 then "refused_rcode" else "dns_error_response") }
  else if found.hasCompleteSoa then
    { metadata with
      axfrLeak := some found.axfrBoundarySoaMatch, transferComplete := some found.axfrBoundarySoaMatch,
      protocolIdentityConfirmed := some true,
      axfrRecordsObserved := some found.completeAnswerCount,
      reason := if found.axfrBoundarySoaMatch then none
        else some "bounded_partial_transfer_observation" }
  else { metadata with reason := some "no_complete_soa_answer" }

/-- The outcome of a complete frame. -/
def frameOutcome (structureOf : Bytes → MessageStructure) (queryId : ℕ) (parsed : ParsedHeader) :
    AxfrOutcome :=
  if parsed.transactionId.isSome ∧ parsed.transactionId ≠ some queryId then
    { axfrRefused := false, rcode := some parsed.rcode, answerCount := some parsed.answerCount,
      transactionIdMatch := some (some false), reason := some "transaction_id_mismatch" }
  else match parsed.reason with
    | some reason =>
        { axfrRefused := false, rcode := some parsed.rcode, answerCount := some parsed.answerCount,
          transactionIdMatch := some (if parsed.transactionId.isSome then some true else none),
          reason := some reason }
    | none => messageOutcome structureOf parsed

/-- The outcome when the connection ends before a frame is complete. -/
def closedBeforeFrame (queryId : ℕ) (responseBuffer : Bytes) : AxfrOutcome :=
  if responseBuffer.length = 0 then { axfrRefused := false, reason := some "no_response_frame" }
  else
    { axfrRefused := false,
      transactionIdMatch := some ((parseDnsResponseHeader responseBuffer).transactionId.map
        fun id => id = queryId),
      reason := some "incomplete_frame" }

structure AxfrSession where
  responseBuffer : Bytes
  settled : Option AxfrOutcome

inductive AxfrEvent where
  | data (chunk : Bytes)
  | ended
  | timedOut
  | aborted
  | failed (code : Option String)

def transportErrorCodes : List String :=
  ["ECONNRESET","ECONNREFUSED","EHOSTUNREACH","ENETUNREACH","ETIMEDOUT","EPIPE"]

/-- The code is already trimmed and in upper case. -/
def boundedTransportReason (code : Option String) : String :=
  match code with
  | some code => if code ∈ transportErrorCodes then code else "transport_error"
  | none => "transport_error"

def stoppedOutcome (reason : String) : AxfrOutcome :=
  { axfrRefused := false, reason := some reason, axfrLeak := some false,
    errorClass := some "timeout" }

def errorOutcome (reason : String) : AxfrOutcome :=
  { axfrRefused := false, reason := some reason, errorClass := some reason }

def AxfrSession.step (structureOf : Bytes → MessageStructure) (queryId : ℕ) (s : AxfrSession)
    (event : AxfrEvent) : AxfrSession :=
  match s.settled with
  | some _ => s
  | none =>
      match event with
      | .data chunk =>
          let accumulated := accumulateDnsTcpResponse s.responseBuffer chunk
          if !accumulated.complete then ⟨accumulated.buffer,none⟩
          else ⟨accumulated.buffer,some (frameOutcome structureOf queryId accumulated.parsed)⟩
      | .ended => ⟨s.responseBuffer,some (closedBeforeFrame queryId s.responseBuffer)⟩
      | .timedOut => ⟨s.responseBuffer,some (stoppedOutcome "timeout")⟩
      | .aborted => ⟨s.responseBuffer,some (stoppedOutcome "probe_canceled")⟩
      | .failed code => ⟨s.responseBuffer,some (errorOutcome (boundedTransportReason code))⟩

def AxfrSession.start : AxfrSession := ⟨[],none⟩

/-- The server sends the chunks and closes. -/
def runDnsTcpAxfrQuery (structureOf : Bytes → MessageStructure) (queryId : ℕ)
    (chunks : List Bytes) : Option AxfrOutcome :=
  ((chunks.map AxfrEvent.data++[AxfrEvent.ended]).foldl (AxfrSession.step structureOf queryId)
    .start).settled

structure Reply where
  received : Bool
  responseBytes : ℕ
  parsed : Option ParsedHeader
deriving DecidableEq

/-- The bytes of the frame at the start of a buffer, as far as they are there. -/
def frameBytes (buffer : Bytes) : ℕ :=
  if 2 ≤ buffer.length then min buffer.length (uint16 buffer 0+2) else buffer.length

theorem length_accumulated (responseBuffer chunk : Bytes) :
    (accumulateDnsTcpResponse responseBuffer chunk).buffer.length ≤
      (responseBuffer++chunk).length := by
  unfold accumulateDnsTcpResponse
  simp only
  split_ifs
  · exact List.length_take_le' _ _
  · exact le_rfl

theorem frameBytes_pos {buffer : Bytes} (h : buffer ≠ []) : 0 < frameBytes buffer := by
  have := List.length_pos_iff.mpr h
  unfold frameBytes
  split_ifs <;> omega

/-- What is left after the first frame is shorter. -/
theorem length_rest {buffer : Bytes}
    (h : (accumulateDnsTcpResponse buffer []).buffer.drop
      (frameBytes (accumulateDnsTcpResponse buffer []).buffer) ≠ []) :
    ((accumulateDnsTcpResponse buffer []).buffer.drop
      (frameBytes (accumulateDnsTcpResponse buffer []).buffer)).length < buffer.length := by
  have hlen := length_accumulated buffer []
  have hne : (accumulateDnsTcpResponse buffer []).buffer ≠ [] := by
    intro hnil
    rw [hnil,List.drop_nil] at h
    exact h rfl
  have hpos := frameBytes_pos hne
  have hle := List.length_pos_iff.mpr hne
  rw [List.append_nil] at hlen
  rw [List.length_drop]
  omega

/-- The reply in the frame at the start of a buffer. -/
def replyOf (parsed : ParsedHeader) : Reply :=
  ⟨parsed.rcode.isSome,parsed.dnsMessage.length,some parsed⟩

/-- `onData`. A frame with another id is dropped, and what is left of the buffer is looked at by
a call inside this one. The stack has room for so many such calls; nothing when it overflows. -/
def onData (transactionId room : ℕ) (responseBuffer chunk : Bytes) :
    Option (Bytes × Option Reply) :=
  let accumulated := accumulateDnsTcpResponse responseBuffer chunk
  if !accumulated.complete then some (accumulated.buffer,none)
  else if accumulated.parsed.transactionId ≠ some transactionId then
    let rest := accumulated.buffer.drop (frameBytes accumulated.buffer)
    if rest = [] then some (rest,none)
    else match room with
      | 0 => none
      | room+1 => onData transactionId room rest []
  else some (accumulated.buffer,some (replyOf accumulated.parsed))

structure QuerySession where
  responseBuffer : Bytes
  settled : Option (Except String Reply)
  /-- The handler threw, and nothing handles that. -/
  thrown : Bool

inductive QueryEvent where
  | data (chunk : Bytes)
  | ended
  | timedOut
  | failed (message : String)

def noReply : Reply := ⟨false,0,none⟩

def QuerySession.step (transactionId room : ℕ) (s : QuerySession) (event : QueryEvent) :
    QuerySession :=
  if s.settled.isSome || s.thrown then s
  else match event with
    | .data chunk => match onData transactionId room s.responseBuffer chunk with
      | some out => ⟨out.1,out.2.map Except.ok,false⟩
      | none => { s with thrown := true }
    | .ended => { s with settled := some (.ok noReply) }
    | .timedOut => { s with settled := some (.ok noReply) }
    | .failed message => { s with settled := some (.error message) }

/-- The server sends the chunks and closes. Nothing when the query does not settle. -/
def sendDnsTcp (transactionId room : ℕ) (chunks : List Bytes) : Option (Except String Reply) :=
  ((chunks.map QueryEvent.data++[QueryEvent.ended]).foldl (QuerySession.step transactionId room)
    ⟨[],none,false⟩).settled

/-- What is read of a buffer, and what is left of it, on a stack without end. -/
def readFrames (transactionId : ℕ) (buffer : Bytes) : Bytes × Option Reply :=
  let accumulated := accumulateDnsTcpResponse buffer []
  if !accumulated.complete then (accumulated.buffer,none)
  else if accumulated.parsed.transactionId ≠ some transactionId then
    let rest := accumulated.buffer.drop (frameBytes accumulated.buffer)
    if rest = [] then (rest,none) else readFrames transactionId rest
  else (accumulated.buffer,some (replyOf accumulated.parsed))
termination_by buffer.length
decreasing_by exact length_rest (by assumption)

/-- The frames of a buffer that are dropped, with bytes after them, before a reply is found or the
bytes run out. -/
def dropped (transactionId : ℕ) (buffer : Bytes) : ℕ :=
  let accumulated := accumulateDnsTcpResponse buffer []
  if !accumulated.complete then 0
  else if accumulated.parsed.transactionId ≠ some transactionId then
    let rest := accumulated.buffer.drop (frameBytes accumulated.buffer)
    if rest = [] then 0 else dropped transactionId rest+1
  else 0
termination_by buffer.length
decreasing_by exact length_rest (by assumption)

theorem uint16_append {p : Bytes} {i : ℕ} (h : i+2 ≤ p.length) (s : Bytes) :
    uint16 (p++s) i = uint16 p i := by
  unfold uint16
  rw [List.getD_append p s 0 i (by omega),List.getD_append p s 0 (i+1) (by omega)]

theorem uint16_le (b : Bytes) (i : ℕ) : uint16 b i ≤ 0xffff := by
  have h1 := (b.getD i 0).toNat_lt
  have h2 := (b.getD (i+1) 0).toNat_lt
  unfold uint16
  omega

theorem accumulate_append (responseBuffer chunk : Bytes) :
    accumulateDnsTcpResponse responseBuffer chunk =
      accumulateDnsTcpResponse (responseBuffer++chunk) [] := by
  simp only [accumulateDnsTcpResponse,List.append_nil]

/-- What a buffer within the limit holds: less than a frame, a malformed length, or a frame. -/
theorem parse_cases (b : Bytes) :
    (b.length < 2 ∧ parseDnsResponseHeader b = pending none b) ∨
    (2 ≤ b.length ∧ uint16 b 0 < 12 ∧
      parseDnsResponseHeader b = refused (idAt b 2) b "malformed_response") ∨
    (2 ≤ b.length ∧ 12 ≤ uint16 b 0 ∧ b.length < uint16 b 0+2 ∧
      parseDnsResponseHeader b = pending (idAt b 2) b) ∨
    (12 ≤ uint16 b 0 ∧ uint16 b 0+2 ≤ b.length ∧
      parseDnsResponseHeader b = readHeader ((b.drop 2).take (uint16 b 0))) := by
  unfold parseDnsResponseHeader
  simp only
  split_ifs with h1 h2 h3 h4
  · exact Or.inl ⟨h1,rfl⟩
  · exact Or.inr (Or.inl ⟨by omega,h2,rfl⟩)
  · exact Or.inr (Or.inr (Or.inl ⟨by omega,by omega,h3,rfl⟩))
  · simp only [List.length_take,List.length_drop] at h4
    omega
  · exact Or.inr (Or.inr (Or.inr ⟨by omega,by omega,rfl⟩))

theorem message_append {p : Bytes} (h : uint16 p 0+2 ≤ p.length) (s : Bytes) :
    ((p++s).drop 2).take (uint16 p 0) = (p.drop 2).take (uint16 p 0) := by
  rw [List.drop_append_of_le_length (by omega),List.take_append_of_le_length]
  rw [List.length_drop]
  omega

section Axfr
variable (structureOf : Bytes → MessageStructure) (queryId : ℕ)

/-- The outcome of a buffer, nothing when its frame is not complete. -/
def answer (b : Bytes) : Option AxfrOutcome :=
  if maxDnsTcpResponseBytes < b.length then
    some (frameOutcome structureOf queryId (refused (idAt b 2) [] "response_too_large"))
  else if (parseDnsResponseHeader b).incomplete then none
  else some (frameOutcome structureOf queryId (parseDnsResponseHeader b))

/-- The session on the chunks still to come. -/
def settle : List Bytes → Bytes → AxfrOutcome
  | [],buffer => closedBeforeFrame queryId buffer
  | chunk::chunks,buffer => (answer structureOf queryId (buffer++chunk)).getD
      (settle chunks (buffer++chunk))

variable {structureOf queryId}

theorem settled_final (events : List AxfrEvent) {s : AxfrSession} {o : AxfrOutcome}
    (h : s.settled = some o) :
    (events.foldl (AxfrSession.step structureOf queryId) s).settled = some o := by
  induction events generalizing s with
  | nil => exact h
  | cons event events ih =>
      refine ih ?_
      simp only [AxfrSession.step,h]

theorem step_data (buffer chunk : Bytes) :
    AxfrSession.step structureOf queryId ⟨buffer,none⟩ (.data chunk) =
      match answer structureOf queryId (buffer++chunk) with
      | some o => ⟨(accumulateDnsTcpResponse buffer chunk).buffer,some o⟩
      | none => ⟨buffer++chunk,none⟩ := by
  simp only [AxfrSession.step,answer]
  unfold accumulateDnsTcpResponse
  simp only
  split_ifs with h1 h2 h3
  · cases h2
  · rfl
  · rfl
  · simp_all
  · simp_all
  · rfl

theorem run_eq_settle (chunks : List Bytes) (buffer : Bytes) :
    ((chunks.map AxfrEvent.data++[AxfrEvent.ended]).foldl (AxfrSession.step structureOf queryId)
      ⟨buffer,none⟩).settled = some (settle structureOf queryId chunks buffer) := by
  induction chunks generalizing buffer with
  | nil => rfl
  | cons chunk chunks ih =>
      rw [List.map_cons,List.cons_append,List.foldl_cons,step_data,settle]
      cases answer structureOf queryId (buffer++chunk) with
      | some o => exact settled_final _ rfl
      | none => exact ih _

theorem runDnsTcpAxfrQuery_eq (chunks : List Bytes) :
    runDnsTcpAxfrQuery structureOf queryId chunks = some (settle structureOf queryId chunks []) :=
  run_eq_settle chunks []

/-- The stream is no longer than one frame can be and, from four bytes on, starts with a
length that a message can have. -/
def SteadyStart (b : Bytes) : Prop :=
  b.length ≤ maxDnsTcpResponseBytes ∧ (4 ≤ b.length → 12 ≤ uint16 b 0)

theorem answer_append {p s : Bytes} (hsteady : SteadyStart (p++s)) {o : AxfrOutcome}
    (h : answer structureOf queryId p = some o) : answer structureOf queryId (p++s) = some o := by
  obtain ⟨hmax,hlong⟩ := hsteady
  rw [List.length_append] at hmax hlong
  have hp : ¬ maxDnsTcpResponseBytes < p.length := by omega
  have hps : ¬ maxDnsTcpResponseBytes < (p++s).length := by
    rw [List.length_append]
    omega
  unfold answer at h ⊢
  rw [if_neg hp] at h
  rw [if_neg hps]
  rcases parse_cases p with ⟨_,hparse⟩ | ⟨h2,hd,hparse⟩ | ⟨_,_,_,hparse⟩ | ⟨hd,hlen,hparse⟩
  · rw [hparse] at h
    cases h
  · rw [hparse] at h
    have hid : ∀ q : Bytes,q.length < 4 → idAt q 2 = none := by
      intro q hq
      exact if_neg (by omega)
    have hshort : (p++s).length < 4 := by
      rw [List.length_append]
      by_contra hc
      have := hlong (by omega)
      rw [uint16_append (by omega)] at this
      omega
    have hd' : uint16 (p++s) 0 < 12 := by rwa [uint16_append (by omega)]
    rcases parse_cases (p++s) with ⟨hl,_⟩ | ⟨_,_,hparse'⟩ | ⟨_,hl,_⟩ | ⟨hl,_⟩
    · rw [List.length_append] at hl
      omega
    · rw [List.length_append] at hshort
      rw [hparse',hid (p++s) (by rw [List.length_append]; exact hshort)]
      rw [hid p (by omega)] at h
      exact h
    · omega
    · omega
  · rw [hparse] at h
    cases h
  · have h0 : uint16 (p++s) 0 = uint16 p 0 := uint16_append (by omega) s
    rcases parse_cases (p++s) with ⟨hl,_⟩ | ⟨_,hl,_⟩ | ⟨_,_,hl,_⟩ | ⟨_,_,hparse'⟩
    · rw [List.length_append] at hl
      omega
    · omega
    · rw [List.length_append] at hl
      omega
    · rw [hparse',h0,message_append hlen,← hparse]
      exact h

theorem settle_steady (chunks : List Bytes) (buffer : Bytes)
    (hsteady : SteadyStart (buffer++chunks.flatten))
    (hbuffer : answer structureOf queryId buffer = none) :
    settle structureOf queryId chunks buffer =
      (answer structureOf queryId (buffer++chunks.flatten)).getD
        (closedBeforeFrame queryId (buffer++chunks.flatten)) := by
  induction chunks generalizing buffer with
  | nil =>
      rw [List.flatten_nil,List.append_nil,hbuffer]
      rfl
  | cons chunk chunks ih =>
      rw [List.flatten_cons,← List.append_assoc] at hsteady ⊢
      rw [settle]
      cases hanswer : answer structureOf queryId (buffer++chunk) with
      | some o =>
          rw [answer_append hsteady hanswer]
          rfl
      | none => exact ih _ hsteady hanswer

/-- Every outcome of a frame carries the code of the header. -/
theorem frameOutcome_rcode (parsed : ParsedHeader) :
    (frameOutcome structureOf queryId parsed).rcode = some parsed.rcode := by
  unfold frameOutcome
  by_cases hother : parsed.transactionId.isSome ∧ parsed.transactionId ≠ some queryId
  · rw [if_pos hother]
  · rw [if_neg hother]
    split
    · rfl
    · unfold messageOutcome
      simp only
      split_ifs <;> rfl

theorem refused_match (id : Option ℕ) (message : Bytes) (reason : String) :
    (frameOutcome structureOf queryId (refused id message reason)).transactionIdMatch =
      some (id.map fun id => decide (id = queryId)) := by
  unfold frameOutcome refused
  cases id with
  | none => rfl
  | some id =>
      by_cases h : id = queryId
      · simp [h]
      · simp [h]

theorem settle_two {p s : Bytes} {o : AxfrOutcome} (h : answer structureOf queryId p = some o) :
    settle structureOf queryId [p,s] [] = o := by
  rw [settle,List.nil_append,h]
  rfl

theorem settle_one {b : Bytes} {o : AxfrOutcome} (h : answer structureOf queryId b = some o) :
    settle structureOf queryId [b] [] = o := by
  rw [settle,List.nil_append,h]
  rfl

/-- A chunking of a stream. -/
def Cuts (b : Bytes) (chunks : List Bytes) : Prop := chunks.flatten = b ∧ ∀ chunk ∈ chunks,chunk ≠ []

theorem cuts_one {b : Bytes} (h : b ≠ []) : Cuts b [b] := by
  refine ⟨by simp,fun chunk hc => ?_⟩
  rwa [List.mem_singleton.mp hc]

theorem cuts_two {b : Bytes} {k : ℕ} (hk : 0 < k) (hb : k < b.length) :
    Cuts b [b.take k,b.drop k] := by
  refine ⟨by simp,fun chunk hc => ?_⟩
  simp only [List.mem_cons,List.not_mem_nil,or_false] at hc
  rcases hc with rfl | rfl
  · apply List.ne_nil_of_length_pos
    rw [List.length_take]
    omega
  · apply List.ne_nil_of_length_pos
    rw [List.length_drop]
    omega

theorem answer_too_large {b : Bytes} (h : maxDnsTcpResponseBytes < b.length) :
    answer structureOf queryId b =
      some (frameOutcome structureOf queryId (refused (idAt b 2) [] "response_too_large")) :=
  if_pos h

/-- The first two bytes of a malformed frame settle the session without an id. -/
theorem answer_length_only {b : Bytes} (hlen : 2 ≤ b.length) (hd : uint16 b 0 < 12) :
    answer structureOf queryId (b.take 2) = some (frameOutcome structureOf queryId
      (refused none (b.take 2) "malformed_response")) := by
  have htwo : (b.take 2).length = 2 := by
    rw [List.length_take]
    omega
  have h0 : uint16 (b.take 2) 0 = uint16 b 0 := by
    conv_rhs => rw [← List.take_append_drop 2 b,uint16_append (by omega)]
  unfold answer
  rw [if_neg (by rw [htwo]; decide)]
  rcases parse_cases (b.take 2) with ⟨hl,_⟩ | ⟨_,_,hparse⟩ | ⟨_,hl,_⟩ | ⟨hl,_⟩
  · omega
  · have hid : idAt (b.take 2) 2 = none := if_neg (by omega)
    rw [hparse,hid]
    rfl
  · omega
  · omega

theorem answer_whole_malformed {b : Bytes} (hmax : b.length ≤ maxDnsTcpResponseBytes)
    (hlen : 2 ≤ b.length) (hd : uint16 b 0 < 12) :
    answer structureOf queryId b = some (frameOutcome structureOf queryId
      (refused (idAt b 2) b "malformed_response")) := by
  unfold answer
  rw [if_neg (by omega)]
  rcases parse_cases b with ⟨hl,_⟩ | ⟨_,_,hparse⟩ | ⟨_,hl,_⟩ | ⟨hl,_⟩
  · omega
  · rw [hparse]
    rfl
  · omega
  · omega

/-- The bytes of the first frame alone settle the session with a code. -/
theorem answer_first_frame {b : Bytes} (hd : 12 ≤ uint16 b 0) (hlen : uint16 b 0+2 ≤ b.length) :
    ∃ o code,answer structureOf queryId (b.take (uint16 b 0+2)) = some o ∧
      o.rcode = some (some code) := by
  have hle := uint16_le b 0
  have hframe : (b.take (uint16 b 0+2)).length = uint16 b 0+2 := by
    rw [List.length_take]
    omega
  have h0 : uint16 (b.take (uint16 b 0+2)) 0 = uint16 b 0 := by
    conv_rhs => rw [← List.take_append_drop (uint16 b 0+2) b,uint16_append (by omega)]
  unfold answer
  rw [if_neg (by rw [hframe,maxDnsTcpResponseBytes]; omega)]
  rcases parse_cases (b.take (uint16 b 0+2)) with ⟨hl,_⟩ | ⟨_,hl,_⟩ | ⟨_,_,hl,_⟩ | ⟨_,_,hparse⟩
  · omega
  · omega
  · omega
  · rw [hparse]
    exact ⟨_,_,rfl,(frameOutcome_rcode _).trans rfl⟩

/-- Two chunkings of any other stream settle with different outcomes. -/
theorem exists_cut {b : Bytes} (h : ¬ SteadyStart b) :
    ∃ k,Cuts b [b] ∧ Cuts b [b.take k,b.drop k] ∧
      settle structureOf queryId [b] [] ≠ settle structureOf queryId [b.take k,b.drop k] [] := by
  have hle := uint16_le b 0
  have hmatch : ∀ {o o' : AxfrOutcome},o.transactionIdMatch ≠ o'.transactionIdMatch → o ≠ o' :=
    fun hne heq => hne (heq ▸ rfl)
  have hlong : 4 ≤ b.length ∧ (maxDnsTcpResponseBytes < b.length ∨ uint16 b 0 < 12) := by
    unfold SteadyStart at h
    rw [maxDnsTcpResponseBytes] at *
    omega
  have hid : idAt b 2 = some (uint16 b 2) := if_pos hlong.1
  have hone : Cuts b [b] := cuts_one (List.ne_nil_of_length_pos (by omega))
  by_cases hd : uint16 b 0 < 12
  · refine ⟨2,hone,cuts_two (by omega) (by omega),?_⟩
    rw [settle_two (answer_length_only (by omega) hd)]
    by_cases hmax : maxDnsTcpResponseBytes < b.length
    · rw [settle_one (answer_too_large hmax)]
      refine hmatch ?_
      rw [refused_match,refused_match,hid]
      simp
    · rw [settle_one (answer_whole_malformed (by omega) (by omega) hd)]
      refine hmatch ?_
      rw [refused_match,refused_match,hid]
      simp
  · have hmax : maxDnsTcpResponseBytes < b.length := hlong.2.resolve_right hd
    have hframe : uint16 b 0+2 < b.length := by
      rw [maxDnsTcpResponseBytes] at hmax
      omega
    obtain ⟨o,code,ho,hcode⟩ := @answer_first_frame structureOf queryId b (by omega)
      (by omega)
    refine ⟨uint16 b 0+2,hone,cuts_two (by omega) hframe,?_⟩
    rw [settle_two ho,settle_one (answer_too_large hmax)]
    rintro rfl
    rw [frameOutcome_rcode] at hcode
    cases hcode

theorem axfr_chunking_iff (b : Bytes) :
    (∀ chunks chunks',Cuts b chunks → Cuts b chunks' →
      runDnsTcpAxfrQuery structureOf queryId chunks =
        runDnsTcpAxfrQuery structureOf queryId chunks') ↔ SteadyStart b := by
  constructor
  · intro hall
    by_contra hsteady
    obtain ⟨k,h1,h2,hne⟩ := @exists_cut structureOf queryId b hsteady
    have heq := hall _ _ h1 h2
    rw [runDnsTcpAxfrQuery_eq,runDnsTcpAxfrQuery_eq] at heq
    exact hne (Option.some.inj heq)
  · rintro hsteady chunks chunks' ⟨rfl,_⟩ ⟨hflat,_⟩
    have hempty : answer structureOf queryId [] = none := rfl
    rw [runDnsTcpAxfrQuery_eq,runDnsTcpAxfrQuery_eq,settle_steady chunks [] hsteady hempty,
      settle_steady chunks' [] (by rw [List.nil_append,hflat]; exact hsteady) hempty,
      List.nil_append,List.nil_append,hflat]

end Axfr

/-- Every frame the query looks at, up to its reply, has a length a message can have, or is
empty and not followed by the id of the query. The last bytes may be less than a frame. -/
inductive WellFramed (id : ℕ) : Bytes → Prop
  | short {b : Bytes} : b.length < 4 → WellFramed id b
  | cut {b : Bytes} : 12 ≤ uint16 b 0 → b.length < uint16 b 0+2 → WellFramed id b
  | reply {b : Bytes} : 12 ≤ uint16 b 0 → uint16 b 0+2 ≤ b.length → uint16 b 2 = id →
      WellFramed id b
  | other {b : Bytes} : 12 ≤ uint16 b 0 → uint16 b 0+2 ≤ b.length → uint16 b 2 ≠ id →
      WellFramed id (b.drop (uint16 b 0+2)) → WellFramed id b
  | empty {b : Bytes} : uint16 b 0 = 0 → uint16 b 2 ≠ id → WellFramed id (b.drop 2) →
      WellFramed id b

section Query
variable {id : ℕ} {b : Bytes}

theorem accumulate_within (h : b.length ≤ maxDnsTcpResponseBytes) :
    accumulateDnsTcpResponse b [] =
      ⟨b,parseDnsResponseHeader b,!(parseDnsResponseHeader b).incomplete⟩ := by
  simp only [accumulateDnsTcpResponse,List.append_nil]
  rw [if_neg (by omega)]

theorem readFrames_pending (h : b.length ≤ maxDnsTcpResponseBytes)
    (hpending : (parseDnsResponseHeader b).incomplete = true) :
    readFrames id b = (b,none) ∧ dropped id b = 0 := by
  rw [readFrames,dropped]
  simp [accumulate_within h,hpending]

/-- The first bytes of a buffer are dropped, and the rest is looked at when there is a rest. -/
structure Drops (id : ℕ) (b : Bytes) (k : ℕ) : Prop where
  read : readFrames id b = readFrames id (b.drop k)
  count : dropped id b = if b.drop k = [] then 0 else dropped id (b.drop k)+1

theorem drops_other (h : b.length ≤ maxDnsTcpResponseBytes)
    (hcomplete : (parseDnsResponseHeader b).incomplete = false)
    (hid : (parseDnsResponseHeader b).transactionId ≠ some id) : Drops id b (frameBytes b) := by
  have hread : readFrames id b = if b.drop (frameBytes b) = [] then (b.drop (frameBytes b),none)
      else readFrames id (b.drop (frameBytes b)) := by
    rw [readFrames]
    simp only [accumulate_within h,hcomplete,Bool.not_false,Bool.not_true,Bool.false_eq_true,
      if_false,if_pos hid]
  constructor
  · rw [hread]
    split_ifs with hrest
    · rw [hrest,(readFrames_pending (Nat.zero_le _) rfl).1]
    · rfl
  · rw [dropped]
    simp only [accumulate_within h,hcomplete,Bool.not_false,Bool.not_true,Bool.false_eq_true,
      if_false,if_pos hid]

theorem readFrames_reply (h : b.length ≤ maxDnsTcpResponseBytes)
    (hcomplete : (parseDnsResponseHeader b).incomplete = false)
    (hid : (parseDnsResponseHeader b).transactionId = some id) :
    readFrames id b = (b,some (replyOf (parseDnsResponseHeader b))) ∧ dropped id b = 0 := by
  rw [readFrames,dropped]
  simp only [accumulate_within h,hcomplete,hid,Bool.not_false,Bool.not_true,Bool.false_eq_true,
    if_false,ne_eq,not_true_eq_false,and_self]

/-- The handler reads what it would read without end, as long as its calls fit. -/
theorem onData_eq (room : ℕ) (responseBuffer chunk : Bytes) :
    onData id room responseBuffer chunk = if dropped id (responseBuffer++chunk) ≤ room then
      some (readFrames id (responseBuffer++chunk)) else none := by
  induction room generalizing responseBuffer chunk with
  | zero =>
      rw [onData,readFrames,dropped,accumulate_append]
      simp only
      split_ifs <;> simp_all
  | succ room ih =>
      rw [onData,readFrames,dropped,accumulate_append]
      simp only [ih,List.append_nil]
      split_ifs <;> simp_all
      omega

/-- Fewer than four bytes are never a reply. A malformed length is dropped with its two bytes. -/
theorem readFrames_short (h : b.length < 4) : (readFrames id b).2 = none ∧
    ((readFrames id b).1 = b ∨ (readFrames id b).1.length+2 ≤ b.length) ∧
    (b.length < 3 → dropped id b = 0) := by
  induction hn : b.length using Nat.strong_induction_on generalizing b with
  | h n ih =>
      have hmax : b.length ≤ maxDnsTcpResponseBytes := by
        rw [maxDnsTcpResponseBytes]
        omega
      have hpending : (parseDnsResponseHeader b).incomplete = true → (readFrames id b).2 = none ∧
          ((readFrames id b).1 = b ∨ (readFrames id b).1.length+2 ≤ n) ∧
          (n < 3 → dropped id b = 0) := by
        intro hp
        obtain ⟨hread,hcount⟩ : readFrames id b = (b,none) ∧ dropped id b = 0 :=
          readFrames_pending hmax hp
        rw [hread]
        exact ⟨rfl,Or.inl rfl,fun _ => hcount⟩
      rcases parse_cases b with ⟨_,hparse⟩ | ⟨h2,_,hparse⟩ | ⟨_,_,_,hparse⟩ | ⟨_,_,_⟩
      · exact hpending (by rw [hparse]; rfl)
      · have hnone : idAt b 2 = none := if_neg (by omega)
        have hdrops : Drops id b (frameBytes b) := drops_other hmax (by rw [hparse]; rfl)
          (by rw [hparse,refused,hnone]; simp)
        have htwo : 2 ≤ frameBytes b := by
          unfold frameBytes
          rw [if_pos h2]
          omega
        have hdrop : (b.drop (frameBytes b)).length+2 ≤ n := by
          rw [List.length_drop]
          omega
        obtain ⟨hno,hleft,-⟩ := @ih (b.drop (frameBytes b)).length (by omega) (b.drop (frameBytes b))
          (by omega) rfl
        refine ⟨hdrops.read ▸ hno,Or.inr ?_,fun h3 => ?_⟩
        · rw [hdrops.read]
          rcases hleft with he | hle
          · rw [he]
            exact hdrop
          · omega
        · rw [hdrops.count,if_pos]
          exact List.length_eq_zero_iff.mp (by omega)
      · exact hpending (by rw [hparse]; rfl)
      · omega

/-- What is left of a read buffer leads to the reply the whole stream leads to, and to no more
calls than the whole stream. -/
structure Carries (id : ℕ) (p s : Bytes) : Prop where
  settled : ∀ reply,(readFrames id p).2 = some reply → (readFrames id (p++s)).2 = some reply
  framed : (readFrames id p).2 = none → WellFramed id ((readFrames id p).1++s)
  within : (readFrames id p).2 = none →
    ((readFrames id p).1++s).length ≤ maxDnsTcpResponseBytes
  same : (readFrames id p).2 = none →
    (readFrames id ((readFrames id p).1++s)).2 = (readFrames id (p++s)).2
  calls : dropped id p ≤ dropped id (p++s)
  left : (readFrames id p).2 = none →
    dropped id ((readFrames id p).1++s) ≤ dropped id (p++s)

theorem carries_pending {p s : Bytes} (hframed : WellFramed id (p++s))
    (hmax : (p++s).length ≤ maxDnsTcpResponseBytes)
    (hpending : (parseDnsResponseHeader p).incomplete = true) : Carries id p s := by
  have hp : p.length ≤ maxDnsTcpResponseBytes := by
    rw [List.length_append] at hmax
    omega
  obtain ⟨hread,hcount⟩ : readFrames id p = (p,none) ∧ dropped id p = 0 :=
    readFrames_pending hp hpending
  refine ⟨fun reply h => ?_,fun _ => ?_,fun _ => ?_,fun _ => ?_,?_,fun _ => ?_⟩
  · rw [hread] at h
    cases h
  · rw [hread]
    exact hframed
  · rw [hread]
    exact hmax
  · rw [hread]
  · rw [hcount]
    exact Nat.zero_le _
  · rw [hread]

theorem carries_skip {p s : Bytes} {k : ℕ} (hk : k ≤ p.length) (hp : Drops id p k)
    (hps : Drops id (p++s) k) (h : Carries id (p.drop k) s) : Carries id p s := by
  have hrest : (p++s).drop k = p.drop k++s := List.drop_append_of_le_length hk
  have hread := hps.read
  have hcount := hps.count
  rw [hrest] at hread hcount
  refine ⟨fun reply hr => ?_,fun hn => ?_,fun hn => ?_,fun hn => ?_,?_,fun hn => ?_⟩
  · rw [hp.read] at hr
    rw [hread]
    exact h.settled reply hr
  · rw [hp.read] at hn ⊢
    exact h.framed hn
  · rw [hp.read] at hn ⊢
    exact h.within hn
  · rw [hp.read] at hn ⊢
    rw [hread]
    exact h.same hn
  · have hcalls := h.calls
    rw [hp.count,hcount]
    by_cases hnone : p.drop k = []
    · rw [if_pos hnone]
      exact Nat.zero_le _
    · rw [if_neg hnone,if_neg fun he => hnone (List.append_eq_nil_iff.mp he).1]
      omega
  · rw [hp.read] at hn ⊢
    refine (h.left hn).trans ?_
    rw [hcount]
    split_ifs with hnone
    · rw [hnone,(readFrames_pending (Nat.zero_le _) rfl).2]
    · omega

theorem frameBytes_eq {p : Bytes} (h : uint16 p 0+2 ≤ p.length) : frameBytes p = uint16 p 0+2 := by
  unfold frameBytes
  rw [if_pos (by omega)]
  omega

theorem uint16_message (p : Bytes) {k : ℕ} (hk : 2 ≤ k) :
    uint16 ((p.drop 2).take k) 0 = uint16 p 2 := by
  unfold uint16
  simp only [List.getD_eq_getElem?_getD,List.getElem?_take,List.getElem?_drop]
  rw [if_pos (by omega),if_pos (by omega)]

/-- A frame with a valid length is read as soon as it is there. -/
theorem parse_frame {p : Bytes} (hd : 12 ≤ uint16 p 0) (hlen : uint16 p 0+2 ≤ p.length) :
    (parseDnsResponseHeader p).incomplete = false ∧
      (parseDnsResponseHeader p).transactionId = some (uint16 p 2) := by
  rcases parse_cases p with ⟨hl,_⟩ | ⟨_,hl,_⟩ | ⟨_,_,hl,_⟩ | ⟨_,_,hparse⟩
  · omega
  · omega
  · omega
  · rw [hparse]
    exact ⟨rfl,congrArg some (uint16_message p (by omega))⟩

theorem parse_malformed {p : Bytes} (h2 : 2 ≤ p.length) (hd : uint16 p 0 < 12) :
    (parseDnsResponseHeader p).incomplete = false ∧
      (parseDnsResponseHeader p).transactionId = idAt p 2 := by
  rcases parse_cases p with ⟨hl,_⟩ | ⟨_,_,hparse⟩ | ⟨_,hl,_⟩ | ⟨hl,_⟩
  · omega
  · rw [hparse]
    exact ⟨rfl,rfl⟩
  · omega
  · omega

theorem parse_pending {p : Bytes} (h : p.length < 2 ∨ (12 ≤ uint16 p 0 ∧ p.length < uint16 p 0+2)) :
    (parseDnsResponseHeader p).incomplete = true := by
  rcases parse_cases p with ⟨_,hparse⟩ | ⟨_,_,_⟩ | ⟨_,_,_,hparse⟩ | ⟨_,_,_⟩
  · rw [hparse]
    rfl
  · omega
  · rw [hparse]
    rfl
  · omega

theorem carries (p s : Bytes) (hframed : WellFramed id (p++s))
    (hmax : (p++s).length ≤ maxDnsTcpResponseBytes) : Carries id p s := by
  induction hn : p.length using Nat.strong_induction_on generalizing p with
  | h n ih =>
      have hp : p.length ≤ maxDnsTcpResponseBytes := by
        rw [List.length_append] at hmax
        omega
      by_cases h2 : p.length < 2
      · exact carries_pending hframed hmax (parse_pending (Or.inl h2))
      have h0 : uint16 (p++s) 0 = uint16 p 0 := uint16_append (by omega) s
      have hshorter : ∀ k,0 < k → k ≤ p.length → WellFramed id ((p++s).drop k) →
          Carries id (p.drop k) s := by
        intro k hk hkp hdrop
        rw [List.drop_append_of_le_length hkp] at hdrop
        refine ih _ ?_ _ hdrop ?_ rfl
        · rw [List.length_drop]
          omega
        · simp only [List.length_append,List.length_drop] at hmax ⊢
          omega
      cases hframed with
      | short hlen =>
          have hshort : p.length < 4 := by
            rw [List.length_append] at hlen
            omega
          obtain ⟨hnone,hcases,hfew⟩ : (readFrames id p).2 = none ∧
              ((readFrames id p).1 = p ∨ (readFrames id p).1.length+2 ≤ p.length) ∧
              (p.length < 3 → dropped id p = 0) := readFrames_short hshort
          have hleft : ((readFrames id p).1++s).length < 4 := by
            rw [List.length_append] at hlen ⊢
            rcases hcases with he | hle
            · rw [he]
              exact hlen
            · omega
          refine ⟨fun reply h => ?_,fun _ => .short hleft,fun _ => ?_,fun _ => ?_,?_,fun _ => ?_⟩
          · rw [hnone] at h
            cases h
          · rw [maxDnsTcpResponseBytes]
            omega
          · rw [(readFrames_short hleft).1,(readFrames_short hlen).1]
          · by_cases hs : s = []
            · rw [hs,List.append_nil]
            · have hpos := List.length_pos_iff.mpr hs
              rw [List.length_append] at hlen
              rw [hfew (by omega)]
              exact Nat.zero_le _
          · rcases hcases with he | hle
            · rw [he]
            · rw [(readFrames_short hleft).2.2]
              · exact Nat.zero_le _
              · rw [List.length_append] at hlen ⊢
                omega
      | cut hd hlen =>
          refine carries_pending (.cut hd hlen) hmax (parse_pending (Or.inr ?_))
          rw [h0] at hd hlen
          rw [List.length_append] at hlen
          exact ⟨hd,by omega⟩
      | reply hd hlen hid =>
          by_cases hwhole : uint16 p 0+2 ≤ p.length
          · have hd' : 12 ≤ uint16 p 0 := h0 ▸ hd
            have hid' : uint16 p 2 = id := by rw [← hid,uint16_append (by omega)]
            obtain ⟨hc,ht⟩ := parse_frame hd' hwhole
            obtain ⟨hc',ht'⟩ := parse_frame hd hlen
            have hsame : parseDnsResponseHeader (p++s) = parseDnsResponseHeader p := by
              rcases parse_cases p with ⟨_,_⟩ | ⟨_,_,_⟩ | ⟨_,_,_,_⟩ | ⟨_,_,hparse⟩
              · omega
              · omega
              · omega
              · rcases parse_cases (p++s) with ⟨hl,_⟩ | ⟨_,hl,_⟩ | ⟨_,_,hl,_⟩ | ⟨_,_,hparse'⟩
                · omega
                · omega
                · omega
                · rw [hparse,hparse',h0,message_append hwhole]
            obtain ⟨hread,hcount⟩ := readFrames_reply hp hc (ht.trans (congrArg some hid'))
            have hread' := (readFrames_reply hmax hc' (ht'.trans (congrArg some hid))).1
            rw [hsame] at hread'
            refine ⟨fun reply h => ?_,fun h => ?_,fun h => ?_,fun h => ?_,?_,fun h => ?_⟩
            · rw [hread] at h
              rw [hread']
              exact h
            case refine_5 =>
              rw [hcount]
              exact Nat.zero_le _
            all_goals
              rw [hread] at h
              cases h
          · exact carries_pending (.reply hd hlen hid) hmax
              (parse_pending (Or.inr ⟨h0 ▸ hd,by omega⟩))
      | other hd hlen hid hrest =>
          by_cases hwhole : uint16 p 0+2 ≤ p.length
          · have hd' : 12 ≤ uint16 p 0 := h0 ▸ hd
            have hid' : uint16 p 2 ≠ id := by rwa [← uint16_append (by omega) s]
            obtain ⟨hc,ht⟩ := parse_frame hd' hwhole
            obtain ⟨hc',ht'⟩ := parse_frame hd hlen
            have hread := drops_other hp hc (by rw [ht]; simpa using hid')
            have hread' := drops_other hmax hc' (by rw [ht']; simpa using hid)
            rw [frameBytes_eq hwhole] at hread
            rw [frameBytes_eq hlen,h0] at hread'
            rw [h0] at hrest
            exact carries_skip hwhole hread hread' (hshorter _ (by omega) hwhole hrest)
          · exact carries_pending (.other hd hlen hid hrest) hmax
              (parse_pending (Or.inr ⟨h0 ▸ hd,by omega⟩))
      | empty hd hid hrest =>
          have hd' : uint16 p 0 = 0 := by rw [← h0,hd]
          have hskip : ∀ q : Bytes,2 ≤ q.length → q.length ≤ maxDnsTcpResponseBytes →
              uint16 q 0 = 0 → (4 ≤ q.length → uint16 q 2 ≠ id) → Drops id q 2 := by
            intro q hq hqmax hzero hne
            obtain ⟨hc,ht⟩ := parse_malformed hq (by omega)
            have hother : idAt q 2 ≠ some id := by
              unfold idAt
              split_ifs with hq4
              · simpa using hne hq4
              · nofun
            have hread := drops_other hqmax hc (by rw [ht]; exact hother)
            rwa [frameBytes_eq (by omega),hzero] at hread
          refine carries_skip (by omega) (hskip p (by omega) hp hd' ?_)
            (hskip (p++s) (by rw [List.length_append]; omega) hmax hd fun _ => hid)
            (hshorter 2 (by omega) (by omega) hrest)
          intro h4
          rwa [← uint16_append (by omega) s]

/-- Nothing more is read from what is left. -/
theorem readFrames_left (p : Bytes) (hmax : p.length ≤ maxDnsTcpResponseBytes)
    (h : (readFrames id p).2 = none) : (readFrames id (readFrames id p).1).2 = none := by
  induction hn : p.length using Nat.strong_induction_on generalizing p with
  | h n ih =>
      cases hc : (parseDnsResponseHeader p).incomplete with
      | true =>
          rw [(readFrames_pending hmax hc).1]
          rw [(readFrames_pending hmax hc).1]
      | false =>
          by_cases hid : (parseDnsResponseHeader p).transactionId = some id
          · rw [(readFrames_reply hmax hc hid).1] at h
            cases h
          · rw [(drops_other hmax hc hid).read] at h ⊢
            have hne : p ≠ [] := by
              rintro rfl
              cases hc
            have hpos := frameBytes_pos hne
            have hlen := List.length_pos_iff.mpr hne
            refine ih _ ?_ _ ?_ h rfl
            · rw [List.length_drop]
              omega
            · rw [List.length_drop]
              omega

variable {room : ℕ}

theorem query_final (events : List QueryEvent) {s : QuerySession}
    (h : (s.settled.isSome || s.thrown) = true) :
    events.foldl (QuerySession.step id room) s = s := by
  induction events with
  | nil => rfl
  | cons event events ih =>
      have hstep : QuerySession.step id room s event = s := if_pos h
      rw [List.foldl_cons,hstep,ih]

/-- A chunk whose frames fit on the stack. -/
theorem step_fits {buffer chunk : Bytes} (h : dropped id (buffer++chunk) ≤ room) :
    QuerySession.step id room ⟨buffer,none,false⟩ (.data chunk) =
      ⟨(readFrames id (buffer++chunk)).1,(readFrames id (buffer++chunk)).2.map Except.ok,false⟩ := by
  simp only [QuerySession.step,onData_eq,if_pos h]
  rfl

theorem step_overflows {buffer chunk : Bytes} (h : room < dropped id (buffer++chunk)) :
    QuerySession.step id room ⟨buffer,none,false⟩ (.data chunk) = ⟨buffer,none,true⟩ := by
  simp only [QuerySession.step,onData_eq,if_neg (not_le.mpr h)]
  rfl

theorem query_run (chunks : List Bytes) (buffer : Bytes)
    (hframed : WellFramed id (buffer++chunks.flatten))
    (hmax : (buffer++chunks.flatten).length ≤ maxDnsTcpResponseBytes)
    (hroom : dropped id (buffer++chunks.flatten) ≤ room)
    (hbuffer : (readFrames id buffer).2 = none) :
    ((chunks.map QueryEvent.data++[QueryEvent.ended]).foldl (QuerySession.step id room)
      ⟨buffer,none,false⟩).settled =
      some (.ok ((readFrames id (buffer++chunks.flatten)).2.getD noReply)) := by
  induction chunks generalizing buffer with
  | nil =>
      rw [List.flatten_nil,List.append_nil,hbuffer]
      rfl
  | cons chunk chunks ih =>
      rw [List.flatten_cons,← List.append_assoc] at hframed hmax hroom ⊢
      have hcarries := carries _ _ hframed hmax
      have hwithin : (buffer++chunk).length ≤ maxDnsTcpResponseBytes := by
        rw [List.length_append] at hmax
        omega
      rw [List.map_cons,List.cons_append,List.foldl_cons,
        step_fits (hcarries.calls.trans hroom)]
      cases hread : (readFrames id (buffer++chunk)).2 with
      | some reply =>
          rw [hcarries.settled reply hread,query_final _ rfl]
          rfl
      | none =>
          rw [Option.map_none,ih _ (hcarries.framed hread) (hcarries.within hread)
            ((hcarries.left hread).trans hroom) (readFrames_left _ hwithin hread),
            hcarries.same hread]

theorem sendDnsTcp_eq {chunks : List Bytes} (hframed : WellFramed id chunks.flatten)
    (hmax : chunks.flatten.length ≤ maxDnsTcpResponseBytes)
    (hroom : dropped id chunks.flatten ≤ room) : sendDnsTcp id room chunks =
      some (.ok ((readFrames id chunks.flatten).2.getD noReply)) := by
  refine query_run chunks [] hframed hmax hroom ?_
  rw [(readFrames_pending (Nat.zero_le _) rfl).1]

/-- In one chunk, too many frames overflow the stack. -/
theorem sendDnsTcp_overflows (h : room < dropped id b) : sendDnsTcp id room [b] = none := by
  unfold sendDnsTcp
  rw [List.map_cons,List.cons_append,List.foldl_cons,step_overflows h,query_final _ rfl]

/-- Zero bytes are empty frames, each of which is dropped. -/
theorem dropped_zeros (hid : id ≠ 0) (n : ℕ) (h : 2*(n+1) ≤ maxDnsTcpResponseBytes) :
    dropped id (List.replicate (2*(n+1)) 0) = n := by
  induction n with
  | zero => exact (readFrames_short (by simp)).2.2 (by simp)
  | succ n ih =>
      have hlength : (List.replicate (2*(n+1+1)) (0 : UInt8)).length = 2*(n+1+1) :=
        List.length_replicate
      have hzero : ∀ i,uint16 (List.replicate (2*(n+1+1)) 0) i = 0 := by
        intro i
        simp [uint16]
      obtain ⟨hc,ht⟩ := @parse_malformed (List.replicate (2*(n+1+1)) 0) (by omega)
        (by rw [hzero]; norm_num)
      have hother : idAt (List.replicate (2*(n+1+1)) 0) 2 ≠ some id := by
        rw [idAt,if_pos (by omega),hzero]
        simpa using hid.symm
      have hcount := (drops_other (by omega) hc (by rw [ht]; exact hother)).count
      rw [frameBytes_eq (by rw [hzero]; omega),hzero,List.drop_replicate,
        show 2*(n+1+1)-(0+2) = 2*(n+1) by omega,ih (by omega)] at hcount
      rw [hcount,if_neg]
      exact List.ne_nil_of_length_pos (by simp)

/-- As many zero bytes as one chunk may bring overflow any stack of fewer calls. -/
theorem zeros_overflow (hid : id ≠ 0) (h : 2*(room+2) ≤ maxDnsTcpResponseBytes) :
    sendDnsTcp id room [List.replicate (2*(room+2)) 0] = none := by
  refine sendDnsTcp_overflows ?_
  rw [dropped_zeros hid (room+1) h]
  exact lt_add_one room

/-- One more byte completes at most the frame that is pending. -/
theorem frameBytes_byte {x : UInt8} (hpending : (parseDnsResponseHeader b).incomplete = true)
    (hcomplete : (parseDnsResponseHeader (b++[x])).incomplete = false) :
    frameBytes (b++[x]) = (b++[x]).length := by
  have hlength : (b++[x]).length = b.length+1 := by rw [List.length_append,List.length_singleton]
  have hwhole : ¬ ((b++[x]).length < 2 ∨
      (12 ≤ uint16 (b++[x]) 0 ∧ (b++[x]).length < uint16 (b++[x]) 0+2)) := by
    intro h
    rw [parse_pending h] at hcomplete
    cases hcomplete
  unfold frameBytes
  rcases parse_cases b with ⟨_,_⟩ | ⟨_,_,hparse⟩ | ⟨h2,hd,hlen,_⟩ | ⟨_,_,hparse⟩
  · rw [if_pos (by omega)]
    omega
  · rw [hparse] at hpending
    cases hpending
  · rw [uint16_append h2] at hwhole ⊢
    rw [if_pos (by omega)]
    omega
  · rw [hparse] at hpending
    cases hpending

theorem read_byte {x : UInt8} (hpending : (parseDnsResponseHeader b).incomplete = true)
    (hmax : (b++[x]).length ≤ maxDnsTcpResponseBytes) : dropped id (b++[x]) = 0 ∧
      ((readFrames id (b++[x])).2 = none →
        (parseDnsResponseHeader (readFrames id (b++[x])).1).incomplete = true ∧
          (readFrames id (b++[x])).1.length ≤ (b++[x]).length) := by
  cases hc : (parseDnsResponseHeader (b++[x])).incomplete with
  | true =>
      obtain ⟨hread,hcount⟩ : readFrames id (b++[x]) = (b++[x],none) ∧ dropped id (b++[x]) = 0 :=
        readFrames_pending hmax hc
      rw [hread]
      exact ⟨hcount,fun _ => ⟨hc,le_rfl⟩⟩
  | false =>
      by_cases hid : (parseDnsResponseHeader (b++[x])).transactionId = some id
      · obtain ⟨hread,hcount⟩ := readFrames_reply hmax hc hid
        refine ⟨hcount,fun h => ?_⟩
        rw [hread] at h
        cases h
      · have hdrops := drops_other hmax hc hid
        rw [frameBytes_byte hpending hc] at hdrops
        rw [hdrops.count,hdrops.read,List.drop_length,(readFrames_pending (Nat.zero_le _) rfl).1]
        exact ⟨rfl,fun _ => ⟨rfl,Nat.zero_le _⟩⟩

theorem bytes_settle (bytes buffer : Bytes)
    (hmax : (buffer++bytes).length ≤ maxDnsTcpResponseBytes)
    (hpending : (parseDnsResponseHeader buffer).incomplete = true) :
    (((bytes.map fun x => [x]).map QueryEvent.data++[QueryEvent.ended]).foldl
      (QuerySession.step id room) ⟨buffer,none,false⟩).settled ≠ none := by
  induction bytes generalizing buffer with
  | nil => exact nofun
  | cons x bytes ih =>
      rw [← List.singleton_append,← List.append_assoc] at hmax
      have hwithin : (buffer++[x]).length ≤ maxDnsTcpResponseBytes := by
        rw [List.length_append] at hmax
        omega
      obtain ⟨hcount,hleft⟩ := @read_byte id buffer x hpending hwithin
      rw [List.map_cons,List.map_cons,List.cons_append,List.foldl_cons,step_fits (by omega)]
      cases hread : (readFrames id (buffer++[x])).2 with
      | some reply =>
          rw [query_final _ rfl]
          exact nofun
      | none =>
          obtain ⟨hpending',hshorter⟩ := hleft hread
          refine ih _ ?_ hpending'
          rw [List.length_append] at hmax ⊢
          omega

theorem cuts_bytes (b : Bytes) : Cuts b (b.map fun x => [x]) := by
  refine ⟨List.flatMap_singleton' b,fun chunk hc => ?_⟩
  obtain ⟨x,-,rfl⟩ := List.mem_map.mp hc
  exact List.cons_ne_nil x []

/-- On a well framed stream the plain query settles with one outcome for every chunking exactly
when the stack has room for the frames that it drops. -/
theorem query_chunking_iff (hmax : b.length ≤ maxDnsTcpResponseBytes) (hframed : WellFramed id b) :
    (∀ chunks chunks',Cuts b chunks → Cuts b chunks' →
      sendDnsTcp id room chunks = sendDnsTcp id room chunks') ↔ dropped id b ≤ room := by
  constructor
  · intro hall
    by_contra hover
    have hne : b ≠ [] := by
      rintro rfl
      rw [(readFrames_pending (Nat.zero_le _) rfl).2] at hover
      exact hover (Nat.zero_le _)
    have hsame := hall _ _ (cuts_one hne) (cuts_bytes b)
    rw [sendDnsTcp_overflows (not_le.mp hover)] at hsame
    exact bytes_settle b [] hmax rfl hsame.symm
  · rintro hroom chunks chunks' ⟨rfl,_⟩ ⟨hflat,_⟩
    rw [sendDnsTcp_eq hframed hmax hroom,
      sendDnsTcp_eq (hflat ▸ hframed) (hflat ▸ hmax) (hflat ▸ hroom),hflat]

end Query

/-- The zone transfer settles with one outcome for every chunking exactly when its stream is
no longer than a frame can be and does not start with a malformed length followed by an id.
The plain query does so, on streams of that length that are well framed, exactly when the stack
has room for the frames that it drops. -/
theorem dns_tcp_chunking (structureOf : Bytes → MessageStructure) (id : ℕ) (b : Bytes) :
    ((∀ chunks chunks',Cuts b chunks → Cuts b chunks' →
      runDnsTcpAxfrQuery structureOf id chunks = runDnsTcpAxfrQuery structureOf id chunks') ↔
        SteadyStart b) ∧
    ∀ room,b.length ≤ maxDnsTcpResponseBytes → WellFramed id b →
      ((∀ chunks chunks',Cuts b chunks → Cuts b chunks' →
        sendDnsTcp id room chunks = sendDnsTcp id room chunks') ↔ dropped id b ≤ room) :=
  ⟨axfr_chunking_iff b,fun _ => query_chunking_iff⟩

/-- The server sends a zero length and the query's id, in one chunk or cut after the length.
Cut, the length is refused before the id has arrived. -/
theorem malformed_length_cut :
    ¬ ∀ (structureOf : Bytes → MessageStructure) (id room : ℕ) (b : Bytes)
      (chunks chunks' : List Bytes),Cuts b chunks → Cuts b chunks' →
        runDnsTcpAxfrQuery structureOf id chunks = runDnsTcpAxfrQuery structureOf id chunks' ∧
        sendDnsTcp id room chunks = sendDnsTcp id room chunks' := by
  intro h
  have hcut := (h (fun _ => ⟨0,0,false,false,none,false,false,none⟩) 0x1234 8 [0,0,0x12,0x34]
    [[0,0,0x12,0x34]] [[0,0],[0x12,0x34]] ⟨rfl,by decide⟩ ⟨rfl,by decide⟩).1
  exact absurd hcut (by decide)

/-- A reply of one header, whole and cut inside its length. -/
theorem reply_cut :
    sendDnsTcp 0x1234 0 [[0,12,0x12,0x34,0x81,0x80,0,1,0,0,0,0,0,0]] =
      sendDnsTcp 0x1234 0 [[0],[12,0x12,0x34,0x81,0x80,0,1,0,0,0,0,0,0]] := by
  have hcount : dropped 0x1234 [0,12,0x12,0x34,0x81,0x80,0,1,0,0,0,0,0,0] = 0 :=
    (readFrames_reply (by decide) (by decide) (by decide)).2
  exact ((dns_tcp_chunking (fun _ => ⟨0,0,false,false,none,false,false,none⟩) 0x1234
    [0,12,0x12,0x34,0x81,0x80,0,1,0,0,0,0,0,0]).2 0 (by decide)
    (.reply (by decide) (by decide) (by decide))).mpr hcount.le _ _ ⟨rfl,by decide⟩ ⟨rfl,by decide⟩

end AstraNull.DnsTcp

import Mathlib
import AstraNull.DnsNames

/-!
# The structure of a DNS response

`parseDnsResponseStructure` of `dnsTcpWire.mjs`, with its three section loops and every early
return. A `try` block hands on a read outside the buffer and turns any other fault into the
result its `catch` block returns, so that the parser's result shows whether such a read occurs.

The layout of a message is described apart from the parser: `Questions` and `Records` lay the
entries of a section end to end between two offsets.
-/
namespace AstraNull.DnsStructure
open DnsTcp (Bytes uint16)
open DnsNames JsonText

def maxDnsSectionRecords : ℕ := 8192

/-- `options.expectedQuestion`; the name may be missing. -/
structure ExpectedQuestion where
  name : Option JsString
  qtype : ℕ
  qclass : ℕ

/-- The reported object; a field is nothing when the object does not have it. -/
structure ResponseStructure where
  questionCount : ℕ := 0
  answerCount : ℕ := 0
  completeAnswerCount : ℕ := 0
  soaAnswerCount : ℕ := 0
  hasCompleteAnswer : Bool := false
  hasCompleteSoa : Bool := false
  questionMatches : Option Bool := none
  axfrBoundarySoaMatch : Option Bool := none
  structureValid : Bool := false
  matchingAnswerCount : Option ℕ := none
  reason : Option String := none
deriving DecidableEq

structure ParsedQuestion where
  name : JsString
  qtype : ℕ
  qclass : ℕ

/-- The parts of the text that identifies an SOA record. -/
structure SoaIdentity where
  mname : JsString
  rname : JsString
  integers : List ℕ
deriving DecidableEq

structure AnswerIdentity where
  name : JsString
  type : ℕ
  qclass : ℕ
  soaIdentity : Option SoaIdentity

structure Tally where
  completeAnswerCount : ℕ := 0
  soaAnswerCount : ℕ := 0
  matchingAnswerCount : ℕ := 0
  answerIdentities : List AnswerIdentity := []

/-- `replace(/\.+$/, '')`. -/
def dropDots (s : JsString) : JsString := s.rdropWhile (· == 46)

/-- A `try` block whose `catch` does not look at the error. -/
def attempt {α : Type} : Except Fault α → Except Fault (Option α)
  | .ok a => .ok (some a)
  | .error (.range _) => .ok none
  | .error .outside => .error .outside

section
variable (toLowerCase : JsString → JsString) (message : Bytes)

/-- The reads of five integers end where the data ends. -/
def validateSoaRdata (startOffset endOffset : ℕ) : Except Fault SoaIdentity := do
  let mname ← parseDnsName toLowerCase message startOffset
  if endOffset < mname.nextOffset then .error (.range "Malformed SOA RDATA.")
  else
    let rname ← parseDnsName toLowerCase message mname.nextOffset
    if rname.nextOffset+20 ≠ endOffset then .error (.range "Malformed SOA RDATA.")
    else
      let integers ← [0,4,8,12,16].mapM fun k => readUInt32BE message (rname.nextOffset+k)
      pure ⟨mname.name,rname.name,integers⟩

def readQuestion (offset : ℕ) : Except Fault (ParsedQuestion × ℕ) := do
  let parsedName ← parseDnsName toLowerCase message offset
  let offset := parsedName.nextOffset
  if message.length < offset+4 then .error (.range "Malformed DNS question.")
  else
    let qtype ← readUInt16BE message offset
    let qclass ← readUInt16BE message (offset+2)
    pure (⟨parsedName.name,qtype,qclass⟩,offset+4)

def readQuestions : ℕ → ℕ → Except Fault (List ParsedQuestion × ℕ)
  | 0,offset => pure ([],offset)
  | count+1,offset => do
      let question ← readQuestion toLowerCase message offset
      let rest ← readQuestions count question.2
      pure (question.1::rest.1,rest.2)

variable (expected : Option ExpectedQuestion)

/-- Whether the first question is not the expected one. -/
def questionMismatch (questions : List ParsedQuestion) : Bool :=
  match expected,questions with
  | none,_ => false
  | some _,[] => true
  | some e,question::_ =>
      let expectedName := dropDots (toLowerCase (ScriptText.trim (e.name.getD [])))
      expectedName.isEmpty || question.name != expectedName || question.qtype != e.qtype ||
        question.qclass != e.qclass

/-- Whether an answer counts as one to the question; a key record must have its fixed part.
The name is not trimmed here. -/
def answerMatches (owner : ParsedName) (type rdlength : ℕ) : Except Fault Bool :=
  match expected with
  | none => pure false
  | some e =>
      if owner.name = dropDots (toLowerCase (e.name.getD (js "undefined"))) ∧ type = e.qtype then do
        let qclass ← readUInt16BE message (owner.nextOffset+2)
        if qclass = e.qclass then
          if type = 48 then
            if rdlength < 5 then .error (.range "Malformed DNSKEY RDATA.")
            else
              let protocol ← byteAt message (owner.nextOffset+12)
              if protocol ≠ 3 then .error (.range "Malformed DNSKEY RDATA.") else pure true
          else pure true
        else pure false
      else pure false

def checkNameData (type rdataStart rdataEnd : ℕ) : Except Fault Unit :=
  if type ∈ [2,5,12] then do
    let name ← parseDnsName toLowerCase message rdataStart
    if name.nextOffset ≠ rdataEnd then .error (.range "Malformed DNS name RDATA.") else pure ()
  else pure ()

/-- Type `0x21` is read as a NetBIOS node status: a count of names of 18 bytes each and 46
bytes of statistics. -/
def checkTypedData (type rdataStart rdlength : ℕ) : Except Fault Unit :=
  if type = 1 ∧ rdlength ≠ 4 ∨ type = 28 ∧ rdlength ≠ 16 then
    .error (.range "Malformed typed DNS RDATA.")
  else if type = 0x21 then
    if rdlength < 47 then .error (.range "Malformed typed DNS RDATA.")
    else do
      let names ← byteAt message rdataStart
      if rdlength ≠ 47+names*18 then .error (.range "Malformed typed DNS RDATA.") else pure ()
  else pure ()

/-- The inner `try` block, for an SOA record; nothing is the return of its `catch`. -/
def checkSoa (type rdataStart rdataEnd : ℕ) : Except Fault (Option (Option SoaIdentity)) :=
  if type = 6 then
    attempt (do
      let identity ← validateSoaRdata toLowerCase message rdataStart rdataEnd
      pure (some identity))
  else pure (some none)

/-- One round of the answer loop; nothing when the inner `catch` returns. -/
def readAnswer (offset : ℕ) (tally : Tally) : Except Fault (Option (Tally × ℕ)) := do
  let owner ← parseDnsName toLowerCase message offset
  let offset := owner.nextOffset
  if message.length < offset+10 then .error (.range "Malformed DNS answer.")
  else
    let type ← readUInt16BE message offset
    let rdlength ← readUInt16BE message (offset+8)
    let rdataStart := offset+10
    let rdataEnd := rdataStart+rdlength
    if message.length < rdataEnd then .error (.range "Malformed DNS RDATA.")
    else
      let matching ← answerMatches toLowerCase message expected owner type rdlength
      checkNameData toLowerCase message type rdataStart rdataEnd
      checkTypedData message type rdataStart rdlength
      match ← checkSoa toLowerCase message type rdataStart rdataEnd with
      | none => pure none
      | some soaIdentity =>
          let qclass ← readUInt16BE message (offset+2)
          pure (some ({
            completeAnswerCount := tally.completeAnswerCount+1
            soaAnswerCount := tally.soaAnswerCount+if type = 6 then 1 else 0
            matchingAnswerCount := tally.matchingAnswerCount+if matching then 1 else 0
            answerIdentities := tally.answerIdentities++[⟨owner.name,type,qclass,soaIdentity⟩] },
            rdataEnd))

/-- The answer loop: the tally with the offset after the section, or the tally at the record
that ends the parse with the reason reported for it. -/
def readAnswers : ℕ → ℕ → Tally → Except Fault (Tally × ℕ ⊕ Tally × String)
  | 0,offset,tally => pure (.inl (tally,offset))
  | count+1,offset,tally => do
      match ← attempt (readAnswer toLowerCase message expected offset tally) with
      | none => pure (.inr (tally,"malformed_answer_section"))
      | some none => pure (.inr (tally,"malformed_soa_rdata"))
      | some (some next) => readAnswers count next.2 next.1

def readRemainingRecord (offset : ℕ) : Except Fault ℕ := do
  let owner ← parseDnsName toLowerCase message offset
  let offset := owner.nextOffset
  if message.length < offset+10 then .error (.range "Malformed DNS record.")
  else
    let rdlength ← readUInt16BE message (offset+8)
    let last := offset+10+rdlength
    if message.length < last then .error (.range "Malformed DNS RDATA.")
    else
      let type ← readUInt16BE message offset
      if type = 6 then
        let _ ← validateSoaRdata toLowerCase message (offset+10) last
        pure last
      else pure last

def readRemaining : ℕ → ℕ → Except Fault Unit
  | 0,offset =>
      if offset ≠ message.length then .error (.range "Trailing DNS bytes.") else pure ()
  | count+1,offset => do
      let next ← readRemainingRecord toLowerCase message offset
      readRemaining count next

/-- Whether a zone transfer starts and ends with the same SOA record of the zone. -/
def axfrBoundaryMatch (identities : List AnswerIdentity) : Bool :=
  match expected,identities.head?,identities.getLast? with
  | some e,some first,some last =>
      let zone := dropDots (toLowerCase (e.name.getD []))
      e.qtype = 252 ∧ 2 ≤ identities.length ∧ first.type = 6 ∧ last.type = 6 ∧ first.qclass = 1 ∧
        last.qclass = 1 ∧ first.name = zone ∧ last.name = zone ∧
        first.soaIdentity = last.soaIdentity
  | _,_,_ => false

def parseDnsResponseStructure : Except Fault ResponseStructure :=
  if message.length < 12 then pure { reason := some "malformed_response" }
  else do
    let questionCount ← readUInt16BE message 4
    let answerCount ← readUInt16BE message 6
    let base : ResponseStructure :=
      { questionCount, answerCount, questionMatches := expected.map fun _ => false }
    if maxDnsSectionRecords < questionCount ∨ maxDnsSectionRecords < answerCount then
      pure { base with reason := some "section_count_exceeded" }
    else if expected.isSome ∧ questionCount ≠ 1 then
      pure { base with reason := some "unexpected_question_count" }
    else
      match ← attempt (readQuestions toLowerCase message questionCount 12) with
      | none => pure { base with reason := some "malformed_question_section" }
      | some (questions,offset) =>
          if questionMismatch toLowerCase expected questions then
            pure { base with reason := some "question_mismatch" }
          else
            let base := { base with questionMatches := expected.map fun _ => true }
            match ← readAnswers toLowerCase message expected answerCount offset {} with
            | .inr (tally,reason) =>
                pure { base with
                  completeAnswerCount := tally.completeAnswerCount
                  soaAnswerCount := tally.soaAnswerCount
                  hasCompleteAnswer := 0 < tally.completeAnswerCount
                  hasCompleteSoa := 0 < tally.soaAnswerCount
                  reason := some reason }
            | .inl (tally,offset) =>
                let authorityCount ← readUInt16BE message 8
                let additionalCount ← readUInt16BE message 10
                if maxDnsSectionRecords < authorityCount+additionalCount then
                  pure { base with reason := some "section_count_exceeded" }
                else
                  match ← attempt (readRemaining toLowerCase message
                      (authorityCount+additionalCount) offset) with
                  | none =>
                      pure { base with
                        completeAnswerCount := tally.completeAnswerCount
                        soaAnswerCount := tally.soaAnswerCount
                        reason := some "malformed_remaining_sections" }
                  | some () =>
                      pure { base with
                        completeAnswerCount := tally.completeAnswerCount
                        soaAnswerCount := tally.soaAnswerCount
                        hasCompleteAnswer := 0 < tally.completeAnswerCount
                        hasCompleteSoa := 0 < tally.soaAnswerCount
                        axfrBoundarySoaMatch :=
                          some (axfrBoundaryMatch toLowerCase expected tally.answerIdentities)
                        structureValid := true
                        matchingAnswerCount := some tally.matchingAnswerCount }

end

/-- A resource record: its owner, type, and the offsets its data lies between. -/
structure Record where
  owner : List Bytes
  type : ℕ
  start : ℕ
  stop : ℕ
deriving DecidableEq

/-- The record whose fixed part stands at an offset. -/
def recordAt (message : Bytes) (a : ℕ) (owner : List Bytes) : Record :=
  ⟨owner,uint16 message a,a+10,a+10+uint16 message (a+8)⟩

/-- Questions with the given names, one after the other between two offsets. -/
inductive Questions (message : Bytes) : ℕ → ℕ → List (List Bytes) → Prop
  | nil {c : ℕ} : Questions message c c []
  | cons {c a d : ℕ} {name : List Bytes} {names : List (List Bytes)} :
      IsName message c a name → a+4 ≤ message.length → Questions message (a+4) d names →
      Questions message c d (name::names)

/-- Records one after the other between two offsets, each with data of the given kind. -/
inductive Records (message : Bytes) (data : Record → Prop) : ℕ → ℕ → List Record → Prop
  | nil {c : ℕ} : Records message data c c []
  | cons {c a d : ℕ} {owner : List Bytes} {records : List Record} :
      IsName message c a owner → a+10+uint16 message (a+8) ≤ message.length →
      data (recordAt message a owner) →
      Records message data (a+10+uint16 message (a+8)) d records →
      Records message data c d (recordAt message a owner::records)

/-- Two names and five integers of four bytes. -/
def SoaData (message : Bytes) (r : Record) : Prop :=
  ∃ middle last mname rname,IsName message r.start middle mname ∧
    IsName message middle last rname ∧ last+20 = r.stop

/-- The data of a NetBIOS node status. -/
def NodeStatusData (message : Bytes) (r : Record) : Prop :=
  47 ≤ r.stop-r.start ∧ r.stop-r.start = 47+(message.getD r.start 0).toNat*18

instance (message : Bytes) (r : Record) : Decidable (NodeStatusData message r) :=
  inferInstanceAs (Decidable (_ ∧ _))

/-- What is checked of the data of an answer. -/
structure AnswerData (message : Bytes) (r : Record) : Prop where
  name : r.type ∈ [2,5,12] → ∃ labels,IsName message r.start r.stop labels
  address : r.type = 1 → r.stop = r.start+4
  address6 : r.type = 28 → r.stop = r.start+16
  soa : r.type = 6 → SoaData message r
  nodeStatus : r.type = 0x21 → NodeStatusData message r

/-- What is checked of the data of an authority or additional record. -/
def RemainingData (message : Bytes) (r : Record) : Prop := r.type = 6 → SoaData message r

/-- The message is its header and the sections the header counts, with nothing after them. -/
structure Layout (message : Bytes) (answerData remainingData : Record → Prop)
    (questions : List (List Bytes)) (answers remaining : List Record) : Prop where
  header : 12 ≤ message.length
  questionCount : questions.length = uint16 message 4
  answerCount : answers.length = uint16 message 6
  remainingCount : remaining.length = uint16 message 8+uint16 message 10
  sections : ∃ a b,Questions message 12 a questions ∧ Records message answerData a b answers ∧
    Records message remainingData b message.length remaining

/-- No read leaves the buffer, and a result is as described. -/
def Meets {α : Type} (x : Except Fault α) (post : α → Prop) : Prop :=
  x ≠ .error .outside ∧ ∀ a,x = .ok a → post a

theorem meets_pure {α : Type} {a : α} {post : α → Prop} (h : post a) :
    Meets (pure a) post := by
  refine ⟨by simp [pure,Except.pure],?_⟩
  intro b hb
  cases hb
  exact h

theorem meets_range {α : Type} {text : String} {post : α → Prop} :
    Meets (.error (.range text)) post :=
  ⟨by simp,by simp⟩

theorem meets_bind {α β : Type} {x : Except Fault α} {f : α → Except Fault β} {pre : α → Prop}
    {post : β → Prop} (hx : Meets x pre) (hf : ∀ a,pre a → Meets (f a) post) :
    Meets (x >>= f) post := by
  cases x with
  | ok a => exact hf a (hx.2 a rfl)
  | error fault =>
      refine ⟨?_,by simp [bind,Except.bind]⟩
      intro h
      exact hx.1 (by simpa [bind,Except.bind] using h)

theorem Meets.mono {α : Type} {x : Except Fault α} {post post' : α → Prop} (h : Meets x post)
    (hpost : ∀ a,post a → post' a) : Meets x post' :=
  ⟨h.1,fun a ha => hpost a (h.2 a ha)⟩

theorem meets_attempt {α : Type} {x : Except Fault α} {post : α → Prop} (h : Meets x post) :
    ∃ result,attempt x = .ok result ∧ ∀ a,result = some a → post a := by
  cases x with
  | ok a => exact ⟨some a,rfl,fun b hb => h.2 b (by cases hb; rfl)⟩
  | error fault =>
      cases fault with
      | range text => exact ⟨none,rfl,by simp⟩
      | outside => exact absurd rfl h.1

theorem meets_uint16 {message : Bytes} {i : ℕ} (h : i+2 ≤ message.length) :
    Meets (readUInt16BE message i) fun n => n = uint16 message i := by
  rw [readUInt16BE_eq h]
  exact meets_pure rfl

theorem meets_byte {message : Bytes} {i : ℕ} (h : i < message.length) :
    Meets (byteAt message i) fun n => n = (message.getD i 0).toNat := by
  rw [byteAt_eq h]
  exact meets_pure rfl

section Sound
variable {toLowerCase : JsString → JsString} {message : Bytes}

theorem meets_name (c : ℕ) :
    Meets (parseDnsName toLowerCase message c) fun r =>
      ∃ labels,IsName message c r.nextOffset labels ∧ r.name = nameText toLowerCase labels := by
  refine ⟨?_,fun r h => parseDnsName_sound h⟩
  intro h
  exact (parseDnsName_fault h).1 rfl

theorem readIntegers_eq {c : ℕ} (h : c+20 ≤ message.length) :
    ∃ integers,([0,4,8,12,16].mapM fun k => readUInt32BE message (c+k)) =
      (.ok integers : Except Fault (List ℕ)) := by
  have hread : ∀ k ∈ [0,4,8,12,16],readUInt32BE message (c+k) =
      .ok (uint16 message (c+k)*65536+uint16 message (c+k+2)) := by
    intro k hk
    apply readUInt32BE_eq
    simp only [List.mem_cons,List.not_mem_nil,or_false] at hk
    omega
  refine ⟨[0,4,8,12,16].map fun k => uint16 message (c+k)*65536+uint16 message (c+k+2),?_⟩
  simp only [List.mapM_cons,List.mapM_nil,hread 0 (by simp),hread 4 (by simp),hread 8 (by simp),
    hread 12 (by simp),hread 16 (by simp)]
  rfl

theorem meets_soa {owner : List Bytes} {type start stop : ℕ} (hstop : stop ≤ message.length) :
    Meets (validateSoaRdata toLowerCase message start stop) fun _ =>
      SoaData message ⟨owner,type,start,stop⟩ := by
  refine meets_bind (meets_name start) ?_
  rintro mname ⟨mlabels,hm,_⟩
  split_ifs with hin
  · exact meets_range
  · refine meets_bind (meets_name _) ?_
    rintro rname ⟨rlabels,hr,_⟩
    split_ifs with hlast
    · exact meets_range
    · have hend : rname.nextOffset+20 = stop := not_not.mp hlast
      obtain ⟨integers,hi⟩ := @readIntegers_eq message rname.nextOffset (by omega)
      rw [hi]
      exact meets_pure ⟨_,_,_,_,hm,hr,hend⟩

theorem meets_question (c : ℕ) :
    Meets (readQuestion toLowerCase message c) fun r =>
      ∃ a name,IsName message c a name ∧ a+4 ≤ message.length ∧ r.2 = a+4 := by
  refine meets_bind (meets_name c) ?_
  rintro parsed ⟨name,hname,_⟩
  dsimp only
  split_ifs with hend
  · exact meets_range
  · rw [readUInt16BE_eq (by omega),readUInt16BE_eq (by omega)]
    exact meets_pure ⟨_,name,hname,by omega,rfl⟩

theorem meets_questions (count c : ℕ) :
    Meets (readQuestions toLowerCase message count c) fun r =>
      ∃ names,Questions message c r.2 names ∧ names.length = count := by
  induction count generalizing c with
  | zero => exact meets_pure ⟨[],.nil,rfl⟩
  | succ count ih =>
      refine meets_bind (meets_question c) ?_
      rintro question ⟨a,name,hname,hend,hnext⟩
      refine meets_bind (ih _) ?_
      rintro rest ⟨names,hnames,hlen⟩
      rw [hnext] at hnames
      exact meets_pure ⟨name::names,.cons hname hend hnames,by simp [hlen]⟩

theorem meets_matches (expected : Option ExpectedQuestion) (owner : ParsedName)
    (type rdlength : ℕ) (h : owner.nextOffset+10+rdlength ≤ message.length) :
    Meets (answerMatches toLowerCase message expected owner type rdlength) fun _ => True := by
  cases expected with
  | none => exact meets_pure trivial
  | some e =>
      simp only [answerMatches]
      split
      · refine meets_bind (meets_uint16 (by omega)) ?_
        rintro qclass _
        split
        · split
          · split
            · exact meets_range
            · refine meets_bind (meets_byte (by omega)) ?_
              rintro protocol _
              split
              · exact meets_range
              · exact meets_pure trivial
          · exact meets_pure trivial
        · exact meets_pure trivial
      · exact meets_pure trivial

theorem meets_nameData (type start stop : ℕ) :
    Meets (checkNameData toLowerCase message type start stop) fun _ =>
      type ∈ [2,5,12] → ∃ labels,IsName message start stop labels := by
  unfold checkNameData
  split_ifs with htype
  · refine meets_bind (meets_name start) ?_
    rintro name ⟨labels,hname,_⟩
    split_ifs with hend
    · exact meets_range
    · rw [not_not.mp hend] at hname
      exact meets_pure fun _ => ⟨labels,hname⟩
  · exact meets_pure fun ht => absurd ht htype

theorem meets_typedData {type start rdlength : ℕ} (h : start+rdlength ≤ message.length) :
    Meets (checkTypedData message type start rdlength) fun _ =>
      (type = 1 → rdlength = 4) ∧ (type = 28 → rdlength = 16) ∧
        (type = 0x21 → 47 ≤ rdlength ∧ rdlength = 47+(message.getD start 0).toNat*18) := by
  unfold checkTypedData
  split_ifs with haddress hstatus hshort
  · exact meets_range
  · exact meets_range
  · refine meets_bind (meets_byte (by omega)) ?_
    rintro names rfl
    split_ifs with hnames
    · exact meets_range
    · exact meets_pure ⟨by omega,by omega,fun _ => ⟨by omega,not_not.mp hnames⟩⟩
  · exact meets_pure ⟨by omega,by omega,fun ht => absurd ht hstatus⟩

theorem meets_checkSoa {owner : List Bytes} {type start stop : ℕ}
    (hstop : stop ≤ message.length) :
    Meets (checkSoa toLowerCase message type start stop) fun soa =>
      ∀ identity,soa = some identity → type = 6 → SoaData message ⟨owner,type,start,stop⟩ := by
  unfold checkSoa
  split
  · obtain ⟨result,hresult,hpost⟩ := meets_attempt (meets_bind
      (@meets_soa toLowerCase message owner type start stop hstop) fun identity hdata =>
        @meets_pure _ (some identity) (fun _ => SoaData message ⟨owner,type,start,stop⟩) hdata)
    rw [hresult]
    exact meets_pure fun identity hi _ => hpost identity hi
  next htype => exact meets_pure fun _ _ h => absurd h htype

/-- A counted answer is a record with checked data. -/
theorem meets_answer (expected : Option ExpectedQuestion) (c : ℕ) (tally : Tally) :
    Meets (readAnswer toLowerCase message expected c tally) fun r =>
      ∀ next,r = some next → ∃ a owner,IsName message c a owner ∧
        a+10+uint16 message (a+8) ≤ message.length ∧
        AnswerData message (recordAt message a owner) ∧ next.2 = a+10+uint16 message (a+8) ∧
        next.1.completeAnswerCount = tally.completeAnswerCount+1 ∧
        next.1.soaAnswerCount = tally.soaAnswerCount+if uint16 message a = 6 then 1 else 0 := by
  refine meets_bind (meets_name c) ?_
  rintro owner ⟨labels,hname,_⟩
  dsimp only
  split
  · exact meets_range
  next hfixed =>
  refine meets_bind (meets_uint16 (by omega)) ?_
  rintro type rfl
  refine meets_bind (meets_uint16 (by omega)) ?_
  rintro rdlength rfl
  split
  · exact meets_range
  next hdata =>
  refine meets_bind (meets_matches _ _ _ _ (by omega)) ?_
  rintro matching _
  refine meets_bind (meets_nameData _ _ _) ?_
  rintro _ hnames
  refine meets_bind (meets_typedData (by omega)) ?_
  rintro _ ⟨haddress,haddress6,hstatus⟩
  refine meets_bind (@meets_checkSoa toLowerCase message labels _ _ _ (by omega)) ?_
  rintro soa hkept
  cases soa with
  | none => exact meets_pure (by simp)
  | some identity =>
      refine meets_bind (meets_uint16 (by omega)) ?_
      rintro qclass _
      refine meets_pure ?_
      rintro next hnext
      cases hnext
      refine ⟨owner.nextOffset,labels,hname,by omega,?_,rfl,rfl,rfl⟩
      refine ⟨hnames,?_,?_,hkept identity rfl,?_⟩
      · intro htype
        simpa [recordAt] using haddress htype
      · intro htype
        simpa [recordAt] using haddress6 htype
      · intro htype
        simpa [recordAt,NodeStatusData] using hstatus htype

theorem readAnswers_sound (expected : Option ExpectedQuestion) (count c : ℕ) (tally : Tally) :
    ∃ result,readAnswers toLowerCase message expected count c tally = .ok result ∧
      ∀ t d,result = .inl (t,d) → ∃ answers,
        Records message (AnswerData message) c d answers ∧ answers.length = count ∧
        t.completeAnswerCount = tally.completeAnswerCount+count ∧
        t.soaAnswerCount = tally.soaAnswerCount+answers.countP (·.type = 6) := by
  induction count generalizing c tally with
  | zero =>
      refine ⟨.inl (tally,c),rfl,?_⟩
      rintro t d h
      cases h
      exact ⟨[],.nil,rfl,rfl,rfl⟩
  | succ count ih =>
      obtain ⟨round,hround,hpost⟩ :=
        meets_attempt (@meets_answer toLowerCase message expected c tally)
      simp only [readAnswers,hround,bind,Except.bind]
      cases round with
      | none => exact ⟨_,rfl,by simp⟩
      | some next =>
          cases next with
          | none => exact ⟨_,rfl,by simp⟩
          | some next =>
              obtain ⟨a,owner,hname,hend,hdata,hnext,hcount,hsoa⟩ := hpost _ rfl next rfl
              obtain ⟨result,hresult,hrest⟩ := ih next.2 next.1
              refine ⟨result,hresult,?_⟩
              intro t d h
              obtain ⟨answers,hanswers,hlen,htotal,hsoas⟩ := hrest t d h
              rw [hnext] at hanswers
              refine ⟨_,.cons hname hend hdata hanswers,by simp [hlen],by omega,?_⟩
              rw [List.countP_cons,hsoas,hsoa]
              by_cases htype : uint16 message a = 6
              · simp [recordAt,htype]
                omega
              · simp [recordAt,htype]

theorem meets_remainingRecord (c : ℕ) :
    Meets (readRemainingRecord toLowerCase message c) fun next =>
      ∃ a owner,IsName message c a owner ∧ a+10+uint16 message (a+8) ≤ message.length ∧
        RemainingData message (recordAt message a owner) ∧ next = a+10+uint16 message (a+8) := by
  refine meets_bind (meets_name c) ?_
  rintro owner ⟨labels,hname,_⟩
  dsimp only
  split
  · exact meets_range
  next hfixed =>
  refine meets_bind (meets_uint16 (by omega)) ?_
  rintro rdlength rfl
  split
  · exact meets_range
  next hdata =>
  refine meets_bind (meets_uint16 (by omega)) ?_
  rintro type rfl
  split
  · refine meets_bind (@meets_soa toLowerCase message labels
      (uint16 message owner.nextOffset) _ _ (by omega)) ?_
    rintro _ hsoa
    exact meets_pure ⟨_,labels,hname,by omega,fun _ => hsoa,rfl⟩
  next htype =>
    exact meets_pure ⟨_,labels,hname,by omega,fun h => absurd h htype,rfl⟩

theorem meets_remaining (count c : ℕ) :
    Meets (readRemaining toLowerCase message count c) fun _ =>
      ∃ records,Records message (RemainingData message) c message.length records ∧
        records.length = count := by
  induction count generalizing c with
  | zero =>
      simp only [readRemaining]
      split
      · exact meets_range
      next hlast =>
        rw [not_not.mp hlast]
        exact meets_pure ⟨[],.nil,rfl⟩
  | succ count ih =>
      refine meets_bind (meets_remainingRecord c) ?_
      rintro next ⟨a,owner,hname,hend,hdata,rfl⟩
      refine (ih _).mono ?_
      rintro _ ⟨records,hrecords,hlen⟩
      exact ⟨_,.cons hname hend hdata hrecords,by simp [hlen]⟩

/-- The parser returns, and a message it calls valid has the layout its header announces. -/
theorem parse_sound (expected : Option ExpectedQuestion) :
    ∃ r,parseDnsResponseStructure toLowerCase message expected = .ok r ∧
      (r.structureValid = true → ∃ questions answers remaining,
        Layout message (AnswerData message) (RemainingData message) questions answers remaining ∧
        r.completeAnswerCount = answers.length ∧
        r.soaAnswerCount = answers.countP (·.type = 6)) := by
  unfold parseDnsResponseStructure
  split
  · exact ⟨_,rfl,by simp⟩
  next hlong =>
  rw [readUInt16BE_eq (by omega),readUInt16BE_eq (by omega)]
  simp only [bind,Except.bind]
  split
  · exact ⟨_,rfl,by simp⟩
  split
  · exact ⟨_,rfl,by simp⟩
  obtain ⟨parsed,hparsed,hquestions⟩ :=
    meets_attempt (@meets_questions toLowerCase message (uint16 message 4) 12)
  simp only [hparsed]
  cases parsed with
  | none => exact ⟨_,rfl,by simp⟩
  | some parsed =>
      obtain ⟨names,hnames,hcount⟩ := hquestions _ rfl
      dsimp only
      split
      · exact ⟨_,rfl,by simp⟩
      obtain ⟨round,hround,hanswers⟩ :=
        @readAnswers_sound toLowerCase message expected (uint16 message 6) parsed.2 {}
      simp only [hround]
      cases round with
      | inr failed => exact ⟨_,rfl,by simp⟩
      | inl done =>
          obtain ⟨answers,hrecords,hlen,htotal,hsoa⟩ := hanswers _ _ rfl
          rw [readUInt16BE_eq (by omega),readUInt16BE_eq (by omega)]
          dsimp only
          split
          · exact ⟨_,rfl,by simp⟩
          obtain ⟨rest,hrest,hremaining⟩ := meets_attempt (@meets_remaining toLowerCase message
            (uint16 message 8+uint16 message 10) done.2)
          simp only [hrest]
          cases rest with
          | none => exact ⟨_,rfl,by simp⟩
          | some rest =>
              obtain ⟨remaining,hrecords',hlen'⟩ := hremaining _ rfl
              refine ⟨_,rfl,fun _ => ⟨names,answers,remaining,?_,?_,?_⟩⟩
              · exact ⟨by omega,hcount,hlen,hlen',_,_,hnames,hrecords,hrecords'⟩
              · simpa [hlen] using htotal
              · simpa using hsoa

end Sound

/-- The parser returns on every buffer without reading outside it; a message it reports as
valid is a header and the announced sections laid end to end, with well-formed names and
checked data, and is counted exactly; and the limit on labels never rejects a name. -/
theorem response_structure_sound (toLowerCase : JsString → JsString) (message : Bytes)
    (expected : Option ExpectedQuestion) :
    (∃ r,parseDnsResponseStructure toLowerCase message expected = .ok r ∧
      (r.structureValid = true → ∃ questions answers remaining,
        Layout message (AnswerData message) (RemainingData message) questions answers remaining ∧
        r.completeAnswerCount = answers.length ∧
        r.soaAnswerCount = answers.countP (·.type = 6))) ∧
      ∀ c,parseDnsName toLowerCase message c ≠ .error tooManyComponents := by
  refine ⟨parse_sound expected,?_⟩
  intro c h
  exact (parseDnsName_fault h).2 rfl

end AstraNull.DnsStructure

import Mathlib
import AstraNull.DnsStructure

/-!
# Which well-formed DNS responses are accepted

A message whose records carry the data the standards give their types is accepted, but for one
type: the answers of type 33 are taken for NetBIOS node statuses, although the type is also the
one of service records. So a well-formed message is accepted exactly when every answer of that
type happens to have the length a node status of its first byte has.
-/
namespace AstraNull.DnsAcceptance
open DnsTcp (Bytes uint16)
open DnsNames DnsStructure JsonText

/-- One or more strings, each with its length before it. -/
inductive TextData (message : Bytes) : ℕ → ℕ → Prop
  | last {c : ℕ} : TextData message c (c+1+(message.getD c 0).toNat)
  | more {c d : ℕ} : TextData message (c+1+(message.getD c 0).toNat) d → TextData message c d

/-- Data as the standards have it for the types A, AAAA, NS, CNAME, PTR, SOA, MX, TXT and SRV. -/
structure StandardData (message : Bytes) (r : Record) : Prop where
  address : r.type = 1 → r.stop = r.start+4
  address6 : r.type = 28 → r.stop = r.start+16
  name : r.type ∈ [2,5,12] → ∃ labels,IsName message r.start r.stop labels
  soa : r.type = 6 → SoaData message r
  exchange : r.type = 15 → ∃ labels,IsName message (r.start+2) r.stop labels
  text : r.type = 16 → TextData message r.start r.stop
  service : r.type = 33 → ∃ labels,IsName message (r.start+6) r.stop labels

section Layout
variable {message : Bytes}

theorem resolves_unique {c e e' : ℕ} {targets targets' : List ℕ} {labels labels' : List Bytes}
    (h : Resolves message c e targets labels) (h' : Resolves message c e' targets' labels') :
    e = e' ∧ labels = labels' := by
  induction h generalizing e' targets' labels' with
  | root hp =>
      cases h' with
      | root _ => exact ⟨rfl,rfl⟩
      | label hp' _ => simp [hp] at hp'
      | pointer hp' _ => simp [hp] at hp'
  | label hp _ ih =>
      cases h' with
      | root hp' => simp [hp] at hp'
      | label hp' hr =>
          rw [hp] at hp'
          cases hp'
          obtain ⟨he,hl⟩ := ih hr
          exact ⟨he,by rw [hl]⟩
      | pointer hp' _ => simp [hp] at hp'
  | pointer hp _ ih =>
      cases h' with
      | root hp' => simp [hp] at hp'
      | label hp' _ => simp [hp] at hp'
      | pointer hp' hr =>
          rw [hp] at hp'
          cases hp'
          exact ⟨rfl,(ih hr).2⟩

theorem isName_unique {c e e' : ℕ} {labels labels' : List Bytes}
    (h : IsName message c e labels) (h' : IsName message c e' labels') :
    e = e' ∧ labels = labels' := by
  obtain ⟨_,hr,_⟩ := h.resolves
  obtain ⟨_,hr',_⟩ := h'.resolves
  exact resolves_unique hr hr'

theorem questions_unique {c d d' : ℕ} {names names' : List (List Bytes)}
    (h : Questions message c d names) (h' : Questions message c d' names')
    (hlen : names.length = names'.length) : d = d' := by
  induction h generalizing d' names' with
  | nil =>
      cases h' with
      | nil => rfl
      | cons => simp at hlen
  | cons hname _ _ ih =>
      cases h' with
      | nil => simp at hlen
      | cons hname' _ hrest =>
          obtain ⟨rfl,_⟩ := isName_unique hname hname'
          exact ih hrest (by simpa using hlen)

theorem records_unique {data data' : Record → Prop} {c d d' : ℕ} {records records' : List Record}
    (h : Records message data c d records) (h' : Records message data' c d' records')
    (hlen : records.length = records'.length) : d = d' ∧ records = records' := by
  induction h generalizing d' records' with
  | nil =>
      cases h' with
      | nil => exact ⟨rfl,rfl⟩
      | cons => simp at hlen
  | cons hname _ _ _ ih =>
      cases h' with
      | nil => simp at hlen
      | cons hname' _ _ hrest =>
          obtain ⟨rfl,rfl⟩ := isName_unique hname hname'
          obtain ⟨hd,hr⟩ := ih hrest (by simpa using hlen)
          exact ⟨hd,by rw [hr]⟩

theorem records_data {data : Record → Prop} {c d : ℕ} {records : List Record}
    (h : Records message data c d records) : ∀ r ∈ records,data r := by
  induction h with
  | nil => simp
  | cons _ _ hdata _ ih =>
      intro r hr
      rcases List.mem_cons.mp hr with rfl | hr
      · exact hdata
      · exact ih r hr

theorem records_mono {data data' : Record → Prop} {c d : ℕ} {records : List Record}
    (h : Records message data c d records) (hdata : ∀ r ∈ records,data r → data' r) :
    Records message data' c d records := by
  induction h with
  | nil => exact .nil
  | cons hname hend hd _ ih =>
      exact .cons hname hend (hdata _ List.mem_cons_self hd)
        (ih fun r hr => hdata r (List.mem_cons_of_mem _ hr))

theorem layout_answers_unique {p q p' q' : Record → Prop} {questions questions' : List (List Bytes)}
    {answers answers' remaining remaining' : List Record}
    (h : Layout message p q questions answers remaining)
    (h' : Layout message p' q' questions' answers' remaining') : answers = answers' := by
  obtain ⟨a,b,hq,ha,_⟩ := h.sections
  obtain ⟨a',b',hq',ha',_⟩ := h'.sections
  have hstart : a = a' :=
    questions_unique hq hq' (h.questionCount.trans h'.questionCount.symm)
  subst hstart
  exact (records_unique ha ha' (h.answerCount.trans h'.answerCount.symm)).2

end Layout

section Complete
variable {toLowerCase : JsString → JsString} {message : Bytes}

theorem readQuestions_complete {c d : ℕ} {names : List (List Bytes)}
    (h : Questions message c d names) :
    ∃ parsed,readQuestions toLowerCase message names.length c = .ok (parsed,d) := by
  induction h with
  | nil => exact ⟨[],rfl⟩
  | cons hname hend _ ih =>
      obtain ⟨parsed,hparsed⟩ := ih
      have hfits : ¬ message.length < _+4 := Nat.not_lt.mpr hend
      simp only [List.length_cons,readQuestions,readQuestion,parseDnsName_complete hname,bind,
        Except.bind,if_neg hfits]
      rw [readUInt16BE_eq (by omega),readUInt16BE_eq (by omega)]
      simp only [pure,Except.pure,hparsed]
      exact ⟨_,rfl⟩

theorem validateSoaRdata_complete {r : Record} (h : SoaData message r)
    (hstop : r.stop ≤ message.length) :
    ∃ identity,validateSoaRdata toLowerCase message r.start r.stop = .ok identity := by
  obtain ⟨middle,last,mname,rname,hm,hr,hend⟩ := h
  have hin : ¬ r.stop < middle := by
    have := hr.bounds
    omega
  obtain ⟨integers,hi⟩ := @readIntegers_eq message last (by omega)
  simp only [validateSoaRdata,parseDnsName_complete hm,parseDnsName_complete hr,bind,Except.bind,
    if_neg hin,hend,ne_eq,not_true_eq_false,if_false]
  rw [hi]
  exact ⟨_,rfl⟩

theorem checkNameData_complete {r : Record}
    (h : r.type ∈ [2,5,12] → ∃ labels,IsName message r.start r.stop labels) :
    checkNameData toLowerCase message r.type r.start r.stop = .ok () := by
  unfold checkNameData
  split
  next htype =>
    obtain ⟨labels,hname⟩ := h htype
    simp [parseDnsName_complete hname,bind,Except.bind,pure,Except.pure]
  · rfl

theorem checkTypedData_complete {a : ℕ} {owner : List Bytes}
    (hend : a+10+uint16 message (a+8) ≤ message.length)
    (h : AnswerData message (recordAt message a owner)) :
    checkTypedData message (uint16 message a) (a+10) (uint16 message (a+8)) = .ok () := by
  have haddress : ¬ (uint16 message a = 1 ∧ uint16 message (a+8) ≠ 4 ∨
      uint16 message a = 28 ∧ uint16 message (a+8) ≠ 16) := by
    rintro (⟨ht,hn⟩ | ⟨ht,hn⟩)
    · exact hn (by simpa [recordAt] using h.address ht)
    · exact hn (by simpa [recordAt] using h.address6 ht)
  rw [checkTypedData,if_neg haddress]
  split
  next htype =>
    have hstatus : 47 ≤ uint16 message (a+8) ∧
        uint16 message (a+8) = 47+(message.getD (a+10) 0).toNat*18 := by
      simpa [recordAt,NodeStatusData] using h.nodeStatus htype
    rw [if_neg (Nat.not_lt.mpr hstatus.1),byteAt_eq (by omega)]
    simp only [bind,Except.bind,ne_eq,hstatus.2,not_true_eq_false,if_false]
    rfl
  · rfl

theorem checkSoa_complete {r : Record} (h : r.type = 6 → SoaData message r)
    (hstop : r.stop ≤ message.length) :
    ∃ identity,checkSoa toLowerCase message r.type r.start r.stop = .ok (some identity) := by
  unfold checkSoa
  split
  next htype =>
    obtain ⟨identity,hi⟩ := @validateSoaRdata_complete toLowerCase message r (h htype) hstop
    rw [hi]
    exact ⟨_,rfl⟩
  · exact ⟨_,rfl⟩

theorem readAnswer_complete {c a : ℕ} {owner : List Bytes} (tally : Tally)
    (hname : IsName message c a owner) (hend : a+10+uint16 message (a+8) ≤ message.length)
    (hdata : AnswerData message (recordAt message a owner)) :
    ∃ tally',readAnswer toLowerCase message none c tally =
      .ok (some (tally',a+10+uint16 message (a+8))) := by
  have hfixed : ¬ message.length < a+10 := by omega
  have hfits : ¬ message.length < a+10+uint16 message (a+8) := by omega
  obtain ⟨identity,hsoa⟩ := @checkSoa_complete toLowerCase message _ hdata.soa hend
  have hnames := @checkNameData_complete toLowerCase message _ hdata.name
  simp only [recordAt] at hsoa hnames
  simp only [readAnswer,parseDnsName_complete hname,bind,Except.bind,if_neg hfixed]
  rw [readUInt16BE_eq (by omega),readUInt16BE_eq (by omega)]
  simp only [if_neg hfits,answerMatches,pure,Except.pure,hnames,
    checkTypedData_complete hend hdata,hsoa]
  rw [readUInt16BE_eq (by omega)]
  exact ⟨_,rfl⟩

theorem readAnswers_complete {c d : ℕ} {answers : List Record}
    (h : Records message (AnswerData message) c d answers) (tally : Tally) :
    ∃ tally',readAnswers toLowerCase message none answers.length c tally =
      .ok (.inl (tally',d)) := by
  induction h generalizing tally with
  | nil => exact ⟨tally,rfl⟩
  | cons hname hend hdata _ ih =>
      obtain ⟨next,hnext⟩ := @readAnswer_complete toLowerCase message _ _ _ tally hname hend hdata
      simp only [List.length_cons,readAnswers,hnext,attempt,bind,Except.bind]
      exact ih next

theorem readRemaining_complete {c : ℕ} {records : List Record}
    (h : Records message (RemainingData message) c message.length records) :
    readRemaining toLowerCase message records.length c = .ok () := by
  generalize hd : message.length = d at h
  induction h with
  | nil => simp [readRemaining,hd,pure,Except.pure]
  | @cons c a d owner records hname hend hdata _ ih =>
      have hfixed : ¬ message.length < a+10 := by omega
      have hfits : ¬ message.length < a+10+uint16 message (a+8) := by omega
      have hrecord : readRemainingRecord toLowerCase message c =
          .ok (a+10+uint16 message (a+8)) := by
        simp only [readRemainingRecord,parseDnsName_complete hname,bind,Except.bind,if_neg hfixed]
        rw [readUInt16BE_eq (by omega)]
        simp only [if_neg hfits]
        rw [readUInt16BE_eq (by omega)]
        dsimp only
        split
        next htype =>
          obtain ⟨identity,hi⟩ :=
            @validateSoaRdata_complete toLowerCase message _ (hdata htype) hend
          simp only [recordAt] at hi
          rw [hi]
          rfl
        · rfl
      simp only [List.length_cons,readRemaining,hrecord,bind,Except.bind]
      exact ih hd

/-- A message with the announced layout and checked data is accepted. -/
theorem parse_complete {questions : List (List Bytes)} {answers remaining : List Record}
    (h : Layout message (AnswerData message) (RemainingData message) questions answers remaining)
    (hq : questions.length ≤ maxDnsSectionRecords) (ha : answers.length ≤ maxDnsSectionRecords)
    (hr : remaining.length ≤ maxDnsSectionRecords) :
    ∃ r,parseDnsResponseStructure toLowerCase message none = .ok r ∧ r.structureValid = true ∧
      r.answerCount = answers.length := by
  obtain ⟨hlong,hqc,hac,hrc,a,b,hquestions,hanswers,hremaining⟩ := h
  have hheader : ¬ message.length < 12 := by omega
  have hcounts : ¬ (maxDnsSectionRecords < uint16 message 4 ∨
      maxDnsSectionRecords < uint16 message 6) := by omega
  have hrest : ¬ maxDnsSectionRecords < uint16 message 8+uint16 message 10 := by omega
  obtain ⟨parsed,hparsed⟩ := @readQuestions_complete toLowerCase message _ _ _ hquestions
  obtain ⟨tally,htally⟩ := @readAnswers_complete toLowerCase message _ _ _ hanswers {}
  have hlast := @readRemaining_complete toLowerCase message _ _ hremaining
  rw [hqc] at hparsed
  rw [hac] at htally
  rw [hrc] at hlast
  unfold parseDnsResponseStructure
  rw [if_neg hheader,readUInt16BE_eq (by omega),readUInt16BE_eq (by omega)]
  simp only [bind,Except.bind,if_neg hcounts,Option.isSome_none,Bool.false_eq_true,false_and,
    if_false,hparsed,attempt,questionMismatch,htally]
  rw [readUInt16BE_eq (by omega),readUInt16BE_eq (by omega)]
  simp only [if_neg hrest,hlast]
  exact ⟨_,rfl,rfl,hac.symm⟩

end Complete

section Standard
variable {toLowerCase : JsString → JsString} {message : Bytes} {questions : List (List Bytes)}
  {answers remaining : List Record}

theorem StandardData.checked {r : Record} (h : StandardData message r)
    (hstatus : r.type = 33 → NodeStatusData message r) : AnswerData message r :=
  ⟨h.name,h.address,h.address6,h.soa,hstatus⟩

theorem layout_checked
    (h : Layout message (StandardData message) (StandardData message) questions answers remaining)
    (hstatus : ∀ r ∈ answers,r.type = 33 → NodeStatusData message r) :
    Layout message (AnswerData message) (RemainingData message) questions answers remaining := by
  obtain ⟨a,b,hq,ha,hr⟩ := h.sections
  refine ⟨h.header,h.questionCount,h.answerCount,h.remainingCount,a,b,hq,?_,?_⟩
  · exact records_mono ha fun r hr hdata => hdata.checked (hstatus r hr)
  · exact records_mono hr fun r _ hdata => hdata.soa

/-- An accepted message has node statuses only. -/
theorem accepted_nodeStatus {p q : Record → Prop}
    (h : Layout message p q questions answers remaining) {r : ResponseStructure}
    (hparse : parseDnsResponseStructure toLowerCase message none = .ok r)
    (hvalid : r.structureValid = true) :
    r.completeAnswerCount = answers.length ∧
      ∀ record ∈ answers,record.type = 33 → NodeStatusData message record := by
  obtain ⟨r',hr',hsound⟩ := @parse_sound toLowerCase message none
  rw [hparse] at hr'
  cases hr'
  obtain ⟨_,answers',_,hlayout,hcount,_⟩ := hsound hvalid
  have hsame : answers = answers' := layout_answers_unique h hlayout
  subst hsame
  obtain ⟨a,b,_,ha,_⟩ := hlayout.sections
  exact ⟨hcount,fun record hrecord htype => (records_data ha record hrecord).nodeStatus htype⟩

end Standard

/-- A well-formed message is accepted with its answers counted exactly when every answer of type
33 has the length of the node status its first byte announces. -/
theorem standard_response_accepted_iff (toLowerCase : JsString → JsString) (message : Bytes)
    (questions : List (List Bytes)) (answers remaining : List Record)
    (h : Layout message (StandardData message) (StandardData message) questions answers remaining)
    (hq : questions.length ≤ maxDnsSectionRecords) (ha : answers.length ≤ maxDnsSectionRecords)
    (hr : remaining.length ≤ maxDnsSectionRecords) :
    (∃ r,parseDnsResponseStructure toLowerCase message none = .ok r ∧ r.structureValid = true ∧
        r.answerCount = answers.length ∧ r.completeAnswerCount = answers.length) ↔
      ∀ record ∈ answers,record.type = 33 → NodeStatusData message record := by
  constructor
  · rintro ⟨r,hparse,hvalid,_,_⟩
    exact (accepted_nodeStatus h hparse hvalid).2
  · intro hstatus
    obtain ⟨r,hparse,hvalid,hcount⟩ :=
      @parse_complete toLowerCase message _ _ _ (layout_checked h hstatus) hq ha hr
    exact ⟨r,hparse,hvalid,hcount,(accepted_nodeStatus h hparse hvalid).1⟩

/-- A response with one address record of the root. -/
def addressMessage : Bytes :=
  [0,1,128,0,0,0,0,1,0,0,0,0, 0,0,1,0,1,0,0,0,60,0,4, 127,0,0,1]

theorem addressMessage_layout :
    Layout addressMessage (StandardData addressMessage) (StandardData addressMessage) []
      [recordAt addressMessage 13 []] [] := by
  have hroot : IsName addressMessage 12 13 [] :=
    ⟨⟨[],.root (by decide),by decide,List.nodup_nil⟩,by simp,by decide⟩
  refine ⟨by decide,by decide,by decide,by decide,12,27,.nil,?_,.nil⟩
  refine .cons hroot (by decide) ?_ .nil
  exact ⟨fun _ => by decide,fun h => absurd h (by decide),fun h => absurd h (by decide),
    fun h => absurd h (by decide),fun h => absurd h (by decide),fun h => absurd h (by decide),
    fun h => absurd h (by decide)⟩

theorem addressMessage_accepted :
    ∃ r,parseDnsResponseStructure id addressMessage none = .ok r ∧ r.structureValid = true ∧
      r.answerCount = 1 ∧ r.completeAnswerCount = 1 :=
  (standard_response_accepted_iff id addressMessage [] [recordAt addressMessage 13 []] []
    addressMessage_layout (by decide) (by decide) (by decide)).mpr (by decide)

/-- A response with one service record: priority 10, weight 5, port 5060, target `a`. -/
def serviceMessage : Bytes :=
  [0,1,128,0,0,0,0,1,0,0,0,0, 0,0,33,0,1,0,0,0,60,0,9, 0,10,0,5,19,196,1,97,0]

theorem serviceMessage_layout :
    Layout serviceMessage (StandardData serviceMessage) (StandardData serviceMessage) []
      [recordAt serviceMessage 13 []] [] := by
  have hroot : IsName serviceMessage 12 13 [] :=
    ⟨⟨[],.root (by decide),by decide,List.nodup_nil⟩,by simp,by decide⟩
  have htarget : Resolves serviceMessage 29 32 [] [[97]] :=
    @Resolves.label serviceMessage 29 32 [] [97] [] (by decide) (.root (by decide))
  have hname : IsName serviceMessage 29 32 [[97]] :=
    ⟨⟨[],htarget,by decide,List.nodup_nil⟩,by decide,by decide⟩
  refine ⟨by decide,by decide,by decide,by decide,12,32,.nil,?_,.nil⟩
  refine .cons hroot (by decide) ?_ .nil
  exact ⟨fun h => absurd h (by decide),fun h => absurd h (by decide),
    fun h => absurd h (by decide),fun h => absurd h (by decide),fun h => absurd h (by decide),
    fun h => absurd h (by decide),fun _ => ⟨[[97]],hname⟩⟩

theorem service_record_refused :
    Layout serviceMessage (StandardData serviceMessage) (StandardData serviceMessage) []
        [recordAt serviceMessage 13 []] [] ∧
      ∀ toLowerCase r,parseDnsResponseStructure toLowerCase serviceMessage none = .ok r →
        r.structureValid ≠ true := by
  refine ⟨serviceMessage_layout,?_⟩
  intro toLowerCase r hparse hvalid
  have hstatus := (accepted_nodeStatus serviceMessage_layout hparse hvalid).2 _
    List.mem_cons_self (by decide)
  exact absurd hstatus.1 (by decide)

end AstraNull.DnsAcceptance

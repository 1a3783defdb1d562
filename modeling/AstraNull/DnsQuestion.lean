import Mathlib
import AstraNull.DnsStructure
import AstraNull.DnsAcceptance
import AstraNull.TextPieces

/-!
# The question of a DNS response

The parser compares the question with the expected one as text: the labels are decoded with the
top bit of every byte dropped, joined with dots and put in lower case. A label that holds a dot,
or a byte that is no ASCII character, is taken for other labels that way.
-/
namespace AstraNull.DnsQuestion
open DnsTcp (Bytes uint16)
open DnsNames DnsStructure DnsAcceptance JsonText TextPieces

/-- The small letter of an ASCII capital. -/
def foldCase (n : ℕ) : ℕ := if 65 ≤ n ∧ n ≤ 90 then n+32 else n

def lowerUnit (u : UInt16) : UInt16 := if 65 ≤ u.toNat ∧ u.toNat ≤ 90 then u+32 else u

/-- What `toLowerCase` does to ASCII text, and which text it turns into ASCII text. -/
structure Lowers (toLowerCase : JsString → JsString) : Prop where
  ascii : ∀ text,(∀ u ∈ text,u.toNat < 128) → toLowerCase text = text.map lowerUnit
  /-- Besides ASCII characters only the Kelvin sign becomes one. -/
  reflects : ∀ text,(∀ u ∈ toLowerCase text,u.toNat < 128) →
    ∀ u ∈ text,u.toNat < 128 ∨ u.toNat = 0x212A

theorem toNat_lowerUnit (u : UInt16) : (lowerUnit u).toNat = foldCase u.toNat := by
  rw [lowerUnit,foldCase]
  split_ifs with h
  · rw [UInt16.toNat_add]
    have : (32 : UInt16).toNat = 32 := rfl
    omega
  · rfl

theorem foldCase_lt {n : ℕ} : foldCase n < 128 ↔ n < 128 := by
  rw [foldCase]
  split_ifs <;> omega

theorem foldCase_dot {n : ℕ} : foldCase n = 46 ↔ n = 46 := by
  rw [foldCase]
  split_ifs <;> omega

theorem lowerUnit_dot (u : UInt16) : lowerUnit u = 46 ↔ u = 46 := by
  rw [← UInt16.toNat_inj,toNat_lowerUnit,← UInt16.toNat_inj]
  exact foldCase_dot

theorem lowerUnit_lt {u : UInt16} : (lowerUnit u).toNat < 128 ↔ u.toNat < 128 := by
  rw [toNat_lowerUnit,foldCase_lt]

/-- The expected name without the white space around it and the dots after it, cut at its dots. -/
def expectedLabels (e : ExpectedQuestion) : List JsString :=
  (dropDots (ScriptText.trim (e.name.getD []))).splitOn 46

/-- The one question has the type, the class and, but for the case of letters, the labels of the
expected question. -/
def SameQuestion (message : Bytes) (e : ExpectedQuestion) : Prop :=
  uint16 message 4 = 1 ∧ ∃ a labels,IsName message 12 a labels ∧ a+4 ≤ message.length ∧
    uint16 message a = e.qtype ∧ uint16 message (a+2) = e.qclass ∧
    labels.map (List.map fun b => foldCase b.toNat) =
      (expectedLabels e).map (List.map fun u => foldCase u.toNat)

/-- The expected name is ASCII text, and no label of the question has a dot or another byte than
an ASCII character. -/
structure Unambiguous (message : Bytes) (e : ExpectedQuestion) : Prop where
  name : ∀ u ∈ ScriptText.trim (e.name.getD []),u.toNat < 128
  labels : ∀ a labels,IsName message 12 a labels →
    ∀ label ∈ labels,∀ b ∈ label,b.toNat < 128 ∧ b.toNat ≠ 46

section
variable {toLowerCase : JsString → JsString} {message : Bytes} {e : ExpectedQuestion}

/-- What is compared where a match is reported. -/
theorem matched_question {r : ResponseStructure}
    (hparse : parseDnsResponseStructure toLowerCase message (some e) = .ok r)
    (hmatch : r.questionMatches = some true) :
    uint16 message 4 = 1 ∧ ∃ questions offset,
      readQuestions toLowerCase message 1 12 = .ok (questions,offset) ∧
      questionMismatch toLowerCase (some e) questions = false := by
  unfold parseDnsResponseStructure at hparse
  split_ifs at hparse with hshort
  · cases hparse
    cases hmatch
  have h4 : 4+2 ≤ message.length := by omega
  have h6 : 6+2 ≤ message.length := by omega
  simp only [readUInt16BE_eq h4,readUInt16BE_eq h6,bind,Except.bind,Option.isSome_some,true_and,
    ne_eq] at hparse
  split_ifs at hparse with hcounts hone
  · cases hparse
    cases hmatch
  swap
  · cases hparse
    cases hmatch
  refine ⟨hone,?_⟩
  rw [hone] at hparse
  cases hread : readQuestions toLowerCase message 1 12 with
  | error fault =>
      rw [hread] at hparse
      cases fault with
      | range text =>
          cases hparse
          cases hmatch
      | outside => cases hparse
  | ok result =>
      obtain ⟨questions,offset⟩ := result
      rw [hread] at hparse
      refine ⟨questions,offset,rfl,?_⟩
      by_contra hne
      rw [Bool.not_eq_false] at hne
      simp only [attempt,hne,if_true] at hparse
      cases hparse
      cases hmatch

theorem matched_text {r : ResponseStructure}
    (hparse : parseDnsResponseStructure toLowerCase message (some e) = .ok r)
    (hmatch : r.questionMatches = some true) :
    uint16 message 4 = 1 ∧ ∃ a labels,IsName message 12 a labels ∧ a+4 ≤ message.length ∧
      uint16 message a = e.qtype ∧ uint16 message (a+2) = e.qclass ∧
      nameText toLowerCase labels =
        dropDots (toLowerCase (ScriptText.trim (e.name.getD []))) ∧
      nameText toLowerCase labels ≠ [] := by
  obtain ⟨hone,questions,offset,hread,hmismatch⟩ := matched_question hparse hmatch
  refine ⟨hone,?_⟩
  cases hname : parseDnsName toLowerCase message 12 with
  | error fault => simp [readQuestions,readQuestion,hname,bind,Except.bind] at hread
  | ok parsed =>
      obtain ⟨labels,hlabels,htext⟩ := parseDnsName_sound hname
      simp only [readQuestions,readQuestion,hname,bind,Except.bind] at hread
      split_ifs at hread with hend
      have h₁ : parsed.nextOffset+2 ≤ message.length := by omega
      have h₂ : parsed.nextOffset+2+2 ≤ message.length := by omega
      simp only [readUInt16BE_eq h₁,readUInt16BE_eq h₂,pure,Except.pure] at hread
      cases hread
      simp only [questionMismatch,Bool.or_eq_false_iff,bne_eq_false_iff_eq] at hmismatch
      obtain ⟨⟨⟨hempty,hsame⟩,htype⟩,hclass⟩ := hmismatch
      refine ⟨parsed.nextOffset,labels,hlabels,by omega,htype,hclass,htext ▸ hsame,?_⟩
      rw [← htext,hsame]
      simpa using hempty

theorem asciiText_lt {label : Bytes} {u : UInt16} (h : u ∈ asciiText label) : u.toNat < 128 := by
  obtain ⟨b,-,rfl⟩ := List.mem_map.mp h
  rw [UInt16.toNat_ofNat']
  omega

/-- The text of a name, label by label. -/
theorem nameText_eq (hl : Lowers toLowerCase) (labels : List Bytes) :
    nameText toLowerCase labels =
      [46].intercalate (labels.map fun label => (asciiText label).map lowerUnit) := by
  have hascii : ∀ u ∈ [46].intercalate (labels.map asciiText),u.toNat < 128 := by
    refine forall_mem_intercalate (by decide) fun piece hpiece u hu => ?_
    obtain ⟨label,-,rfl⟩ := List.mem_map.mp hpiece
    exact asciiText_lt hu
  show toLowerCase ([46].intercalate (labels.map asciiText)) = _
  rw [hl.ascii _ hascii,map_intercalate,List.map_map,(lowerUnit_dot 46).mpr rfl]
  rfl

theorem dropDots_map (text : JsString) :
    dropDots (text.map lowerUnit) = (dropDots text).map lowerUnit := by
  have hdot : ((· == 46) ∘ lowerUnit) = fun u : UInt16 => u == 46 := by
    funext u
    rw [Function.comp_apply,Bool.eq_iff_iff,beq_iff_eq,beq_iff_eq]
    exact lowerUnit_dot u
  rw [dropDots,dropDots,List.rdropWhile,List.rdropWhile,← List.map_reverse,List.dropWhile_map,hdot,
    List.map_reverse]

theorem mem_dropDots {text : JsString} {u : UInt16} (hu : u ∈ text) (hne : u ≠ 46) :
    u ∈ dropDots text := by
  rw [← List.rdropWhile_append_rtakeWhile (p := (· == 46)) (l := text),List.mem_append] at hu
  rcases hu with hu | hu
  · exact hu
  · exact absurd (List.mem_rtakeWhile_imp hu) (by simpa using hne)

/-- Labels with the same folded text as the pieces of a name have their characters. -/
theorem exists_piece {labels : List Bytes} {pieces : List JsString}
    (h : labels.map (List.map fun b => foldCase b.toNat) =
      pieces.map (List.map fun u => foldCase u.toNat)) :
    (∀ label ∈ labels,∀ b ∈ label,∃ piece ∈ pieces,∃ u ∈ piece,
      foldCase b.toNat = foldCase u.toNat) ∧
    ∀ piece ∈ pieces,∀ u ∈ piece,∃ label ∈ labels,∃ b ∈ label,
      foldCase b.toNat = foldCase u.toNat := by
  constructor
  · intro label hlabel b hb
    have hmem := List.mem_map_of_mem (f := List.map fun b : UInt8 => foldCase b.toNat) hlabel
    rw [h] at hmem
    obtain ⟨piece,hpiece,heq⟩ := List.mem_map.mp hmem
    have hb' := List.mem_map_of_mem (f := fun b : UInt8 => foldCase b.toNat) hb
    rw [← heq] at hb'
    obtain ⟨u,hu,hue⟩ := List.mem_map.mp hb'
    exact ⟨piece,hpiece,u,hu,hue.symm⟩
  · intro piece hpiece u hu
    have hmem := List.mem_map_of_mem (f := List.map fun u : UInt16 => foldCase u.toNat) hpiece
    rw [← h] at hmem
    obtain ⟨label,hlabel,heq⟩ := List.mem_map.mp hmem
    have hu' := List.mem_map_of_mem (f := fun u : UInt16 => foldCase u.toNat) hu
    rw [← heq] at hu'
    obtain ⟨b,hb,hbe⟩ := List.mem_map.mp hu'
    exact ⟨label,hlabel,b,hb,hbe⟩

/-- A match is reported for every message that is its header and a question with that text. -/
theorem parse_question {a : ℕ} {labels : List Bytes} (hname : IsName message 12 a labels)
    (hend : a+4 = message.length) (hcounts : uint16 message 4 = 1 ∧ uint16 message 6 = 0 ∧
      uint16 message 8 = 0 ∧ uint16 message 10 = 0)
    (htype : uint16 message a = e.qtype) (hclass : uint16 message (a+2) = e.qclass)
    (htext : nameText toLowerCase labels =
      dropDots (toLowerCase (ScriptText.trim (e.name.getD []))))
    (hne : nameText toLowerCase labels ≠ []) :
    parseDnsResponseStructure toLowerCase message (some e) = .ok {
      questionCount := 1
      answerCount := 0
      questionMatches := some true
      axfrBoundarySoaMatch := some false
      structureValid := true
      matchingAnswerCount := some 0 } := by
  obtain ⟨h4,h6,h8,h10⟩ := hcounts
  have hbounds := hname.bounds
  have hshort : ¬ message.length < 12 := by omega
  have hquestion : ¬ message.length < a+4 := by omega
  have hread : readQuestions toLowerCase message 1 12 =
      .ok ([⟨nameText toLowerCase labels,e.qtype,e.qclass⟩],a+4) := by
    simp only [readQuestions,readQuestion,parseDnsName_complete hname,bind,Except.bind,
      if_neg hquestion]
    rw [readUInt16BE_eq (by omega),readUInt16BE_eq (by omega),htype,hclass]
    rfl
  have hmismatch : questionMismatch toLowerCase (some e)
      [⟨nameText toLowerCase labels,e.qtype,e.qclass⟩] = false := by
    simp only [questionMismatch,htext,bne_self_eq_false,Bool.or_false]
    rw [← htext]
    simpa using hne
  have hremaining : readRemaining toLowerCase message 0 (a+4) = .ok () := by
    simp [readRemaining,hend,pure,Except.pure]
  unfold parseDnsResponseStructure
  rw [if_neg hshort,readUInt16BE_eq (by omega),readUInt16BE_eq (by omega),
    readUInt16BE_eq (by omega),readUInt16BE_eq (by omega),h4,h6,h8,h10]
  simp only [bind,Except.bind,hread,attempt,hmismatch,readAnswers,pure,Except.pure,hremaining]
  rfl

/-- A reported match is one of the questions exactly when the text is unambiguous. -/
theorem question_match_exact_iff (hl : Lowers toLowerCase) (message : Bytes) (e : ExpectedQuestion)
    (r : ResponseStructure)
    (hparse : parseDnsResponseStructure toLowerCase message (some e) = .ok r)
    (hmatch : r.questionMatches = some true) : SameQuestion message e ↔ Unambiguous message e := by
  obtain ⟨hone,a,labels,hname,hend,htype,hclass,htext,hne⟩ := matched_text hparse hmatch
  have hlower : ∀ u ∈ toLowerCase (ScriptText.trim (e.name.getD [])),u.toNat < 128 := by
    intro u hu
    by_cases hdot : u = 46
    · simp [hdot]
    · have hmem := mem_dropDots hu hdot
      rw [← htext,nameText_eq hl] at hmem
      refine @forall_mem_intercalate _ 46 (fun u => u.toNat < 128) (by decide) _ ?_ u hmem
      intro piece hpiece v hv
      obtain ⟨label,-,rfl⟩ := List.mem_map.mp hpiece
      obtain ⟨w,hw,rfl⟩ := List.mem_map.mp hv
      exact lowerUnit_lt.mpr (asciiText_lt hw)
  constructor
  · rintro ⟨-,a',labels',hname',-,-,-,hsame⟩
    obtain ⟨-,rfl⟩ := isName_unique hname hname'
    obtain ⟨hbytes,hunits⟩ := exists_piece hsame
    have hascii : ∀ u ∈ ScriptText.trim (e.name.getD []),u.toNat < 128 := by
      intro u hu
      rcases hl.reflects _ hlower u hu with h | hkelvin
      · exact h
      · have hdot : u ≠ 46 := by
          rintro rfl
          exact absurd hkelvin (by decide)
        obtain ⟨piece,hpiece,hup⟩ := exists_mem_splitOn (mem_dropDots hu hdot) hdot
        obtain ⟨label,-,b,-,hb⟩ := hunits piece hpiece u hup
        have hbyte := b.toNat_lt
        rw [hkelvin,foldCase,foldCase] at hb
        split_ifs at hb <;> omega
    refine ⟨hascii,fun a'' labels'' hname'' => ?_⟩
    obtain ⟨-,rfl⟩ := isName_unique hname hname''
    intro label hlabel b hb
    obtain ⟨piece,hpiece,u,hu,hfold⟩ := hbytes label hlabel b hb
    have hmem : u ∈ ScriptText.trim (e.name.getD []) := by
      have hin := mem_of_mem_splitOn hpiece hu
      exact (List.rdropWhile_prefix _ _).subset hin
    constructor
    · rw [← foldCase_lt,hfold,foldCase_lt]
      exact hascii u hmem
    · intro hdot
      rw [foldCase_dot.mpr hdot,eq_comm,foldCase_dot] at hfold
      have hu46 : u = 46 := UInt16.toNat_inj.mp hfold
      rw [hu46] at hu
      exact notMem_of_mem_splitOn hpiece hu
  · intro hplain
    refine ⟨hone,a,labels,hname,hend,htype,hclass,?_⟩
    have hbytes := hplain.labels a labels hname
    have hcut := congrArg (List.splitOn 46) htext
    rw [hl.ascii _ hplain.name,dropDots_map,nameText_eq hl,splitOn_map (fun u _ => lowerUnit_dot u),
      List.splitOn_intercalate] at hcut
    · have hunits := congrArg (List.map (List.map UInt16.toNat)) hcut
      rw [List.map_map,List.map_map] at hunits
      refine Eq.trans ?_ (hunits.trans ?_)
      · refine List.map_congr_left fun label hlabel => ?_
        simp only [Function.comp_apply,asciiText,List.map_map]
        refine List.map_congr_left fun b hb => ?_
        have hlt := (hbytes label hlabel b hb).1
        simp only [Function.comp_apply,toNat_lowerUnit,UInt16.toNat_ofNat']
        congr 1
        omega
      · refine List.map_congr_left fun piece _ => ?_
        simp only [Function.comp_apply,List.map_map]
        exact List.map_congr_left fun u _ => toNat_lowerUnit u
    · intro piece hpiece hdot
      obtain ⟨label,hlabel,rfl⟩ := List.mem_map.mp hpiece
      obtain ⟨u,hu,hu46⟩ := List.mem_map.mp hdot
      rw [lowerUnit_dot] at hu46
      obtain ⟨b,hb,hbu⟩ := List.mem_map.mp hu
      obtain ⟨hlt,hne46⟩ := hbytes label hlabel b hb
      have hunit := congrArg UInt16.toNat (hbu.trans hu46)
      have h46 : (46 : UInt16).toNat = 46 := rfl
      rw [UInt16.toNat_ofNat'] at hunit
      exact hne46 (by omega)
    · rw [ne_eq,List.map_eq_nil_iff]
      rintro rfl
      exact hne (by rw [nameText_eq hl]; rfl)

end

theorem lowers_ascii : Lowers (List.map lowerUnit) := by
  refine ⟨fun _ _ => rfl,fun text h u hu => .inl ?_⟩
  exact lowerUnit_lt.mp (h _ (List.mem_map_of_mem hu))

def dottedQuestion : ExpectedQuestion := ⟨some (js "a.b"),1,1⟩

/-- A question of the labels `a` and `b`. -/
def twoLabels : Bytes := [0,1,129,128,0,1,0,0,0,0,0,0, 1,97,1,98,0, 0,1,0,1]

/-- A question of the one label `a.b`. -/
def oneLabel : Bytes := [0,1,129,128,0,1,0,0,0,0,0,0, 3,97,46,98,0, 0,1,0,1]

theorem twoLabels_name : IsName twoLabels 12 17 [[97],[98]] := by
  have hb : Resolves twoLabels 14 17 [] [[98]] :=
    @Resolves.label twoLabels 14 17 [] [98] [] (by decide) (.root (by decide))
  have ha : Resolves twoLabels 12 17 [] [[97],[98]] :=
    @Resolves.label twoLabels 12 17 [] [97] [[98]] (by decide) hb
  exact ⟨⟨[],ha,by decide,List.nodup_nil⟩,by decide,by decide⟩

theorem oneLabel_name : IsName oneLabel 12 17 [[97,46,98]] := by
  have ha : Resolves oneLabel 12 17 [] [[97,46,98]] :=
    @Resolves.label oneLabel 12 17 [] [97,46,98] [] (by decide) (.root (by decide))
  exact ⟨⟨[],ha,by decide,List.nodup_nil⟩,by decide,by decide⟩

theorem dottedQuestion_pieces : expectedLabels dottedQuestion = [[97],[98]] := by decide

theorem twoLabels_same : SameQuestion twoLabels dottedQuestion := by
  refine ⟨by decide,17,_,twoLabels_name,by decide,by decide,by decide,?_⟩
  rw [dottedQuestion_pieces]
  decide

theorem twoLabels_unambiguous :
    ∃ r,parseDnsResponseStructure (List.map lowerUnit) twoLabels (some dottedQuestion) = .ok r ∧
      r.questionMatches = some true ∧ Unambiguous twoLabels dottedQuestion := by
  have hparse := @parse_question (List.map lowerUnit) _ dottedQuestion _ _
    twoLabels_name (by decide) (by decide) (by decide) (by decide) (by decide) (by decide)
  refine ⟨_,hparse,rfl,?_⟩
  exact (question_match_exact_iff lowers_ascii _ _ _ hparse rfl).mp twoLabels_same

theorem oneLabel_matches :
    ∃ r,parseDnsResponseStructure (List.map lowerUnit) oneLabel (some dottedQuestion) = .ok r ∧
      r.questionMatches = some true ∧ ¬ SameQuestion oneLabel dottedQuestion := by
  have hparse := @parse_question (List.map lowerUnit) _ dottedQuestion _ _
    oneLabel_name (by decide) (by decide) (by decide) (by decide) (by decide) (by decide)
  refine ⟨_,hparse,rfl,?_⟩
  rintro ⟨-,a,labels,hname,-,-,-,hsame⟩
  obtain ⟨-,rfl⟩ := isName_unique oneLabel_name hname
  rw [dottedQuestion_pieces] at hsame
  exact absurd hsame (by decide)

end AstraNull.DnsQuestion

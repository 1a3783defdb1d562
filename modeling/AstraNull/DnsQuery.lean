import Mathlib
import AstraNull.DnsQuestion

/-!
# A DNS query and its own question

`encodeDnsQName` and `buildDnsQueryMessage` of `dnsTcpWire.mjs`. The message written for a name is
one the parser of responses accepts, with the question it was written for.
-/
namespace AstraNull.DnsQuery
open DnsTcp (Bytes uint16)
open DnsNames DnsStructure DnsAcceptance DnsQuestion JsonText TextPieces

/-- `[A-Za-z0-9_]`. -/
def isWordUnit (u : UInt16) : Bool :=
  (65 ≤ u.toNat && u.toNat ≤ 90) || (97 ≤ u.toNat && u.toNat ≤ 122) ||
    (48 ≤ u.toNat && u.toNat ≤ 57) || u.toNat == 95

/-- `[A-Za-z0-9_-]`. -/
def isLabelUnit (u : UInt16) : Bool := isWordUnit u || u.toNat == 45

/-- `/^[A-Za-z0-9_](?:[A-Za-z0-9_-]*[A-Za-z0-9_])?$/`. -/
def isLabelText : JsString → Bool
  | [] => false
  | first::rest => isWordUnit first &&
      (rest.isEmpty || (rest.dropLast.all isLabelUnit && rest.getLast?.any isWordUnit))

/-- `replace(/\.$/, '')`. -/
def dropDot (s : JsString) : JsString := if s.getLast? = some 46 then s.dropLast else s

def invalidName : Fault := .range "Invalid DNS query name."

/-- `Buffer.from(text, 'ascii')`. -/
def asciiBytes (text : JsString) : Bytes := text.map fun u => UInt8.ofNat u.toNat

/-- The loop over the labels, with the empty label at the end. -/
def encodeLabels : List JsString → Except Fault Bytes
  | [] => .ok [0]
  | label::labels =>
      if label.length < 1 || 63 < label.length || !isLabelText label then .error invalidName
      else do
        let rest ← encodeLabels labels
        pure (UInt8.ofNat label.length::(asciiBytes label++rest))

def encodeDnsQName (zone : Option JsString) : Except Fault Bytes :=
  let value := dropDot (zone.getD [])
  if value.length < 1 || 253 < value.length then .error invalidName
  else encodeLabels (value.splitOn 46)

def dnsQtypeCodes : List (JsString × ℕ) :=
  [(js "A",1),(js "NS",2),(js "CNAME",5),(js "SOA",6),(js "PTR",12),(js "MX",15),(js "TXT",16),
    (js "AAAA",28),(js "SRV",33),(js "DNSKEY",48),(js "ANY",255),(js "AXFR",252)]

structure QueryOptions where
  qtype : Option JsString := none
  id : Option ℤ := none
  recursionDesired : Bool := false

/-- `writeUInt16BE`. -/
def uint16BE (n : ℕ) : Bytes := [UInt8.ofNat (n/256),UInt8.ofNat (n%256)]

/-- The refused type is part of the error's text. -/
inductive QueryFault
  | unsupportedQtype (qtypeName : JsString)
  | name (fault : Fault)

/-- `Number(options.id ?? 0x1234) & 0xffff`. -/
def queryId (options : QueryOptions) : ℕ := ((options.id.getD 0x1234)%65536).toNat

def queryHeader (options : QueryOptions) : Bytes :=
  uint16BE (queryId options)++uint16BE (if options.recursionDesired then 0x0100 else 0)++
    uint16BE 1++[0,0,0,0,0,0]

def buildDnsQueryMessage (toUpperCase : JsString → JsString) (name : Option JsString)
    (options : QueryOptions) : Except QueryFault Bytes :=
  let qtypeName := toUpperCase (options.qtype.getD (js "A"))
  match dnsQtypeCodes.lookup qtypeName with
  | none => .error (.unsupportedQtype qtypeName)
  | some qtype =>
      match encodeDnsQName name with
      | .error fault => .error (.name fault)
      | .ok qname => .ok (queryHeader options++(qname++uint16BE qtype++uint16BE 1))

/-- A label of 1 to 63 letters, digits, `_` and `-` that neither starts nor ends with `-`. -/
structure IsLabel (label : JsString) : Prop where
  sized : 1 ≤ label.length ∧ label.length ≤ 63
  units : ∀ u ∈ label,isLabelUnit u = true
  start : label.head? ≠ some 45
  stop : label.getLast? ≠ some 45

/-- What stands before the dot at the end is 1 to 253 characters of labels. -/
structure IsQueryName (zone : JsString) : Prop where
  sized : 1 ≤ (dropDot zone).length ∧ (dropDot zone).length ≤ 253
  labels : ∀ label ∈ (dropDot zone).splitOn 46,IsLabel label

theorem isWordUnit_iff (u : UInt16) : isWordUnit u = true ↔ isLabelUnit u = true ∧ u ≠ 45 := by
  have hdash : u = 45 ↔ u.toNat = 45 := by
    rw [← UInt16.toNat_inj]
    rfl
  rw [ne_eq,hdash]
  simp only [isLabelUnit,isWordUnit,Bool.or_eq_true,Bool.and_eq_true,decide_eq_true_eq,beq_iff_eq]
  omega

theorem isLabelText_iff (label : JsString) : isLabelText label = true ↔
    label ≠ [] ∧ (∀ u ∈ label,isLabelUnit u = true) ∧ label.head? ≠ some 45 ∧
      label.getLast? ≠ some 45 := by
  cases label with
  | nil => simp [isLabelText]
  | cons first rest =>
      rcases List.eq_nil_or_concat rest with rfl | ⟨mid,last,rfl⟩
      · simp [isLabelText,isWordUnit_iff]
      · simp [isLabelText,isWordUnit_iff,List.getLast?_cons,or_imp,forall_and]
        tauto

theorem isLabel_iff (label : JsString) :
    IsLabel label ↔ (label.length < 1 || 63 < label.length || !isLabelText label) = false := by
  simp only [Bool.or_eq_false_iff,decide_eq_false_iff_not,not_lt,Bool.not_eq_false',
    isLabelText_iff]
  constructor
  · intro h
    refine ⟨h.sized,?_,h.units,h.start,h.stop⟩
    rintro rfl
    exact absurd h.sized.1 (by decide)
  · rintro ⟨hsized,-,hunits,hstart,hstop⟩
    exact ⟨hsized,hunits,hstart,hstop⟩

/-- The bytes of the labels, each after its length. -/
def wireLabels (labels : List JsString) : Bytes :=
  (labels.map fun label => UInt8.ofNat label.length::asciiBytes label).flatten++[0]

theorem encodeLabels_ok {labels : List JsString} (h : ∀ label ∈ labels,IsLabel label) :
    encodeLabels labels = .ok (wireLabels labels) := by
  induction labels with
  | nil => rfl
  | cons label labels ih =>
      rw [List.forall_mem_cons] at h
      rw [encodeLabels,(isLabel_iff label).mp h.1,ih h.2]
      simp [wireLabels,bind,Except.bind,pure,Except.pure]

theorem encodeLabels_labels {labels : List JsString} {bytes : Bytes}
    (h : encodeLabels labels = .ok bytes) : ∀ label ∈ labels,IsLabel label := by
  induction labels generalizing bytes with
  | nil => simp
  | cons label labels ih =>
      rw [encodeLabels] at h
      split_ifs at h with hbad
      rw [Bool.not_eq_true,← isLabel_iff] at hbad
      cases hrest : encodeLabels labels with
      | error fault => simp [hrest,bind,Except.bind] at h
      | ok rest => exact List.forall_mem_cons.mpr ⟨hbad,ih hrest⟩

theorem encodeDnsQName_ok_iff (zone : JsString) (qname : Bytes) :
    encodeDnsQName (some zone) = .ok qname ↔
      IsQueryName zone ∧ qname = wireLabels ((dropDot zone).splitOn 46) := by
  simp only [encodeDnsQName,Option.getD_some]
  split_ifs with hsize
  · simp only [Bool.or_eq_true,decide_eq_true_eq] at hsize
    constructor
    · intro h
      cases h
    · rintro ⟨hname,-⟩
      have := hname.sized
      omega
  · simp only [Bool.or_eq_true,decide_eq_true_eq,not_or,not_lt] at hsize
    constructor
    · intro h
      have hlabels := encodeLabels_labels h
      rw [encodeLabels_ok hlabels] at h
      exact ⟨⟨hsize,hlabels⟩,by simpa using h.symm⟩
    · rintro ⟨hname,rfl⟩
      exact encodeLabels_ok hname.labels

theorem isLabelUnit_lt {u : UInt16} (h : isLabelUnit u = true) : u.toNat < 128 ∧ u.toNat ≠ 46 ∧
    ScriptText.isWhiteSpace u.toNat = false := by
  simp only [isLabelUnit,isWordUnit,Bool.or_eq_true,Bool.and_eq_true,decide_eq_true_eq,
    beq_iff_eq] at h
  refine ⟨by omega,by omega,?_⟩
  rw [← Bool.not_eq_true]
  simp only [ScriptText.isWhiteSpace,Bool.or_eq_true,Bool.and_eq_true,decide_eq_true_eq]
  omega

theorem asciiText_asciiBytes {label : JsString} (h : ∀ u ∈ label,u.toNat < 128) :
    asciiText (asciiBytes label) = label := by
  rw [asciiText,asciiBytes,List.map_map]
  conv_rhs => rw [← List.map_id label]
  refine List.map_congr_left fun u hu => ?_
  have := h u hu
  rw [← UInt16.toNat_inj]
  simp only [Function.comp_apply,UInt8.toNat_ofNat',UInt16.toNat_ofNat',id_eq]
  omega

theorem pieceAt_wire (before after : Bytes) {label : JsString} (h : IsLabel label) :
    pieceAt (before++(UInt8.ofNat label.length::(asciiBytes label++after))) before.length =
      some (.label (asciiBytes label)) := by
  have hsized := h.sized
  have hlen : (asciiBytes label).length = label.length := List.length_map _
  have hbyte : (UInt8.ofNat label.length).toNat = label.length := by
    rw [UInt8.toNat_ofNat']
    omega
  have hget : (before++(UInt8.ofNat label.length::(asciiBytes label++after)))[before.length]? =
      some (UInt8.ofNat label.length) := by
    simp
  have hdrop : (before++(UInt8.ofNat label.length::(asciiBytes label++after))).drop
      (before.length+1) = asciiBytes label++after := by
    rw [List.drop_append,List.drop_eq_nil_of_le (by omega),Nat.add_sub_cancel_left]
    rfl
  have hfits : before.length+1+label.length ≤
      (before++(UInt8.ofNat label.length::(asciiBytes label++after))).length := by
    simp only [List.length_append,List.length_cons,hlen]
    omega
  have hlow : label.length/64 = 0 := by omega
  have hzero : ¬ label.length = 0 := by omega
  have htake : (asciiBytes label++after).take label.length = asciiBytes label := by
    rw [← hlen,List.take_left]
  simp only [pieceAt,hget,hbyte,hdrop,hlow,if_neg hzero,if_pos hfits,htake,ne_eq,
    not_true_eq_false,if_false]
  rfl

theorem wireLabels_cons (label : JsString) (labels : List JsString) :
    wireLabels (label::labels) =
      UInt8.ofNat label.length::(asciiBytes label++wireLabels labels) := by
  simp [wireLabels]

theorem wireLabels_resolves (before after : Bytes) {labels : List JsString}
    (h : ∀ label ∈ labels,IsLabel label) :
    Resolves (before++(wireLabels labels++after)) before.length
      (before.length+(wireLabels labels).length) [] (labels.map asciiBytes) := by
  induction labels generalizing before with
  | nil =>
      refine .root ?_
      simp [pieceAt,wireLabels]
  | cons label labels ih =>
      rw [List.forall_mem_cons] at h
      have hnext := ih (before++(UInt8.ofNat label.length::asciiBytes label)) h.2
      rw [wireLabels_cons]
      simp only [List.cons_append,List.append_assoc,List.length_append,List.length_cons,
        List.map_cons] at hnext ⊢
      refine .label (pieceAt_wire _ _ h.1) ?_
      convert hnext using 1 <;> omega

theorem octets_wireLabels (labels : List JsString) :
    octets (labels.map asciiBytes) = (wireLabels labels).length := by
  rw [octets,wireLabels,List.length_append,List.length_flatten,List.map_map,List.map_map]
  rfl

/-- The encoded name is two bytes longer than the text. -/
theorem length_wireLabels (value : JsString) :
    (wireLabels (value.splitOn 46)).length = value.length+2 := by
  have h := length_intercalate 46 (List.splitOn_ne_nil 46 value)
  rw [List.intercalate_splitOn] at h
  rw [← octets_wireLabels,octets,List.map_map]
  have hsame : (fun label : Bytes => label.length+1) ∘ asciiBytes =
      fun label : JsString => label.length+1 := by
    funext label
    simp [asciiBytes]
  rw [hsame,← h]

section
variable {zone : JsString}

theorem IsQueryName.units (h : IsQueryName zone) :
    ∀ u ∈ zone,u = 46 ∨ isLabelUnit u = true := by
  intro u hu
  by_cases hdot : u = 46
  · exact .inl hdot
  · right
    have hmem : u ∈ dropDot zone := by
      rw [dropDot]
      split_ifs with hlast
      · rw [← List.dropLast_append_getLast? _ hlast,List.mem_append] at hu
        rcases hu with hu | hu
        · exact hu
        · exact absurd (List.mem_singleton.mp hu) hdot
      · exact hu
    obtain ⟨piece,hpiece,hup⟩ := exists_mem_splitOn hmem hdot
    exact (h.labels piece hpiece).units u hup

theorem IsQueryName.ascii (h : IsQueryName zone) : ∀ u ∈ zone,u.toNat < 128 := by
  intro u hu
  rcases h.units u hu with rfl | hunit
  · decide
  · exact (isLabelUnit_lt hunit).1

theorem IsQueryName.trim (h : IsQueryName zone) : ScriptText.trim zone = zone := by
  have hblank : ∀ u ∈ zone,¬ ScriptText.isWhiteSpace u.toNat = true := by
    intro u hu
    rw [Bool.not_eq_true]
    rcases h.units u hu with rfl | hunit
    · decide
    · exact (isLabelUnit_lt hunit).2.2
  have hkeep : ∀ l : JsString,(∀ u ∈ l,u ∈ zone) →
      l.dropWhile (fun u => ScriptText.isWhiteSpace u.toNat) = l := by
    intro l hl
    exact List.dropWhile_eq_self_iff.mpr fun _ => hblank _ (hl _ (List.getElem_mem _))
  rw [ScriptText.trim,ScriptText.trimBy,hkeep zone fun _ => id,
    hkeep zone.reverse fun u hu => List.mem_reverse.mp hu,List.reverse_reverse]

/-- Only the one dot at the end is dropped from an accepted name. -/
theorem IsQueryName.dropDots (h : IsQueryName zone) : DnsStructure.dropDots zone = dropDot zone := by
  have hlast : ∀ hne : dropDot zone ≠ [],¬ (dropDot zone).getLast hne = 46 := by
    intro hne hdot
    have hsplit : (dropDot zone).splitOn 46 = (dropDot zone).dropLast.splitOn 46++[[]] := by
      conv_lhs => rw [← List.dropLast_append_getLast hne,hdot]
      rw [List.splitOn_append_cons_self,List.splitOn_nil]
    have hempty := h.labels [] (by rw [hsplit]; simp)
    exact absurd hempty.sized.1 (by decide)
  have hself : (dropDot zone).rdropWhile (· == 46) = dropDot zone :=
    List.rdropWhile_eq_self_iff.mpr fun hne => by simpa using hlast hne
  rw [DnsStructure.dropDots,← hself]
  by_cases hdot : zone.getLast? = some 46
  · have hzone := List.dropLast_append_getLast? _ hdot
    rw [dropDot,if_pos hdot]
    conv_lhs => rw [← hzone]
    rw [List.rdropWhile_concat_pos _ _ _ (by rfl)]
  · rw [dropDot,if_neg hdot]

/-- The labels on the wire spell the name without its last dot. -/
theorem IsQueryName.nameText {toLowerCase : JsString → JsString} (hl : Lowers toLowerCase)
    (h : IsQueryName zone) :
    DnsNames.nameText toLowerCase (((dropDot zone).splitOn 46).map asciiBytes) =
      (dropDot zone).map lowerUnit := by
  have hlabels : (((dropDot zone).splitOn 46).map asciiBytes).map
      (fun label => (asciiText label).map lowerUnit) =
        ((dropDot zone).splitOn 46).map (List.map lowerUnit) := by
    rw [List.map_map]
    refine List.map_congr_left fun label hlabel => ?_
    have hascii : ∀ u ∈ label,u.toNat < 128 := fun u hu =>
      (isLabelUnit_lt ((h.labels label hlabel).units u hu)).1
    rw [Function.comp_apply,asciiText_asciiBytes hascii]
  have hjoin := @map_intercalate _ _ 46 lowerUnit ((dropDot zone).splitOn 46)
  rw [List.intercalate_splitOn,(lowerUnit_dot 46).mpr rfl] at hjoin
  rw [nameText_eq hl,hlabels,← hjoin]

end

theorem uint16_uint16BE (before after : Bytes) {n : ℕ} (h : n < 65536) :
    uint16 (before++(uint16BE n++after)) before.length = n := by
  have hhigh : (before++(uint16BE n++after)).getD before.length 0 = UInt8.ofNat (n/256) := by
    simp [uint16BE]
  have hlow : (before++(uint16BE n++after)).getD (before.length+1) 0 = UInt8.ofNat (n%256) := by
    rw [List.getD_append_right _ _ _ _ (by omega),Nat.add_sub_cancel_left]
    rfl
  rw [uint16,hhigh,hlow,UInt8.toNat_ofNat',UInt8.toNat_ofNat']
  omega

theorem dnsQtypeCodes_lt {qtypeName : JsString} {code : ℕ}
    (h : dnsQtypeCodes.lookup qtypeName = some code) : code < 65536 := by
  obtain ⟨before,after,hlist,-⟩ := List.lookup_eq_some_iff.mp h
  have hmem : code ∈ dnsQtypeCodes.map Prod.snd := by
    rw [hlist]
    simp
  have hall : ∀ n ∈ dnsQtypeCodes.map Prod.snd,n < 65536 := by decide
  exact hall code hmem

theorem queryId_lt (options : QueryOptions) : queryId options < 65536 := by
  rw [queryId]
  omega

theorem queryHeader_length (options : QueryOptions) : (queryHeader options).length = 12 := rfl

/-- The header ends with one question and no records. -/
theorem queryHeader_counts (options : QueryOptions) (rest : Bytes) :
    uint16 (queryHeader options++rest) 4 = 1 ∧ uint16 (queryHeader options++rest) 6 = 0 ∧
      uint16 (queryHeader options++rest) 8 = 0 ∧ uint16 (queryHeader options++rest) 10 = 0 := by
  simp [uint16,queryHeader,uint16BE]

theorem queryHeader_id (options : QueryOptions) (rest : Bytes) :
    uint16 (queryHeader options++rest) 0 = queryId options := by
  rw [queryHeader,List.append_assoc,List.append_assoc,List.append_assoc]
  exact uint16_uint16BE [] _ (queryId_lt options)

section
variable {toLowerCase : JsString → JsString}

/-- Whatever is written for an accepted name is read back as its question. -/
theorem parse_query (hl : Lowers toLowerCase) {zone : JsString} (hname : IsQueryName zone)
    (options : QueryOptions) {code : ℕ} (hcode : code < 65536) :
    parseDnsResponseStructure toLowerCase
      (queryHeader options++(wireLabels ((dropDot zone).splitOn 46)++uint16BE code++uint16BE 1))
      (some ⟨some zone,code,1⟩) = .ok {
        questionCount := 1
        answerCount := 0
        questionMatches := some true
        axfrBoundarySoaMatch := some false
        structureValid := true
        matchingAnswerCount := some 0 } := by
  have hresolves := wireLabels_resolves (queryHeader options) (uint16BE code++uint16BE 1)
    hname.labels
  have hlength := length_wireLabels (dropDot zone)
  have hsized := hname.sized
  rw [queryHeader_length] at hresolves
  rw [List.append_assoc (wireLabels _)]
  generalize hmessage : queryHeader options++(wireLabels ((dropDot zone).splitOn 46)++
    (uint16BE code++uint16BE 1)) = message at hresolves
  have hshift : (queryHeader options++wireLabels ((dropDot zone).splitOn 46)).length =
      12+(wireLabels ((dropDot zone).splitOn 46)).length := by
    rw [List.length_append,queryHeader_length]
  have htext := IsQueryName.nameText hl hname
  refine @parse_question _ _ ⟨some zone,code,1⟩ _ _ ⟨⟨[],hresolves,by decide,List.nodup_nil⟩,?_,?_⟩
    ?_ ?_ ?_ ?_ ?_ ?_
  · intro label hlabel
    obtain ⟨piece,hpiece,rfl⟩ := List.mem_map.mp hlabel
    rw [asciiBytes,List.length_map]
    exact (hname.labels piece hpiece).sized
  · rw [octets_wireLabels]
    omega
  · rw [← hmessage]
    simp only [List.length_append,queryHeader_length,uint16BE,List.length_cons,List.length_nil]
    omega
  · rw [← hmessage]
    exact queryHeader_counts options _
  · rw [← hmessage,← List.append_assoc,← hshift]
    exact uint16_uint16BE _ _ hcode
  · have hafter : 12+(wireLabels ((dropDot zone).splitOn 46)).length+2 =
        (queryHeader options++wireLabels ((dropDot zone).splitOn 46)++uint16BE code).length := by
      rw [List.length_append,hshift]
      rfl
    rw [← hmessage,hafter,← List.append_assoc,← List.append_assoc]
    exact uint16_uint16BE _ [] (by decide)
  · rw [htext,Option.getD_some,hname.trim,hl.ascii zone hname.ascii,dropDots_map,hname.dropDots]
  · rw [htext,ne_eq,List.map_eq_nil_iff]
    intro hnil
    rw [hnil] at hsized
    exact absurd hsized.1 (by decide)

end

theorem query_round_trip (toLowerCase toUpperCase : JsString → JsString)
    (hl : Lowers toLowerCase) (zone : JsString) :
    ((∃ qname,encodeDnsQName (some zone) = .ok qname) ↔ IsQueryName zone) ∧
    ∀ qname,encodeDnsQName (some zone) = .ok qname → qname.length ≤ 255 ∧
      ∀ (qtype : Option JsString) (code id : ℕ) (recursionDesired : Bool),
        dnsQtypeCodes.lookup (toUpperCase (qtype.getD (js "A"))) = some code → id < 65536 →
        ∃ message r,
          buildDnsQueryMessage toUpperCase (some zone) ⟨qtype,some id,recursionDesired⟩ =
            .ok message ∧
          uint16 message 0 = id ∧
          parseDnsResponseStructure toLowerCase message (some ⟨some zone,code,1⟩) = .ok r ∧
          r.structureValid = true ∧ r.questionMatches = some true ∧ r.answerCount = 0 ∧
          r.completeAnswerCount = 0 := by
  refine ⟨⟨?_,fun h => ⟨_,(encodeDnsQName_ok_iff zone _).mpr ⟨h,rfl⟩⟩⟩,?_⟩
  · rintro ⟨qname,h⟩
    exact ((encodeDnsQName_ok_iff zone qname).mp h).1
  intro qname hencode
  obtain ⟨hname,rfl⟩ := (encodeDnsQName_ok_iff zone qname).mp hencode
  constructor
  · rw [length_wireLabels]
    have := hname.sized
    omega
  intro qtype code id recursionDesired hcode hid
  refine ⟨_,_,?_,?_,parse_query hl hname ⟨qtype,some id,recursionDesired⟩
    (dnsQtypeCodes_lt hcode),rfl,rfl,rfl,rfl⟩
  · simp only [buildDnsQueryMessage,hcode,hencode]
  · rw [queryHeader_id,queryId,Option.getD_some]
    omega

theorem query_round_trip_relative : ∃ message r,
    buildDnsQueryMessage id (some (js "Ns1.x_y.")) ⟨some (js "MX"),some 513,false⟩ = .ok message ∧
    uint16 message 0 = 513 ∧
    parseDnsResponseStructure (List.map lowerUnit) message (some ⟨some (js "Ns1.x_y."),15,1⟩) =
      .ok r ∧
    r.structureValid = true ∧ r.questionMatches = some true ∧ r.answerCount = 0 ∧
    r.completeAnswerCount = 0 := by
  have h := query_round_trip (List.map lowerUnit) id lowers_ascii (js "Ns1.x_y.")
  exact (h.2 [3,78,115,49,3,120,95,121,0] (by decide)).2 (some (js "MX")) 15 513 false (by decide)
    (by decide)

end AstraNull.DnsQuery

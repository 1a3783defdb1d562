import Mathlib
import AstraNull.NumberText
import AstraNull.JsonText
import AstraNull.ScriptText
import AstraNull.ScriptValue
import AstraNull.ScriptObject
import AstraNull.ByteText
import AstraNull.CheckedObjects
import AstraNull.ProbeProfile
import AstraNull.TargetMetadata
import AstraNull.TargetInput
import AstraNull.DnsQuestion

/-!
# Items of the probe activity

`normalizeProbeActivityItem` of `lib/probeActivity.mjs`, with the header and URL capture of
`lib/probeHttpCapture.mjs`. A worker's item is checked field by field; chunk bytes must agree with
their offset, and long previews are halved until the item fits. An item that went through it once
is accepted again with the same members.
-/
namespace AstraNull.ProbeActivityItems
open JsonText ScriptText ScriptValue ScriptObject ByteText CheckedObjects
open ProbeProfile (integerIn isBoolean numeral integerIn_numeral)
open TargetMetadata (isPlain)
open TargetInput (Platform)
open DnsQuestion (lowerUnit)

def digit64 (n : ℕ) : UInt16 := if n = 62 then 43 else if n = 63 then 47 else digit n

def padding (n : ℕ) : JsString := List.replicate ((4-n%4)%4) 61

/-- `bytes.toString('base64')` -/
def base64 (bytes : List ℕ) : JsString :=
  (sextets bytes).map digit64++padding (sextets bytes).length

def isDigit64 (u : UInt16) : Bool := isAlphanumeric u.toNat || u = 43 || u = 47

/-- Groups of four digits, the last one filled up. -/
def isBase64 (s : JsString) : Bool :=
  let body := s.takeWhile isDigit64
  match s.dropWhile isDigit64 with
  | [] => body.length%4 = 0
  | [61] => body.length%4 = 3
  | [61,61] => body.length%4 = 2
  | _ => false

/-- Dates, URLs and lower case. -/
structure ItemPlatform where
  P : Platform
  /-- The time of `new Date(value)`, nothing for an invalid date. -/
  newDate : JsVal → Option ℤ
  toISOString : ℤ → JsString

def captureVersion : String := "http-exchange.v1"

def maxProbeActivityItems : ℕ := 256

def probeActivityStages : List String :=
  ["job_started","request_started","response_received","attempt_started","attempt_failed",
    "request_not_sent","probe_completed","phase_completed","request_payload","response_payload",
    "response_body_completed"]

def probePreviewBytes : ℕ := 8192

def probePreviewChars : ℕ := 16384

def maxCaptureBodyBytes : ℕ := 1024*1024

def maxCaptureHeaders : ℕ := 2048

/-- A value that is returned as it is. -/
def accept (p : JsVal → Bool) : Check Unit := fun _ v => if p v then .ok v else .error ()

def required (name : String) (check : Check Unit) : Member Unit := ⟨name,fun _ => false,check⟩

def optional (name : String) (check : Check Unit) : Member Unit := ⟨name,nullish,check⟩

/-- `/^[a-zA-Z0-9_.:-]{1,80}$/` -/
def isToken : JsVal → Bool
  | .str s => s ≠ [] && s.length ≤ 80 &&
      s.all fun u => isAlphanumeric u.toNat || u = 95 || u = 46 || u = 58 || u = 45
  | _ => false

/-- A unit of a header name. -/
def isHeaderUnit (u : UInt16) : Bool :=
  isAlphanumeric u.toNat || u = 33 || (35 ≤ u.toNat && u.toNat ≤ 39) || u = 42 || u = 43 ||
    u = 46 || (94 ≤ u.toNat && u.toNat ≤ 96) || u = 124 || u = 126 || u = 45

/-- One to 64 units of a name, after a colon or not. -/
def isHeaderName (s : JsString) : Bool :=
  let name := if s.head? = some 58 then s.tail else s
  name ≠ [] && name.length ≤ 64 && name.all isHeaderUnit

def isHeaderEntry (entry : JsVal) : Bool :=
  isPlain entry && (names entry).all (fun key => key = js "name" || key = js "value") &&
    (match field entry "name" with
      | .str name => isHeaderName name
      | _ => false) &&
    match field entry "value" with
    | .str value => value.length ≤ 16384
    | _ => false

def isListedName : JsVal → Bool
  | .str s => s ≠ [] && s.length ≤ 64 && s.all fun u => isAlphanumeric u.toNat || u = 45
  | _ => false

def isTypeUnit (u : UInt16) : Bool := isAlphanumeric u.toNat || u = 46 || u = 43 || u = 45

def isLineEnd (u : UInt16) : Bool := u = 10 || u = 13 || u = 0x2028 || u = 0x2029

/-- `/^[a-z0-9.+-]+\/[a-z0-9.+-]+(?:\s*;.*)?$/i` on at most 1024 units without a line break. -/
def isContentType : JsVal → Bool
  | .str s =>
      let subtype := (s.dropWhile isTypeUnit).tail
      let rest := subtype.dropWhile isTypeUnit
      s.length ≤ 1024 && !s.contains 10 && !s.contains 13 && s.takeWhile isTypeUnit ≠ [] &&
        (s.dropWhile isTypeUnit).head? = some 47 && subtype.takeWhile isTypeUnit ≠ [] &&
        (rest = [] || match rest.dropWhile fun u => isWhiteSpace u.toNat with
          | u::tail => u = 59 && tail.all fun v => !isLineEnd v
          | [] => false)
  | _ => false

def isPreview : JsVal → Bool
  | .str s => s.length ≤ probePreviewChars
  | _ => false

section
variable (S : ItemPlatform)

/-- `captureUrl(value)`: the URL without its hash. -/
def activityUrl : Check Unit := fun _ value =>
  match value with
  | .str s =>
      match S.P.newUrl s with
      | some url =>
          if S.P.protocol url = js "http:" ∨ S.P.protocol url = js "https:" then
            .ok (.str (S.P.href (S.P.clearHash url)))
          else .error ()
      | none => .error ()
  | _ => .error ()

def capturedHeader (entry : JsVal) : JsVal :=
  .obj [(js "name",.str (S.P.toLowerCase (toStr (field entry "name")))),
    (js "value",.str (toStr (field entry "value")))]

def normalizeCapturedHeaders : Check Unit := fun _ value =>
  match value with
  | .arr entries =>
      if entries.length ≤ maxCaptureHeaders ∧ entries.all isHeaderEntry then
        .ok (.arr (entries.map (capturedHeader S)))
      else .error ()
  | _ => .error ()

def versionedHeaders (versioned : Bool) : Check Unit := fun path value =>
  if versioned then normalizeCapturedHeaders S path value else .error ()

/-- The names in small letters, each once. -/
def headerNames : Check Unit := fun _ value =>
  match value with
  | .arr listed =>
      if listed.length ≤ 16 ∧ listed.all isListedName then
        .ok (.arr ((listed.map fun name => S.P.toLowerCase (toStr name)).reverse.dedup.reverse.map
          .str))
      else .error ()
  | _ => .error ()

/-- The canonical text of the date. -/
def itemDate : Check Unit := fun _ value =>
  match S.newDate value with
  | some at_ => .ok (.str (S.toISOString at_))
  | none => .error ()

/-- The fields in the order in which they are written. -/
def itemMembers (versioned : Bool) : List (Member Unit) :=
  [required "sequence" (accept (integerIn · 1 maxProbeActivityItems)),
    required "at" (itemDate S),required "stage" (accept (oneOf · probeActivityStages)),
    optional "capture_version" (accept (is · captureVersion))]++
    ["exchange_id","attempt_id","operation_id"].map
      (optional · (accept fun v => versioned && isToken v))++
    [optional "http_version" (accept (oneOf · ["1.0","1.1","2.0","3.0"])),
      optional "request_headers" (versionedHeaders S versioned),
      optional "response_headers" (versionedHeaders S versioned)]++
    ["operation","method","protocol","error_class","reason","outcome","phase",
      "request_payload_encoding","response_payload_encoding"].map (optional · (accept isToken))++
    [optional "url" (activityUrl S),optional "status_code" (accept (integerIn · 100 599))]++
    ["duration_ms","requests_sent","body_bytes","response_bytes_observed",
      "response_bytes_captured","request_payload_offset","response_payload_offset"].map
      (optional · (accept (integerIn · 0 1048576)))++
    [optional "header_names" (headerNames S)]++
    ["request_content_type","response_content_type"].map (optional · (accept isContentType))++
    ["request_payload_preview","request_query_preview","response_payload_preview"].map
      (optional · (accept isPreview))++
    ["request_payload_truncated","response_payload_truncated","response_payload_available"].map
      (optional · (accept isBoolean))

end

def itemFields : List String :=
  ["sequence","at","stage","operation","method","url","protocol","status_code","duration_ms",
    "error_class","reason","requests_sent","body_bytes","header_names","outcome","phase",
    "request_content_type","response_content_type","request_payload_preview",
    "request_query_preview","response_payload_preview","request_payload_encoding",
    "response_payload_encoding","request_payload_truncated","response_payload_truncated",
    "response_bytes_observed","response_bytes_captured","capture_version","exchange_id",
    "attempt_id","operation_id","http_version","request_headers","response_headers",
    "request_payload_offset","response_payload_offset","response_payload_available"]

/-- The value of an integer field. -/
def integerOf : JsVal → ℤ
  | .num n => ⌊rational n⌋
  | _ => 0

theorem numeral_zero : numeral 0 = .num .zero := by
  rw [numeral,NumberText.Number.ofDecimal,if_pos]
  · rfl
  · rw [Nat.cast_zero]
    exact div_nonneg (by norm_num) (by rw [NumberText.Magnitude.scale]; positivity)

theorem integerOf_numeral {n : ℕ} (h : n < 2^53) : integerOf (numeral n) = n := by
  rcases Nat.eq_zero_or_pos n with rfl | hpos
  · rw [numeral_zero]
    rfl
  · obtain ⟨x,hvalue,hx⟩ := ProbeProfile.exists_numeral hpos h
    rw [hx,integerOf,hvalue,Int.floor_natCast]

theorem numeral_inj {a b : ℕ} (ha : a < 2^53) (hb : b < 2^53) (h : numeral a = numeral b) :
    a = b := by
  have hvalue := congrArg integerOf h
  rw [integerOf_numeral ha,integerOf_numeral hb] at hvalue
  exact_mod_cast hvalue

/-- A chunk with an offset is canonical base 64 of bytes inside the captured body. -/
def offsetOk (side : String) (result : JsVal) : Bool :=
  let offset := field result (side++"_payload_offset")
  nullish offset || (is (field result "capture_version") captureVersion &&
    is (field result "stage") (side++"_payload") &&
    is (field result (side++"_payload_encoding")) "base64" &&
    match field result (side++"_payload_preview") with
    | .str preview =>
        isBase64 preview && base64 (fromBase64Url preview) = preview &&
          (fromBase64Url preview).length ≤ probePreviewBytes &&
          integerOf offset+(fromBase64Url preview).length ≤ maxCaptureBodyBytes
    | _ => false)

/-- `Buffer.byteLength(JSON.stringify(v))` -/
def byteLength (v : JsVal) : ℕ := (utf8 (text v)).length

def previewFields : List String :=
  ["request_payload_preview","request_query_preview","response_payload_preview"]

/-- The flag beside a preview. -/
def truncatedField (name : String) : String :=
  if name = "response_payload_preview" then "response_payload_truncated"
  else "request_payload_truncated"

def longPreview (v : JsVal) (name : String) : Option JsString :=
  match field v name with
  | .str s => if s.length ≤ 512 then none else some s
  | _ => none

/-- Half of a long preview. -/
def shorten (v : JsVal) (name : String) : JsVal :=
  match longPreview v name with
  | some s => put (put v name (.str (s.take (s.length/2)))) (truncatedField name) (.bool true)
  | none => v

/-- The rounds of the loop. Every round that changes something halves a preview of at most 16384
units above 512, so that the sixth finds none. -/
def fit : ℕ → JsVal → Option JsVal
  | fuel,v =>
      if byteLength v ≤ 24*1024 then some v
      else if !nullish (field v "request_payload_offset") ||
          !nullish (field v "response_payload_offset") then none
      else if previewFields.all fun name => (longPreview v name).isNone then none
      else match fuel with
        | 0 => none
        | fuel+1 => fit fuel (previewFields.foldl shorten v)

section
variable (S : ItemPlatform)

def isVersioned (item : JsVal) : Bool := is (field item "capture_version") captureVersion

/-- The date is at most five minutes away. -/
def timely (value : JsVal) (now : ℤ) : Bool := (S.newDate value).any fun at_ => |now-at_| ≤ 300000

def normalizeProbeActivityItem (item : JsVal) (now : ℤ) : Option JsVal :=
  if !isPlain item || (names item).any (fun key => !itemFields.any fun name => js name = key) ||
      !timely S (field item "at") now then none
  else
    match checkMembers (fun _ _ => []) [] item (itemMembers S (isVersioned item)) with
    | .error _ => none
    | .ok kvs =>
        if offsetOk "request" (.obj kvs) && offsetOk "response" (.obj kvs) then fit 6 (.obj kvs)
        else none

end

/-- The platform, as documented. -/
structure Documented (S : ItemPlatform) : Prop where
  lower_ascii : ∀ s : JsString,(∀ u ∈ s,u.toNat < 128) → S.P.toLowerCase s = s.map lowerUnit
  clear_protocol : ∀ url,S.P.protocol (S.P.clearHash url) = S.P.protocol url
  clear_again : ∀ url,S.P.clearHash (S.P.clearHash url) = S.P.clearHash url
  /-- What is written is read back. -/
  parse_href : ∀ url,S.P.protocol url = js "http:" ∨ S.P.protocol url = js "https:" →
    S.P.newUrl (S.P.href (S.P.clearHash url)) = some (S.P.clearHash url)
  date_again : ∀ v at_,S.newDate v = some at_ → S.newDate (.str (S.toISOString at_)) = some at_

/-- ASCII units that stay in the class in small letters. -/
def Folds (p : UInt16 → Bool) : Prop := ∀ u,p u = true → u.toNat < 128 ∧ p (lowerUnit u) = true

theorem folds_listed : Folds fun u => isAlphanumeric u.toNat || u = 45 := by
  intro u h
  simp only [isAlphanumeric,Bool.or_eq_true,Bool.and_eq_true,decide_eq_true_eq,← UInt16.toNat_inj]
    at h ⊢
  rw [DnsQuestion.toNat_lowerUnit,DnsQuestion.foldCase]
  have h45 : (45 : UInt16).toNat = 45 := rfl
  split_ifs <;> omega

theorem folds_header : Folds fun u => u = 58 || isHeaderUnit u := by
  intro u h
  simp only [isHeaderUnit,isAlphanumeric,Bool.or_eq_true,Bool.and_eq_true,decide_eq_true_eq,
    ← UInt16.toNat_inj] at h ⊢
  rw [DnsQuestion.toNat_lowerUnit,DnsQuestion.foldCase]
  have hunits : (58 : UInt16).toNat = 58 ∧ (33 : UInt16).toNat = 33 ∧ (42 : UInt16).toNat = 42 ∧
      (43 : UInt16).toNat = 43 ∧ (46 : UInt16).toNat = 46 ∧ (124 : UInt16).toNat = 124 ∧
      (126 : UInt16).toNat = 126 ∧ (45 : UInt16).toNat = 45 := by decide
  split_ifs <;> omega

theorem lowerUnit_again (u : UInt16) : lowerUnit (lowerUnit u) = lowerUnit u := by
  have hnat := DnsQuestion.toNat_lowerUnit u
  have hsmall : ¬ (65 ≤ (lowerUnit u).toNat ∧ (lowerUnit u).toNat ≤ 90) := by
    rw [hnat,DnsQuestion.foldCase]
    split_ifs <;> omega
  exact if_neg hsmall

theorem lowerUnit_colon (u : UInt16) : lowerUnit u = 58 ↔ u = 58 := by
  rw [← UInt16.toNat_inj,← UInt16.toNat_inj,DnsQuestion.toNat_lowerUnit,DnsQuestion.foldCase]
  have h58 : (58 : UInt16).toNat = 58 := rfl
  split_ifs <;> omega

section
variable {S : ItemPlatform}

/-- Text of such a class in small letters. -/
theorem lower_folds (hS : Documented S) {p : UInt16 → Bool} (hp : Folds p) {s : JsString}
    (h : s.all p = true) : S.P.toLowerCase s = s.map lowerUnit ∧ (s.map lowerUnit).all p = true ∧
      S.P.toLowerCase (s.map lowerUnit) = s.map lowerUnit := by
  have hunits := List.all_eq_true.mp h
  have hlower : ∀ u ∈ s.map lowerUnit,p u = true := by
    intro u hu
    obtain ⟨w,hw,rfl⟩ := List.mem_map.mp hu
    exact (hp w (hunits w hw)).2
  refine ⟨hS.lower_ascii s fun u hu => (hp u (hunits u hu)).1,List.all_eq_true.mpr hlower,?_⟩
  rw [hS.lower_ascii _ fun u hu => (hp u (hlower u hu)).1,List.map_map]
  exact List.map_congr_left fun u _ => lowerUnit_again u

theorem stableAt_accept (name : String) (skip : JsVal → Bool) (hskip : skip .undefined = true ∨
    ∀ v,skip v = false) (p : JsVal → Bool) (source : JsVal) :
    Member.StableAt (⟨name,skip,accept p⟩ : Member Unit) source := by
  refine ⟨fun h => ?_,fun path path' w hkeep h => ?_⟩
  · rcases hskip with hskip | hskip
    · exact hskip
    · exact absurd ((hskip (field source name)).symm.trans h) Bool.false_ne_true
  · change accept p path (field source name) = .ok w at h
    rw [accept] at h
    split_ifs at h with hpass
    cases h
    refine ⟨hkeep,?_⟩
    change accept p path' (field source name) = _
    rw [accept,if_pos hpass]

theorem stable_date (hS : Documented S) : Stable (itemDate S) := by
  intro path path' v w h
  unfold itemDate at h
  split at h
  · next at_ hat =>
      cases h
      rw [itemDate,hS.date_again _ _ hat]
  · cases h

theorem stable_url (hS : Documented S) : Stable (activityUrl S) := by
  intro path path' v w h
  unfold activityUrl at h
  split at h
  · split at h
    · next url hurl =>
        split_ifs at h with hprotocol
        cases h
        have hagain : S.P.protocol (S.P.clearHash url) = js "http:" ∨
            S.P.protocol (S.P.clearHash url) = js "https:" := by
          rwa [hS.clear_protocol]
        simp only [activityUrl,hS.parse_href url hprotocol,if_pos hagain,hS.clear_again]
    · cases h
  · cases h

/-- A header name in small letters is one. -/
theorem isHeaderName_lower {s : JsString} (h : isHeaderName s = true) :
    s.all (fun u => u = 58 || isHeaderUnit u) = true ∧ isHeaderName (s.map lowerUnit) = true := by
  have hfolds : ∀ u,isHeaderUnit u = true → isHeaderUnit (lowerUnit u) = true := by
    intro u hu
    have hboth := (folds_header u (by simp [hu])).2
    simp only [Bool.or_eq_true,decide_eq_true_eq] at hboth
    rcases hboth with hcolon | hboth
    · rw [lowerUnit_colon] at hcolon
      subst hcolon
      exact absurd hu (by decide)
    · exact hboth
  cases s with
  | nil => exact absurd h (by decide)
  | cons u s =>
      simp only [isHeaderName,List.head?_cons,Option.some.injEq,List.tail_cons,List.map_cons,
        lowerUnit_colon] at h ⊢
      split_ifs at h ⊢ with hcolon
      · simp only [Bool.and_eq_true,decide_eq_true_eq,List.all_eq_true,List.length_map] at h ⊢
        obtain ⟨⟨hne,hlen⟩,hunits⟩ := h
        refine ⟨?_,⟨by simpa using hne,hlen⟩,?_⟩
        · intro w hw
          rcases List.mem_cons.mp hw with rfl | hw
          · simp [hcolon]
          · simp [hunits w hw]
        · intro w hw
          obtain ⟨x,hx,rfl⟩ := List.mem_map.mp hw
          exact hfolds x (hunits x hx)
      · simp only [Bool.and_eq_true,decide_eq_true_eq,List.all_eq_true,← List.map_cons,
          List.length_map] at h ⊢
        obtain ⟨⟨hne,hlen⟩,hunits⟩ := h
        refine ⟨fun w hw => by simp [hunits w hw],⟨by simp,hlen⟩,?_⟩
        intro w hw
        obtain ⟨x,hx,rfl⟩ := List.mem_map.mp hw
        exact hfolds x (hunits x hx)

/-- A captured header is captured as it is. -/
theorem capturedHeader_again (hS : Documented S) {entry : JsVal} (h : isHeaderEntry entry = true) :
    isHeaderEntry (capturedHeader S entry) = true ∧
      capturedHeader S (capturedHeader S entry) = capturedHeader S entry := by
  simp only [isHeaderEntry,Bool.and_eq_true] at h
  obtain ⟨⟨-,hname⟩,hvalue⟩ := h
  split at hname
  · next name hn =>
      split at hvalue
      · next value hv =>
          obtain ⟨hall,hagain⟩ := isHeaderName_lower hname
          obtain ⟨hlower,-,hlower'⟩ := lower_folds hS folds_header hall
          have hentry : capturedHeader S entry =
              .obj [(js "name",.str (name.map lowerUnit)),(js "value",.str value)] := by
            rw [capturedHeader,hn,hv]
            simp only [toStr,hlower]
          have hfirst : field (capturedHeader S entry) "name" = .str (name.map lowerUnit) := by
            rw [hentry]
            exact @field_of_first [] _ "name" _ (by simp)
          have hsecond : field (capturedHeader S entry) "value" = .str value := by
            rw [hentry]
            have hother : js "value" ≠ js "name" := by decide
            exact @field_of_first [(js "name",.str (name.map lowerUnit))] [] "value" _
              (by simpa using hother)
          constructor
          · simp only [isHeaderEntry,Bool.and_eq_true,hfirst,hsecond]
            refine ⟨⟨⟨?_,?_⟩,hagain⟩,hvalue⟩
            · rw [hentry]
              rfl
            · rw [hentry]
              simp [names,members]
          · rw [capturedHeader,hfirst,hsecond,hentry]
            simp only [toStr,hlower']
      · cases hvalue
  · cases hname

theorem stable_headers (hS : Documented S) (versioned : Bool) :
    Stable (versionedHeaders S versioned) := by
  intro path path' v w h
  unfold versionedHeaders normalizeCapturedHeaders at h
  split_ifs at h with hversioned
  split at h
  · next entries =>
      split_ifs at h with hentries
      cases h
      have hall := List.all_eq_true.mp hentries.2
      have hagain : (entries.map (capturedHeader S)).length ≤ maxCaptureHeaders ∧
          (entries.map (capturedHeader S)).all isHeaderEntry = true := by
        refine ⟨by rw [List.length_map]; exact hentries.1,List.all_eq_true.mpr fun entry he => ?_⟩
        obtain ⟨raw,hraw,rfl⟩ := List.mem_map.mp he
        exact (capturedHeader_again hS (hall raw hraw)).1
      have hsame : (entries.map (capturedHeader S)).map (capturedHeader S) =
          entries.map (capturedHeader S) := by
        rw [List.map_map]
        exact List.map_congr_left fun raw hraw => (capturedHeader_again hS (hall raw hraw)).2
      rw [versionedHeaders,if_pos hversioned]
      simp only [normalizeCapturedHeaders,if_pos hagain,hsame]
  · cases h

theorem isListedName_eq {v : JsVal} (h : isListedName v = true) : ∃ s,v = .str s ∧ s ≠ [] ∧
    s.length ≤ 64 ∧ s.all (fun u => isAlphanumeric u.toNat || u = 45) = true := by
  unfold isListedName at h
  split at h
  · next s =>
      simp only [Bool.and_eq_true,decide_eq_true_eq] at h
      exact ⟨s,rfl,h.1.1,h.1.2,h.2⟩
  · cases h

/-- Distinct names in small letters are listed as they are. -/
theorem stable_names (hS : Documented S) : Stable (headerNames S) := by
  intro path path' v w h
  unfold headerNames at h
  split at h
  · next listed =>
      split_ifs at h with hlisted
      cases h
      have hall := List.all_eq_true.mp hlisted.2
      generalize hlower : (listed.map fun name => S.P.toLowerCase (toStr name)) = lowered
      have hmem : ∀ s ∈ lowered.reverse.dedup.reverse,isListedName (.str s) = true ∧
          S.P.toLowerCase s = s := by
        intro s hs
        rw [List.mem_reverse,List.mem_dedup,List.mem_reverse,← hlower] at hs
        obtain ⟨raw,hraw,rfl⟩ := List.mem_map.mp hs
        obtain ⟨t,rfl,hne,hlen,hunits⟩ := isListedName_eq (hall raw hraw)
        obtain ⟨he,hagain,hagain'⟩ := lower_folds hS folds_listed hunits
        simp only [toStr,he]
        refine ⟨?_,hagain'⟩
        simp only [isListedName,List.length_map,Bool.and_eq_true,decide_eq_true_eq]
        exact ⟨⟨by simpa using hne,hlen⟩,hagain⟩
      have hlength : lowered.reverse.dedup.reverse.length ≤ 16 := by
        rw [List.length_reverse]
        refine (List.dedup_sublist _).length_le.trans ?_
        rw [List.length_reverse,← hlower,List.length_map]
        exact hlisted.1
      have hsame : ((lowered.reverse.dedup.reverse.map JsVal.str).map fun name =>
          S.P.toLowerCase (toStr name)) = lowered.reverse.dedup.reverse := by
        rw [List.map_map]
        conv_rhs => rw [← List.map_id lowered.reverse.dedup.reverse]
        exact List.map_congr_left fun s hs => (hmem s hs).2
      have hpass : (lowered.reverse.dedup.reverse.map JsVal.str).length ≤ 16 ∧
          (lowered.reverse.dedup.reverse.map JsVal.str).all isListedName = true := by
        refine ⟨by rw [List.length_map]; exact hlength,List.all_eq_true.mpr fun v hv => ?_⟩
        obtain ⟨s,hs,rfl⟩ := List.mem_map.mp hv
        exact (hmem s hs).1
      simp only [headerNames,if_pos hpass,hsame,List.reverse_reverse,
        (List.nodup_dedup lowered.reverse).dedup]
  · cases h

theorem kept_headers {versioned : Bool} {path : JsString} {v w : JsVal}
    (h : versionedHeaders S versioned path v = .ok w) : nullish w = false := by
  unfold versionedHeaders normalizeCapturedHeaders at h
  split_ifs at h with hversioned
  split at h
  · split_ifs at h with hentries
    cases h
    rfl
  · cases h

theorem kept_names {path : JsString} {v w : JsVal} (h : headerNames S path v = .ok w) :
    nullish w = false := by
  unfold headerNames at h
  split at h
  · split_ifs at h with hlisted
    cases h
    rfl
  · cases h

theorem kept_url {path : JsString} {v w : JsVal} (h : activityUrl S path v = .ok w) :
    nullish w = false := by
  unfold activityUrl at h
  split at h
  · split at h
    · split_ifs at h with hprotocol
      cases h
      rfl
    · cases h
  · cases h

/-- The kinds of members there are. -/
theorem forall_members {P : Member Unit → Prop} {versioned : Bool}
    (hsequence : P (required "sequence" (accept (integerIn · 1 maxProbeActivityItems))))
    (hdate : P (required "at" (itemDate S)))
    (hstage : P (required "stage" (accept (oneOf · probeActivityStages))))
    (hoptional : ∀ name p,P (optional name (accept p)))
    (hheaders : ∀ name,P (optional name (versionedHeaders S versioned)))
    (hurl : P (optional "url" (activityUrl S)))
    (hnames : P (optional "header_names" (headerNames S))) :
    ∀ m ∈ itemMembers S versioned,P m := by
  have hall : ∀ (fields : List String) (p : JsVal → Bool),
      ∀ m ∈ fields.map (optional · (accept p)),P m := by
    intro fields p m hm
    obtain ⟨name,-,rfl⟩ := List.mem_map.mp hm
    exact hoptional name p
  simp only [itemMembers,List.forall_mem_append,List.forall_mem_cons]
  exact ⟨⟨⟨⟨⟨⟨⟨⟨⟨⟨hsequence,hdate,hstage,hoptional _ _,by simp⟩,hall _ _⟩,hoptional _ _,
    hheaders _,hheaders _,by simp⟩,hall _ _⟩,hurl,hoptional _ _,by simp⟩,hall _ _⟩,hnames,by simp⟩,
    hall _ _⟩,hall _ _⟩,hall _ _⟩

theorem stableAt_members (hS : Documented S) (versioned : Bool) (source : JsVal) :
    ∀ m ∈ itemMembers S versioned,m.StableAt source := by
  have hrequired : ∀ name p,(required name (accept p)).StableAt source := fun name p =>
    stableAt_accept name _ (.inr fun _ => rfl) p source
  apply @forall_members S (fun m => m.StableAt source) versioned
  · exact hrequired _ _
  · exact (stable_date hS).member (fun _ h => absurd h Bool.false_ne_true) (fun _ _ _ _ => rfl)
      source
  · exact hrequired _ _
  · exact fun name p => stableAt_accept name nullish (.inl rfl) p source
  · exact fun name => (stable_headers hS versioned).member (fun _ _ => rfl)
      (fun _ _ _ h => kept_headers h) source
  · exact (stable_url hS).member (fun _ _ => rfl) (fun _ _ _ h => kept_url h) source
  · exact (stable_names hS).member (fun _ _ => rfl) (fun _ _ _ h => kept_names h) source

/-- The places of the members among the fields. -/
def writtenOrder : List ℕ :=
  [0,1,2,27,28,29,30,31,32,33,3,4,6,9,10,14,15,21,22,5,7,8,11,12,25,26,34,35,13,16,17,18,19,20,23,
    24,36]

theorem writtenOrder_lt : ∀ i ∈ writtenOrder,i < itemFields.length := by decide

theorem names_members (versioned : Bool) : (itemMembers S versioned).map Member.name =
    writtenOrder.map fun i => itemFields.getD i "" := rfl

theorem nodup_fields : (itemFields.map js).Nodup := by decide +kernel

theorem nodup_members (versioned : Bool) :
    ((itemMembers S versioned).map fun m => js m.name).Nodup := by
  have hnames := congrArg (List.map js) (@names_members S versioned)
  rw [List.map_map] at hnames
  change ((itemMembers S versioned).map (js ∘ Member.name)).Nodup
  rw [hnames,List.map_map]
  refine List.Nodup.map_on (fun i hi j hj he => ?_) (by decide)
  have hi' := writtenOrder_lt i hi
  have hj' := writtenOrder_lt j hj
  rw [Function.comp_apply,Function.comp_apply,List.getD_eq_getElem _ _ hi',
    List.getD_eq_getElem _ _ hj'] at he
  rw [← List.length_map (f := js)] at hi' hj'
  refine (@List.Nodup.getElem_inj_iff _ _ nodup_fields i hi' j hj').mp ?_
  rwa [List.getElem_map,List.getElem_map]

theorem mem_fields {versioned : Bool} {m : Member Unit} (hm : m ∈ itemMembers S versioned) :
    m.name ∈ itemFields := by
  have hname : m.name ∈ (itemMembers S versioned).map Member.name := List.mem_map_of_mem hm
  rw [names_members] at hname
  obtain ⟨i,hi,he⟩ := List.mem_map.mp hname
  rw [← he,List.getD_eq_getElem _ _ (writtenOrder_lt i hi)]
  exact List.getElem_mem _

theorem length_commaJoin (ts : List (List Char)) : (utf8 (commaJoin ts)).length+(if ts = [] then 0
    else 1) = (ts.map fun t => (utf8 t).length+1).sum := by
  induction ts with
  | nil => rfl
  | cons t ts ih =>
      cases ts with
      | nil => simp [commaJoin]
      | cons t' ts =>
          have hcomma : utf8 (t++ ','::commaJoin (t'::ts)) =
              utf8 t++44::utf8 (commaJoin (t'::ts)) := by
            simp [ByteText.utf8,encodeChar]
          rw [commaJoin,hcomma]
          · rw [List.map_cons,List.sum_cons,← ih]
            simp
            omega
          · simp

theorem length_utf8_braces (body : List Char) :
    (utf8 ('\x7b'::(body++['\x7d']))).length = (utf8 body).length+2 := by
  simp [ByteText.utf8,encodeChar]

/-- The order of the members does not change the size. -/
theorem byteLength_perm {kvs lws : List (JsString × JsVal)} (h : kvs.Perm lws) :
    byteLength (.obj kvs) = byteLength (.obj lws) := by
  have hperm : ((memberTexts kvs).map memberText).Perm ((memberTexts lws).map memberText) := by
    rw [memberTexts_eq,memberTexts_eq]
    exact ((h.filter _).map _).map _
  have hkvs := length_commaJoin ((memberTexts kvs).map memberText)
  have hlws := length_commaJoin ((memberTexts lws).map memberText)
  have hsum := (hperm.map fun t => (utf8 t).length+1).sum_eq
  have hnil : (memberTexts kvs).map memberText = [] ↔ (memberTexts lws).map memberText = [] :=
    ⟨fun he => by rw [he] at hperm; exact hperm.nil_eq.symm,
      fun he => by rw [he] at hperm; exact hperm.eq_nil⟩
  have hbody : (utf8 (commaJoin ((memberTexts kvs).map memberText))).length =
      (utf8 (commaJoin ((memberTexts lws).map memberText))).length := by
    rw [hsum,← hlws] at hkvs
    simp only [hnil] at hkvs
    omega
  rw [byteLength,byteLength,text,text,length_utf8_braces,length_utf8_braces,hbody]

theorem byteLength_numeral {n : ℕ} (h : n < 2^53) : byteLength (numeral n) ≤ 17 := by
  rcases Nat.eq_zero_or_pos n with rfl | hpos
  · rw [numeral_zero]
    decide
  · obtain ⟨x,hvalue,hx⟩ := ProbeProfile.exists_numeral hpos h
    obtain ⟨hlength,hdigits⟩ := NumberText.Number.text_natural h hvalue
    rw [hx,byteLength,text,length_utf8_digits hdigits]
    exact hlength

theorem length_commaJoin_le (ts : List (List Char)) :
    (utf8 (commaJoin ts)).length ≤ (ts.map fun t => (utf8 t).length+1).sum := by
  have h := length_commaJoin ts
  omega

theorem byteLength_arr_le (vs : List JsVal) :
    byteLength (.arr vs) ≤ (vs.map fun v => byteLength v+1).sum+2 := by
  have hjoin := length_commaJoin_le (elementTexts vs)
  rw [elementTexts_eq,List.map_map] at hjoin
  have hbody : ∀ body : List Char,(utf8 ('['::(body++[']']))).length = (utf8 body).length+2 := by
    intro body
    simp [ByteText.utf8,encodeChar]
  rw [byteLength,text,hbody,elementTexts_eq]
  exact Nat.add_le_add_right hjoin 2

theorem byteLength_obj_le (kvs : List (JsString × JsVal)) : byteLength (.obj kvs) ≤
    (kvs.map fun p => byteLength (.str p.1)+byteLength p.2+2).sum+2 := by
  have hjoin := length_commaJoin_le ((memberTexts kvs).map memberText)
  have hmember : ∀ p : JsString × JsVal,(utf8 (memberText (p.1,text p.2))).length+1 =
      byteLength (.str p.1)+byteLength p.2+2 := by
    intro p
    simp [memberText,byteLength,text,ByteText.utf8,encodeChar]
    omega
  rw [byteLength,text,length_utf8_braces]
  refine Nat.add_le_add_right (hjoin.trans ?_) 2
  rw [memberTexts_eq,List.map_map,List.map_map]
  have hsame : (fun p : JsString × JsVal => (utf8 (memberText (p.1,text p.2))).length+1) =
      fun p => byteLength (.str p.1)+byteLength p.2+2 := funext hmember
  calc _ = ((defined kvs).map fun p => byteLength (.str p.1)+byteLength p.2+2).sum := by
          rw [← hsame]
          rfl
    _ ≤ _ := (List.filter_sublist.map _).sum_le_sum fun _ _ => Nat.zero_le _

theorem mem_previews (versioned : Bool) {name : String} (h : name ∈ previewFields) :
    optional name (accept isPreview) ∈ itemMembers S versioned ∧
      optional (truncatedField name) (accept isBoolean) ∈ itemMembers S versioned := by
  simp only [previewFields,List.mem_cons,List.not_mem_nil,or_false] at h
  rcases h with rfl | rfl | rfl
  all_goals
    constructor
    · simp [itemMembers,optional]
    · simp [itemMembers,optional,truncatedField]

/-- The fields that the loop may write. -/
def Written (name : String) : Prop :=
  ∃ preview ∈ previewFields,js name = js preview ∨ js name = js (truncatedField preview)

theorem not_written : ¬ Written "sequence" ∧ ¬ Written "at" ∧ ¬ Written "capture_version" ∧
    ¬ Written "request_payload_offset" ∧ ¬ Written "response_payload_offset" := by
  simp only [Written,previewFields,truncatedField]
  decide +kernel

/-- What a round keeps of an item. -/
structure Fitted (S : ItemPlatform) (versioned : Bool) (v w : JsVal) : Prop where
  settled : ∃ kvs,w = .obj kvs ∧ Settled (itemMembers S versioned) kvs
  rest : ∀ name,¬ Written name → field w name = field v name

theorem fitted_shorten {versioned : Bool} {v w : JsVal} (h : Fitted S versioned v w)
    {name : String} (hname : name ∈ previewFields) : Fitted S versioned v (shorten w name) := by
  obtain ⟨⟨kvs,rfl,hsettled⟩,hrest⟩ := h
  obtain ⟨hpreview,hflag⟩ := @mem_previews S versioned name hname
  rw [shorten]
  split
  · next s hlong =>
      have hfield : field (.obj kvs) name = .str s := by
        unfold longPreview at hlong
        split at hlong
        · next t ht =>
            split_ifs at hlong with hshort
            rw [ht,Option.some.inj hlong]
        · cases hlong
      have hin : js name ∈ kvs.map Prod.fst := by
        by_contra habsent
        rw [field_of_absent habsent] at hfield
        cases hfield
      have hkept := (hsettled.keeps_field (nodup_members versioned) hpreview hin).check []
      change accept isPreview [] (field (.obj kvs) name) = _ at hkept
      rw [hfield,accept] at hkept
      split_ifs at hkept with hbound
      have hhalf : (optional name (accept isPreview)).Keeps (.str (s.take (s.length/2))) := by
        refine ⟨rfl,fun path => if_pos ?_⟩
        simp only [isPreview,decide_eq_true_eq] at hbound ⊢
        exact (List.length_take_le' _ _).trans hbound
      have htrue : (optional (truncatedField name) (accept isBoolean)).Keeps (.bool true) :=
        ⟨rfl,fun path => rfl⟩
      have hfirst := hsettled.setMember hpreview hhalf
      refine ⟨⟨_,rfl,hfirst.setMember hflag htrue⟩,fun other hother => ?_⟩
      have hsame : js other ≠ js name := fun he => hother ⟨name,hname,.inl he⟩
      have hsame' : js other ≠ js (truncatedField name) := fun he => hother ⟨name,hname,.inr he⟩
      rw [field_put_other hsame',field_put_other hsame,hrest other hother]
  · exact ⟨⟨kvs,rfl,hsettled⟩,hrest⟩

theorem fitted_round {versioned : Bool} {v w : JsVal} (h : Fitted S versioned v w) :
    Fitted S versioned v (previewFields.foldl shorten w) :=
  fitted_shorten (fitted_shorten (fitted_shorten h (by simp [previewFields]))
    (by simp [previewFields])) (by simp [previewFields])

/-- What the loop returns is small enough, and only an item without chunk bytes is changed. -/
theorem fit_spec {versioned : Bool} {v w r : JsVal} {n : ℕ} (hw : Fitted S versioned v w)
    (h : fit n w = some r) : Fitted S versioned v r ∧ byteLength r ≤ 24*1024 ∧
      (r = w ∨ nullish (field v "request_payload_offset") = true ∧
        nullish (field v "response_payload_offset") = true) := by
  obtain ⟨-,-,-,hoffsets⟩ := not_written
  induction n generalizing w with
  | zero =>
      rw [fit] at h
      split_ifs at h with hsmall
      cases h
      exact ⟨hw,hsmall,.inl rfl⟩
  | succ n ih =>
      rw [fit] at h
      split_ifs at h with hsmall hchunk hshort
      · cases h
        exact ⟨hw,hsmall,.inl rfl⟩
      · obtain ⟨hr,hbytes,-⟩ := ih (fitted_round hw) h
        rw [hw.rest _ hoffsets.1,hw.rest _ hoffsets.2] at hchunk
        simp only [Bool.or_eq_true,Bool.not_eq_true',not_or,Bool.not_eq_false] at hchunk
        exact ⟨hr,hbytes,.inr hchunk⟩

/-- The previews that are long are at most so many times halved. -/
def Rounds (k : ℕ) (v : JsVal) : Prop :=
  ∀ name ∈ previewFields,∀ s,longPreview v name = some s → s.length ≤ 512*2^k

theorem previews_differ : (∀ name ∈ previewFields,∀ other ∈ previewFields,other ≠ name →
      js other ≠ js name) ∧ ∀ name ∈ previewFields,∀ other ∈ previewFields,
    js other ≠ js (truncatedField name) := by
  decide +kernel

theorem longPreview_shorten_other {v : JsVal} {name other : String} (hname : name ∈ previewFields)
    (hother : other ∈ previewFields) (hne : other ≠ name) :
    longPreview (shorten v name) other = longPreview v other := by
  rw [shorten]
  split
  · rw [longPreview,field_put_other (previews_differ.2 name hname other hother),
      field_put_other (previews_differ.1 name hname other hother hne),longPreview]
  · rfl

theorem longPreview_shorten_self {v : JsVal} {name : String} (hname : name ∈ previewFields)
    {k : ℕ} (h : ∀ s,longPreview v name = some s → s.length ≤ 512*2^(k+1)) :
    ∀ s,longPreview (shorten v name) name = some s → s.length ≤ 512*2^k := by
  intro s hs
  rw [shorten] at hs
  split at hs
  · next t ht =>
      have hbound := h t ht
      rw [longPreview,field_put_other (previews_differ.2 name hname name hname),
        field_put_self] at hs
      dsimp only at hs
      split_ifs at hs with hshort
      cases hs
      rw [List.length_take]
      rw [pow_succ] at hbound
      omega
  · next hnone =>
      rw [hnone] at hs
      cases hs

theorem rounds_round {k : ℕ} {v : JsVal} (h : Rounds (k+1) v) :
    Rounds k (previewFields.foldl shorten v) := by
  have hmem : ∀ name ∈ ["request_payload_preview","request_query_preview",
      "response_payload_preview"],name ∈ previewFields := fun _ hname => hname
  rw [List.forall_mem_cons,List.forall_mem_cons,List.forall_mem_singleton] at hmem
  obtain ⟨hbody,hquery,hresponse⟩ := hmem
  rw [previewFields,List.foldl_cons,List.foldl_cons,List.foldl_cons,List.foldl_nil,Rounds,
    previewFields,List.forall_mem_cons,List.forall_mem_cons,List.forall_mem_singleton]
  refine ⟨?_,?_,?_⟩
  · rw [longPreview_shorten_other hresponse hbody (by decide),
      longPreview_shorten_other hquery hbody (by decide)]
    exact longPreview_shorten_self hbody (h _ hbody)
  · rw [longPreview_shorten_other hresponse hquery (by decide)]
    refine longPreview_shorten_self hquery fun s hs => h _ hquery s ?_
    rwa [longPreview_shorten_other hbody hquery (by decide)] at hs
  · refine longPreview_shorten_self hresponse fun s hs => h _ hresponse s ?_
    rwa [longPreview_shorten_other hquery hresponse (by decide),
      longPreview_shorten_other hbody hresponse (by decide)] at hs

/-- More rounds than the previews can be halved change nothing. -/
theorem fit_enough {k : ℕ} {v : JsVal} (h : Rounds k v) (j : ℕ) : fit (k+j) v = fit k v := by
  induction k generalizing v with
  | zero =>
      have hnone : (previewFields.all fun name => (longPreview v name).isNone) = true := by
        refine List.all_eq_true.mpr fun name hname => Option.isNone_iff_eq_none.mpr ?_
        cases hs : longPreview v name with
        | none => rfl
        | some s =>
            have hbound := h name hname s hs
            unfold longPreview at hs
            split at hs
            · split_ifs at hs with hshort
              cases hs
              omega
            · cases hs
      rw [fit.eq_def (0+j) v,fit.eq_def 0 v]
      dsimp only
      rw [if_pos hnone,if_pos hnone]
  | succ k ih =>
      rw [Nat.succ_add,fit,fit]
      simp only [ih (rounds_round h)]

theorem normalize_cases {item r : JsVal} {now : ℤ}
    (h : normalizeProbeActivityItem S item now = some r) :
    timely S (field item "at") now = true ∧ ∃ kvs,
      checkMembers (fun _ _ => []) [] item (itemMembers S (isVersioned item)) = .ok kvs ∧
      offsetOk "request" (.obj kvs) = true ∧ offsetOk "response" (.obj kvs) = true ∧
      fit 6 (.obj kvs) = some r := by
  unfold normalizeProbeActivityItem at h
  split_ifs at h with hshape
  simp only [Bool.or_eq_true,Bool.not_eq_true',not_or,Bool.not_eq_false] at hshape
  split at h
  · cases h
  · next kvs hkvs =>
      split_ifs at h with hoffsets
      rw [Bool.and_eq_true] at hoffsets
      exact ⟨hshape.2,kvs,hkvs,hoffsets.1,hoffsets.2,h⟩

/-- Members with the same fields have the same chunks. -/
theorem offsetOk_congr {v w : JsVal} (h : ∀ name,field v name = field w name) (side : String) :
    offsetOk side v = offsetOk side w := by
  simp only [offsetOk,h]

theorem offsetOk_of_nullish {side : String} {v : JsVal}
    (h : nullish (field v (side++"_payload_offset")) = true) : offsetOk side v = true := by
  rw [offsetOk,h,Bool.true_or]

/-- A member that is not left out is read back as its check returns it. -/
theorem field_kept {source : JsVal} {versioned : Bool} {kvs : List (JsString × JsVal)}
    {m : Member Unit} (hm : m ∈ itemMembers S versioned)
    (h : checkMembers (fun _ _ => []) [] source (itemMembers S versioned) = .ok kvs)
    (hskip : m.skip (field source m.name) = false) :
    m.check [] (field source m.name) = .ok (field (.obj kvs) m.name) := by
  have hnames : (([] : List (JsString × JsVal)).map Prod.fst++
      (itemMembers S versioned).map fun m => js m.name).Nodup := nodup_members versioned
  obtain ⟨v,hv,hfield⟩ := field_checkMembers hnames h hm hskip
  rw [List.nil_append] at hfield
  exact hv.trans (congrArg Except.ok hfield.symm)

theorem accept_of {p : JsVal → Bool} {path : JsString} {v : JsVal} (h : p v = true) :
    accept p path v = .ok v := if_pos h

theorem accept_eq_ok {p : JsVal → Bool} {path : JsString} {v w : JsVal}
    (h : accept p path v = .ok w) : w = v ∧ p v = true := by
  rw [accept] at h
  split_ifs at h with hp
  cases h
  exact ⟨rfl,hp⟩

theorem versioned_again {item : JsVal} {kvs : List (JsString × JsVal)}
    (h : checkMembers (fun _ _ => []) [] item (itemMembers S (isVersioned item)) = .ok kvs) :
    isVersioned (.obj kvs) = isVersioned item := by
  have hm : optional "capture_version" (accept (is · captureVersion)) ∈
      itemMembers S (isVersioned item) := by simp [itemMembers]
  have hnames := @nodup_members S (isVersioned item)
  cases hskip : nullish (field item "capture_version") with
  | true =>
      have hnone := field_checkMembers_skip hnames h hm hskip
      change field (.obj kvs) "capture_version" = .undefined at hnone
      rw [isVersioned,isVersioned,hnone]
      cases hfield : field item "capture_version" with
      | undefined => rfl
      | null => rfl
      | _ =>
          rw [hfield] at hskip
          cases hskip
  | false =>
      have hkept := field_kept hm h hskip
      change accept (is · captureVersion) [] (field item "capture_version") =
        .ok (field (.obj kvs) "capture_version") at hkept
      rw [isVersioned,(accept_eq_ok hkept).1,isVersioned]

/-- What an accepted item keeps of the item that was sent. -/
theorem normalize_spec (hS : Documented S) {item r : JsVal} {now : ℤ}
    (h : normalizeProbeActivityItem S item now = some r) :
    (∃ kvs,r = .obj kvs ∧ Settled (itemMembers S (isVersioned r)) kvs) ∧
    field r "sequence" = field item "sequence" ∧
    integerIn (field r "sequence") 1 maxProbeActivityItems = true ∧
    S.newDate (field r "at") = S.newDate (field item "at") ∧
    offsetOk "request" r = true ∧ offsetOk "response" r = true ∧ byteLength r ≤ 24*1024 := by
  obtain ⟨htime,kvs,hkvs,hrequest,hresponse,hfit⟩ := normalize_cases h
  obtain ⟨hsequence,hat,hversion,hoffset,hoffset'⟩ := not_written
  have hstart : Fitted S (isVersioned item) (.obj kvs) (.obj kvs) :=
    ⟨⟨kvs,rfl,settled_checkMembers (stableAt_members hS _ item) (nodup_members _) hkvs⟩,
      fun _ _ => rfl⟩
  obtain ⟨⟨⟨lws,hr,hsettled⟩,hrest⟩,hbytes,hchunks⟩ := fit_spec hstart hfit
  have hversioned : isVersioned r = isVersioned item := by
    rw [← versioned_again hkvs,isVersioned,hrest _ hversion,isVersioned]
  have hmember : required "sequence" (accept (integerIn · 1 maxProbeActivityItems)) ∈
      itemMembers S (isVersioned item) := by simp [itemMembers]
  have hmember' : required "at" (itemDate S) ∈ itemMembers S (isVersioned item) := by
    simp [itemMembers]
  have hkept : accept (integerIn · 1 maxProbeActivityItems) [] (field item "sequence") =
      .ok (field (.obj kvs) "sequence") := field_kept hmember hkvs rfl
  obtain ⟨hnumber,hinteger⟩ := accept_eq_ok hkept
  have hdate : itemDate S [] (field item "at") = .ok (field (.obj kvs) "at") :=
    field_kept hmember' hkvs rfl
  refine ⟨⟨lws,hr,by rwa [hversioned]⟩,?_,?_,?_,?_,?_,hbytes⟩
  · rw [hrest _ hsequence,hnumber]
  · rw [hrest _ hsequence,hnumber]
    exact hinteger
  · rw [hrest _ hat]
    unfold itemDate at hdate
    split at hdate
    · next at_ hread =>
        rw [← Except.ok.inj hdate,hS.date_again _ _ hread,hread]
    · cases hdate
  · rcases hchunks with rfl | ⟨hnone,-⟩
    · exact hrequest
    · have hname : "request"++"_payload_offset" = "request_payload_offset" := rfl
      exact offsetOk_of_nullish (by rw [hname,hrest _ hoffset]; exact hnone)
  · rcases hchunks with rfl | ⟨-,hnone⟩
    · exact hresponse
    · have hname : "response"++"_payload_offset" = "response_payload_offset" := rfl
      exact offsetOk_of_nullish (by rw [hname,hrest _ hoffset']; exact hnone)

/-- Members that all stay are accepted when they fit. -/
theorem normalize_settled {kvs : List (JsString × JsVal)} {now : ℤ}
    (h : Settled (itemMembers S (isVersioned (.obj kvs))) kvs)
    (hnow : timely S (field (.obj kvs) "at") now = true)
    (hrequest : offsetOk "request" (.obj kvs) = true)
    (hresponse : offsetOk "response" (.obj kvs) = true)
    (hbytes : byteLength (.obj kvs) ≤ 24*1024) :
    ∃ kvs',normalizeProbeActivityItem S (.obj kvs) now = some (.obj kvs') ∧ kvs'.Perm kvs := by
  obtain ⟨kvs',hpass,hperm⟩ := @checkMembers_settled _ (fun _ _ => []) [] (.obj kvs) _ kvs h
    (nodup_members _) fun _ _ => rfl
  have hfields : ∀ name,field (.obj kvs') name = field (.obj kvs) name := fun name =>
    field_perm hperm.symm h.names name
  have hshape : ¬ ((!isPlain (.obj kvs) || (names (.obj kvs)).any (fun key => !itemFields.any
      fun name => js name = key) || !timely S (field (.obj kvs) "at") now) = true) := by
    simp only [Bool.or_eq_true,Bool.not_eq_true',not_or,Bool.not_eq_false,hnow,and_true]
    refine ⟨rfl,?_⟩
    simp only [List.any_eq_true,Bool.not_eq_true',List.any_eq_false,not_exists,not_and,
      decide_eq_true_eq]
    intro key hkey hunknown
    obtain ⟨p,hp,rfl⟩ := List.mem_map.mp hkey
    obtain ⟨m,hm,hname,-⟩ := h.keeps p hp
    exact hunknown m.name (mem_fields hm) hname
  refine ⟨kvs',?_,hperm⟩
  rw [normalizeProbeActivityItem,if_neg hshape,hpass]
  simp only [offsetOk_congr hfields,hrequest,hresponse,Bool.and_self,if_true]
  rw [fit,if_pos (by rwa [byteLength_perm hperm])]

/-- An accepted item is accepted again, with the same members. -/
theorem normalize_again (hS : Documented S) {item r : JsVal} {now now' : ℤ}
    (h : normalizeProbeActivityItem S item now = some r)
    (hnow : timely S (field r "at") now' = true) :
    ∃ kvs kvs',r = .obj kvs ∧ normalizeProbeActivityItem S r now' = some (.obj kvs') ∧
      kvs'.Perm kvs ∧ (kvs.map Prod.fst).Nodup := by
  obtain ⟨⟨kvs,rfl,hsettled⟩,-,-,-,hrequest,hresponse,hbytes⟩ := normalize_spec hS h
  obtain ⟨kvs',hagain,hperm⟩ := normalize_settled hsettled hnow hrequest hresponse hbytes
  exact ⟨kvs,kvs',rfl,hagain,hperm,hsettled.names⟩

/-- The loop of an item whose previews passed their check never wants a further round. -/
theorem fit_six {versioned : Bool} {kvs : List (JsString × JsVal)}
    (h : Settled (itemMembers S versioned) kvs) (j : ℕ) : fit (6+j) (.obj kvs) = fit 6 (.obj kvs) := by
  refine fit_enough (fun name hname s hs => ?_) j
  unfold longPreview at hs
  split at hs
  · next t ht =>
      split_ifs at hs with hshort
      cases hs
      have hin : js name ∈ kvs.map Prod.fst := by
        by_contra habsent
        rw [field_of_absent habsent] at ht
        cases ht
      have hkept := (h.keeps_field (nodup_members versioned) (mem_previews versioned hname).1
        hin).check []
      change accept isPreview [] (field (.obj kvs) name) = _ at hkept
      rw [ht] at hkept
      have hbound : s.length ≤ 16384 := of_decide_eq_true (accept_eq_ok hkept).2
      omega
  · cases hs

/-- The time at which an item is read does not matter when it is near. -/
theorem normalize_timely {item : JsVal} {now now' : ℤ}
    (h : timely S (field item "at") now = true) (h' : timely S (field item "at") now' = true) :
    normalizeProbeActivityItem S item now = normalizeProbeActivityItem S item now' := by
  rw [normalizeProbeActivityItem,normalizeProbeActivityItem,h,h']

/-- What is recorded of an item is what is shown of it: read again at its own time, or at any
other time near it, an accepted item has the members it had. -/
theorem accepted_item_stays (hS : Documented S) {item r : JsVal} {now : ℤ}
    (h : normalizeProbeActivityItem S item now = some r) :
    (∃ kvs,r = .obj kvs ∧ (kvs.map Prod.fst).Nodup ∧
      ∀ now',timely S (field r "at") now' = true →
        ∃ kvs',normalizeProbeActivityItem S r now' = some (.obj kvs') ∧ kvs'.Perm kvs) ∧
    (∀ at_,S.newDate (field r "at") = some at_ → timely S (field r "at") at_ = true) ∧
    field r "sequence" = field item "sequence" ∧
    S.newDate (field r "at") = S.newDate (field item "at") ∧ byteLength r ≤ 24*1024 := by
  obtain ⟨⟨kvs,rfl,hsettled⟩,hsequence,-,hdate,-,-,hbytes⟩ := normalize_spec hS h
  refine ⟨⟨kvs,rfl,hsettled.names,fun now' hnow => ?_⟩,fun at_ hat => ?_,hsequence,hdate,hbytes⟩
  · obtain ⟨lws,kvs',hobj,hagain,hperm,-⟩ := normalize_again hS h hnow
    cases hobj
    exact ⟨kvs',hagain,hperm⟩
  · rw [timely,hat,Option.any_some,sub_self]
    decide

end

/-- One date, no URLs, and small letters for those of English. -/
def plainPlatform : ItemPlatform where
  P := {
    toLowerCase := List.map lowerUnit
    isIP := fun _ => 0
    domainToASCII := fun s => s
    Url := Empty
    newUrl := fun _ => none
    protocol := Empty.elim
    username := Empty.elim
    password := Empty.elim
    hostname := Empty.elim
    setHostname := fun url _ => url
    clearHash := fun url => url
    href := Empty.elim }
  newDate := fun v => if is v "1970-01-01T00:00:00.000Z" then some 0 else none
  toISOString := fun _ => js "1970-01-01T00:00:00.000Z"

theorem documented_plain : Documented plainPlatform where
  lower_ascii := fun _ _ => rfl
  clear_protocol := fun url => url.elim
  clear_again := fun url => url.elim
  parse_href := fun url => url.elim
  date_again := by
    intro v at_ h
    change (if _ then _ else none) = _ at h
    split_ifs at h with hv
    rw [← h]
    change (if is (.str (js "1970-01-01T00:00:00.000Z")) "1970-01-01T00:00:00.000Z" then some (0 : ℤ)
      else none) = some 0
    simp [is]

/-- The start of a job under a number. -/
def startEntry (n : ℕ) : JsVal :=
  .obj [(js "stage",.str (js "job_started")),(js "sequence",numeral n),
    (js "at",.str (js "1970-01-01T00:00:00.000Z"))]

theorem settled_start {n : ℕ} (h0 : 0 < n) (hn : n ≤ maxProbeActivityItems) :
    Settled (itemMembers plainPlatform false) (ScriptObject.members (startEntry n)) := by
  have hdate : itemDate plainPlatform [] (.str (js "1970-01-01T00:00:00.000Z")) =
      .ok (.str (js "1970-01-01T00:00:00.000Z")) := by
    rw [itemDate,show plainPlatform.newDate (.str (js "1970-01-01T00:00:00.000Z")) = some 0 by
      decide]
    rfl
  refine ⟨show [js "stage",js "sequence",js "at"].Nodup by decide +kernel,fun p hp => ?_,?_⟩
  · simp only [startEntry,ScriptObject.members,List.mem_cons,List.not_mem_nil,or_false] at hp
    rcases hp with rfl | rfl | rfl
    · refine ⟨required "stage" (accept (oneOf · probeActivityStages)),by simp [itemMembers],rfl,rfl,
        fun path => ?_⟩
      have hstage : oneOf (.str (js "job_started")) probeActivityStages = true := by
        simp [oneOf,is,probeActivityStages]
      exact @accept_of (oneOf · probeActivityStages) path _ hstage
    · refine ⟨required "sequence" (accept (integerIn · 1 maxProbeActivityItems)),
        by simp [itemMembers],rfl,rfl,fun path => ?_⟩
      have hsmall : n < 2^53 := hn.trans_lt (by norm_num [maxProbeActivityItems])
      exact @accept_of (integerIn · 1 maxProbeActivityItems) path _
        (integerIn_numeral h0 hsmall h0 hn)
    · exact ⟨required "at" (itemDate plainPlatform),by simp [itemMembers],rfl,rfl,fun _ => hdate⟩
  · apply forall_members
    · exact .inr (by simp [startEntry,ScriptObject.members,required])
    · exact .inr (by simp [startEntry,ScriptObject.members,required])
    · exact .inr (by simp [startEntry,ScriptObject.members,required])
    · exact fun _ _ => .inl rfl
    · exact fun _ => .inl rfl
    · exact .inl rfl
    · exact .inl rfl

theorem byteLength_start {n : ℕ} (hn : n ≤ maxProbeActivityItems) :
    byteLength (startEntry n) ≤ 1024 := by
  have hnumber := @byteLength_numeral n (hn.trans_lt (by norm_num [maxProbeActivityItems]))
  have hrest : byteLength (.str (js "sequence"))+byteLength (.str (js "at"))+
      byteLength (.str (js "1970-01-01T00:00:00.000Z"))+byteLength (.str (js "stage"))+
      byteLength (.str (js "job_started")) ≤ 512 := by decide +kernel
  have h := byteLength_obj_le (ScriptObject.members (startEntry n))
  simp only [startEntry,ScriptObject.members,List.map_cons,List.map_nil,List.sum_cons,
    List.sum_nil] at h ⊢
  omega

/-- Such an entry is accepted, and stays as it is. -/
theorem normalize_start {n : ℕ} (h0 : 0 < n) (hn : n ≤ maxProbeActivityItems) {now : ℤ}
    (hnow : |now| ≤ 300000) : ∃ kvs,
      normalizeProbeActivityItem plainPlatform (startEntry n) now = some (.obj kvs) ∧
      kvs.Perm (ScriptObject.members (startEntry n)) := by
  have hversioned : isVersioned (startEntry n) = false := rfl
  have hsettled := settled_start h0 hn
  rw [← hversioned] at hsettled
  have htime : timely plainPlatform (field (startEntry n) "at") now = true := by
    have hdate : plainPlatform.newDate (field (startEntry n) "at") = some 0 := rfl
    rw [timely,hdate]
    simpa using hnow
  exact normalize_settled hsettled htime rfl rfl ((byteLength_start hn).trans (by norm_num))

/-- The start of a job with the names of some headers. -/
def namedStart (n : ℕ) (listed : List String) : JsVal :=
  put (startEntry n) "header_names" (.arr (listed.map fun name => .str (js name)))

theorem settled_named {n : ℕ} (h0 : 0 < n) (hn : n ≤ maxProbeActivityItems) :
    Settled (itemMembers plainPlatform false)
      (ScriptObject.members (namedStart n ["host","accept"])) := by
  have hmember : optional "header_names" (headerNames plainPlatform) ∈
      itemMembers plainPlatform false := by simp [itemMembers]
  exact (settled_start h0 hn).setMember hmember ⟨rfl,fun _ => rfl⟩

theorem headerNames_known {listed : List String} (path : JsString)
    (hlisted : (listed.map fun name => (.str (js name) : JsVal)).length ≤ 16 ∧
      (listed.map fun name => (.str (js name) : JsVal)).all isListedName)
    (hlower : ((listed.map fun name => (.str (js name) : JsVal)).map fun name =>
      plainPlatform.P.toLowerCase (toStr name)).reverse.dedup.reverse =
        [js "host",js "accept"]) :
    headerNames plainPlatform path (.arr (listed.map fun name => .str (js name))) =
      .ok (.arr [.str (js "host"),.str (js "accept")]) := by
  rw [headerNames]
  simp only [if_pos hlisted,hlower]
  rfl

theorem namedStart_lower {n : ℕ} {now : ℤ} :
    normalizeProbeActivityItem plainPlatform (namedStart n ["HOST","Accept","host"]) now =
      normalizeProbeActivityItem plainPlatform (namedStart n ["host","accept"]) now := by
  have hpass : checkMembers (fun _ _ => []) [] (namedStart n ["HOST","Accept","host"])
      (itemMembers plainPlatform false) = checkMembers (fun _ _ => []) []
        (namedStart n ["host","accept"]) (itemMembers plainPlatform false) := by
    refine checkMembers_congr fun m hm => ?_
    by_cases hname : js m.name = js "header_names"
    · have hmember : optional "header_names" (headerNames plainPlatform) ∈
          itemMembers plainPlatform false := by simp [itemMembers]
      have hself : ∀ listed,field (namedStart n listed) "header_names" =
          .arr (listed.map fun name => .str (js name)) := fun _ => field_put_self _ _ _
      rw [List.inj_on_of_nodup_map (nodup_members false) hm hmember hname]
      have hupper := @headerNames_known ["HOST","Accept","host"] [] (by decide +kernel)
        (by decide +kernel)
      have hlower := @headerNames_known ["host","accept"] [] (by decide +kernel) (by decide +kernel)
      simp only [optional,hself,hupper,hlower]
      exact ⟨rfl,trivial⟩
    · have hother : ∀ listed,field (namedStart n listed) m.name = field (startEntry n) m.name :=
        fun _ => field_put_other hname
      rw [hother,hother]
      exact ⟨rfl,rfl⟩
  have hversioned : ∀ listed,isVersioned (namedStart n listed) = false := fun _ => rfl
  have hat : ∀ listed,field (namedStart n listed) "at" = field (startEntry n) "at" := fun _ => rfl
  have hnames : ∀ listed,names (namedStart n listed) =
      [js "stage",js "sequence",js "at",js "header_names"] := fun _ => rfl
  have hplain : ∀ listed,isPlain (namedStart n listed) = true := fun _ => rfl
  simp only [normalizeProbeActivityItem,hversioned,hat,hnames,hplain,hpass]

theorem byteLength_named {n : ℕ} (hn : n ≤ maxProbeActivityItems) :
    byteLength (namedStart n ["host","accept"]) ≤ 24*1024 := by
  have hshape : namedStart n ["host","accept"] = .obj [(js "stage",.str (js "job_started")),
      (js "sequence",numeral n),(js "at",.str (js "1970-01-01T00:00:00.000Z")),
      (js "header_names",.arr [.str (js "host"),.str (js "accept")])] := rfl
  have hnumber := @byteLength_numeral n (hn.trans_lt (by norm_num [maxProbeActivityItems]))
  have hrest : byteLength (.str (js "sequence"))+byteLength (.str (js "at"))+
      byteLength (.str (js "1970-01-01T00:00:00.000Z"))+byteLength (.str (js "stage"))+
      byteLength (.str (js "job_started"))+byteLength (.str (js "header_names"))+
      byteLength (.arr [.str (js "host"),.str (js "accept")]) ≤ 512 := by decide +kernel
  rw [hshape]
  refine (byteLength_obj_le _).trans ?_
  simp only [List.map_cons,List.map_nil,List.sum_cons,List.sum_nil]
  omega

theorem normalize_named {n : ℕ} (h0 : 0 < n) (hn : n ≤ maxProbeActivityItems) : ∃ kvs,
    normalizeProbeActivityItem plainPlatform (namedStart n ["host","accept"]) 60000 =
      some (.obj kvs) ∧ kvs.Perm (ScriptObject.members (namedStart n ["host","accept"])) := by
  have hversioned : isVersioned (namedStart n ["host","accept"]) = false := rfl
  have hsettled := settled_named h0 hn
  rw [← hversioned] at hsettled
  have htime : timely plainPlatform (field (namedStart n ["host","accept"]) "at") 60000 = true := by
    have hdate : plainPlatform.newDate (field (namedStart n ["host","accept"]) "at") = some 0 := rfl
    rw [timely,hdate]
    decide
  exact normalize_settled hsettled htime rfl rfl (byteLength_named hn)

/-- Names in capitals are recorded in small letters, each once, and stay so. -/
theorem start_item_stays : ∃ r,
    normalizeProbeActivityItem plainPlatform (namedStart 1 ["HOST","Accept","host"]) 60000 =
      some r ∧
    field r "header_names" = .arr [.str (js "host"),.str (js "accept")] ∧
    byteLength r ≤ 24*1024 ∧ ∃ kvs,normalizeProbeActivityItem plainPlatform r 0 = some (.obj kvs) ∧
      field (.obj kvs) "header_names" = .arr [.str (js "host"),.str (js "accept")] := by
  obtain ⟨kvs,hr,hperm⟩ := normalize_named one_pos (by decide)
  have hitem : normalizeProbeActivityItem plainPlatform (namedStart 1 ["HOST","Accept","host"])
      60000 = some (.obj kvs) := namedStart_lower.trans hr
  obtain ⟨⟨lws,hobj,hnames,hagain⟩,-,-,-,hsmall⟩ := accepted_item_stays documented_plain hitem
  cases hobj
  have hfield : field (.obj kvs) "header_names" = .arr [.str (js "host"),.str (js "accept")] :=
    (field_perm hperm hnames "header_names").symm.trans (field_put_self _ _ _)
  have hat : timely plainPlatform (field (.obj kvs) "at") 0 = true := by
    rw [← field_perm hperm hnames "at"]
    decide +kernel
  obtain ⟨kvs',hkvs',hperm'⟩ := hagain 0 hat
  exact ⟨_,hitem,hfield,hsmall,kvs',hkvs',(field_perm hperm'.symm hnames _).trans hfield⟩

end AstraNull.ProbeActivityItems

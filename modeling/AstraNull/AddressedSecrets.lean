import Mathlib
import AstraNull.ByteText
import AstraNull.JsonText
import AstraNull.ScriptText
import AstraNull.ScriptValue

/-!
# Secrets that name their record

`lib/addressedSecrets.mjs`: a secret carries the tenant and the record it belongs to, each in
base64url, before its random part. Reading takes exactly the canonical spellings.
-/
namespace AstraNull.AddressedSecrets
open JsonText ScriptText ScriptValue
open ByteText (base64Url fromBase64Url fromUtf8)

def allowedPrefixes : List JsString := [js "ast_",js "svc_",js "agc_"]

def addressedVersion : JsString := js "v1"

/-- `[A-Za-z0-9_-]` -/
def isStrict (u : UInt16) : Bool := isAlphanumeric u.toNat || u = 95 || u = 45

def encodeSegment (value : JsString) : JsString := base64Url (ByteText.utf8 (chars value))

def isStrictBase64UrlSegment (segment : JsString) : Bool := segment ≠ [] && segment.all isStrict

def decodeUtf8Segment (b64 : JsString) : Option JsString :=
  if !isStrictBase64UrlSegment b64 then none
  else
    let decoded := (fromUtf8 (fromBase64Url b64)).flatMap units
    if decoded = [] then none
    else if encodeSegment decoded ≠ b64 then none
    else some decoded

/-- The random part is given by its bytes; an exception is nothing. -/
def createAddressedSecret (pre tenantId recordId : JsString) (random : List ℕ) : Option JsString :=
  if pre ∉ allowedPrefixes then none
  else if tenantId = [] ∨ recordId = [] then none
  else some (pre++addressedVersion++js "."++encodeSegment tenantId++js "."++
    encodeSegment recordId++js "."++base64Url random)

structure Address where
  tenantId : JsString
  id : JsString
deriving DecidableEq

def parseAddressedSecret (secret expectedPrefix : JsString) : Option Address :=
  if secret = [] then none
  else if expectedPrefix ∉ allowedPrefixes then none
  else if !expectedPrefix.isPrefixOf secret then none
  else match secret.splitOn 46 with
    | [header,tenantB64,idB64,random] =>
        if header ≠ expectedPrefix++addressedVersion then none
        else if !isStrictBase64UrlSegment random then none
        else match decodeUtf8Segment tenantB64,decodeUtf8Segment idB64 with
          | some tenantId,some id => some ⟨tenantId,id⟩
          | _,_ => none
    | _ => none

/-- The unpadded encoding of some characters. -/
def Canonical (segment : JsString) (cs : List Char) : Prop :=
  cs ≠ [] ∧ segment = base64Url (ByteText.utf8 cs)

theorem isStrict_digit : ∀ n < 64,isStrict (ByteText.digit n) = true := by decide

theorem strict_base64Url {bytes : List ℕ} (h : ∀ b ∈ bytes,b < 256) :
    ∀ u ∈ base64Url bytes,isStrict u = true := by
  intro u hu
  obtain ⟨n,hn,rfl⟩ := List.mem_map.mp hu
  exact isStrict_digit n (ByteText.sextets_lt bytes h n hn)

theorem base64Url_ne_nil {bytes : List ℕ} (h : bytes ≠ []) : base64Url bytes ≠ [] := by
  intro hnil
  have hsextets : ByteText.sextets bytes = [] := List.map_eq_nil_iff.mp hnil
  cases bytes using ByteText.sextets.induct with
  | case1 => exact h rfl
  | case2 a => simp [ByteText.sextets] at hsextets
  | case3 a b => simp [ByteText.sextets] at hsextets
  | case4 a b c bs => simp [ByteText.sextets] at hsextets

theorem utf8_ne_nil {cs : List Char} (h : cs ≠ []) : ByteText.utf8 cs ≠ [] := by
  intro hnil
  have := ByteText.fromUtf8_utf8 cs
  rw [hnil] at this
  exact h this.symm

theorem units_ne_nil {cs : List Char} (h : cs ≠ []) : cs.flatMap units ≠ [] := by
  intro hnil
  have := chars_units cs
  rw [hnil] at this
  exact h this.symm

theorem Canonical.strict {segment : JsString} {cs : List Char} (h : Canonical segment cs) :
    isStrictBase64UrlSegment segment = true := by
  obtain ⟨hne,rfl⟩ := h
  simp only [isStrictBase64UrlSegment,Bool.and_eq_true,decide_eq_true_eq,List.all_eq_true]
  exact ⟨base64Url_ne_nil (utf8_ne_nil hne),strict_base64Url (ByteText.utf8_lt cs)⟩

theorem encodeSegment_units (cs : List Char) :
    encodeSegment (cs.flatMap units) = base64Url (ByteText.utf8 cs) := by
  rw [encodeSegment,chars_units]

theorem Canonical.decode {segment : JsString} {cs : List Char} (h : Canonical segment cs) :
    decodeUtf8Segment segment = some (cs.flatMap units) := by
  have hdecode : fromUtf8 (fromBase64Url segment) = cs := by
    rw [h.2,ByteText.fromBase64Url_base64Url (ByteText.utf8_lt cs),ByteText.fromUtf8_utf8]
  rw [decodeUtf8Segment,h.strict,hdecode]
  simp only [Bool.not_true,Bool.false_eq_true,if_false]
  rw [if_neg (units_ne_nil h.1),if_neg (not_not.mpr ((encodeSegment_units cs).trans h.2.symm))]

/-- A segment is read exactly when it is canonical, and to the text that it encodes. -/
theorem decodeUtf8Segment_iff {segment value : JsString} :
    decodeUtf8Segment segment = some value ↔
      ∃ cs,Canonical segment cs ∧ value = cs.flatMap units := by
  constructor
  · intro h
    rw [decodeUtf8Segment] at h
    dsimp only at h
    split_ifs at h with hstrict hempty hcanonical
    cases h
    refine ⟨fromUtf8 (fromBase64Url segment),⟨?_,?_⟩,rfl⟩
    · intro hnil
      exact hempty (by rw [hnil]; rfl)
    · rw [← encodeSegment_units]
      exact (not_not.mp hcanonical).symm
  · rintro ⟨cs,hcanonical,rfl⟩
    exact hcanonical.decode

/-- The text of a secret by its parts. -/
def secretText (pre a b r : JsString) : JsString :=
  pre++addressedVersion++js "."++a++js "."++b++js "."++r

theorem dotless_of_strict {segment : JsString} (h : ∀ u ∈ segment,isStrict u = true) :
    46 ∉ segment := by
  intro hdot
  exact absurd (h 46 hdot) (by decide)

theorem dotless_header {pre : JsString} (h : pre ∈ allowedPrefixes) :
    46 ∉ pre++addressedVersion := by
  simp only [allowedPrefixes,List.mem_cons,List.not_mem_nil,or_false] at h
  rcases h with rfl | rfl | rfl <;> decide

theorem secretText_eq (pre a b r : JsString) :
    secretText pre a b r = [46].intercalate [pre++addressedVersion,a,b,r] := by
  have hdot : js "." = [46] := by decide
  simp [secretText,hdot,List.intercalate_cons_cons]

theorem strict_of_segment {segment : JsString} (h : isStrictBase64UrlSegment segment = true) :
    ∀ u ∈ segment,isStrict u = true := by
  rw [isStrictBase64UrlSegment,Bool.and_eq_true,List.all_eq_true] at h
  exact h.2

/-- What is accepted: canonical segments for the two ids and a random part. -/
structure Accepted (pre secret a b : JsString) (tenant record : List Char) : Prop where
  tenant : Canonical a tenant
  record : Canonical b record
  text : ∃ r,isStrictBase64UrlSegment r = true ∧ secret = secretText pre a b r

theorem parse_of_accepted {pre secret a b : JsString} {tenant record : List Char}
    (hpre : pre ∈ allowedPrefixes) (h : Accepted pre secret a b tenant record) :
    parseAddressedSecret secret pre = some ⟨tenant.flatMap units,record.flatMap units⟩ := by
  obtain ⟨r,hr,rfl⟩ := h.text
  have hsplit : (secretText pre a b r).splitOn 46 = [pre++addressedVersion,a,b,r] := by
    rw [secretText_eq]
    refine List.splitOn_intercalate 46 ?_ (by simp)
    simp only [List.forall_mem_cons]
    exact ⟨dotless_header hpre,dotless_of_strict (strict_of_segment h.tenant.strict),
      dotless_of_strict (strict_of_segment h.record.strict),
      dotless_of_strict (strict_of_segment hr),by simp⟩
  have hne : secretText pre a b r ≠ [] := by simp [secretText,addressedVersion,js]
  have hstart : pre.isPrefixOf (secretText pre a b r) = true := by
    rw [List.isPrefixOf_iff_prefix,secretText]
    simp only [List.append_assoc]
    exact List.prefix_append _ _
  rw [parseAddressedSecret,if_neg hne,if_neg (not_not.mpr hpre),hstart,hsplit]
  simp [hr,h.tenant.decode,h.record.decode]

theorem accepted_of_parse {pre secret : JsString} {address : Address}
    (h : parseAddressedSecret secret pre = some address) :
    pre ∈ allowedPrefixes ∧ ∃ a b tenant record,Accepted pre secret a b tenant record ∧
      address = ⟨tenant.flatMap units,record.flatMap units⟩ := by
  rw [parseAddressedSecret] at h
  split_ifs at h with hempty hpre hstart
  split at h
  · rename_i header a b r hsplit
    split_ifs at h with hheader hrandom
    split at h
    · rename_i tenantId id htenant hid
      cases h
      obtain ⟨tenant,hcanonical,rfl⟩ := decodeUtf8Segment_iff.mp htenant
      obtain ⟨record,hrecord,rfl⟩ := decodeUtf8Segment_iff.mp hid
      refine ⟨hpre,a,b,tenant,record,⟨hcanonical,hrecord,r,by simpa using hrandom,?_⟩,rfl⟩
      rw [secretText_eq,← not_not.mp hheader,← hsplit,List.intercalate_splitOn]
    · cases h
  · cases h

/-- Equal texts have equal parts. -/
theorem Canonical.injective {a a' : JsString} {cs cs' : List Char} (h : Canonical a cs)
    (h' : Canonical a' cs') : cs.flatMap units = cs'.flatMap units ↔ a = a' := by
  constructor
  · intro hunits
    have hcs : cs = cs' := by rw [← chars_units cs,hunits,chars_units]
    rw [h.2,h'.2,hcs]
  · intro ha
    have hdecode := h.decode
    rw [ha,h'.decode] at hdecode
    exact (Option.some.inj hdecode).symm

/-- Secrets come back to the ids they were made for; the accepted texts are exactly the canonical
ones; and two of them name the same record exactly when their segments agree. -/
theorem addressed_secret_round_trip :
    (∀ pre ∈ allowedPrefixes,∀ (tenant record : List Char) (random : List ℕ),tenant ≠ [] →
      record ≠ [] → random ≠ [] → (∀ b ∈ random,b < 256) →
      ∃ secret,createAddressedSecret pre (tenant.flatMap units) (record.flatMap units) random =
          some secret ∧
        parseAddressedSecret secret pre =
          some ⟨tenant.flatMap units,record.flatMap units⟩) ∧
    (∀ pre ∈ allowedPrefixes,∀ secret,(parseAddressedSecret secret pre).isSome ↔
      ∃ a b tenant record,Accepted pre secret a b tenant record) ∧
    (∀ pre ∈ allowedPrefixes,∀ secret secret' a b a' b' tenant record tenant' record',
      Accepted pre secret a b tenant record → Accepted pre secret' a' b' tenant' record' →
      (parseAddressedSecret secret pre = parseAddressedSecret secret' pre ↔ a = a' ∧ b = b')) ∧
    ∀ pre ∉ allowedPrefixes,∀ tenantId recordId random secret,
      createAddressedSecret pre tenantId recordId random = none ∧
        parseAddressedSecret secret pre = none := by
  refine ⟨?_,?_,?_,?_⟩
  · intro pre hpre tenant record random htenant hrecord hrandom hbytes
    refine ⟨secretText pre (base64Url (ByteText.utf8 tenant)) (base64Url (ByteText.utf8 record))
      (base64Url random),?_,?_⟩
    · rw [createAddressedSecret,if_neg (not_not.mpr hpre),
        if_neg (not_or.mpr ⟨units_ne_nil htenant,units_ne_nil hrecord⟩),encodeSegment_units,
        encodeSegment_units]
      rfl
    · refine parse_of_accepted hpre ⟨⟨htenant,rfl⟩,⟨hrecord,rfl⟩,base64Url random,?_,rfl⟩
      simp only [isStrictBase64UrlSegment,Bool.and_eq_true,decide_eq_true_eq,List.all_eq_true]
      exact ⟨base64Url_ne_nil hrandom,strict_base64Url hbytes⟩
  · intro pre hpre secret
    constructor
    · intro h
      obtain ⟨address,haddress⟩ := Option.isSome_iff_exists.mp h
      obtain ⟨-,a,b,tenant,record,haccepted,-⟩ := accepted_of_parse haddress
      exact ⟨a,b,tenant,record,haccepted⟩
    · rintro ⟨a,b,tenant,record,h⟩
      rw [parse_of_accepted hpre h]
      rfl
  · intro pre hpre secret secret' a b a' b' tenant record tenant' record' h h'
    rw [parse_of_accepted hpre h,parse_of_accepted hpre h',Option.some.injEq,Address.mk.injEq,
      h.tenant.injective h'.tenant,h.record.injective h'.record]
  · intro pre hpre tenantId recordId random secret
    refine ⟨if_pos hpre,?_⟩
    rw [parseAddressedSecret]
    split_ifs
    · rfl
    · rfl

theorem one_secret_read :
    ∃ secret,createAddressedSecret (js "ast_") ([ 't'].flatMap units) ([ 'r'].flatMap units) [1] =
        some secret ∧
      parseAddressedSecret secret (js "ast_") = some ⟨[ 't'].flatMap units,[ 'r'].flatMap units⟩ :=
  addressed_secret_round_trip.1 (js "ast_") (by decide) [ 't'] [ 'r'] [1] (by simp) (by simp)
    (by simp) (by simp)

end AstraNull.AddressedSecrets

import Mathlib
import AstraNull.ProbeJobSigning
import AstraNull.ScriptValue

/-!
# Custody manifests

`canonicalJsonStringify`, `buildCustodyManifest` and `verifyCustodyManifest` of `custody.mjs`. The
encoder takes any value of the language, so its input is a `Content` and not yet a JSON value: it
refuses what has no canonical text, reads an undefined element as `null`, leaves undefined members
out, and writes an infinite number as a string.
-/
namespace AstraNull.Custody
open NumberText JsonText CanonicalJson ScriptValue
open ProbeJobSigning (hex hex_injective)

/-- What an array or an object carries besides its elements or enumerable members. -/
inductive Extras where
  | none
  /-- Hidden, symbol or accessor properties, further properties or the prototype of an array. -/
  | inert
  /-- A hidden `toJSON` method, with what it returns. -/
  | toJSON (w : JsVal)

/-- A value of the language, as a tree. A missing element of an array reads as `undefined`. -/
inductive Content where
  | undefined
  | null
  | bool (b : Bool)
  | num (n : Number)
  | negativeZero
  | infinity (negative : Bool)
  | nan
  | str (s : JsString)
  | bigint
  /-- A function or a symbol. -/
  | callable
  /-- A `Date`, `RegExp`, `Buffer`, `Map`, `Set`, typed array or class instance, with what
  `JSON.stringify` reads it as. -/
  | host (json : JsVal)
  | arr (extras : Extras) (items : List Content)
  | obj (extras : Extras) (members : List (JsString × Content))

namespace Content

/-- Structural induction with the parts of arrays and objects as hypotheses. -/
@[elab_as_elim]
theorem induct {motive : Content → Prop} (undefined : motive undefined) (null : motive null)
    (bool : ∀ b,motive (bool b)) (num : ∀ n,motive (num n)) (negativeZero : motive negativeZero)
    (infinity : ∀ negative,motive (infinity negative)) (nan : motive nan)
    (str : ∀ s,motive (str s)) (bigint : motive bigint) (callable : motive callable)
    (host : ∀ json,motive (host json))
    (arr : ∀ extras items,(∀ c ∈ items,motive c) → motive (arr extras items))
    (obj : ∀ extras members,(∀ p ∈ members,motive p.2) → motive (obj extras members))
    (c : Content) : motive c := by
  refine @Content.rec motive (fun items => ∀ c ∈ items,motive c)
    (fun members => ∀ p ∈ members,motive p.2) (fun p => motive p.2) undefined null bool num
    negativeZero infinity nan str bigint callable host arr obj ?_ ?_ ?_ ?_ ?_ c
  · exact fun c hc => absurd hc List.not_mem_nil
  · exact fun c items hc hitems => List.forall_mem_cons.mpr ⟨hc,hitems⟩
  · exact fun p hp => absurd hp List.not_mem_nil
  · exact fun p members hp hmembers => List.forall_mem_cons.mpr ⟨hp,hmembers⟩
  · exact fun _ _ hc => hc

def isUndefined : Content → Bool
  | undefined => true
  | _ => false

/-- Member names are distinct, at every depth. -/
inductive WellFormed : Content → Prop
  | undefined : WellFormed undefined
  | null : WellFormed null
  | bool (b : Bool) : WellFormed (bool b)
  | num (n : Number) : WellFormed (num n)
  | negativeZero : WellFormed negativeZero
  | infinity (negative : Bool) : WellFormed (infinity negative)
  | nan : WellFormed nan
  | str (s : JsString) : WellFormed (str s)
  | bigint : WellFormed bigint
  | callable : WellFormed callable
  | host (json : JsVal) : WellFormed (host json)
  | arr (extras : Extras) {items : List Content} : (∀ c ∈ items,WellFormed c) →
      WellFormed (arr extras items)
  | obj (extras : Extras) {members : List (JsString × Content)} : (members.map Prod.fst).Nodup →
      (∀ p ∈ members,WellFormed p.2) → WellFormed (obj extras members)

end Content

def infinityText (negative : Bool) : JsString :=
  if negative then js "-Infinity" else js "Infinity"

mutual

/-- No result when the source throws. Both zeros are one number of `JsVal`, as in its text. -/
def normalizeForCanonical : Content → Option JsVal
  | .undefined => some .null
  | .null => some .null
  | .bool b => some (.bool b)
  | .num n => some (.num n)
  | .negativeZero => some (.num .zero)
  | .infinity negative => some (.str (infinityText negative))
  | .nan => none
  | .str s => some (.str s)
  | .bigint => none
  | .callable => none
  | .host _ => none
  | .arr _ items => (normalizeElements items).map .arr
  -- The source visits the names in order, which fixes the order of the copy.
  | .obj _ members => (normalizeMembers members).map fun kvs => .obj (sortMembers kvs)

def normalizeElements : List Content → Option (List JsVal)
  | [] => some []
  | c::items => (normalizeForCanonical c).bind fun v => (normalizeElements items).map (v::·)

def normalizeMembers : List (JsString × Content) → Option (List (JsString × JsVal))
  | [] => some []
  | (k,c)::members =>
      if c.isUndefined then normalizeMembers members
      else (normalizeForCanonical c).bind fun v => (normalizeMembers members).map ((k,v)::·)

end

mutual

def stringifyCanonical : JsVal → List Char
  | .arr vs => '['::(commaJoin (stringifyElements vs)++[']'])
  | .obj kvs => '\x7b'::(commaJoin ((sortMembers (stringifyMembers kvs)).map memberText)++['\x7d'])
  | v => text v

def stringifyElements : List JsVal → List (List Char)
  | [] => []
  | v::vs => stringifyCanonical v::stringifyElements vs

def stringifyMembers : List (JsString × JsVal) → List (JsString × List Char)
  | [] => []
  | (k,v)::kvs => (k,stringifyCanonical v)::stringifyMembers kvs

end

def canonicalJsonStringify (c : Content) : Option (List Char) :=
  (normalizeForCanonical c).map stringifyCanonical

mutual

/-- Nothing in the content makes the encoder throw. -/
def accepted : Content → Bool
  | .nan => false
  | .bigint => false
  | .callable => false
  | .host _ => false
  | .arr _ items => acceptedElements items
  | .obj _ members => acceptedMembers members
  | _ => true

def acceptedElements : List Content → Bool
  | [] => true
  | c::items => accepted c && acceptedElements items

def acceptedMembers : List (JsString × Content) → Bool
  | [] => true
  | (_,c)::members => accepted c && acceptedMembers members

end

mutual

/-- The JSON value an accepted content is read as. -/
def reading : Content → JsVal
  | .null => .null
  | .bool b => .bool b
  | .num n => .num n
  | .negativeZero => .num .zero
  | .infinity negative => .str (infinityText negative)
  | .str s => .str s
  | .arr _ items => .arr (readingElements items)
  | .obj _ members => .obj (readingMembers members)
  | _ => .undefined

def readingElements : List Content → List JsVal
  | [] => []
  | c::items => reading c::readingElements items

def readingMembers : List (JsString × Content) → List (JsString × JsVal)
  | [] => []
  | (k,c)::members => (k,reading c)::readingMembers members

end

theorem acceptedElements_iff {items : List Content} :
    acceptedElements items = true ↔ ∀ c ∈ items,accepted c = true := by
  induction items with
  | nil => simp [acceptedElements]
  | cons c items ih => simp [acceptedElements,ih]

theorem acceptedMembers_iff {members : List (JsString × Content)} :
    acceptedMembers members = true ↔ ∀ p ∈ members,accepted p.2 = true := by
  induction members with
  | nil => simp [acceptedMembers]
  | cons p members ih => rw [acceptedMembers,Bool.and_eq_true,ih,List.forall_mem_cons]

theorem readingElements_eq (items : List Content) : readingElements items = items.map reading := by
  induction items with
  | nil => rfl
  | cons c items ih => rw [readingElements,ih,List.map_cons]

theorem readingMembers_eq (members : List (JsString × Content)) :
    readingMembers members = members.map (Prod.map id reading) := by
  induction members with
  | nil => rfl
  | cons p members ih =>
      rw [readingMembers,ih]
      rfl

theorem names_readingMembers (members : List (JsString × Content)) :
    (readingMembers members).map Prod.fst = members.map Prod.fst := by
  rw [readingMembers_eq,List.map_map]
  rfl

theorem isUndefined_reading {c : Content} (h : accepted c = true) :
    (reading c).isUndefined = c.isUndefined := by
  cases c <;> first | rfl | cases h

theorem wellFormed_reading {c : Content} (h : c.WellFormed) : WellFormed (reading c) := by
  induction h with
  | undefined | nan | bigint | callable | host => exact .undefined
  | null => exact .null
  | bool b => exact .bool b
  | num n => exact .num n
  | negativeZero => exact .num _
  | infinity | str => exact .str _
  | arr extras _ ih =>
      rw [reading,readingElements_eq]
      exact .arr (List.forall_mem_map.mpr ih)
  | obj extras hnd _ ih =>
      rw [reading]
      refine .obj (by rwa [names_readingMembers]) ?_
      rw [readingMembers_eq]
      exact List.forall_mem_map.mpr ih

/-- The value whose text the encoder prints. -/
def kept (c : Content) : JsVal := canonical (clean (reading c))

theorem isJson_kept {c : Content} (h : c.WellFormed) : IsJson (kept c) := by
  have hw := wellFormed_reading h
  rw [kept,← clean_canonical hw]
  exact (wellFormed_canonical hw).isJson_clean

theorem normalizeElements_eq {items : List Content}
    (h : ∀ c ∈ items,normalizeForCanonical c = if accepted c then some (kept c) else none) :
    normalizeElements items =
      if acceptedElements items then some (items.map kept) else none := by
  induction items with
  | nil => rfl
  | cons c items ih =>
      rw [normalizeElements,acceptedElements,h c List.mem_cons_self,
        ih fun d hd => h d (List.mem_cons_of_mem c hd)]
      cases accepted c <;> cases acceptedElements items <;> rfl

theorem normalizeMembers_eq {members : List (JsString × Content)}
    (h : ∀ p ∈ members,normalizeForCanonical p.2 =
      if accepted p.2 then some (kept p.2) else none) :
    normalizeMembers members = if acceptedMembers members then
      some (canonicalMembers (cleanMembers (readingMembers members))) else none := by
  induction members with
  | nil => rfl
  | cons p members ih =>
      obtain ⟨k,c⟩ := p
      have htail := ih fun q hq => h q (List.mem_cons_of_mem _ hq)
      have hhead := h (k,c) List.mem_cons_self
      rw [normalizeMembers,acceptedMembers,htail,hhead,readingMembers,cleanMembers]
      cases hc : accepted c with
      | false =>
          have hdefined : c.isUndefined = false := by
            cases c <;> first | rfl | cases hc
          rw [hdefined]
          rfl
      | true =>
          rw [isUndefined_reading hc]
          cases c.isUndefined with
          | true => rfl
          | false => cases acceptedMembers members <;> rfl

theorem normalizeForCanonical_eq (c : Content) :
    normalizeForCanonical c = if accepted c then some (kept c) else none := by
  induction c using Content.induct with
  | undefined | null | bool | num | negativeZero | infinity | nan | str | bigint | callable
  | host => rfl
  | arr extras items ih =>
      rw [normalizeForCanonical,normalizeElements_eq ih,accepted,kept,reading,clean,canonical,
        readingElements_eq,cleanElements_eq,canonicalElements_eq,List.map_map,List.map_map]
      cases acceptedElements items <;> rfl
  | obj extras members ih =>
      rw [normalizeForCanonical,normalizeMembers_eq ih,accepted,kept,reading,clean,canonical]
      cases acceptedMembers members <;> rfl

theorem stringifyElements_eq (vs : List JsVal) :
    stringifyElements vs = vs.map stringifyCanonical := by
  induction vs with
  | nil => rfl
  | cons v vs ih => rw [stringifyElements,ih,List.map_cons]

theorem stringifyMembers_eq (kvs : List (JsString × JsVal)) :
    stringifyMembers kvs = kvs.map (Prod.map id stringifyCanonical) := by
  induction kvs with
  | nil => rfl
  | cons p kvs ih =>
      rw [stringifyMembers,ih]
      rfl

/-- Without undefined parts the printer is the one that sorts. -/
theorem stringifyCanonical_eq {v : JsVal} (h : IsJson v) :
    stringifyCanonical v = text (canonical v) := by
  induction h with
  | null | bool | num | str => rfl
  | arr hm ih =>
      rw [stringifyCanonical,canonical,text,stringifyElements_eq,elementTexts_eq,
        canonicalElements_eq,List.map_map,List.map_congr_left ih]
      rfl
  | @obj kvs hnd hm ih =>
      have hdefined : defined (sortMembers (canonicalMembers kvs)) =
          sortMembers (canonicalMembers kvs) := by
        refine List.filter_eq_self.mpr fun p hp => ?_
        rw [mem_sortMembers,canonicalMembers_eq] at hp
        obtain ⟨q,hq,rfl⟩ := List.mem_map.mp hp
        have hvalue := (hm q hq).defined
        rw [← isUndefined_canonical] at hvalue
        simp [hvalue]
      have htexts : kvs.map (Prod.map id stringifyCanonical) =
          (canonicalMembers kvs).map (Prod.map id text) := by
        rw [canonicalMembers_eq,List.map_map]
        exact List.map_congr_left fun p hp => Prod.ext rfl (ih p hp)
      rw [stringifyCanonical,canonical,text,stringifyMembers_eq,htexts,← sortMembers_map,
        memberTexts_eq,hdefined]
      rfl

theorem canonical_canonical {v : JsVal} (h : WellFormed v) :
    canonical (canonical v) = canonical v :=
  ((reordering_iff h).mp (reordering_canonical v)).symm

/-- The encoder prints the canonical representative of the reading. -/
theorem canonicalJsonStringify_eq {c : Content} (h : c.WellFormed) :
    canonicalJsonStringify c = if accepted c then some (text (kept c)) else none := by
  have hjson := (wellFormed_reading h).isJson_clean
  have hprint : stringifyCanonical (kept c) = text (kept c) := by
    rw [stringifyCanonical_eq (isJson_kept h),kept,canonical_canonical hjson.wellFormed]
  rw [canonicalJsonStringify,normalizeForCanonical_eq]
  cases accepted c with
  | false => rfl
  | true => exact congrArg some hprint

/-- Contents the encoder cannot tell apart: equal readings up to the order of members, with
undefined members absent and undefined elements `null`. -/
def Alike (c d : Content) : Prop := Reordering (clean (reading c)) (clean (reading d))

theorem alike_iff {c d : Content} (hc : c.WellFormed) : Alike c d ↔ kept c = kept d :=
  reordering_iff (wellFormed_reading hc).isJson_clean.wellFormed

theorem text_kept_injective {c d : Content} (hc : c.WellFormed) (hd : d.WellFormed)
    (h : text (kept c) = text (kept d)) : kept c = kept d := by
  have hc' := isJson_kept hc
  have hd' := isJson_kept hd
  have hclean := text_injective hc'.wellFormed hd'.wellFormed h
  rwa [clean_of_isJson hc',clean_of_isJson hd'] at hclean

theorem encoded_iff {c : Content} (h : c.WellFormed) {s : List Char} :
    canonicalJsonStringify c = some s ↔ accepted c = true ∧ text (kept c) = s := by
  rw [canonicalJsonStringify_eq h]
  cases accepted c <;> simp

/-- On accepted contents the encoder separates exactly what is not alike. -/
theorem same_encoding_iff {c d : Content} (hc : c.WellFormed) (hd : d.WellFormed) {s : List Char}
    (hs : canonicalJsonStringify c = some s) :
    canonicalJsonStringify d = some s ↔ accepted d = true ∧ Alike c d := by
  obtain ⟨-,rfl⟩ := (encoded_iff hc).mp hs
  rw [encoded_iff hd,alike_iff hc]
  constructor
  · exact fun h => ⟨h.1,(text_kept_injective hd hc h.2).symm⟩
  · exact fun h => ⟨h.1,by rw [h.2]⟩

mutual

def embed : JsVal → Content
  | .undefined => .undefined
  | .null => .null
  | .bool b => .bool b
  | .num n => .num n
  | .str s => .str s
  | .arr vs => .arr .none (embedElements vs)
  | .obj kvs => .obj .none (embedMembers kvs)

def embedElements : List JsVal → List Content
  | [] => []
  | v::vs => embed v::embedElements vs

def embedMembers : List (JsString × JsVal) → List (JsString × Content)
  | [] => []
  | (k,v)::kvs => (k,embed v)::embedMembers kvs

end

theorem embedElements_eq (vs : List JsVal) : embedElements vs = vs.map embed := by
  induction vs with
  | nil => rfl
  | cons v vs ih => rw [embedElements,ih,List.map_cons]

theorem embedMembers_eq (kvs : List (JsString × JsVal)) :
    embedMembers kvs = kvs.map (Prod.map id embed) := by
  induction kvs with
  | nil => rfl
  | cons p kvs ih =>
      rw [embedMembers,ih]
      rfl

theorem accepted_embed (v : JsVal) : accepted (embed v) = true := by
  induction v using JsVal.induct with
  | undefined | null | bool | num | str => rfl
  | arr vs ih =>
      rw [embed,accepted,acceptedElements_iff,embedElements_eq]
      exact List.forall_mem_map.mpr ih
  | obj kvs ih =>
      rw [embed,accepted,acceptedMembers_iff,embedMembers_eq]
      exact List.forall_mem_map.mpr ih

theorem reading_embed (v : JsVal) : reading (embed v) = v := by
  induction v using JsVal.induct with
  | undefined | null | bool | num | str => rfl
  | arr vs ih =>
      have hvalues : vs.map (reading ∘ embed) = vs.map id := List.map_congr_left ih
      rw [embed,reading,embedElements_eq,readingElements_eq,List.map_map,hvalues,List.map_id]
  | obj kvs ih =>
      have hvalues : kvs.map (Prod.map id reading ∘ Prod.map id embed) = kvs.map id :=
        List.map_congr_left fun p hp => Prod.ext rfl (ih p hp)
      rw [embed,reading,embedMembers_eq,readingMembers_eq,List.map_map,hvalues,List.map_id]

theorem wellFormed_embed {v : JsVal} (h : WellFormed v) : (embed v).WellFormed := by
  induction h with
  | undefined => exact .undefined
  | null => exact .null
  | bool b => exact .bool b
  | num n => exact .num n
  | str s => exact .str s
  | arr _ ih =>
      rw [embed,embedElements_eq]
      exact .arr _ (List.forall_mem_map.mpr ih)
  | obj hnd _ ih =>
      rw [embed,embedMembers_eq]
      refine .obj _ ?_ (List.forall_mem_map.mpr ih)
      rw [List.map_map]
      exact hnd

mutual

/-- The value `JSON.stringify` prints; it throws on a bigint. -/
def jsonValue : Content → Option JsVal
  | .undefined => some .undefined
  | .null => some .null
  | .bool b => some (.bool b)
  | .num n => some (.num n)
  | .negativeZero => some (.num .zero)
  | .infinity _ => some .null
  | .nan => some .null
  | .str s => some (.str s)
  | .bigint => none
  | .callable => some .undefined
  | .host json => some json
  | .arr (.toJSON w) _ => some w
  | .arr _ items => (jsonElements items).map .arr
  | .obj (.toJSON w) _ => some w
  | .obj _ members => (jsonMembers members).map .obj

def jsonElements : List Content → Option (List JsVal)
  | [] => some []
  | c::items => (jsonValue c).bind fun v => (jsonElements items).map (v::·)

def jsonMembers : List (JsString × Content) → Option (List (JsString × JsVal))
  | [] => some []
  | (k,c)::members => (jsonValue c).bind fun v => (jsonMembers members).map ((k,v)::·)

end

/-- `JSON.parse(JSON.stringify(content))`. -/
def jsonCopy (c : Content) : Option JsVal := do
  let v ← jsonValue c
  let t ← stringify v
  parse t

mutual

/-- No infinite number and no hidden `toJSON` method. -/
def transparent : Content → Bool
  | .infinity _ => false
  | .arr (.toJSON _) _ => false
  | .arr _ items => transparentElements items
  | .obj (.toJSON _) _ => false
  | .obj _ members => transparentMembers members
  | _ => true

def transparentElements : List Content → Bool
  | [] => true
  | c::items => transparent c && transparentElements items

def transparentMembers : List (JsString × Content) → Bool
  | [] => true
  | (_,c)::members => transparent c && transparentMembers members

end

theorem transparentElements_iff {items : List Content} :
    transparentElements items = true ↔ ∀ c ∈ items,transparent c = true := by
  induction items with
  | nil => simp [transparentElements]
  | cons c items ih => simp [transparentElements,ih]

theorem transparentMembers_iff {members : List (JsString × Content)} :
    transparentMembers members = true ↔ ∀ p ∈ members,transparent p.2 = true := by
  induction members with
  | nil => simp [transparentMembers]
  | cons p members ih => rw [transparentMembers,Bool.and_eq_true,ih,List.forall_mem_cons]

theorem transparent_embed (v : JsVal) : transparent (embed v) = true := by
  induction v using JsVal.induct with
  | undefined | null | bool | num | str => rfl
  | arr vs ih =>
      change transparentElements (embedElements vs) = true
      rw [transparentElements_iff,embedElements_eq]
      exact List.forall_mem_map.mpr ih
  | obj kvs ih =>
      change transparentMembers (embedMembers kvs) = true
      rw [transparentMembers_iff,embedMembers_eq]
      exact List.forall_mem_map.mpr ih

theorem jsonElements_eq {items : List Content}
    (h : ∀ c ∈ items,accepted c = true → transparent c = true → jsonValue c = some (reading c))
    (ha : acceptedElements items = true) (ht : transparentElements items = true) :
    jsonElements items = some (readingElements items) := by
  induction items with
  | nil => rfl
  | cons c items ih =>
      rw [acceptedElements,Bool.and_eq_true] at ha
      rw [transparentElements,Bool.and_eq_true] at ht
      rw [jsonElements,readingElements,h c List.mem_cons_self ha.1 ht.1,
        ih (fun d hd => h d (List.mem_cons_of_mem c hd)) ha.2 ht.2]
      rfl

theorem jsonMembers_eq {members : List (JsString × Content)}
    (h : ∀ p ∈ members,accepted p.2 = true → transparent p.2 = true →
      jsonValue p.2 = some (reading p.2))
    (ha : acceptedMembers members = true) (ht : transparentMembers members = true) :
    jsonMembers members = some (readingMembers members) := by
  induction members with
  | nil => rfl
  | cons p members ih =>
      rw [acceptedMembers,Bool.and_eq_true] at ha
      rw [transparentMembers,Bool.and_eq_true] at ht
      rw [jsonMembers,readingMembers,h p List.mem_cons_self ha.1 ht.1,
        ih (fun q hq => h q (List.mem_cons_of_mem p hq)) ha.2 ht.2]
      rfl

/-- `JSON.stringify` and the encoder read an accepted transparent content alike. -/
theorem jsonValue_eq {c : Content} (ha : accepted c = true) (ht : transparent c = true) :
    jsonValue c = some (reading c) := by
  induction c using Content.induct with
  | undefined | null | bool | num | negativeZero | str => rfl
  | infinity => cases ht
  | nan | bigint | callable | host => cases ha
  | arr extras items ih =>
      rw [accepted] at ha
      cases extras with
      | toJSON w => cases ht
      | none | inert =>
          rw [transparent] at ht
          · rw [jsonValue,jsonElements_eq ih ha ht]
            · rfl
            · nofun
          · nofun
  | obj extras members ih =>
      rw [accepted] at ha
      cases extras with
      | toJSON w => cases ht
      | none | inert =>
          rw [transparent] at ht
          · rw [jsonValue,jsonMembers_eq ih ha ht]
            · rfl
            · nofun
          · nofun

theorem jsonCopy_eq {c : Content} (hc : c.WellFormed) (ha : accepted c = true)
    (ht : transparent c = true) (hne : c ≠ .undefined) :
    jsonCopy c = some (clean (reading c)) := by
  have hdefined : (reading c).isUndefined = false := by
    rw [isUndefined_reading ha]
    cases c with
    | undefined => exact absurd rfl hne
    | _ => rfl
  rw [jsonCopy,jsonValue_eq ha ht]
  simp only [Option.bind_eq_bind,Option.bind_some,stringify,hdefined,Bool.false_eq_true,if_false]
  exact parse_text (wellFormed_reading hc)

/-- A JSON value is its own copy. -/
theorem jsonCopy_embed {v : JsVal} (h : IsJson v) : jsonCopy (embed v) = some v := by
  have hne : embed v ≠ .undefined := by
    cases h <;> rintro ⟨⟩
  rw [jsonCopy_eq (wellFormed_embed h.wellFormed) (accepted_embed v) (transparent_embed v) hne,
    reading_embed,clean_of_isJson h]

def schemaVersion : String := "astranull.custody.v1"

def contentCanonicalization : String := "json-key-sorted-v1"

structure ManifestInput where
  tenantId : JsVal
  artifactType : JsVal
  artifactId : JsVal
  format : JsVal
  createdBy : JsVal
  content : Content
  subjectIds : Option (List JsString)
  previousAuditHash : JsVal
  previousTenantAuditHash : JsVal
  createdAt : JsVal

inductive CustodyError where
  | custodyMissing
  | schemaVersionMismatch
  | canonicalizationMismatch
  | payloadNotCanonicalizable
  | contentSha256Mismatch
deriving DecidableEq

section
variable (sha256 : ByteArray → List UInt8)

def digestText (t : List Char) : JsString := hex (sha256 (String.ofList t).toUTF8)

def sha256CanonicalJson (c : Content) : Option JsString :=
  (canonicalJsonStringify c).map (digestText sha256)

def subjectIdList (ids : Option (List JsString)) : List JsString :=
  (((ids.getD []).filter fun id => id ≠ []).eraseDups).insertionSort keyLE

def manifestMembers (now : JsString) (input : ManifestInput) (digest : JsString) :
    List (JsString × JsVal) :=
  [(js "schema_version",.str (js schemaVersion)),(js "tenant_id",input.tenantId),
    (js "artifact_type",input.artifactType),(js "artifact_id",input.artifactId),
    (js "format",orElse input.format (.str (js "json"))),
    (js "created_at",orElse input.createdAt (.str now)),
    (js "created_by",orElse input.createdBy .null),(js "content_sha256",.str digest),
    (js "content_canonicalization",.str (js contentCanonicalization)),
    (js "subject_ids",.arr ((subjectIdList input.subjectIds).map .str)),
    (js "previous_audit_hash",orElse input.previousAuditHash .null)]

/-- No result when the content is refused. -/
def buildCustodyManifest (now : JsString) (input : ManifestInput) : Option JsVal :=
  (sha256CanonicalJson sha256 input.content).map fun digest =>
    .obj (manifestMembers now input digest++
      if nullish input.previousTenantAuditHash then []
      else [(js "previous_tenant_audit_hash",input.previousTenantAuditHash)])

/-- A tree has no cycle, so the encoder fails on it only with its own error. -/
def verifyCustodyManifest (custody : JsVal) (payload : Content) : Except CustodyError Unit :=
  if !isObject custody then .error .custodyMissing
  else if !is (field custody "schema_version") schemaVersion then .error .schemaVersionMismatch
  else if !is (field custody "content_canonicalization") contentCanonicalization then
    .error .canonicalizationMismatch
  else match sha256CanonicalJson sha256 payload with
    | none => .error .payloadNotCanonicalizable
    | some expected =>
        if strictEq (field custody "content_sha256") (.str expected) then .ok ()
        else .error .contentSha256Mismatch

/-- The digests of the two texts, if there are two, do not collide. -/
def CollisionFree (c d : Content) : Prop :=
  ∀ s t,canonicalJsonStringify c = some s → canonicalJsonStringify d = some t →
    sha256 (String.ofList s).toUTF8 = sha256 (String.ofList t).toUTF8 → s = t

variable {sha256} {now : JsString} {input : ManifestInput} {manifest : JsVal} {payload : Content}

/-- A manifest verifies against exactly the payloads with the digest of its content. -/
theorem verify_built (h : buildCustodyManifest sha256 now input = some manifest) :
    verifyCustodyManifest sha256 manifest payload = .ok () ↔
      sha256CanonicalJson sha256 payload = sha256CanonicalJson sha256 input.content := by
  obtain ⟨digest,hdigest,rfl⟩ := Option.map_eq_some_iff.mp h
  rw [hdigest]
  have hdig : field (.obj (manifestMembers now input digest++
      if nullish input.previousTenantAuditHash then []
      else [(js "previous_tenant_audit_hash",input.previousTenantAuditHash)]))
      "content_sha256" = .str digest := rfl
  rw [verifyCustodyManifest,if_neg (by exact Bool.false_ne_true),
    if_neg (by exact Bool.false_ne_true),if_neg (by exact Bool.false_ne_true),hdig]
  cases sha256CanonicalJson sha256 payload with
  | none => simp
  | some expected => by_cases he : digest = expected <;> simp [strictEq,he,eq_comm]

theorem sha256CanonicalJson_alike {c d : Content} (hc : c.WellFormed) (hd : d.WellFormed)
    (hac : accepted c = true) (had : accepted d = true) (h : Alike c d) :
    sha256CanonicalJson sha256 c = sha256CanonicalJson sha256 d := by
  obtain ⟨s,hs⟩ : ∃ s,canonicalJsonStringify c = some s :=
    ⟨_,(encoded_iff hc).mpr ⟨hac,rfl⟩⟩
  rw [sha256CanonicalJson,sha256CanonicalJson,hs,(same_encoding_iff hc hd hs).mpr ⟨had,h⟩]

theorem alike_of_sha256CanonicalJson {c d : Content} (hc : c.WellFormed) (hd : d.WellFormed)
    (hac : accepted c = true) (hfree : CollisionFree sha256 c d)
    (h : sha256CanonicalJson sha256 d = sha256CanonicalJson sha256 c) :
    accepted d = true ∧ Alike c d := by
  have hs := (encoded_iff hc).mpr ⟨hac,rfl⟩
  rw [sha256CanonicalJson,sha256CanonicalJson,hs] at h
  obtain ⟨t,ht,hdigest⟩ := Option.map_eq_some_iff.mp h
  have hsame := hfree _ t hs ht (hex_injective hdigest.symm)
  rw [← hsame] at ht
  exact (same_encoding_iff hc hd hs).mp ht

theorem built_accepted (hc : input.content.WellFormed)
    (h : buildCustodyManifest sha256 now input = some manifest) :
    accepted input.content = true := by
  obtain ⟨digest,hdigest,-⟩ := Option.map_eq_some_iff.mp h
  obtain ⟨s,hs,-⟩ := Option.map_eq_some_iff.mp hdigest
  exact ((encoded_iff hc).mp hs).1

/-- The copy of a transparent content is alike to it. -/
theorem copy_alike {c : Content} (hc : c.WellFormed) :
    (embed (clean (reading c))).WellFormed ∧ Alike (embed (clean (reading c))) c := by
  have hw := wellFormed_reading hc
  refine ⟨wellFormed_embed hw.isJson_clean.wellFormed,?_⟩
  rw [Alike,reading_embed,clean_clean hw]
  exact .refl _

end

/-- Contents without infinite numbers survive the copy through JSON, and a manifest tells apart
whatever the encoder reads differently. -/
theorem custody_round_trip (sha256 : ByteArray → List UInt8) :
    (∀ now input manifest,input.content.WellFormed → input.content ≠ .undefined →
      transparent input.content = true → buildCustodyManifest sha256 now input = some manifest →
      ∃ payload,jsonCopy input.content = some payload ∧
        verifyCustodyManifest sha256 manifest (embed payload) = .ok ()) ∧
    (∀ c d : Content,c.WellFormed → d.WellFormed → (canonicalJsonStringify c).isSome →
      (canonicalJsonStringify d).isSome →
      (canonicalJsonStringify c = canonicalJsonStringify d ↔ Alike c d)) ∧
    ∀ now input manifest (payload : Content),input.content.WellFormed → payload.WellFormed →
      CollisionFree sha256 input.content payload →
      buildCustodyManifest sha256 now input = some manifest → ¬ Alike input.content payload →
      verifyCustodyManifest sha256 manifest payload ≠ .ok () := by
  refine ⟨?_,?_,?_⟩
  · intro now input manifest hc hne ht hbuild
    have ha := built_accepted hc hbuild
    obtain ⟨hcopy,halike⟩ := copy_alike hc
    refine ⟨_,jsonCopy_eq hc ha ht hne,(verify_built hbuild).mpr ?_⟩
    exact sha256CanonicalJson_alike hcopy hc (accepted_embed _) ha halike
  · intro c d hc hd hac had
    obtain ⟨s,hs⟩ := Option.isSome_iff_exists.mp hac
    obtain ⟨t,ht⟩ := Option.isSome_iff_exists.mp had
    have hiff := same_encoding_iff hc hd hs
    have haccepted := ((encoded_iff hd).mp ht).1
    rw [hs,eq_comm,hiff,and_iff_right haccepted]
  · intro now input manifest payload hc hp hfree hbuild hother hok
    have ha := built_accepted hc hbuild
    exact hother (alike_of_sha256CanonicalJson hc hp ha hfree ((verify_built hbuild).mp hok)).2

/-- A digest that keeps its input. -/
def wholeDigest (bytes : ByteArray) : List UInt8 := bytes.data.toList

theorem wholeDigest_injective : Function.Injective wholeDigest := by
  intro a b h
  cases a
  cases b
  exact congrArg ByteArray.mk (Array.toList_inj.mp h)

/-- A limit with its floor, and a note left out. -/
def capped (cap : Content) : Content :=
  .obj .none [(js "cap",cap),(js "floor",.negativeZero),(js "note",.undefined)]

theorem wellFormed_capped {cap : Content} (h : cap.WellFormed) : (capped cap).WellFormed := by
  have hnames : [js "cap",js "floor",js "note"].Nodup := by decide
  refine .obj _ hnames ?_
  simp only [List.forall_mem_cons]
  exact ⟨h,.negativeZero,.undefined,by simp⟩

def report (content : Content) : ManifestInput where
  tenantId := .str (js "tenant_1")
  artifactType := .str (js "report")
  artifactId := .str (js "rep_1")
  format := .undefined
  createdBy := .str (js "user_1")
  content := content
  subjectIds := none
  previousAuditHash := .null
  previousTenantAuditHash := .undefined
  createdAt := .str (js "2026-01-05T10:00:00.000Z")

theorem empty_cap_verified :
    ∃ manifest payload,
      buildCustodyManifest wholeDigest [] (report (capped .null)) = some manifest ∧
      jsonCopy (capped .null) = some payload ∧
      verifyCustodyManifest wholeDigest manifest (embed payload) = .ok () := by
  obtain ⟨manifest,hbuild⟩ : ∃ manifest,
      buildCustodyManifest wholeDigest [] (report (capped .null)) = some manifest := ⟨_,rfl⟩
  obtain ⟨payload,hcopy,hok⟩ := (custody_round_trip wholeDigest).1 [] (report (capped .null))
    manifest (wellFormed_capped .null) (by rintro ⟨⟩) rfl hbuild
  exact ⟨manifest,payload,hbuild,hcopy,hok⟩

/-- What `JSON.stringify` prints of an unbounded cap. -/
def printedCap : JsVal :=
  .obj [(js "cap",.null),(js "floor",.num .zero),(js "note",.undefined)]

theorem wellFormed_printedCap : WellFormed printedCap := by
  have hnames : [js "cap",js "floor",js "note"].Nodup := by decide
  refine .obj hnames ?_
  simp only [List.forall_mem_cons]
  exact ⟨.null,.num _,.undefined,by simp⟩

/-- An unbounded cap is `null` after the copy, and its text is that of a string. -/
theorem unbounded_cap_lost :
    (¬ ∀ (sha256 : ByteArray → List UInt8) now input manifest payload,
      Function.Injective sha256 → input.content.WellFormed → input.content ≠ .undefined →
      buildCustodyManifest sha256 now input = some manifest →
      jsonCopy input.content = some payload →
      verifyCustodyManifest sha256 manifest (embed payload) = .ok ()) ∧
    (canonicalJsonStringify (.infinity false)).isSome ∧
      canonicalJsonStringify (.infinity false) = canonicalJsonStringify (.str (js "Infinity")) := by
  refine ⟨fun hall => ?_,rfl,rfl⟩
  have hc := wellFormed_capped (.infinity false)
  have hcopy : jsonCopy (capped (.infinity false)) = some (clean printedCap) :=
    parse_text wellFormed_printedCap
  obtain ⟨manifest,hbuild⟩ : ∃ manifest,buildCustodyManifest wholeDigest []
      (report (capped (.infinity false))) = some manifest := ⟨_,rfl⟩
  have hok := hall wholeDigest [] _ manifest _ wholeDigest_injective hc (by rintro ⟨⟩) hbuild hcopy
  have hfree : CollisionFree wholeDigest (capped (.infinity false)) (embed (clean printedCap)) :=
    fun s t _ _ h => String.ofList_injective (String.toByteArray_inj.mp (wholeDigest_injective h))
  have halike := (alike_of_sha256CanonicalJson hc
    (wellFormed_embed wellFormed_printedCap.isJson_clean.wellFormed) rfl hfree
    ((verify_built hbuild).mp hok)).2
  cases (alike_iff hc).mp halike

end AstraNull.Custody

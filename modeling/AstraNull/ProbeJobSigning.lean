import Mathlib
import AstraNull.CanonicalJson
import AstraNull.ScriptText

/-!
# The signature of a probe job

A job is a JavaScript object; its eight signed properties are encoded by the
recursive `stableStringify` of `probeJobs.mjs` and authenticated with HMAC-SHA256.
The encoder is stated as the source computes it and compared with the printer of
canonical values. Injectivity then comes from the reader, which inverts the
printer.

HMAC-SHA256 is a parameter. The results that need it assume that it is injective
in the message for a fixed key and that a digest is not empty. A signature column
holds text; a signature of another type is read as absent.

Storage is the row of `probeJobRepository.mjs`: text columns keep strings, and a
JSONB column keeps a value up to the order of members. The other columns take no
part in the signature.
-/
namespace AstraNull.ProbeJobSigning
open JsonText CanonicalJson ScriptText

mutual

def stableStringify : JsVal → List Char
  | .undefined => "null".toList
  | .arr vs => '['::(commaJoin (stableElements vs)++[']'])
  | .obj kvs =>
      -- Sorted first, then the undefined members are left out.
      '\x7b'::(commaJoin ((sortMembers (stableMembers kvs)).filterMap fun p =>
        p.2.map fun t => memberText (p.1,t))++['\x7d'])
  | v => text v

def stableElements : List JsVal → List (List Char)
  | [] => []
  | v::vs => stableStringify v::stableElements vs

/-- Texts of the members, none for an undefined one. -/
def stableMembers : List (JsString × JsVal) → List (JsString × Option (List Char))
  | [] => []
  | (k,v)::kvs =>
      (k,if v.isUndefined then none else some (stableStringify v))::stableMembers kvs

end

def signedFields : List JsString :=
  [js "check_id",js "constraints",js "id",js "nonce_hash",js "probe_profile",js "target",
    js "tenant_id",js "test_run_id"]

/-- The object literal of the signed properties. -/
def signingJob (job : JsVal) : JsVal := .obj (signedFields.map fun k => (k,job.get k))

def canonicalJobSigningPayload (job : JsVal) : List Char := stableStringify (signingJob job)

/-- Lowercase hexadecimal digest text. -/
def hex (bytes : List UInt8) : JsString :=
  bytes.flatMap fun b =>
    [UInt16.ofNat (Nat.digitChar (b.toNat/16)).toNat,UInt16.ofNat (Nat.digitChar (b.toNat%16)).toNat]

section Hmac
variable (hmac : ByteArray → ByteArray → List UInt8)

def signProbeJob (job : JsVal) (secret : JsString) : JsString :=
  hex (hmac (utf8 secret) (String.ofList (canonicalJobSigningPayload job)).toUTF8)

def verifyProbeJobSignature (job : JsVal) (secret : JsString) : Bool :=
  match job.get (js "job_signature") with
  | .str signature =>
      if signature = [] ∨ secret = [] then false
      else safeEqualUtf8 signature (signProbeJob hmac (signingJob job) secret)
  | _ => false

end Hmac

/-- `v ?? w`. -/
def orElse (v w : JsVal) : JsVal :=
  match v with
  | .undefined => w
  | .null => w
  | v => v

def asObject : JsVal → JsVal
  | .obj kvs => .obj kvs
  | _ => .obj []

/-- The job a stored row is read as. Time stamps are formatted by `toIso`. -/
def mapProbeJobRow (toIso : JsVal → JsVal) (row : JsVal) : JsVal :=
  let time := fun k => match row.get k with
    | .undefined => JsVal.null
    | .null => .null
    | v => toIso v
  .obj ([(js "id",row.get (js "id")),
    (js "tenant_id",row.get (js "tenant_id")),
    (js "test_run_id",row.get (js "test_run_id")),
    (js "target_id",orElse (row.get (js "target_id")) .undefined),
    (js "check_id",row.get (js "check_id")),
    (js "vector_family",orElse (row.get (js "vector_family")) .undefined),
    (js "status",row.get (js "status")),
    (js "nonce_hash",row.get (js "nonce_hash")),
    (js "nonce",orElse (row.get (js "nonce_for_worker")) .undefined),
    (js "probe_profile",asObject (row.get (js "probe_profile"))),
    (js "constraints",asObject (row.get (js "constraints_json"))),
    (js "target",asObject (row.get (js "target_descriptor_json"))),
    (js "worker_metadata",asObject (row.get (js "worker_metadata_json"))),
    (js "job_signature",orElse (row.get (js "job_signature")) .undefined),
    (js "leased_at",time (js "leased_at")),
    (js "leased_by",orElse (row.get (js "leased_by")) .null),
    (js "completed_at",time (js "completed_at")),
    (js "created_at",toIso (row.get (js "created_at")))]++
    (match row.get (js "ownership_verification_id") with
      | .undefined => []
      | .null => []
      | v => [(js "ownership_verification_id",v)]))

/-- A text column returns the string written to it. -/
def TextColumn (written read : JsVal) : Prop := ∃ s,written = .str s ∧ read = .str s

/-- A JSONB column returns the value of the text written to it, with its members in
any order. -/
def JsonbColumn (written : Option (List Char)) (read : JsVal) : Prop :=
  ∃ w,written.bind parse = some w ∧ Reordering w read

/-- The signed columns of the row that `createProbeJob` inserts for a record. -/
structure Stored (tenantId : JsString) (record row : JsVal) : Prop where
  id : TextColumn (record.get (js "id")) (row.get (js "id"))
  tenant : row.get (js "tenant_id") = .str tenantId
  run : TextColumn (record.get (js "test_run_id")) (row.get (js "test_run_id"))
  check : TextColumn (record.get (js "check_id")) (row.get (js "check_id"))
  nonce : TextColumn (record.get (js "nonce_hash")) (row.get (js "nonce_hash"))
  profile : JsonbColumn (stringify (asObject (record.get (js "probe_profile"))))
    (row.get (js "probe_profile"))
  constraints : JsonbColumn (stringify (asObject (orElse (record.get (js "constraints"))
    (record.get (js "constraints_json"))))) (row.get (js "constraints_json"))
  target : JsonbColumn (stringify (asObject (orElse (record.get (js "target"))
    (record.get (js "target_descriptor_json"))))) (row.get (js "target_descriptor_json"))
  signature : TextColumn (record.get (js "job_signature")) (row.get (js "job_signature"))

theorem stableElements_eq (vs : List JsVal) : stableElements vs = vs.map stableStringify := by
  induction vs with
  | nil => rfl
  | cons v vs ih => rw [stableElements,ih,List.map_cons]

/-- The text of a member value, none for an undefined one. -/
def memberValue (v : JsVal) : Option (List Char) :=
  if v.isUndefined then none else some (stableStringify v)

theorem stableMembers_eq (kvs : List (JsString × JsVal)) :
    stableMembers kvs = kvs.map (Prod.map id memberValue) := by
  induction kvs with
  | nil => rfl
  | cons p kvs ih =>
      rw [stableMembers,ih]
      rfl

theorem stableMembers_texts {kvs : List (JsString × JsVal)}
    (h : ∀ p ∈ kvs,stableStringify p.2 = text (canonical p.2)) :
    ((kvs.map (Prod.map id memberValue)).filterMap fun p =>
        p.2.map fun t => memberText (p.1,t)) =
      (memberTexts (kvs.map (Prod.map id canonical))).map memberText := by
  induction kvs with
  | nil => rfl
  | cons p kvs ih =>
      have htail := ih fun q hq => h q (List.mem_cons_of_mem p hq)
      have hhead := h p List.mem_cons_self
      rw [List.map_cons,List.map_cons,List.filterMap_cons,htail]
      simp only [Prod.map,id,memberTexts,isUndefined_canonical,memberValue]
      cases p.2.isUndefined with
      | true => rfl
      | false =>
          rw [hhead]
          rfl

/-- The encoder prints the canonical representative. -/
theorem stableStringify_eq (v : JsVal) : stableStringify v = text (canonical v) := by
  induction v using JsVal.induct with
  | undefined => rfl
  | null => rfl
  | bool b => rfl
  | num n => rfl
  | str s => rfl
  | arr vs ih =>
      rw [stableStringify,canonical,text,stableElements_eq,elementTexts_eq,canonicalElements_eq,
        List.map_map]
      have h : vs.map stableStringify = vs.map (text ∘ canonical) := List.map_congr_left ih
      rw [h]
  | obj kvs ih =>
      have h := @stableMembers_texts (sortMembers kvs)
        fun p hp => ih p (mem_sortMembers.mp hp)
      rw [stableStringify,canonical,text,stableMembers_eq,canonicalMembers_eq,← sortMembers_map,
        ← sortMembers_map,h]

/-- Equality of two property values: both absent, or equal up to the order of
members and undefined positions. -/
def SameField (v w : JsVal) : Prop :=
  v.isUndefined = w.isUndefined ∧ Reordering (clean v) (clean w)

theorem SameField.refl (v : JsVal) : SameField v v := ⟨rfl,.refl _⟩

theorem signedFields_nodup : signedFields.Nodup := by decide

/-- Every signed property is well formed. -/
def SignedWellFormed (job : JsVal) : Prop := ∀ k ∈ signedFields,WellFormed (job.get k)

theorem signingJob_names (job : JsVal) :
    (signedFields.map fun k => (k,job.get k)).map Prod.fst = signedFields := by
  rw [List.map_map]
  exact List.map_id _

theorem SignedWellFormed.signingJob {job : JsVal} (h : SignedWellFormed job) :
    WellFormed (signingJob job) := by
  refine .obj ?_ fun p hp => ?_
  · rw [signingJob_names]
    exact signedFields_nodup
  · obtain ⟨k,hk,rfl⟩ := List.mem_map.mp hp
    exact h k hk

theorem get_signingJob (job : JsVal) {k : JsString} (hk : k ∈ signedFields) :
    (signingJob job).get k = job.get k := by
  refine get_of_mem ?_ (List.mem_map.mpr ⟨k,hk,rfl⟩)
  rw [signingJob_names]
  exact signedFields_nodup

theorem payload_eq (job : JsVal) (h : SignedWellFormed job) :
    canonicalJobSigningPayload job = text (canonical (clean (signingJob job))) := by
  rw [canonicalJobSigningPayload,stableStringify_eq,← text_clean,clean_canonical h.signingJob]

/-- Equal signed properties encode equally. -/
theorem cleanMembers_congr {f g : JsString → JsVal} {ks : List JsString}
    (hf : ∀ k ∈ ks,WellFormed (f k)) (h : ∀ k ∈ ks,SameField (f k) (g k)) :
    canonicalMembers (cleanMembers (ks.map fun k => (k,f k))) =
      canonicalMembers (cleanMembers (ks.map fun k => (k,g k))) := by
  induction ks with
  | nil => rfl
  | cons k ks ih =>
      have htail := ih (fun j hj => hf j (List.mem_cons_of_mem k hj))
        fun j hj => h j (List.mem_cons_of_mem k hj)
      obtain ⟨hu,hr⟩ := h k List.mem_cons_self
      have hwf := (hf k List.mem_cons_self).isJson_clean.wellFormed
      rw [List.map_cons,List.map_cons,cleanMembers,cleanMembers,← hu]
      cases (f k).isUndefined with
      | true => exact htail
      | false =>
          change (k,canonical (clean (f k)))::_ = (k,canonical (clean (g k)))::_
          rw [htail,(reordering_iff hwf).mp hr]

/-- The payload determines the signed properties, and nothing else enters it. -/
theorem payload_eq_iff {job job' : JsVal} (h : SignedWellFormed job)
    (h' : SignedWellFormed job') :
    canonicalJobSigningPayload job = canonicalJobSigningPayload job' ↔
      ∀ k ∈ signedFields,SameField (job.get k) (job'.get k) := by
  have hj := h.signingJob.isJson_clean
  have hj' := h'.signingJob.isJson_clean
  rw [payload_eq job h,payload_eq job' h']
  constructor
  · intro heq k hk
    have hcan : canonical (clean (signingJob job)) = canonical (clean (signingJob job')) := by
      have hi := text_injective (wellFormed_canonical hj.wellFormed)
        (wellFormed_canonical hj'.wellFormed) heq
      rwa [clean_canonical hj.wellFormed,clean_canonical hj'.wellFormed,clean_of_isJson hj,
        clean_of_isJson hj'] at hi
    have hget := congrArg (fun v => v.get k) hcan
    simp only [get_canonical hj.wellFormed,get_canonical hj'.wellFormed,
      get_clean h.signingJob,get_clean h'.signingJob,get_signingJob _ hk] at hget
    have hundef := congrArg JsVal.isUndefined hget
    rw [isUndefined_canonical,isUndefined_canonical] at hundef
    have hwf := (h k hk).isJson_clean.wellFormed
    cases hu : (job.get k).isUndefined with
    | true =>
        cases hu' : (job'.get k).isUndefined with
        | true =>
            have hz : ∀ v : JsVal,v.isUndefined = true → v = .undefined := by
              intro v hv
              cases v with
              | undefined => rfl
              | _ => cases hv
            rw [hz _ hu,hz _ hu']
            exact .refl _
        | false =>
            rw [hu,hu',if_pos rfl,if_neg (by decide),isUndefined_clean] at hundef
            cases hundef
    | false =>
        cases hu' : (job'.get k).isUndefined with
        | true =>
            rw [hu,hu',if_pos rfl,if_neg (by decide),isUndefined_clean] at hundef
            cases hundef
        | false =>
            rw [hu,hu',if_neg (by decide),if_neg (by decide)] at hget
            exact ⟨hu.trans hu'.symm,(reordering_iff hwf).mpr hget⟩
  · intro hsame
    have hmem := cleanMembers_congr h hsame
    rw [signingJob,signingJob,clean,clean,canonical,canonical,hmem]

theorem SameField.of_reordering {v w : JsVal} (hv : WellFormed v) (h : Reordering v w) :
    SameField v w := by
  obtain ⟨hw,heq⟩ := h.canonical_eq hv
  have hu : v.isUndefined = w.isUndefined := by
    rw [← isUndefined_canonical v,heq,isUndefined_canonical]
  refine ⟨hu,(reordering_iff hv.isJson_clean.wellFormed).mpr ?_⟩
  rw [← clean_canonical hv,← clean_canonical hw,heq]

theorem payload_reordering {job job' : JsVal} (h : WellFormed job) (hr : Reordering job job') :
    canonicalJobSigningPayload job = canonicalJobSigningPayload job' := by
  obtain ⟨h',heq⟩ := hr.canonical_eq h
  refine (payload_eq_iff (fun k _ => wellFormed_get h k) fun k _ => wellFormed_get h' k).mpr fun k _ => ?_
  have hk : Reordering (job.get k) (job'.get k) := by
    rw [reordering_iff (wellFormed_get h k),← get_canonical h,← get_canonical h',heq]
  exact .of_reordering (wellFormed_get h k) hk

theorem payload_clean {job : JsVal} (h : WellFormed job) :
    canonicalJobSigningPayload (clean job) = canonicalJobSigningPayload job := by
  have h' := h.isJson_clean.wellFormed
  refine (payload_eq_iff (fun k _ => wellFormed_get h' k) fun k _ => wellFormed_get h k).mpr fun k _ => ?_
  rw [get_clean h]
  cases hu : (job.get k).isUndefined with
  | true =>
      refine ⟨hu.symm,?_⟩
      have : job.get k = .undefined := by
        cases hv : job.get k with
        | undefined => rfl
        | _ => rw [hv] at hu; cases hu
      rw [this]
      exact .refl _
  | false =>
      rw [if_neg (by decide)]
      refine ⟨(isUndefined_clean _).trans hu.symm,?_⟩
      rw [clean_clean (wellFormed_get h k)]
      exact .refl _

theorem hexDigit_lt {n : ℕ} (h : n < 16) : (Nat.digitChar n).toNat < 128 := by
  interval_cases n <;> decide

theorem hexDigit_injective {m n : ℕ} (hm : m < 16) (hn : n < 16)
    (h : UInt16.ofNat (Nat.digitChar m).toNat = UInt16.ofNat (Nat.digitChar n).toNat) : m = n := by
  have ht := congrArg UInt16.toNat h
  have h1 := hexDigit_lt hm
  have h2 := hexDigit_lt hn
  rw [UInt16.toNat_ofNat',UInt16.toNat_ofNat',Nat.mod_eq_of_lt (by omega),
    Nat.mod_eq_of_lt (by omega)] at ht
  have hv := congrArg hexValue (Char.toNat_inj.mp ht)
  rw [hexValue_digitChar hm,hexValue_digitChar hn] at hv
  exact Option.some.inj hv

theorem hex_plain (bytes : List UInt8) : ∀ u ∈ hex bytes,u.toNat < 0xD800 := by
  intro u hu
  obtain ⟨b,_,hb⟩ := List.mem_flatMap.mp hu
  have hlt := b.toNat_lt
  have h1 := hexDigit_lt (show b.toNat/16 < 16 by omega)
  have h2 := hexDigit_lt (show b.toNat%16 < 16 by omega)
  simp only [List.mem_cons,List.not_mem_nil,or_false] at hb
  rcases hb with rfl | rfl <;> rw [UInt16.toNat_ofNat'] <;> omega

theorem hex_injective {a b : List UInt8} (h : hex a = hex b) : a = b := by
  induction a generalizing b with
  | nil =>
      cases b with
      | nil => rfl
      | cons y b => cases h
  | cons x a ih =>
      cases b with
      | nil => cases h
      | cons y b =>
          have hx := x.toNat_lt
          have hy := y.toNat_lt
          simp only [hex,List.flatMap_cons,List.cons_append,List.nil_append,List.cons.injEq] at h
          have h1 := hexDigit_injective (by omega) (by omega) h.1
          have h2 := hexDigit_injective (by omega) (by omega) h.2.1
          have hxy : x = y := UInt8.toNat_inj.mp (by omega)
          rw [hxy,ih h.2.2]

theorem safeEqualUtf8_hex {a b : List UInt8} (ha : a ≠ []) (hb : b ≠ []) :
    safeEqualUtf8 (hex a) (hex b) = decide (a = b) := by
  have hne : ∀ c : List UInt8,c ≠ [] → hex c ≠ [] := by
    intro c hc
    obtain ⟨x,c,rfl⟩ := List.exists_cons_of_ne_nil hc
    exact List.cons_ne_nil _ _
  rw [safeEqualUtf8,if_neg (not_or.mpr ⟨hne a ha,hne b hb⟩)]
  refine decide_eq_decide.mpr ⟨fun h => ?_,fun h => by rw [h]⟩
  exact hex_injective (utf8_injective (hex_plain a) (hex_plain b) h)

theorem signingJob_signingJob (job : JsVal) : signingJob (signingJob job) = signingJob job := by
  refine congrArg JsVal.obj (List.map_congr_left fun k hk => ?_)
  rw [get_signingJob job hk]

theorem payload_signingJob (job : JsVal) :
    canonicalJobSigningPayload (signingJob job) = canonicalJobSigningPayload job := by
  rw [canonicalJobSigningPayload,signingJob_signingJob,canonicalJobSigningPayload]

section Verification
variable {hmac : ByteArray → ByteArray → List UInt8}

/-- A signature of one job verifies on another exactly when the payloads agree. -/
theorem verify_of_signature (hinj : ∀ key,Function.Injective (hmac key))
    (hne : ∀ key m,hmac key m ≠ []) {job job' : JsVal} {secret : JsString} (hs : secret ≠ [])
    (hsig : job'.get (js "job_signature") = .str (signProbeJob hmac job secret)) :
    verifyProbeJobSignature hmac job' secret =
      decide (canonicalJobSigningPayload job = canonicalJobSigningPayload job') := by
  have hempty : signProbeJob hmac job secret ≠ [] := by
    obtain ⟨x,c,hx⟩ := List.exists_cons_of_ne_nil
      (hne (utf8 secret) (String.ofList (canonicalJobSigningPayload job)).toUTF8)
    rw [signProbeJob,hx]
    exact List.cons_ne_nil _ _
  rw [verifyProbeJobSignature,hsig]
  simp only
  rw [if_neg (not_or.mpr ⟨hempty,hs⟩),signProbeJob,signProbeJob,payload_signingJob,
    safeEqualUtf8_hex (hne _ _) (hne _ _)]
  refine decide_eq_decide.mpr ⟨fun h => ?_,fun h => by rw [h]⟩
  exact String.ofList_injective (String.toByteArray_inj.mp (hinj _ h))

/-- A column returns a well formed value that counts as the one written. -/
def Faithful (written read : JsVal) : Prop := SameField written read ∧ WellFormed read

theorem JsonbColumn.faithful {kvs : List (JsString × JsVal)} {read : JsVal}
    (hwf : WellFormed (.obj kvs)) (h : JsonbColumn (stringify (.obj kvs)) read) :
    Faithful (.obj kvs) (asObject read) := by
  obtain ⟨w,hw,hr⟩ := h
  have hparse : parse (text (.obj kvs)) = some w := hw
  rw [parse_text hwf] at hparse
  cases Option.some.inj hparse
  have hjson := hwf.isJson_clean.wellFormed
  obtain ⟨hread,heq⟩ := hr.canonical_eq hjson
  have hobj : asObject read = read := by
    cases read with
    | obj kws => rfl
    | _ =>
        rw [clean,canonical] at heq
        cases heq
  obtain ⟨hu,hsame⟩ := SameField.of_reordering hjson hr
  rw [clean_clean hwf] at hsame
  rw [hobj]
  exact ⟨⟨hu,hsame⟩,hread⟩

theorem TextColumn.faithful {written read : JsVal} (h : TextColumn written read) :
    Faithful written read := by
  obtain ⟨s,rfl,rfl⟩ := h
  exact ⟨.refl _,.str s⟩

/-- The record types `buildSignedProbeJobRecord` returns, stored for their own
tenant. -/
structure Storable (tenantId : JsString) (record : JsVal) : Prop where
  wellFormed : WellFormed record
  tenant : record.get (js "tenant_id") = .str tenantId
  profile : ∃ kvs,record.get (js "probe_profile") = .obj kvs
  constraints : ∃ kvs,record.get (js "constraints") = .obj kvs
  target : ∃ kvs,record.get (js "target") = .obj kvs

/-- A stored job is read back with the same signed properties. -/
theorem Stored.faithful {tenantId : JsString} {record row : JsVal}
    (hr : Storable tenantId record) (h : Stored tenantId record row) (toIso : JsVal → JsVal) :
    ∀ k ∈ signedFields,Faithful (record.get k) ((mapProbeJobRow toIso row).get k) := by
  have hwf := wellFormed_get hr.wellFormed
  have htenant : Faithful (record.get (js "tenant_id")) (row.get (js "tenant_id")) := by
    rw [hr.tenant,h.tenant]
    exact ⟨.refl _,.str _⟩
  have hprofile : Faithful (record.get (js "probe_profile"))
      (asObject (row.get (js "probe_profile"))) := by
    obtain ⟨kvs,hp⟩ := hr.profile
    have hcol := h.profile
    have hw := hwf (js "probe_profile")
    rw [hp] at hcol hw ⊢
    exact hcol.faithful hw
  have hconstraints : Faithful (record.get (js "constraints"))
      (asObject (row.get (js "constraints_json"))) := by
    obtain ⟨kvs,hp⟩ := hr.constraints
    have hcol := h.constraints
    have hw := hwf (js "constraints")
    rw [hp] at hcol hw ⊢
    exact hcol.faithful hw
  have htarget : Faithful (record.get (js "target"))
      (asObject (row.get (js "target_descriptor_json"))) := by
    obtain ⟨kvs,hp⟩ := hr.target
    have hcol := h.target
    have hw := hwf (js "target")
    rw [hp] at hcol hw ⊢
    exact hcol.faithful hw
  intro k hk
  simp only [signedFields,List.mem_cons,List.not_mem_nil,or_false] at hk
  rcases hk with rfl | rfl | rfl | rfl | rfl | rfl | rfl | rfl
  · exact h.check.faithful
  · exact hconstraints
  · exact h.id.faithful
  · exact h.nonce.faithful
  · exact hprofile
  · exact htarget
  · exact htenant
  · exact h.run.faithful

theorem verify_stored (hinj : ∀ key,Function.Injective (hmac key))
    (hne : ∀ key m,hmac key m ≠ []) {tenantId : JsString} {record row : JsVal}
    (hr : Storable tenantId record) (h : Stored tenantId record row) (toIso : JsVal → JsVal)
    {secret : JsString} (hs : secret ≠ [])
    (hsig : record.get (js "job_signature") = .str (signProbeJob hmac record secret)) :
    verifyProbeJobSignature hmac (mapProbeJobRow toIso row) secret = true := by
  have hread : (mapProbeJobRow toIso row).get (js "job_signature") =
      .str (signProbeJob hmac record secret) := by
    obtain ⟨t,ht,ht'⟩ := h.signature
    rw [hsig] at ht
    change orElse (row.get (js "job_signature")) .undefined = _
    rw [ht',← ht]
    rfl
  have hf := h.faithful hr toIso
  rw [verify_of_signature hinj hne hs hread,decide_eq_true_eq,
    payload_eq_iff (fun k _ => wellFormed_get hr.wellFormed k) fun k hk => (hf k hk).2]
  exact fun k hk => (hf k hk).1

theorem verify_changed (hinj : ∀ key,Function.Injective (hmac key))
    (hne : ∀ key m,hmac key m ≠ []) {job job' : JsVal} (hj : SignedWellFormed job)
    (hj' : SignedWellFormed job') {secret : JsString}
    (hsig : job'.get (js "job_signature") = .str (signProbeJob hmac job secret))
    (hdiff : ∃ k ∈ signedFields,¬ SameField (job.get k) (job'.get k)) :
    verifyProbeJobSignature hmac job' secret = false := by
  by_cases hs : secret = []
  · rw [verifyProbeJobSignature,hsig]
    exact if_pos (Or.inr hs)
  · rw [verify_of_signature hinj hne hs hsig,decide_eq_false_iff_not,payload_eq_iff hj hj']
    obtain ⟨k,hk,hn⟩ := hdiff
    exact fun h => hn (h k hk)

end Verification

/-- The payload is a canonical and injective encoding of the signed properties, so a
signature survives storage and does not survive a change of a signed property. -/
theorem signing_payload_binding (hmac : ByteArray → ByteArray → List UInt8)
    (hinj : ∀ key,Function.Injective (hmac key)) (hne : ∀ key m,hmac key m ≠ []) :
    (∀ job job',WellFormed job → Reordering job job' →
      canonicalJobSigningPayload job = canonicalJobSigningPayload job') ∧
    (∀ job job',WellFormed job → (stringify job).bind parse = some job' →
      canonicalJobSigningPayload job' = canonicalJobSigningPayload job) ∧
    (∀ job job',SignedWellFormed job → SignedWellFormed job' →
      canonicalJobSigningPayload job = canonicalJobSigningPayload job' →
      ∀ k ∈ signedFields,SameField (job.get k) (job'.get k)) ∧
    (∀ tenantId record row toIso secret,Storable tenantId record →
      Stored tenantId record row → secret ≠ [] →
      record.get (js "job_signature") = .str (signProbeJob hmac record secret) →
      verifyProbeJobSignature hmac (mapProbeJobRow toIso row) secret = true) ∧
    (∀ job job' secret,SignedWellFormed job → SignedWellFormed job' →
      job'.get (js "job_signature") = .str (signProbeJob hmac job secret) →
      (∃ k ∈ signedFields,¬ SameField (job.get k) (job'.get k)) →
      verifyProbeJobSignature hmac job' secret = false) := by
  refine ⟨fun _ _ h hr => payload_reordering h hr,?_,fun _ _ h h' heq => ?_,
    fun _ _ _ toIso _ hr h hs hsig => verify_stored hinj hne hr h toIso hs hsig,
    fun _ _ _ h h' hsig hdiff => verify_changed hinj hne h h' hsig hdiff⟩
  · intro job job' h hparse
    have hclean : job' = clean job := by
      rw [stringify] at hparse
      split_ifs at hparse
      · cases hparse
      · rw [Option.bind_some,parse_text h] at hparse
        exact (Option.some.inj hparse).symm
    rw [hclean,payload_clean h]
  · exact (payload_eq_iff h h').mp heq

/-- A keyed tag that is injective by construction. -/
def transparentTag (key message : ByteArray) : List UInt8 := 0::(key.data.toList++message.data.toList)

theorem transparentTag_injective (key : ByteArray) : Function.Injective (transparentTag key) := by
  intro m n h
  have hl := List.append_cancel_left (List.cons.inj h).2
  exact ByteArray.ext (Array.toList_inj.mp hl)

/-- A two property job carrying the signature of the job of another check. -/
def relabelledJob (check : JsString) : JsVal :=
  .obj [(js "check_id",.str check),(js "job_signature",.str (signProbeJob transparentTag
    (.obj [(js "check_id",.str (js "waf.baseline"))]) (js "secret")))]

theorem relabelled_job_refused :
    (∀ key,Function.Injective (transparentTag key)) ∧ (∀ key m,transparentTag key m ≠ []) ∧
      verifyProbeJobSignature transparentTag (relabelledJob (js "waf.bypass")) (js "secret") =
        false := by
  have hne : ∀ key m,transparentTag key m ≠ [] := fun _ _ => List.cons_ne_nil _ _
  have hwf : ∀ kvs : List (JsString × JsVal),(kvs.map Prod.fst).Nodup →
      (∀ p ∈ kvs,∃ s,p.2 = .str s) → SignedWellFormed (.obj kvs) := by
    intro kvs hnd hs k _
    refine wellFormed_get (.obj hnd fun p hp => ?_) k
    obtain ⟨s,hs⟩ := hs p hp
    rw [hs]
    exact .str s
  refine ⟨transparentTag_injective,hne,?_⟩
  refine (signing_payload_binding transparentTag transparentTag_injective hne).2.2.2.2
    (.obj [(js "check_id",.str (js "waf.baseline"))]) (relabelledJob (js "waf.bypass"))
    (js "secret") (hwf _ (by decide) (by simp)) (hwf _ (by decide) (by simp)) rfl
    ⟨js "check_id",by decide,?_⟩
  rintro ⟨-,h⟩
  have heq := (reordering_iff (.str (js "waf.baseline"))).mp h
  exact absurd (JsVal.str.inj heq) (by decide)

end AstraNull.ProbeJobSigning

import Mathlib
import AstraNull.JsonText
import AstraNull.ScriptText
import AstraNull.ScriptValue
import AstraNull.TextPatterns
import AstraNull.AuditLog
import AstraNull.AuditChain
import AstraNull.TargetMetadata

/-!
# Redaction

`lib/redact.mjs`: texts lose whatever looks like a token, values under sensitive names and below
the eighth level are replaced as a whole. The function over values is the one that audit entries
go through; here it has the texts of the source.
-/
namespace AstraNull.Redaction
open JsonText ScriptText ScriptValue TextPatterns
open AuditLog (redactObject redactElements redactMembers isVariantSensitiveKey tooDeep)
open AuditChain (redactElements_eq)
open TargetMetadata (deepKeys mem_deepKeysOf mem_deepKeysIn)

/-- `[A-Za-z0-9_-]` -/
def isTokenUnit (u : UInt16) : Bool := isAlphanumeric u.toNat || u = 95 || u = 45

def one (accepts : UInt16 → Bool) : Piece UInt16 := ⟨accepts,1,false⟩

/-- `[…]{least,}` -/
def atLeast (least : ℕ) (accepts : UInt16 → Bool) : Piece UInt16 := ⟨accepts,least,true⟩

def literal (text : String) : List (Piece UInt16) := (js text).map fun u => one (· == u)

/-- A literal in either case, given in lower case. -/
def anyCase (text : String) : List (Piece UInt16) :=
  (js text).map fun u => one fun c => c == u || (65 ≤ c.toNat && c.toNat ≤ 90 && c+32 == u)

def point : Piece UInt16 := one (· == 46)

/-- `start[A-Za-z0-9_-]+(?:\.[A-Za-z0-9_-]+){2}` -/
def addressedToken (start : String) : List (Piece UInt16) :=
  literal start++[atLeast 1 isTokenUnit,point,atLeast 1 isTokenUnit,point,atLeast 1 isTokenUnit]

/-- `start[A-Za-z0-9_-]{8,}` -/
def plainToken (start : String) : List (Piece UInt16) := literal start++[atLeast 8 isTokenUnit]

def bearerToken : List (Piece UInt16) :=
  anyCase "bearer"++[atLeast 1 fun u => isWhiteSpace u.toNat,
    atLeast 1 fun u => isTokenUnit u || u = 46]

def secretKey : List (Piece UInt16) := literal "sk-"++[atLeast 16 fun u => isAlphanumeric u.toNat]

def tokenPatterns : List (List (Piece UInt16)) :=
  [addressedToken "ast_v1.",addressedToken "svc_v1.",addressedToken "agc_v1.",
    plainToken "ast_",plainToken "svc_",plainToken "agc_",bearerToken,secretKey]

def redacted : JsString := js "[REDACTED]"

def redactString (value : JsString) : JsString := replaceEach tokenPatterns redacted value

/-- The text has no match of any token pattern. -/
def Spotless (s : JsString) : Prop := ∀ ps ∈ tokenPatterns,Free ps s

theorem redacted_eq : redacted = 91::(js "REDACTED"++[93]) := by decide

/-- No pattern takes a bracket, matches nothing or matches in the label. -/
theorem apart_tokenPatterns : ∀ ps ∈ tokenPatterns,Apart 91 93 (js "REDACTED") ps := by
  have hpieces : ∀ ps ∈ tokenPatterns,(∃ p ∈ ps,0 < p.least) ∧
      (∀ p ∈ ps,p.accepts 91 = false) ∧ (∀ p ∈ ps,p.accepts 93 = false) ∧
      Free ps (js "REDACTED") := by decide
  intro ps hps
  obtain ⟨hleast,hopen,hclose,hlabel⟩ := hpieces ps hps
  exact ⟨fun w hw => ⟨ne_nil_of_matches hleast hw,notMem_of_matches hopen hw,
    notMem_of_matches hclose hw⟩,hlabel⟩

theorem spotless_redactString (s : JsString) : Spotless (redactString s) := by
  rw [redactString,redacted_eq]
  exact free_replaceEach apart_tokenPatterns s

theorem redactString_of_spotless {s : JsString} (h : Spotless s) : redactString s = s :=
  replaceEach_of_free redacted h

theorem spotless_redacted : Spotless redacted := by
  unfold Spotless
  decide

theorem spotless_tooDeep : Spotless (js "[REDACTED_DEPTH]") := by
  unfold Spotless
  decide

/-- The functions of the audit log with these texts. -/
def texts (sha256 : ByteArray → List UInt8) : AuditLog.Platform := ⟨sha256,redactString⟩

/-- A value and what may take its place at a level. -/
inductive Redacted : ℕ → JsVal → JsVal → Prop
  | deep {depth : ℕ} {v : JsVal} : 8 < depth → Redacted depth v tooDeep
  | scalar {depth : ℕ} {v : JsVal} : depth ≤ 8 → isObject v = false → (∀ s,v ≠ .str s) →
      Redacted depth v v
  | str {depth : ℕ} {s t : JsString} : depth ≤ 8 → Spotless t → (Spotless s → t = s) →
      Redacted depth (.str s) (.str t)
  | arr {depth : ℕ} {vs ws : List JsVal} : depth ≤ 8 → vs.length = ws.length →
      (∀ p ∈ vs.zip ws,Redacted (depth+1) p.1 p.2) → Redacted depth (.arr vs) (.arr ws)
  | obj {depth : ℕ} {kvs kws : List (JsString × JsVal)} : depth ≤ 8 →
      kvs.map Prod.fst = kws.map Prod.fst →
      (∀ p ∈ kvs.zip kws,isVariantSensitiveKey p.1.1 = true → p.2.2 = .str redacted) →
      (∀ p ∈ kvs.zip kws,isVariantSensitiveKey p.1.1 = false →
        Redacted (depth+1) p.1.2 p.2.2) → Redacted depth (.obj kvs) (.obj kws)

section
variable (P : AuditLog.Platform)

theorem redactObject_scalar {v : JsVal} (h : isObject v = false) (hstr : ∀ s,v ≠ .str s)
    (depth : ℕ) : redactObject P depth v = if 8 < depth then tooDeep else v := by
  cases v with
  | arr vs => cases h
  | obj kvs => cases h
  | str s => exact absurd rfl (hstr s)
  | _ => simp [redactObject]

theorem redactMembers_eq {kvs : List (JsString × JsVal)}
    (h : ∀ p ∈ kvs,p.1 ≠ js "__proto__") (depth : ℕ) :
    redactMembers P depth kvs = kvs.map fun p =>
      (p.1,if isVariantSensitiveKey p.1 then .str redacted else redactObject P depth p.2) := by
  induction kvs with
  | nil => rw [redactMembers]; rfl
  | cons p kvs ih =>
      rw [List.forall_mem_cons] at h
      obtain ⟨k,v⟩ := p
      rw [redactMembers,if_neg h.1,ih h.2]
      rfl

theorem zip_map_self {α β : Type} (f : α → β) (l : List α) : ∀ p ∈ l.zip (l.map f),p.2 = f p.1 := by
  induction l with
  | nil => simp
  | cons a l ih =>
      rw [List.map_cons,List.zip_cons_cons]
      exact List.forall_mem_cons.mpr ⟨rfl,ih⟩

end

section
variable (sha256 : ByteArray → List UInt8)

theorem redacted_scalar {v : JsVal} (h : isObject v = false) (hstr : ∀ s,v ≠ .str s) (depth : ℕ) :
    Redacted depth v (redactObject (texts sha256) depth v) := by
  rw [redactObject_scalar _ h hstr]
  split_ifs with hdeep
  · exact .deep hdeep
  · exact .scalar (not_lt.mp hdeep) h hstr

/-- Everything is redacted as it may be. -/
theorem redacted_redactObject (v : JsVal) (h : js "__proto__" ∉ deepKeys v) (depth : ℕ) :
    Redacted depth v (redactObject (texts sha256) depth v) := by
  induction v using JsVal.induct generalizing depth with
  | arr vs ih =>
      rw [redactObject]
      split_ifs with hdeep
      · exact .deep hdeep
      · rw [redactElements_eq]
        refine .arr (not_lt.mp hdeep) (by simp) ?_
        intro p hp
        have hmem := (List.of_mem_zip hp).1
        rw [zip_map_self _ _ p hp]
        exact ih p.1 hmem (fun hkey => h (mem_deepKeysOf.mpr ⟨p.1,hmem,hkey⟩)) (depth+1)
  | obj kvs ih =>
      rw [redactObject]
      split_ifs with hdeep
      · exact .deep hdeep
      · have hproto : ∀ p ∈ kvs,p.1 ≠ js "__proto__" := by
          intro p hp hkey
          exact h (mem_deepKeysIn.mpr ⟨p,hp,.inl hkey.symm⟩)
        rw [redactMembers_eq _ hproto]
        refine .obj (not_lt.mp hdeep) (by simp) ?_ ?_
        · intro p hp hsensitive
          rw [zip_map_self _ _ p hp,if_pos hsensitive]
        · intro p hp hplain
          have hmem := (List.of_mem_zip hp).1
          rw [zip_map_self _ _ p hp,if_neg (by simp [hplain])]
          exact ih p.1 hmem (fun hkey => h (mem_deepKeysIn.mpr ⟨p.1,hmem,.inr hkey⟩)) (depth+1)
  | str s =>
      rw [redactObject]
      split_ifs with hdeep
      · exact .deep hdeep
      · exact .str (not_lt.mp hdeep) (spotless_redactString s) redactString_of_spotless
  | undefined => exact redacted_scalar sha256 rfl (by simp) depth
  | null => exact redacted_scalar sha256 rfl (by simp) depth
  | bool b => exact redacted_scalar sha256 rfl (by simp) depth
  | num n => exact redacted_scalar sha256 rfl (by simp) depth

end

mutual

/-- The texts that are values, at every depth. -/
def deepTexts : JsVal → List JsString
  | .str s => [s]
  | .arr vs => deepTextsOf vs
  | .obj kvs => deepTextsIn kvs
  | _ => []

def deepTextsOf : List JsVal → List JsString
  | [] => []
  | v::vs => deepTexts v++deepTextsOf vs

def deepTextsIn : List (JsString × JsVal) → List JsString
  | [] => []
  | (_,v)::kvs => deepTexts v++deepTextsIn kvs

end

theorem deepTexts_scalar {v : JsVal} (h : isObject v = false) (hstr : ∀ s,v ≠ .str s) :
    deepTexts v = [] := by
  cases v with
  | arr vs => cases h
  | obj kvs => cases h
  | str s => exact absurd rfl (hstr s)
  | _ => rw [deepTexts] <;> exact nofun

theorem mem_deepTextsOf {vs : List JsVal} {s : JsString} :
    s ∈ deepTextsOf vs ↔ ∃ v ∈ vs,s ∈ deepTexts v := by
  induction vs with
  | nil => simp [deepTextsOf]
  | cons v vs ih => simp [deepTextsOf,ih]

theorem mem_deepTextsIn {kvs : List (JsString × JsVal)} {s : JsString} :
    s ∈ deepTextsIn kvs ↔ ∃ p ∈ kvs,s ∈ deepTexts p.2 := by
  induction kvs with
  | nil => simp [deepTextsIn]
  | cons p kvs ih =>
      obtain ⟨k,v⟩ := p
      simp [deepTextsIn,ih]

/-- What is redacted has no match left anywhere. -/
theorem Redacted.spotless {depth : ℕ} {v w : JsVal} (h : Redacted depth v w) :
    ∀ s ∈ deepTexts w,Spotless s := by
  induction h with
  | deep _ =>
      intro s hs
      rw [tooDeep,deepTexts,List.mem_singleton] at hs
      rw [hs]
      exact spotless_tooDeep
  | scalar _ hscalar hstr => simp [deepTexts_scalar hscalar hstr]
  | str _ hspotless _ =>
      intro s hs
      rw [deepTexts,List.mem_singleton] at hs
      rw [hs]
      exact hspotless
  | @arr depth vs ws _ hlength _ ih =>
      intro s hs
      rw [deepTexts,mem_deepTextsOf] at hs
      obtain ⟨w,hw,hmem⟩ := hs
      rw [← @List.map_snd_zip _ _ vs ws hlength.ge] at hw
      obtain ⟨p,hp,rfl⟩ := List.mem_map.mp hw
      exact ih p hp s hmem
  | @obj depth kvs kws _ hkeys hsensitive _ ih =>
      intro s hs
      rw [deepTexts,mem_deepTextsIn] at hs
      obtain ⟨q,hq,hmem⟩ := hs
      have hlength : kvs.length = kws.length := by
        simpa using congrArg List.length hkeys
      rw [← @List.map_snd_zip _ _ kvs kws hlength.ge] at hq
      obtain ⟨p,hp,rfl⟩ := List.mem_map.mp hq
      cases hkey : isVariantSensitiveKey p.1.1 with
      | true =>
          rw [hsensitive p hp hkey,deepTexts,List.mem_singleton] at hmem
          rw [hmem]
          exact spotless_redacted
      | false => exact ih p hp hkey s hmem

section
variable (sha256 : ByteArray → List UInt8)

theorem redactObject_deep {depth : ℕ} (h : 8 < depth) (v : JsVal) :
    redactObject (texts sha256) depth v = tooDeep := by
  cases v with
  | arr vs => rw [redactObject,if_pos h]
  | obj kvs => rw [redactObject,if_pos h]
  | str s => rw [redactObject,if_pos h]
  | _ => rw [redactObject_scalar _ rfl (by simp),if_pos h]

theorem redactMembers_again {depth : ℕ} {kvs : List (JsString × JsVal)}
    (h : ∀ p ∈ kvs,redactObject (texts sha256) depth (redactObject (texts sha256) depth p.2) =
      redactObject (texts sha256) depth p.2) :
    redactMembers (texts sha256) depth (redactMembers (texts sha256) depth kvs) =
      redactMembers (texts sha256) depth kvs := by
  induction kvs with
  | nil => rw [redactMembers,redactMembers]
  | cons p kvs ih =>
      rw [List.forall_mem_cons] at h
      obtain ⟨k,v⟩ := p
      rw [redactMembers]
      split_ifs with hproto hsensitive
      · exact ih h.2
      · rw [redactMembers,if_neg hproto,if_pos hsensitive,ih h.2]
      · rw [redactMembers,if_neg hproto,if_neg hsensitive,ih h.2,h.1]

theorem redactObject_again_scalar {v : JsVal} (h : isObject v = false) (hstr : ∀ s,v ≠ .str s)
    {depth : ℕ} (hdepth : ¬ 8 < depth) :
    redactObject (texts sha256) depth (redactObject (texts sha256) depth v) =
      redactObject (texts sha256) depth v := by
  have hkept : redactObject (texts sha256) depth v = v := by
    rw [redactObject_scalar _ h hstr,if_neg hdepth]
  rw [hkept,hkept]

theorem redactObject_again (v : JsVal) (depth : ℕ) :
    redactObject (texts sha256) depth (redactObject (texts sha256) depth v) =
      redactObject (texts sha256) depth v := by
  by_cases hdepth : 8 < depth
  · rw [redactObject_deep _ hdepth,redactObject_deep _ hdepth]
  · induction v using JsVal.induct generalizing depth with
    | arr vs ih =>
        have hnext : ∀ v ∈ vs,redactObject (texts sha256) (depth+1)
            (redactObject (texts sha256) (depth+1) v) =
              redactObject (texts sha256) (depth+1) v := by
          intro v hv
          by_cases hdeep : 8 < depth+1
          · rw [redactObject_deep _ hdeep,redactObject_deep _ hdeep]
          · exact ih v hv (depth+1) hdeep
        rw [redactObject,if_neg hdepth,redactObject,if_neg hdepth,redactElements_eq,
          redactElements_eq,List.map_map]
        exact congrArg JsVal.arr (List.map_congr_left hnext)
    | obj kvs ih =>
        rw [redactObject,if_neg hdepth,redactObject,if_neg hdepth]
        refine congrArg JsVal.obj (redactMembers_again sha256 fun p hp => ?_)
        by_cases hdeep : 8 < depth+1
        · rw [redactObject_deep _ hdeep,redactObject_deep _ hdeep]
        · exact ih p hp (depth+1) hdeep
    | str s =>
        rw [redactObject,if_neg hdepth,redactObject,if_neg hdepth]
        exact congrArg JsVal.str (redactString_of_spotless (spotless_redactString s))
    | undefined => exact redactObject_again_scalar sha256 rfl (by simp) hdepth
    | null => exact redactObject_again_scalar sha256 rfl (by simp) hdepth
    | bool b => exact redactObject_again_scalar sha256 rfl (by simp) hdepth
    | num n => exact redactObject_again_scalar sha256 rfl (by simp) hdepth

/-- A redacted value has every other name and leaf of the value, nothing under a sensitive name or
below the eighth level, and no match of a token pattern anywhere; redacting it again changes
nothing. -/
theorem redaction_complete (v : JsVal) (h : js "__proto__" ∉ deepKeys v) :
    Redacted 0 v (redactObject (texts sha256) 0 v) ∧
      (∀ s ∈ deepTexts (redactObject (texts sha256) 0 v),Spotless s) ∧
      redactObject (texts sha256) 0 (redactObject (texts sha256) 0 v) =
        redactObject (texts sha256) 0 v :=
  have hredacted := redacted_redactObject sha256 v h 0
  ⟨hredacted,hredacted.spotless,redactObject_again sha256 v 0⟩

end

/-- A token in a text and a secret under its name. -/
def sampleValue : JsVal :=
  .obj [(js "note",.arr [.str (js "x sk-0123456789abcdef y")]),(js "apiKey",.str (js "k"))]

theorem sample_redacted :
    js "__proto__" ∉ deepKeys sampleValue ∧
      Redacted 0 sampleValue (redactObject (texts fun _ => []) 0 sampleValue) ∧
      ∀ s ∈ deepTexts (redactObject (texts fun _ => []) 0 sampleValue),Spotless s := by
  have hproto : js "__proto__" ∉ deepKeys sampleValue := by decide
  obtain ⟨hredacted,hspotless,-⟩ := redaction_complete (fun _ => []) sampleValue hproto
  exact ⟨hproto,hredacted,hspotless⟩

end AstraNull.Redaction

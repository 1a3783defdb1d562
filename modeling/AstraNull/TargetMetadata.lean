import Mathlib
import AstraNull.JsonText
import AstraNull.ScriptText
import AstraNull.ScriptValue

/-!
# Metadata and tags of a target

`contracts/targetManagement.mjs`: what a customer sends as metadata loses every reserved name at
every depth, is cut at five levels and at a hundred elements of an array. Tags are a list of
their own.
-/
namespace AstraNull.TargetMetadata
open JsonText ScriptText ScriptValue

/-- A refusal, or an exception of the language itself. -/
inductive Failure where
  | invalid (field message code : JsString)
  | typeError
deriving DecidableEq

def validationError (fieldName message : String) : Failure :=
  .invalid (js fieldName) (js message) (js "invalid_target")

def tagsError (message : JsString) : Failure :=
  .invalid (js "tags") message (js "invalid_target_tags")

def reservedMetadataKeys : List String :=
  ["tags","ownership","ownership_status","dns_ownership","verification","verification_state",
    "verify_state","verification_source_kind","verification_source_ref",
    "verification_transitioned_at","eligibility","eligibility_reason","source","target_source",
    "import_source","import_integration","provenance","trusted_provenance","managed_provenance",
    "declared_import","created_by","updated_by","deleted_by","audit","audit_log","declaration",
    "declaration_json","control_declarations"]

def reservedBeginnings : List String := ["ownership_","verification_","eligibility_","provenance_"]

def prototypeKeys : List String := ["__proto__","prototype","constructor"]

/-- `replace(/[\s.-]+/g,'_')`, inside such a run or not. -/
def joinRuns : Bool → JsString → JsString
  | _,[] => []
  | inRun,u::us =>
      if isWhiteSpace u.toNat || u = 46 || u = 45 then
        if inRun then joinRuns true us else 95::joinRuns true us
      else u::joinRuns false us

section
variable (lower : JsString → JsString)

def normalizedKey (value : JsString) : JsString := joinRuns false (lower (trim value))

def isReserved (key : JsString) : Bool :=
  let canonical := normalizedKey lower key
  reservedMetadataKeys.any (fun k => canonical == js k) ||
    reservedBeginnings.any (fun k => (js k).isPrefixOf canonical) ||
    prototypeKeys.any fun k => canonical == js k

def childPath (path key : JsString) : JsString := if path = [] then key else path++js "."++key

mutual

/-- The value that is kept, and the paths that were dropped. -/
def sanitizeMetadataValue (depth : ℕ) (path : JsString) : JsVal → JsVal × List JsString
  | .arr vs =>
      if 5 < depth then (.null,[])
      else
        let r := sanitizeElements (depth+1) path 0 vs
        (.arr r.1,r.2)
  | .obj kvs =>
      if 5 < depth then (.null,[])
      else
        let r := sanitizeMembers (depth+1) path kvs
        (.obj r.1,r.2)
  | v => if 5 < depth then (.null,[]) else (v,[])

/-- The first hundred elements. -/
def sanitizeElements (depth : ℕ) (path : JsString) (index : ℕ) :
    List JsVal → List JsVal × List JsString
  | [] => ([],[])
  | v::vs =>
      if index < 100 then
        let r := sanitizeMetadataValue depth (path++js "["++js (toString index)++js "]") v
        let rest := sanitizeElements depth path (index+1) vs
        (r.1::rest.1,r.2++rest.2)
      else ([],[])

def sanitizeMembers (depth : ℕ) (path : JsString) :
    List (JsString × JsVal) → List (JsString × JsVal) × List JsString
  | [] => ([],[])
  | (key,child)::kvs =>
      let rest := sanitizeMembers depth path kvs
      if isReserved lower key then (rest.1,childPath path key::rest.2)
      else
        let r := sanitizeMetadataValue depth (childPath path key) child
        ((key,r.1)::rest.1,r.2++rest.2)

end

/-- An object, as opposed to an array or null. -/
def isPlain : JsVal → Bool
  | .obj _ => true
  | _ => false

def sanitizeClientTargetMetadata (input : JsVal) : JsVal × List JsString :=
  if isPlain input then sanitizeMetadataValue lower 0 [] input else (.obj [],[])

/-- No reserved name, no long array, at most so many levels and null below them. -/
inductive Clean : ℕ → JsVal → Prop
  | cut : Clean 0 .null
  | scalar {room : ℕ} {v : JsVal} : isObject v = false → Clean (room+1) v
  | arr {room : ℕ} {vs : List JsVal} : vs.length ≤ 100 → (∀ v ∈ vs,Clean room v) →
      Clean (room+1) (.arr vs)
  | obj {room : ℕ} {kvs : List (JsString × JsVal)} : (∀ p ∈ kvs,isReserved lower p.1 = false) →
      (∀ p ∈ kvs,Clean room p.2) → Clean (room+1) (.obj kvs)

variable {lower}

theorem sanitize_scalar {v : JsVal} (h : isObject v = false) (depth : ℕ) (path : JsString) :
    sanitizeMetadataValue lower depth path v = if 5 < depth then (.null,[]) else (v,[]) := by
  cases v with
  | arr vs => simp [isObject] at h
  | obj kvs => simp [isObject] at h
  | _ => simp [sanitizeMetadataValue]

theorem clean_scalar {v : JsVal} (h : isObject v = false) (depth : ℕ) (path : JsString) :
    Clean lower (6-depth) (sanitizeMetadataValue lower depth path v).1 := by
  rw [sanitize_scalar h]
  split_ifs with hdeep
  · rw [Nat.sub_eq_zero_of_le hdeep]
    exact .cut
  · rw [show 6-depth = (5-depth)+1 by omega]
    exact .scalar h

theorem clean_elements {room depth : ℕ} {vs : List JsVal}
    (h : ∀ v ∈ vs,∀ path,Clean lower room (sanitizeMetadataValue lower depth path v).1)
    (path : JsString) (index : ℕ) (hindex : index ≤ 100) :
    ((sanitizeElements lower depth path index vs).1).length ≤ 100-index ∧
      ∀ v ∈ (sanitizeElements lower depth path index vs).1,Clean lower room v := by
  induction vs generalizing index with
  | nil => simp [sanitizeElements]
  | cons v vs ih =>
      rw [sanitizeElements]
      split_ifs with hlt
      · obtain ⟨hlength,hclean⟩ :=
          ih (fun v hv => h v (List.mem_cons_of_mem _ hv)) (index+1) hlt
        refine ⟨by simp only [List.length_cons]; omega,?_⟩
        exact List.forall_mem_cons.mpr ⟨h v List.mem_cons_self _,hclean⟩
      · simp

theorem clean_members {room depth : ℕ} {kvs : List (JsString × JsVal)}
    (h : ∀ p ∈ kvs,∀ path,Clean lower room (sanitizeMetadataValue lower depth path p.2).1)
    (path : JsString) :
    ∀ p ∈ (sanitizeMembers lower depth path kvs).1,
      isReserved lower p.1 = false ∧ Clean lower room p.2 := by
  induction kvs with
  | nil => simp [sanitizeMembers]
  | cons p kvs ih =>
      have hrest := ih fun p hp => h p (List.mem_cons_of_mem _ hp)
      obtain ⟨key,child⟩ := p
      rw [sanitizeMembers]
      dsimp only
      split_ifs with hreserved
      · exact hrest
      · refine List.forall_mem_cons.mpr ⟨⟨?_,?_⟩,hrest⟩
        · simpa using hreserved
        · exact h (key,child) List.mem_cons_self _

/-- A sanitised value has no reserved name left and at most six levels. -/
theorem clean_sanitize (v : JsVal) (depth : ℕ) (path : JsString) :
    Clean lower (6-depth) (sanitizeMetadataValue lower depth path v).1 := by
  induction v using JsVal.induct generalizing depth path with
  | arr vs ih =>
      rw [sanitizeMetadataValue]
      split_ifs with hdeep
      · rw [Nat.sub_eq_zero_of_le hdeep]
        exact .cut
      · have hroom : 6-depth = (6-(depth+1))+1 := by omega
        obtain ⟨hlength,hclean⟩ := clean_elements (fun v hv path => ih v hv (depth+1) path) path 0
          (Nat.zero_le _)
        rw [hroom]
        exact .arr hlength hclean
  | obj kvs ih =>
      rw [sanitizeMetadataValue]
      split_ifs with hdeep
      · rw [Nat.sub_eq_zero_of_le hdeep]
        exact .cut
      · have hroom : 6-depth = (6-(depth+1))+1 := by omega
        have hmembers := clean_members (fun p hp path => ih p hp (depth+1) path) path
        rw [hroom]
        exact .obj (fun p hp => (hmembers p hp).1) fun p hp => (hmembers p hp).2
  | undefined => exact clean_scalar rfl _ _
  | null => exact clean_scalar rfl _ _
  | bool b => exact clean_scalar rfl _ _
  | num n => exact clean_scalar rfl _ _
  | str s => exact clean_scalar rfl _ _

theorem elements_of_clean {depth : ℕ} {vs : List JsVal}
    (h : ∀ v ∈ vs,∀ path,sanitizeMetadataValue lower depth path v = (v,[])) (path : JsString)
    (index : ℕ) (hlength : vs.length+index ≤ 100) :
    sanitizeElements lower depth path index vs = (vs,[]) := by
  induction vs generalizing index with
  | nil => rw [sanitizeElements]
  | cons v vs ih =>
      rw [List.length_cons] at hlength
      rw [sanitizeElements,if_pos (by omega),h v List.mem_cons_self,
        ih (fun v hv => h v (List.mem_cons_of_mem _ hv)) (index+1) (by omega)]
      rfl

theorem members_of_clean {depth : ℕ} {kvs : List (JsString × JsVal)}
    (hkeys : ∀ p ∈ kvs,isReserved lower p.1 = false)
    (h : ∀ p ∈ kvs,∀ path,sanitizeMetadataValue lower depth path p.2 = (p.2,[]))
    (path : JsString) : sanitizeMembers lower depth path kvs = (kvs,[]) := by
  induction kvs with
  | nil => rw [sanitizeMembers]
  | cons p kvs ih =>
      have hrest := ih (fun p hp => hkeys p (List.mem_cons_of_mem _ hp))
        fun p hp => h p (List.mem_cons_of_mem _ hp)
      obtain ⟨key,child⟩ := p
      have hkey : isReserved lower key = false := hkeys (key,child) List.mem_cons_self
      have hchild := h (key,child) List.mem_cons_self
      rw [sanitizeMembers,hrest,hkey]
      dsimp only at hchild ⊢
      rw [if_neg Bool.false_ne_true,hchild]
      rfl

/-- Sanitising changes nothing in a clean value. -/
theorem sanitize_of_clean {v : JsVal} {room : ℕ} (h : Clean lower room v) (depth : ℕ)
    (path : JsString) (hroom : room = 6-depth) :
    sanitizeMetadataValue lower depth path v = (v,[]) := by
  induction h generalizing depth path with
  | cut => rw [sanitize_scalar rfl,if_pos (by omega)]
  | scalar hscalar => rw [sanitize_scalar hscalar,if_neg (by omega)]
  | arr hlength _ ih =>
      rw [sanitizeMetadataValue,if_neg (by omega),
        elements_of_clean (fun v hv path => ih v hv (depth+1) path (by omega)) path 0 hlength]
  | obj hkeys _ ih =>
      rw [sanitizeMetadataValue,if_neg (by omega),
        members_of_clean hkeys (fun p hp path => ih p hp (depth+1) path (by omega))]

mutual

/-- The names at every depth. -/
def deepKeys : JsVal → List JsString
  | .arr vs => deepKeysOf vs
  | .obj kvs => deepKeysIn kvs
  | _ => []

def deepKeysOf : List JsVal → List JsString
  | [] => []
  | v::vs => deepKeys v++deepKeysOf vs

def deepKeysIn : List (JsString × JsVal) → List JsString
  | [] => []
  | (k,v)::kvs => k::(deepKeys v++deepKeysIn kvs)

end

mutual

/-- The levels of arrays and objects. -/
def nesting : JsVal → ℕ
  | .arr vs => nestingOf vs+1
  | .obj kvs => nestingIn kvs+1
  | _ => 0

def nestingOf : List JsVal → ℕ
  | [] => 0
  | v::vs => max (nesting v) (nestingOf vs)

def nestingIn : List (JsString × JsVal) → ℕ
  | [] => 0
  | (_,v)::kvs => max (nesting v) (nestingIn kvs)

end

theorem deepKeys_scalar {v : JsVal} (h : isObject v = false) : deepKeys v = [] := by
  cases v <;> simp_all [isObject,deepKeys]

theorem nesting_scalar {v : JsVal} (h : isObject v = false) : nesting v = 0 := by
  cases v <;> simp_all [isObject,nesting]

theorem mem_deepKeysOf {vs : List JsVal} {key : JsString} :
    key ∈ deepKeysOf vs ↔ ∃ v ∈ vs,key ∈ deepKeys v := by
  induction vs with
  | nil => simp [deepKeysOf]
  | cons v vs ih => simp [deepKeysOf,ih]

theorem mem_deepKeysIn {kvs : List (JsString × JsVal)} {key : JsString} :
    key ∈ deepKeysIn kvs ↔ ∃ p ∈ kvs,key = p.1 ∨ key ∈ deepKeys p.2 := by
  induction kvs with
  | nil => simp [deepKeysIn]
  | cons p kvs ih =>
      obtain ⟨k,v⟩ := p
      simp [deepKeysIn,ih,or_assoc]

theorem nestingOf_le {vs : List JsVal} {n : ℕ} (h : ∀ v ∈ vs,nesting v ≤ n) :
    nestingOf vs ≤ n := by
  induction vs with
  | nil => simp [nestingOf]
  | cons v vs ih =>
      rw [List.forall_mem_cons] at h
      rw [nestingOf]
      exact max_le h.1 (ih h.2)

theorem nestingIn_le {kvs : List (JsString × JsVal)} {n : ℕ} (h : ∀ p ∈ kvs,nesting p.2 ≤ n) :
    nestingIn kvs ≤ n := by
  induction kvs with
  | nil => simp [nestingIn]
  | cons p kvs ih =>
      rw [List.forall_mem_cons] at h
      rw [nestingIn]
      exact max_le h.1 (ih h.2)

theorem Clean.deepKeys {v : JsVal} {room : ℕ} (h : Clean lower room v) :
    ∀ key ∈ deepKeys v,isReserved lower key = false := by
  induction h with
  | cut => simp [TargetMetadata.deepKeys]
  | scalar hscalar => simp [deepKeys_scalar hscalar]
  | arr _ _ ih =>
      intro key hkey
      rw [TargetMetadata.deepKeys,mem_deepKeysOf] at hkey
      obtain ⟨v,hv,hmem⟩ := hkey
      exact ih v hv key hmem
  | obj hkeys _ ih =>
      intro key hkey
      rw [TargetMetadata.deepKeys,mem_deepKeysIn] at hkey
      obtain ⟨p,hp,rfl | hmem⟩ := hkey
      · exact hkeys p hp
      · exact ih p hp key hmem

theorem Clean.nesting {v : JsVal} {room : ℕ} (h : Clean lower room v) : nesting v ≤ room := by
  induction h with
  | cut => simp [TargetMetadata.nesting]
  | scalar hscalar => simp [nesting_scalar hscalar]
  | arr _ _ ih =>
      rw [TargetMetadata.nesting]
      exact Nat.succ_le_succ (nestingOf_le ih)
  | obj _ _ ih =>
      rw [TargetMetadata.nesting]
      exact Nat.succ_le_succ (nestingIn_le ih)

theorem clean_clientMetadata (input : JsVal) :
    Clean lower 6 (sanitizeClientTargetMetadata lower input).1 := by
  rw [sanitizeClientTargetMetadata]
  split_ifs
  · exact clean_sanitize input 0 []
  · exact .obj (by simp) (by simp)

theorem isPlain_clientMetadata (input : JsVal) :
    isPlain (sanitizeClientTargetMetadata lower input).1 = true := by
  rw [sanitizeClientTargetMetadata]
  cases input with
  | obj kvs =>
      rw [if_pos (by rfl),sanitizeMetadataValue,if_neg (by omega)]
      rfl
  | _ => rfl

/-- What was sanitised once is kept as it is, and nothing of it is dropped. -/
theorem clientMetadata_again (input : JsVal) :
    sanitizeClientTargetMetadata lower (sanitizeClientTargetMetadata lower input).1 =
      ((sanitizeClientTargetMetadata lower input).1,[]) := by
  have hclean := @clean_clientMetadata lower input
  have hplain := @isPlain_clientMetadata lower input
  rw [sanitizeClientTargetMetadata,if_pos hplain]
  exact sanitize_of_clean hclean 0 [] rfl

end

section
variable (lower : JsString → JsString)

def maxTargetTags : ℕ := 16

def isTagStart (u : UInt16) : Bool :=
  (97 ≤ u.toNat && u.toNat ≤ 122) || (48 ≤ u.toNat && u.toNat ≤ 57)

def isTagUnit (u : UInt16) : Bool := isTagStart u || u = 58 || u = 95 || u = 46 || u = 45

/-- `/^[a-z0-9][a-z0-9:_.-]{0,47}$/` -/
def targetTagPattern : JsString → Bool
  | [] => false
  | u::us => isTagStart u && us.all isTagUnit && decide (us.length ≤ 47)

def invalidTag (tag : JsString) : Failure :=
  tagsError (js "Invalid target tag \""++tag++
    js "\": tags must match /^[a-z0-9][a-z0-9:_.-]\x7b0,47\x7d$/.")

/-- `String(raw)` of a string or a number. -/
def tagText : JsVal → Option JsString
  | .str s => some s
  | .num n => some (toStr (.num n))
  | _ => none

/-- The loop, with the tags so far. -/
def collectTags (tags : List JsString) : List JsVal → Except Failure (List JsString)
  | [] => .ok tags
  | raw::rest =>
      match tagText raw with
      | none => .error (tagsError (js "Each target tag must be a string."))
      | some text =>
          let tag := lower (trim text)
          if tag = [] then collectTags tags rest
          else if !targetTagPattern tag then .error (invalidTag tag)
          else if tag ∈ tags then collectTags tags rest
          else collectTags (tags++[tag]) rest

def normalizeTargetTags (input : JsVal) : Except Failure (List JsString) :=
  if nullish input then .ok []
  else match input with
    | .arr raws => do
        let tags ← collectTags lower [] raws
        if maxTargetTags < tags.length then
          throw (tagsError (js "At most 16 tags are allowed per target."))
        return tags
    | _ => .error (tagsError (js "Target tags must be provided as an array of strings."))

def stringsOf (vs : List JsVal) : List JsString :=
  vs.filterMap fun v => match v with
    | .str s => some s
    | _ => none

def targetTagsFromRecord (record : JsVal) : List JsString :=
  if !truthy record then []
  else
    let metadata := orElse (field record "metadata") (field record "metadata_json")
    match field metadata "tags" with
    | .arr stored => stringsOf stored
    | _ => stringsOf (elements (field record "tags"))

theorem trim_of_solid {s : JsString} (h : ∀ u ∈ s,isWhiteSpace u.toNat = false) : trim s = s := by
  have hdrop : ∀ l : JsString,(∀ u ∈ l,isWhiteSpace u.toNat = false) →
      l.dropWhile (fun u => isWhiteSpace u.toNat) = l := by
    intro l hl
    cases l with
    | nil => rfl
    | cons u l => rw [List.dropWhile_cons_of_neg (by simp [hl u List.mem_cons_self])]
  rw [trim,trimBy,hdrop s h,hdrop s.reverse (fun u hu => h u (List.mem_reverse.mp hu)),
    List.reverse_reverse]

/-- Distinct tags of the pattern. -/
def NormalTags (tags : List JsString) : Prop :=
  tags.Nodup ∧ ∀ tag ∈ tags,targetTagPattern tag = true

variable {lower}

theorem collectTags_normal {tags result : List JsString} {raws : List JsVal}
    (htags : NormalTags tags) (h : collectTags lower tags raws = .ok result) :
    NormalTags result := by
  induction raws generalizing tags with
  | nil =>
      rw [collectTags] at h
      cases h
      exact htags
  | cons raw raws ih =>
      rw [collectTags] at h
      split at h
      · cases h
      · dsimp only at h
        split_ifs at h with hempty hpattern hseen
        · exact ih htags h
        · exact ih htags h
        · refine ih ⟨?_,?_⟩ h
          · rw [List.nodup_append_comm]
            exact List.nodup_cons.mpr ⟨hseen,htags.1⟩
          · rw [List.forall_mem_append]
            refine ⟨htags.2,?_⟩
            simpa using hpattern

/-- Lower case leaves a text of small letters, digits and marks alone. -/
def KeepsPlain (lower : JsString → JsString) : Prop :=
  ∀ s : JsString,(∀ u ∈ s,u.toNat < 128 ∧ ¬ (65 ≤ u.toNat ∧ u.toNat ≤ 90)) → lower s = s

theorem isTagUnit_spec {u : UInt16} (h : isTagUnit u = true) :
    isWhiteSpace u.toNat = false ∧ u.toNat < 128 ∧ ¬ (65 ≤ u.toNat ∧ u.toNat ≤ 90) := by
  have hrange : (97 ≤ u.toNat ∧ u.toNat ≤ 122) ∨ (48 ≤ u.toNat ∧ u.toNat ≤ 57) ∨
      u.toNat = 58 ∨ u.toNat = 95 ∨ u.toNat = 46 ∨ u.toNat = 45 := by
    simp only [isTagUnit,isTagStart,Bool.or_eq_true,Bool.and_eq_true,decide_eq_true_eq] at h
    rcases h with ((((h | h) | rfl) | rfl) | rfl) | rfl
    · exact .inl h
    · exact .inr (.inl h)
    all_goals simp
  refine ⟨?_,by omega,by omega⟩
  simp only [isWhiteSpace,Bool.or_eq_false_iff,Bool.and_eq_false_iff,decide_eq_false_iff_not]
  omega

theorem tag_units {tag : JsString} (h : targetTagPattern tag = true) :
    tag ≠ [] ∧ ∀ u ∈ tag,isTagUnit u = true := by
  cases tag with
  | nil => cases h
  | cons u us =>
      simp only [targetTagPattern,Bool.and_eq_true,List.all_eq_true] at h
      refine ⟨by simp,List.forall_mem_cons.mpr ⟨?_,h.1.2⟩⟩
      simp [isTagUnit,h.1.1]

theorem collectTags_again (hlower : KeepsPlain lower) (tags rest : List JsString)
    (h : NormalTags (tags++rest)) :
    collectTags lower tags (rest.map .str) = .ok (tags++rest) := by
  induction rest generalizing tags with
  | nil => rw [List.map_nil,collectTags,List.append_nil]
  | cons tag rest ih =>
      have hpattern : targetTagPattern tag = true := h.2 tag (by simp)
      obtain ⟨hne,hunits⟩ := tag_units hpattern
      have htrim : trim tag = tag := trim_of_solid fun u hu => (isTagUnit_spec (hunits u hu)).1
      have hkeep : lower tag = tag := hlower tag fun u hu => (isTagUnit_spec (hunits u hu)).2
      have hnew : tag ∉ tags := fun hmem =>
        (List.nodup_append.mp h.1).2.2 tag hmem tag (by simp) rfl
      have hagain := ih (tags++[tag]) (by rwa [List.append_assoc,List.singleton_append])
      rw [List.append_assoc,List.singleton_append] at hagain
      rw [List.map_cons,collectTags,tagText]
      dsimp only
      rw [htrim,hkeep,if_neg hne,hpattern,if_neg (by decide),if_neg hnew]
      exact hagain

/-- Accepted tags are accepted again as they are. -/
theorem normalizeTargetTags_again (hlower : KeepsPlain lower) {input : JsVal}
    {tags : List JsString} (h : normalizeTargetTags lower input = .ok tags) :
    normalizeTargetTags lower (.arr (tags.map .str)) = .ok tags := by
  have hspec : NormalTags tags ∧ tags.length ≤ maxTargetTags := by
    unfold normalizeTargetTags at h
    split_ifs at h
    · cases h
      exact ⟨⟨List.nodup_nil,by simp⟩,Nat.zero_le _⟩
    · split at h
      · rename_i raws _
        cases hcollect : collectTags lower [] raws with
        | error e =>
            rw [hcollect] at h
            cases h
        | ok collected =>
            rw [hcollect] at h
            simp only [bind,Except.bind] at h
            split_ifs at h with hlength
            · cases h
              exact ⟨collectTags_normal ⟨List.nodup_nil,by simp⟩ hcollect,not_lt.mp hlength⟩
      · cases h
  have hcollect := collectTags_again hlower [] tags hspec.1
  rw [List.nil_append] at hcollect
  rw [normalizeTargetTags,if_neg (by simp [nullish])]
  dsimp only
  rw [hcollect]
  simp only [bind,Except.bind]
  rw [if_neg (not_lt.mpr hspec.2)]
  rfl

/-- Tags fail by a refusal only. -/
theorem collectTags_refused {tags : List JsString} {raws : List JsVal} :
    collectTags lower tags raws ≠ .error .typeError := by
  intro h
  induction raws generalizing tags with
  | nil =>
      rw [collectTags] at h
      cases h
  | cons raw raws ih =>
      rw [collectTags] at h
      split at h
      · cases h
      · dsimp only at h
        split_ifs at h
        · exact ih h
        · cases h
        · exact ih h
        · exact ih h

theorem normalizeTargetTags_refused {input : JsVal} :
    normalizeTargetTags lower input ≠ .error .typeError := by
  intro h
  unfold normalizeTargetTags at h
  split_ifs at h
  split at h
  · rename_i raws _
    cases hcollect : collectTags lower [] raws with
    | error e =>
        rw [hcollect] at h
        cases h
        exact collectTags_refused hcollect
    | ok collected =>
        rw [hcollect] at h
        simp only [bind,Except.bind] at h
        split_ifs at h
        · cases h
        · cases h
  · cases h

end

end AstraNull.TargetMetadata

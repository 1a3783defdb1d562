import Mathlib
import AstraNull.Custody

/-!
# Three encoders of signed values

`reviewedGrantJson` admits a value to a signed grant. On what it admits, the encoder that signs a
probe job, the one that hashes an audit entry and the one of a custody manifest print the same
text.
-/
namespace AstraNull.CanonicalEncoders
open JsonText CanonicalJson Custody

namespace Audit

mutual

def stableStringify : JsVal → List Char
  | .undefined => "null".toList
  | .arr vs => '['::(commaJoin (stableElements vs)++[']'])
  | .obj kvs =>
      '\x7b'::(commaJoin (((sortMembers (stableMembers kvs)).filter fun p => !p.2.1).map fun p =>
        memberText (p.1,p.2.2))++['\x7d'])
  | v => text v

def stableElements : List JsVal → List (List Char)
  | [] => []
  | v::vs => stableStringify v::stableElements vs

/-- Every member with its text and whether it is undefined. -/
def stableMembers : List (JsString × JsVal) → List (JsString × Bool × List Char)
  | [] => []
  | (k,v)::kvs => (k,v.isUndefined,stableStringify v)::stableMembers kvs

end

theorem stableElements_eq (vs : List JsVal) : stableElements vs = vs.map stableStringify := by
  induction vs with
  | nil => rfl
  | cons v vs ih => rw [stableElements,ih,List.map_cons]

theorem stableMembers_eq (kvs : List (JsString × JsVal)) :
    stableMembers kvs = kvs.map (Prod.map id fun v => (v.isUndefined,stableStringify v)) := by
  induction kvs with
  | nil => rfl
  | cons p kvs ih =>
      rw [stableMembers,ih]
      rfl

/-- The texts that are joined are those of the defined members. -/
theorem stableMembers_texts {kvs : List (JsString × JsVal)}
    (h : ∀ p ∈ kvs,stableStringify p.2 = text (canonical p.2)) :
    (((stableMembers kvs).filter fun p => !p.2.1).map fun p => memberText (p.1,p.2.2)) =
      (memberTexts (canonicalMembers kvs)).map memberText := by
  induction kvs with
  | nil => rfl
  | cons p kvs ih =>
      obtain ⟨k,v⟩ := p
      have htail := ih fun q hq => h q (List.mem_cons_of_mem _ hq)
      have hhead := h (k,v) List.mem_cons_self
      rw [stableMembers,canonicalMembers,memberTexts,isUndefined_canonical,List.filter_cons]
      cases v.isUndefined with
      | true => exact htail
      | false =>
          rw [Bool.not_false,if_pos rfl,if_neg Bool.false_ne_true,List.map_cons,List.map_cons,
            htail,hhead]

theorem stableStringify_eq (v : JsVal) : stableStringify v = text (canonical v) := by
  induction v using JsVal.induct with
  | undefined | null | bool | num | str => rfl
  | arr vs ih =>
      have h : vs.map stableStringify = vs.map (text ∘ canonical) := List.map_congr_left ih
      rw [stableStringify,canonical,text,stableElements_eq,elementTexts_eq,canonicalElements_eq,
        List.map_map,h]
  | obj kvs ih =>
      have h := @stableMembers_texts (sortMembers kvs) fun p hp => ih p (mem_sortMembers.mp hp)
      rw [stableMembers_eq,sortMembers_map,canonicalMembers_eq,sortMembers_map] at h
      rw [stableStringify,canonical,text,stableMembers_eq,canonicalMembers_eq,h]

end Audit

def maxNodes : ℕ := 20000

def maxDepth : ℕ := 64

/-- The count after one more node, nothing when a limit is passed. -/
def enter (depth nodes : ℕ) : Option ℕ :=
  if nodes+1 > maxNodes ∨ depth > maxDepth then none else some (nodes+1)

mutual

/-- The number of nodes visited, nothing when the value is refused. A tree holds no cycle. -/
def visit : Content → ℕ → ℕ → Option ℕ
  | .null,depth,nodes => enter depth nodes
  | .str _,depth,nodes => enter depth nodes
  | .bool _,depth,nodes => enter depth nodes
  | .num _,depth,nodes => enter depth nodes
  | .arr .none items,depth,nodes => (enter depth nodes).bind (visitElements items (depth+1))
  | .obj .none members,depth,nodes => (enter depth nodes).bind (visitMembers members (depth+1))
  | _,_,_ => none

def visitElements : List Content → ℕ → ℕ → Option ℕ
  | [],_,nodes => some nodes
  | c::items,depth,nodes => (visit c depth nodes).bind (visitElements items depth)

/-- The source looks at all names before it visits the values. -/
def visitMembers : List (JsString × Content) → ℕ → ℕ → Option ℕ
  | [],_,nodes => some nodes
  | (k,c)::members,depth,nodes =>
      if k = js "__proto__" then none
      else (visit c depth nodes).bind (visitMembers members depth)

end

def reviewedGrantJson (c : Content) : Bool := (visit c 0 0).isSome

/-- A value that is visited is the image of a JSON value. -/
def Visited (c : Content) : Prop :=
  ∀ depth nodes count,visit c depth nodes = some count → ∃ v,IsJson v ∧ embed v = c

theorem visited_elements {items : List Content} (h : ∀ c ∈ items,Visited c) :
    ∀ depth nodes count,visitElements items depth nodes = some count →
      ∃ vs : List JsVal,(∀ v ∈ vs,IsJson v) ∧ embedElements vs = items := by
  induction items with
  | nil => exact fun _ _ _ _ => ⟨[],by simp,rfl⟩
  | cons c items ih =>
      intro depth nodes count hcount
      obtain ⟨next,hnext,hrest⟩ := Option.bind_eq_some_iff.mp hcount
      obtain ⟨v,hv,rfl⟩ := h c List.mem_cons_self depth nodes next hnext
      obtain ⟨vs,hvs,rfl⟩ := ih (fun d hd => h d (List.mem_cons_of_mem _ hd)) depth next count hrest
      exact ⟨v::vs,List.forall_mem_cons.mpr ⟨hv,hvs⟩,rfl⟩

theorem visited_members {members : List (JsString × Content)} (h : ∀ p ∈ members,Visited p.2) :
    ∀ depth nodes count,visitMembers members depth nodes = some count →
      ∃ kvs : List (JsString × JsVal),(∀ p ∈ kvs,IsJson p.2) ∧ embedMembers kvs = members := by
  induction members with
  | nil => exact fun _ _ _ _ => ⟨[],by simp,rfl⟩
  | cons p members ih =>
      obtain ⟨k,c⟩ := p
      intro depth nodes count hcount
      rw [visitMembers] at hcount
      split_ifs at hcount
      obtain ⟨next,hnext,hrest⟩ := Option.bind_eq_some_iff.mp hcount
      obtain ⟨v,hv,rfl⟩ := h (k,c) List.mem_cons_self depth nodes next hnext
      obtain ⟨kvs,hkvs,rfl⟩ := ih (fun q hq => h q (List.mem_cons_of_mem _ hq)) depth next count
        hrest
      exact ⟨(k,v)::kvs,List.forall_mem_cons.mpr ⟨hv,hkvs⟩,rfl⟩

theorem names_embedMembers (kvs : List (JsString × JsVal)) :
    (embedMembers kvs).map Prod.fst = kvs.map Prod.fst := by
  rw [embedMembers_eq,List.map_map]
  rfl

theorem visited_of_wellFormed {c : Content} (hc : c.WellFormed) : Visited c := by
  induction hc with
  | null => exact fun _ _ _ _ => ⟨.null,.null,rfl⟩
  | bool b => exact fun _ _ _ _ => ⟨.bool b,.bool b,rfl⟩
  | num n => exact fun _ _ _ _ => ⟨.num n,.num n,rfl⟩
  | str s => exact fun _ _ _ _ => ⟨.str s,.str s,rfl⟩
  | undefined | negativeZero | infinity | nan | bigint | callable | host =>
      intro depth nodes count h
      cases h
  | arr extras _ ih =>
      intro depth nodes count h
      cases extras with
      | inert | toJSON => cases h
      | none =>
          obtain ⟨next,_,hrest⟩ := Option.bind_eq_some_iff.mp h
          obtain ⟨vs,hvs,rfl⟩ := visited_elements ih _ _ _ hrest
          exact ⟨.arr vs,.arr hvs,rfl⟩
  | obj extras hnd _ ih =>
      intro depth nodes count h
      cases extras with
      | inert | toJSON => cases h
      | none =>
          obtain ⟨next,_,hrest⟩ := Option.bind_eq_some_iff.mp h
          obtain ⟨kvs,hkvs,rfl⟩ := visited_members ih _ _ _ hrest
          rw [names_embedMembers] at hnd
          exact ⟨.obj kvs,.obj hnd hkvs,rfl⟩

/-- An admitted value is a JSON value. -/
theorem isJson_of_reviewedGrantJson {c : Content} (hc : c.WellFormed)
    (h : reviewedGrantJson c = true) : ∃ v,IsJson v ∧ embed v = c := by
  obtain ⟨count,hcount⟩ := Option.isSome_iff_exists.mp h
  exact visited_of_wellFormed hc 0 0 count hcount

/-- A visit at this depth succeeds and counts at most `cost` nodes. -/
def Visits (v : JsVal) (depth cost : ℕ) : Prop :=
  ∀ nodes,nodes+cost ≤ maxNodes →
    ∃ count,visit (embed v) depth nodes = some count ∧ count ≤ nodes+cost

section
variable {v : JsVal} {depth cost : ℕ}

theorem enter_within {nodes : ℕ} (hd : depth ≤ maxDepth) (hn : nodes+1 ≤ maxNodes) :
    enter depth nodes = some (nodes+1) := if_neg (by omega)

theorem visits_str (s : JsString) (hd : depth ≤ maxDepth) : Visits (.str s) depth 1 :=
  fun nodes hn => ⟨nodes+1,enter_within hd hn,le_refl _⟩

theorem visits_num (n : NumberText.Number) (hd : depth ≤ maxDepth) : Visits (.num n) depth 1 :=
  fun nodes hn => ⟨nodes+1,enter_within hd hn,le_refl _⟩

theorem Visits.mono {cost' : ℕ} (h : Visits v depth cost) (hc : cost ≤ cost') :
    Visits v depth cost' := by
  intro nodes hn
  obtain ⟨count,hv,hle⟩ := h nodes (by omega)
  exact ⟨count,hv,by omega⟩

theorem visits_members {kvs : List (JsString × JsVal)}
    (h : ∀ p ∈ kvs,p.1 ≠ js "__proto__" ∧ Visits p.2 depth cost) :
    ∀ nodes,nodes+kvs.length*cost ≤ maxNodes →
      ∃ count,visitMembers (embedMembers kvs) depth nodes = some count ∧
        count ≤ nodes+kvs.length*cost := by
  induction kvs with
  | nil => exact fun nodes _ => ⟨nodes,rfl,by simp⟩
  | cons p kvs ih =>
      obtain ⟨k,v⟩ := p
      intro nodes hn
      rw [List.length_cons,Nat.succ_mul] at hn ⊢
      obtain ⟨hk,hv⟩ := h (k,v) List.mem_cons_self
      obtain ⟨count,hcount,hle⟩ := hv nodes (by omega)
      obtain ⟨total,htotal,hle'⟩ := ih (fun q hq => h q (List.mem_cons_of_mem _ hq)) count
        (by omega)
      refine ⟨total,?_,by omega⟩
      rw [embedMembers,visitMembers,if_neg hk,hcount]
      exact htotal

theorem visits_obj {kvs : List (JsString × JsVal)} (hd : depth ≤ maxDepth)
    (h : ∀ p ∈ kvs,p.1 ≠ js "__proto__" ∧ Visits p.2 (depth+1) cost) :
    Visits (.obj kvs) depth (1+kvs.length*cost) := by
  intro nodes hn
  obtain ⟨count,hcount,hle⟩ := visits_members h (nodes+1) (by omega)
  refine ⟨count,?_,by omega⟩
  rw [embed,visit,enter_within hd (by omega)]
  exact hcount

/-- A value whose visit stays within the limits is admitted. -/
theorem Visits.admitted (h : Visits v 0 cost) (hc : cost ≤ maxNodes) :
    reviewedGrantJson (embed v) = true := by
  obtain ⟨count,hcount,-⟩ := h 0 (by omega)
  rw [reviewedGrantJson,hcount]
  rfl

end

theorem canonicalJsonStringify_embed {v : JsVal} (h : IsJson v) :
    canonicalJsonStringify (embed v) = some (text (canonical v)) := by
  rw [canonicalJsonStringify_eq (wellFormed_embed h.wellFormed),accepted_embed,kept,reading_embed,
    clean_of_isJson h]
  rfl

/-- The three encoders agree on every admitted value. -/
theorem encoders_agree {c : Content} (hc : c.WellFormed) (h : reviewedGrantJson c = true) :
    ∃ v,embed v = c ∧
      canonicalJsonStringify c = some (ProbeJobSigning.stableStringify v) ∧
      Audit.stableStringify v = ProbeJobSigning.stableStringify v := by
  obtain ⟨v,hv,rfl⟩ := isJson_of_reviewedGrantJson hc h
  refine ⟨v,rfl,?_,?_⟩
  · rw [canonicalJsonStringify_embed hv,ProbeJobSigning.stableStringify_eq]
  · rw [Audit.stableStringify_eq,ProbeJobSigning.stableStringify_eq]

/-- A job payload with its members out of order. -/
def samplePayload : Content :=
  .obj .none [(js "target",.obj .none [(js "value",.str (js "a.example.test")),
    (js "id",.str (js "t_1"))]),(js "constraints",.arr .none [.bool true,.null])]

theorem wellFormed_samplePayload : samplePayload.WellFormed := by
  have houter : [js "target",js "constraints"].Nodup := by decide
  have hinner : [js "value",js "id"].Nodup := by decide
  refine .obj _ houter ?_
  simp only [List.forall_mem_cons]
  refine ⟨.obj _ hinner ?_,.arr _ ?_,by simp⟩
  · simp only [List.forall_mem_cons]
    exact ⟨.str _,.str _,by simp⟩
  · simp only [List.forall_mem_cons]
    exact ⟨.bool true,.null,by simp⟩

theorem sample_encoders_agree :
    ∃ v,embed v = samplePayload ∧
      canonicalJsonStringify samplePayload = some (ProbeJobSigning.stableStringify v) ∧
      Audit.stableStringify v = ProbeJobSigning.stableStringify v :=
  encoders_agree wellFormed_samplePayload (by decide)

end AstraNull.CanonicalEncoders

import Mathlib
import AstraNull.ScriptValue

/-!
# Objects of the language

Reading, writing and deleting properties of an object, with what each leaves of the
others. A run of conditional writes is a list of steps, so that a property none of
them names keeps its value.
-/
namespace AstraNull.ScriptObject
open JsonText ScriptText ScriptValue

/-- The members a spread copies. The indices of a string or an array are left out. -/
def members : JsVal → List (JsString × JsVal)
  | .obj kvs => kvs
  | _ => []

/-- The spread `{...v}`. Of a string or an array it is empty here: their indices are left out. -/
def spread (v : JsVal) : JsVal := .obj (members v)

/-- `v[name] = x`. -/
def put (v : JsVal) (name : String) (x : JsVal) : JsVal :=
  .obj (setMember (members v) (js name) x)

/-- `delete v[name]`. -/
def remove (v : JsVal) (name : String) : JsVal :=
  .obj ((members v).filter fun p => p.1 ≠ js name)

/-- The names of the own properties. -/
def names (v : JsVal) : List JsString := (members v).map Prod.fst

/-- `Object.assign(target, source)`: a property the target has keeps its place. -/
def assigned (target source : JsVal) : JsVal :=
  .obj ((members target).map (fun p => if p.1 ∈ names source then (p.1,source.get p.1) else p)++
    (members source).filter fun p => p.1 ∉ names target)

/-- `Object.assign({}, ...sources)`. -/
def merged (sources : List JsVal) : JsVal := sources.foldl assigned (.obj [])

/-- Conditional writes in order. -/
def applySteps (steps : List (String × Bool × JsVal)) (v : JsVal) : JsVal :=
  steps.foldl (fun v step => if step.2.1 then put v step.1 step.2.2 else v) v

mutual

/-- `isDeepStrictEqual(v,w)`: arrays element by element, objects by their members in any order. -/
def isDeepStrictEqual : JsVal → JsVal → Bool
  | .arr vs,.arr ws => sameElements vs ws
  | .obj kvs,.obj lws => kvs.length = lws.length && sameMembers kvs lws
  | v,w => strictEq v w

def sameElements : List JsVal → List JsVal → Bool
  | [],[] => true
  | v::vs,w::ws => isDeepStrictEqual v w && sameElements vs ws
  | _,_ => false

/-- Every member is one of the other object. -/
def sameMembers : List (JsString × JsVal) → List (JsString × JsVal) → Bool
  | [],_ => true
  | (k,v)::kvs,lws =>
      (match lws.find? fun p => p.1 = k with
        | some p => isDeepStrictEqual v p.2
        | none => false) && sameMembers kvs lws

end

theorem sameMembers_iff {kvs lws : List (JsString × JsVal)} : sameMembers kvs lws = true ↔
    ∀ p ∈ kvs,∃ q,(lws.find? fun q => q.1 = p.1) = some q ∧ isDeepStrictEqual p.2 q.2 = true := by
  induction kvs with
  | nil => simp [sameMembers]
  | cons p kvs ih =>
      obtain ⟨k,v⟩ := p
      rw [sameMembers,Bool.and_eq_true,ih,List.forall_mem_cons]
      refine and_congr_left fun _ => ?_
      cases lws.find? fun q => q.1 = k with
      | none => simp
      | some q => simp

theorem eq_of_strictEq {v w : JsVal} (h : strictEq v w = true) : v = w := by
  cases v <;> cases w <;> simp_all [strictEq]

theorem isDeepStrictEqual_arr {vs : List JsVal} {w : JsVal}
    (h : isDeepStrictEqual (.arr vs) w = true) : ∃ ws,w = .arr ws ∧ sameElements vs ws = true := by
  cases w <;> simp_all [isDeepStrictEqual,strictEq]

theorem isDeepStrictEqual_obj {kvs : List (JsString × JsVal)} {w : JsVal}
    (h : isDeepStrictEqual (.obj kvs) w = true) :
    ∃ lws,w = .obj lws ∧ kvs.length = lws.length ∧ sameMembers kvs lws = true := by
  cases w <;> simp_all [isDeepStrictEqual,strictEq]

theorem sameElements_trans {us : List JsVal} (hus : ∀ u ∈ us,∀ v w,isDeepStrictEqual u v = true →
    isDeepStrictEqual v w = true → isDeepStrictEqual u w = true) {vs ws : List JsVal}
    (huv : sameElements us vs = true) (hvw : sameElements vs ws = true) :
    sameElements us ws = true := by
  induction us generalizing vs ws with
  | nil =>
      cases vs <;> simp_all [sameElements]
  | cons u us ih =>
      cases vs with
      | nil => simp [sameElements] at huv
      | cons v vs =>
          cases ws with
          | nil => simp [sameElements] at hvw
          | cons w ws =>
              simp only [sameElements,Bool.and_eq_true] at huv hvw ⊢
              refine ⟨hus u List.mem_cons_self v w huv.1 hvw.1,?_⟩
              exact ih (fun u' hu' => hus u' (List.mem_cons_of_mem u hu')) huv.2 hvw.2

theorem isDeepStrictEqual_trans (u : JsVal) : ∀ v w,isDeepStrictEqual u v = true →
    isDeepStrictEqual v w = true → isDeepStrictEqual u w = true := by
  induction u using JsVal.induct with
  | arr us ih =>
      intro v w huv hvw
      obtain ⟨vs,rfl,hvs⟩ := isDeepStrictEqual_arr huv
      obtain ⟨ws,rfl,hws⟩ := isDeepStrictEqual_arr hvw
      rw [isDeepStrictEqual]
      exact sameElements_trans ih hvs hws
  | obj kvs ih =>
      intro v w huv hvw
      obtain ⟨lws,rfl,hlen,hlws⟩ := isDeepStrictEqual_obj huv
      obtain ⟨mxs,rfl,hlen',hmxs⟩ := isDeepStrictEqual_obj hvw
      rw [isDeepStrictEqual,Bool.and_eq_true,decide_eq_true_iff]
      refine ⟨hlen.trans hlen',sameMembers_iff.mpr fun p hp => ?_⟩
      obtain ⟨q,hq,hpq⟩ := sameMembers_iff.mp hlws p hp
      obtain ⟨r,hr,hqr⟩ := sameMembers_iff.mp hmxs q (List.mem_of_find?_eq_some hq)
      have hkey : q.1 = p.1 := by simpa using List.find?_some hq
      exact ⟨r,hkey ▸ hr,ih p hp _ _ hpq hqr⟩
  | undefined | null | bool _ | num _ | str _ =>
      intro v w huv hvw
      rw [eq_of_strictEq huv]
      exact hvw

section Reads
variable {v x : JsVal} {name other : String}

theorem field_obj (kvs : List (JsString × JsVal)) : field (.obj kvs) name =
    ((kvs.find? fun p => p.1 = js name).map Prod.snd).getD .undefined := rfl

theorem field_eq_members (v : JsVal) : field v name = field (.obj (members v)) name := by
  cases v <;> rfl

@[simp] theorem field_spread (v : JsVal) : field (spread v) name = field v name :=
  (field_eq_members v).symm

theorem find_setMember_self (kvs : List (JsString × JsVal)) (k : JsString) (x : JsVal) :
    (setMember kvs k x).find? (fun p => p.1 = k) = some (k,x) := by
  unfold setMember
  split_ifs with h
  · induction kvs with
    | nil => simp at h
    | cons p kvs ih =>
        by_cases hp : p.1 = k
        · simp [hp]
        · have h' : k ∈ kvs.map Prod.fst := by
            rcases List.mem_cons.mp h with h | h
            · exact absurd h.symm hp
            · exact h
          rw [List.map_cons,if_neg hp,List.find?_cons_of_neg (by simpa using hp),ih h']
  · rw [List.find?_append,List.find?_eq_none.mpr]
    · simp
    · intro p hp hk
      exact h (List.mem_map.mpr ⟨p,hp,by simpa using hk⟩)

theorem find_setMember_other (kvs : List (JsString × JsVal)) {k l : JsString} (hkl : l ≠ k)
    (x : JsVal) : (setMember kvs k x).find? (fun p => p.1 = l) = kvs.find? fun p => p.1 = l := by
  unfold setMember
  split_ifs with h
  · clear h
    induction kvs with
    | nil => rfl
    | cons p kvs ih =>
        rw [List.map_cons]
        by_cases hp : p.1 = k
        · rw [if_pos hp,List.find?_cons_of_neg (by simpa using hkl.symm),
            List.find?_cons_of_neg (by simpa [hp] using hkl.symm),ih]
        · rw [if_neg hp,List.find?_cons,List.find?_cons,ih]
  · rw [List.find?_append]
    simp [hkl.symm]

@[simp] theorem field_put_self (v : JsVal) (name : String) (x : JsVal) :
    field (put v name x) name = x := by
  rw [put,field_obj,find_setMember_self]
  rfl

theorem field_put_other (h : js other ≠ js name) : field (put v name x) other = field v other := by
  rw [put,field_obj,find_setMember_other _ h,field_eq_members v,field_obj]

@[simp] theorem field_remove_self (v : JsVal) (name : String) :
    field (remove v name) name = .undefined := by
  rw [remove,field_obj,List.find?_eq_none.mpr]
  · rfl
  · intro p hp hk
    exact (by simpa using (List.mem_filter.mp hp).2 : p.1 ≠ js name) (by simpa using hk)

theorem field_remove_other (h : js other ≠ js name) :
    field (remove v name) other = field v other := by
  have hfind : ∀ kvs : List (JsString × JsVal),
      (kvs.filter fun p => p.1 ≠ js name).find? (fun p => p.1 = js other) =
        kvs.find? fun p => p.1 = js other := by
    intro kvs
    induction kvs with
    | nil => rfl
    | cons p kvs ih =>
        by_cases hp : p.1 = js name
        · rw [List.filter_cons_of_neg (by simpa using hp),ih,
            List.find?_cons_of_neg (by simpa [hp] using h.symm)]
        · rw [List.filter_cons_of_pos (by simpa using hp),List.find?_cons,List.find?_cons,ih]
  rw [remove,field_obj,hfind,field_eq_members v,field_obj]

/-- Writes under other names keep a property. -/
theorem field_applySteps {steps : List (String × Bool × JsVal)}
    (h : ∀ step ∈ steps,js other ≠ js step.1) : field (applySteps steps v) other = field v other := by
  induction steps generalizing v with
  | nil => rfl
  | cons step steps ih =>
      rw [applySteps,List.foldl_cons]
      change field (applySteps steps _) other = _
      rw [ih fun s hs => h s (List.mem_cons_of_mem _ hs)]
      split_ifs
      · exact field_put_other (h step List.mem_cons_self)
      · rfl

/-- A present property is an own property. -/
theorem has_of_field (h : (field v name).isUndefined = false) : has v name = true := by
  cases v with
  | obj kvs =>
      rw [field_obj] at h
      cases hfind : kvs.find? fun p => p.1 = js name with
      | none =>
          rw [hfind] at h
          cases h
      | some p =>
          have hp := List.find?_some hfind
          exact List.any_eq_true.mpr ⟨p,List.mem_of_find?_eq_some hfind,hp⟩
  | _ => cases h

end Reads

section Merged
variable {v : JsVal} {name : String} {sources : List JsVal}

theorem has_iff : has v name = true ↔ js name ∈ names v := by
  cases v with
  | obj kvs => simp [has,names,members]
  | _ => simp [has,names,members]

theorem field_of_not_has (h : has v name = false) : field v name = .undefined := by
  cases hv : field v name with
  | undefined => rfl
  | _ =>
      have hhas : has v name = true := has_of_field (by rw [hv]; rfl)
      rw [h] at hhas
      cases hhas

theorem find_assigned (target source : JsVal) :
    ((members target).map fun p => if p.1 ∈ names source then (p.1,source.get p.1) else p).find?
        (fun p => p.1 = js name) =
      ((members target).find? fun p => p.1 = js name).map
        fun p => if p.1 ∈ names source then (p.1,source.get p.1) else p := by
  rw [List.find?_map]
  congr 2
  funext p
  by_cases hp : p.1 ∈ names source <;> simp [hp]

theorem field_assigned (target source : JsVal) : field (assigned target source) name =
    if has source name then field source name else field target name := by
  rw [assigned,field_obj,List.find?_append,find_assigned]
  cases hfind : (members target).find? fun p => p.1 = js name with
  | some p =>
      have hp : p.1 = js name := by simpa using List.find?_some hfind
      have htarget : field target name = p.2 := by
        rw [field_eq_members,field_obj,hfind]
        rfl
      by_cases hs : has source name
      · simp [hs,hp,has_iff.mp hs,field]
      · simp [hs,hp,htarget,mt has_iff.mpr hs]
  | none =>
      have hnot : js name ∉ names target := by
        intro hmem
        obtain ⟨p,hp,hk⟩ := List.mem_map.mp hmem
        exact List.find?_eq_none.mp hfind p hp (by simp [hk])
      have hkept : ((members source).filter fun p => p.1 ∉ names target).find?
          (fun p => p.1 = js name) = (members source).find? fun p => p.1 = js name := by
        rw [List.find?_filter]
        congr 1
        funext p
        by_cases hp : p.1 = js name
        · simp [hp,hnot]
        · simp [hp]
      have htarget : field target name = .undefined := by
        rw [field_eq_members,field_obj,hfind]
        rfl
      rw [Option.map_none,Option.none_or,hkept,← field_obj,← field_eq_members,htarget]
      split_ifs with hs
      · rfl
      · exact field_of_not_has (by simpa using hs)

/-- A merged property is that of one of the sources, or is absent. -/
theorem field_merged_mem (sources : List JsVal) (name : String) :
    field (merged sources) name = .undefined ∨
      ∃ s ∈ sources,field (merged sources) name = field s name := by
  induction sources using List.reverseRecOn with
  | nil => exact .inl rfl
  | append_singleton sources s ih =>
      rw [merged,List.foldl_append,List.foldl_cons,List.foldl_nil,field_assigned]
      split_ifs
      · exact .inr ⟨s,by simp,rfl⟩
      · rcases ih with h | ⟨t,ht,h⟩
        · exact .inl h
        · exact .inr ⟨t,List.mem_append_left _ ht,h⟩

/-- The last source that has a property gives it. -/
theorem field_merged_last {before after : List JsVal} (hv : has v name = true)
    (hafter : ∀ s ∈ after,has s name = false) :
    field (merged (before++v::after)) name = field v name := by
  induction after using List.reverseRecOn with
  | nil => rw [merged,List.foldl_append,List.foldl_cons,List.foldl_nil,field_assigned,if_pos hv]
  | append_singleton after s ih =>
      have hs : ¬ has s name = true := by simp [hafter s (by simp)]
      rw [← List.cons_append,← List.append_assoc,merged,List.foldl_append,List.foldl_cons,
        List.foldl_nil,field_assigned,if_neg hs]
      exact ih fun t ht => hafter t (List.mem_append_left _ ht)

/-- A source with a faulty property is followed by one that sets the property again. -/
def Shadowed (faulty : JsVal → Prop) (name : String) (sources : List JsVal) : Prop :=
  ∃ before v after,sources = before++v::after ∧ faulty (field v name) ∧
    ∃ s ∈ after,has s name = true

theorem not_shadowed_singleton {faulty : JsVal → Prop} : ¬ Shadowed faulty name [v] := by
  rintro ⟨before,w,after,heq,_,s,hs,_⟩
  have hlen := congrArg List.length heq
  simp only [List.length_append,List.length_cons,List.length_nil] at hlen
  have := List.length_pos_of_mem hs
  omega

/-- No source is faulty when the merged property is not and no faulty one is shadowed. -/
theorem sources_sound_iff {faulty : JsVal → Prop} (habsent : ¬ faulty .undefined)
    (name : String) (sources : List JsVal) :
    (∀ s ∈ sources,¬ faulty (field s name)) ↔
      ¬ faulty (field (merged sources) name) ∧ ¬ Shadowed faulty name sources := by
  constructor
  · intro hsound
    constructor
    · rcases field_merged_mem sources name with h | ⟨s,hs,h⟩
      · rwa [h]
      · rw [h]
        exact hsound s hs
    · rintro ⟨before,v,after,rfl,hv,_⟩
      exact hsound v (by simp) hv
  · rintro ⟨hmerged,hshadow⟩ v hv hfaulty
    obtain ⟨before,after,rfl⟩ := List.append_of_mem hv
    have hafter : ∀ s ∈ after,has s name = false := by
      intro s hs
      by_contra hhas
      exact hshadow ⟨before,v,after,rfl,hfaulty,s,hs,by simpa using hhas⟩
    have hhas : has v name = true := by
      by_contra hnot
      rw [field_of_not_has (by simpa using hnot)] at hfaulty
      exact habsent hfaulty
    rw [field_merged_last hhas hafter] at hmerged
    exact hmerged hfaulty

end Merged

section Shape
variable {v x : JsVal} {name : String}

/-- A list of members with distinct names and well-formed values. -/
def GoodMembers (kvs : List (JsString × JsVal)) : Prop :=
  (kvs.map Prod.fst).Nodup ∧ ∀ p ∈ kvs,WellFormed p.2

theorem goodMembers_members (h : WellFormed v) : GoodMembers (members v) := by
  cases h with
  | obj hnd hm => exact ⟨hnd,hm⟩
  | _ => exact ⟨List.nodup_nil,by simp [members]⟩

theorem GoodMembers.setMember {kvs : List (JsString × JsVal)} (h : GoodMembers kvs) (k : JsString)
    (hx : WellFormed x) : GoodMembers (setMember kvs k x) := by
  rw [JsonText.setMember]
  split_ifs with hk
  · constructor
    · have hnames : (kvs.map fun p => if p.1 = k then (k,x) else p).map Prod.fst =
          kvs.map Prod.fst := by
        rw [List.map_map]
        apply List.map_congr_left
        intro p _
        by_cases hp : p.1 = k <;> simp [hp]
      rw [hnames]
      exact h.1
    · intro p hp
      obtain ⟨q,hq,rfl⟩ := List.mem_map.mp hp
      split_ifs
      · exact hx
      · exact h.2 q hq
  · constructor
    · rw [List.map_append,List.map_singleton]
      exact List.nodup_append.mpr ⟨h.1,List.nodup_singleton _,by
        rintro a ha b hb rfl
        have hb : a = k := List.mem_singleton.mp hb
        exact hk (hb ▸ ha)⟩
    · intro p hp
      rcases List.mem_append.mp hp with hp | hp
      · exact h.2 p hp
      · rw [List.mem_singleton.mp hp]
        exact hx

theorem GoodMembers.wellFormed {kvs : List (JsString × JsVal)} (h : GoodMembers kvs) :
    WellFormed (.obj kvs) := .obj h.1 h.2

theorem wellFormed_put (h : WellFormed v) (hx : WellFormed x) : WellFormed (put v name x) :=
  ((goodMembers_members h).setMember _ hx).wellFormed

theorem wellFormed_remove (h : WellFormed v) : WellFormed (remove v name) := by
  have hm := goodMembers_members h
  exact .obj (hm.1.sublist (List.filter_sublist.map _)) fun p hp => hm.2 p (List.mem_of_mem_filter hp)

/-- A deleted property does not depend on what was written to it. -/
theorem remove_put_self (v : JsVal) (name : String) (x : JsVal) :
    remove (put v name x) name = remove v name := by
  have hset : ∀ kvs : List (JsString × JsVal),
      (setMember kvs (js name) x).filter (fun p => p.1 ≠ js name) =
        kvs.filter fun p => p.1 ≠ js name := by
    intro kvs
    rw [JsonText.setMember]
    split_ifs with hk
    · clear hk
      induction kvs with
      | nil => rfl
      | cons p kvs ih =>
          by_cases hp : p.1 = js name
          · simpa [hp] using ih
          · simpa [hp] using ih
    · simp
  rw [put,remove,members,hset,remove]

end Shape

section Loops
variable {ε : Type} {key : String} {keys : List String} {v w : JsVal}

theorem field_foldlM_other {f : JsVal → String → Except ε JsVal}
    (hother : ∀ k ∈ keys,∀ v w,f v k = .ok w → field w key = field v key)
    (h : keys.foldlM f v = .ok w) : field w key = field v key := by
  induction keys generalizing v with
  | nil =>
      cases h
      rfl
  | cons k keys ih =>
      rw [List.foldlM_cons] at h
      cases hf : f v k with
      | error e =>
          rw [hf] at h
          cases h
      | ok v' =>
          rw [hf] at h
          rw [ih (fun l hl => hother l (List.mem_cons_of_mem _ hl)) h,
            hother k List.mem_cons_self v v' hf]

theorem field_foldlM {f : JsVal → String → Except ε JsVal} (hnodup : keys.Nodup)
    (hmem : key ∈ keys)
    (hother : ∀ k ∈ keys,k ≠ key → ∀ v w,f v k = .ok w → field w key = field v key)
    (h : keys.foldlM f v = .ok w) :
    ∃ v' w',field v' key = field v key ∧ f v' key = .ok w' ∧ field w key = field w' key := by
  obtain ⟨before,after,rfl⟩ := List.append_of_mem hmem
  have hbefore : key ∉ before := fun hm =>
    (List.disjoint_of_nodup_append hnodup) hm List.mem_cons_self
  have hafter : key ∉ after := (List.nodup_cons.mp (List.nodup_append.mp hnodup).2.1).1
  rw [List.foldlM_append] at h
  cases h1 : before.foldlM f v with
  | error e =>
      rw [h1] at h
      cases h
  | ok v' =>
      rw [h1] at h
      change (key::after).foldlM f v' = .ok w at h
      rw [List.foldlM_cons] at h
      cases h2 : f v' key with
      | error e =>
          rw [h2] at h
          cases h
      | ok w' =>
          rw [h2] at h
          refine ⟨v',w',?_,h2,?_⟩
          · refine field_foldlM_other (fun k hk => hother k (by simp [hk]) ?_) h1
            exact fun heq => hbefore (heq ▸ hk)
          · refine field_foldlM_other (fun k hk => hother k (by simp [hk]) ?_) h
            exact fun heq => hafter (heq ▸ hk)

theorem field_foldl_other {f : JsVal → String → JsVal}
    (hother : ∀ k ∈ keys,∀ v,field (f v k) key = field v key) (v : JsVal) :
    field (keys.foldl f v) key = field v key := by
  induction keys generalizing v with
  | nil => rfl
  | cons k keys ih =>
      rw [List.foldl_cons,ih (fun l hl => hother l (List.mem_cons_of_mem _ hl)),
        hother k List.mem_cons_self]

theorem field_foldl {f : JsVal → String → JsVal} (hnodup : keys.Nodup) (hmem : key ∈ keys)
    (hother : ∀ k ∈ keys,k ≠ key → ∀ v,field (f v k) key = field v key) (v : JsVal) :
    ∃ v',field v' key = field v key ∧ field (keys.foldl f v) key = field (f v' key) key := by
  have h : keys.foldlM (fun v k => (.ok (f v k) : Except Unit JsVal)) v =
      .ok (keys.foldl f v) := List.foldlM_pure
  obtain ⟨v',w',hv,hf,hw⟩ := field_foldlM hnodup hmem (by
    intro k hk hne v w hf
    cases hf
    exact hother k hk hne v) h
  cases hf
  exact ⟨v',hv,hw⟩

end Loops

end AstraNull.ScriptObject

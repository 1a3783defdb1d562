import Mathlib
import AstraNull.ScriptObject

/-!
# Deep equality of values

`isDeepStrictEqual` is an equivalence of values whose objects name no member twice, and what is
read from equal values (members, texts, comparisons with other values) is the same.
-/
namespace AstraNull.DeepEquality
open JsonText ScriptValue ScriptObject

theorem sameElements_iff {vs ws : List JsVal} : sameElements vs ws = true ↔
    List.Forall₂ (fun v w => isDeepStrictEqual v w = true) vs ws := by
  induction vs generalizing ws with
  | nil => cases ws <;> simp [sameElements]
  | cons v vs ih =>
      cases ws with
      | nil => simp [sameElements]
      | cons w ws => simp [sameElements,ih]

/-- The member found under the name of one of the members is that one. -/
theorem find?_of_nodup {kvs : List (JsString × JsVal)} (hnd : (kvs.map Prod.fst).Nodup)
    {p : JsString × JsVal} (hp : p ∈ kvs) : kvs.find? (fun q => q.1 = p.1) = some p := by
  induction kvs with
  | nil => cases hp
  | cons q kvs ih =>
      rw [List.map_cons,List.nodup_cons] at hnd
      rcases List.mem_cons.mp hp with rfl | hp
      · simp
      · have hne : q.1 ≠ p.1 := fun he => hnd.1 (he ▸ List.mem_map_of_mem hp)
        rw [List.find?_cons_of_neg (by simpa using hne),ih hnd.2 hp]

theorem isDeepStrictEqual_refl {v : JsVal} (h : WellFormed v) : isDeepStrictEqual v v = true := by
  induction v using JsVal.induct with
  | arr vs ih =>
      cases h with
      | arr hvs =>
          rw [isDeepStrictEqual,sameElements_iff]
          exact List.forall₂_same.mpr fun v hv => ih v hv (hvs v hv)
  | obj kvs ih =>
      cases h with
      | obj hnd hm =>
          rw [isDeepStrictEqual,Bool.and_eq_true,decide_eq_true_iff]
          refine ⟨rfl,sameMembers_iff.mpr fun p hp => ?_⟩
          exact ⟨p,find?_of_nodup hnd hp,ih p hp (hm p hp)⟩
  | undefined | null | bool _ | num _ | str _ => simp [isDeepStrictEqual,strictEq]

/-- Members that are all found among as many others have the names of those. -/
theorem names_perm {kvs lws : List (JsString × JsVal)} (hnd : (kvs.map Prod.fst).Nodup)
    (hlen : kvs.length = lws.length) (h : sameMembers kvs lws = true) :
    (kvs.map Prod.fst).Perm (lws.map Prod.fst) := by
  have hsub : kvs.map Prod.fst ⊆ lws.map Prod.fst := by
    intro k hk
    obtain ⟨p,hp,rfl⟩ := List.mem_map.mp hk
    obtain ⟨q,hq,-⟩ := sameMembers_iff.mp h p hp
    have hname : q.1 = p.1 := by simpa using List.find?_some hq
    exact List.mem_map.mpr ⟨q,List.mem_of_find?_eq_some hq,hname⟩
  have hsubperm := List.subperm_of_subset hnd hsub
  exact hsubperm.perm_of_length_le (by simp [hlen])

theorem isDeepStrictEqual_symm (v : JsVal) : ∀ w,WellFormed v → WellFormed w →
    isDeepStrictEqual v w = true → isDeepStrictEqual w v = true := by
  induction v using JsVal.induct with
  | arr vs ih =>
      intro w hv hw h
      obtain ⟨ws,rfl,hsame⟩ := isDeepStrictEqual_arr h
      cases hv with
      | arr hvs =>
          cases hw with
          | arr hws =>
              rw [sameElements_iff] at hsame
              rw [isDeepStrictEqual,sameElements_iff]
              clear h
              induction hsame with
              | nil => exact .nil
              | cons hvw _ ihs =>
                  rw [List.forall_mem_cons] at ih hvs hws
                  exact .cons (ih.1 _ hvs.1 hws.1 hvw) (ihs ih.2 hvs.2 hws.2)
  | obj kvs ih =>
      intro w hv hw h
      obtain ⟨lws,rfl,hlen,hsame⟩ := isDeepStrictEqual_obj h
      cases hv with
      | obj hnd hm =>
          cases hw with
          | obj hnd' hm' =>
              rw [isDeepStrictEqual,Bool.and_eq_true,decide_eq_true_iff]
              refine ⟨hlen.symm,sameMembers_iff.mpr fun q hq => ?_⟩
              have hname : q.1 ∈ kvs.map Prod.fst :=
                (names_perm hnd hlen hsame).symm.subset (List.mem_map_of_mem hq)
              obtain ⟨p,hp,hpq⟩ := List.mem_map.mp hname
              obtain ⟨q',hq',heq⟩ := sameMembers_iff.mp hsame p hp
              have hsameq : q' = q := by
                have hfind := find?_of_nodup hnd' hq
                rw [← hpq,hq'] at hfind
                exact Option.some.inj hfind
              rw [hsameq] at heq
              refine ⟨p,?_,ih p hp q.2 (hm p hp) (hm' q hq) heq⟩
              rw [← hpq]
              exact find?_of_nodup hnd hp
  | undefined | null | bool _ | num _ | str _ =>
      intro w _ hw h
      rw [← eq_of_strictEq h]
      simp [isDeepStrictEqual,strictEq]

section
variable {v w : JsVal}

theorem nullish_congr (h : isDeepStrictEqual v w = true) : nullish v = nullish w := by
  cases v <;> cases w <;> simp_all [isDeepStrictEqual,strictEq,nullish]

theorem is_congr (h : isDeepStrictEqual v w = true) (literal : String) :
    is v literal = is w literal := by
  cases v <;> cases w <;> simp_all [isDeepStrictEqual,strictEq,is]

theorem strictEq_congr (h : isDeepStrictEqual v w = true) (u : JsVal) :
    strictEq u v = strictEq u w := by
  cases v <;> cases w <;> simp_all [isDeepStrictEqual,strictEq]

theorem isObject_congr (h : isDeepStrictEqual v w = true) :
    (isObject v && !isArray v) = (isObject w && !isArray w) := by
  cases v <;> cases w <;> simp_all [isDeepStrictEqual,strictEq,isObject,isArray]

end

/-- What an element contributes to the joined text. -/
def elementText : JsVal → JsString
  | .undefined => []
  | .null => []
  | v => toStr v

theorem joinTexts_cons (v : JsVal) (vs : List JsVal) : joinTexts (v::vs) =
    match joinTexts vs with
    | none => some (elementText v)
    | some ts => some (elementText v++44::ts) := by
  cases v <;> rfl

theorem joinTexts_cons_congr {v w : JsVal} {vs ws : List JsVal} (h : isDeepStrictEqual v w = true)
    (htext : toStr v = toStr w) (hrest : joinTexts vs = joinTexts ws) :
    joinTexts (v::vs) = joinTexts (w::ws) := by
  have helement : elementText v = elementText w := by
    cases v with
    | arr us =>
        obtain ⟨_,rfl,-⟩ := isDeepStrictEqual_arr h
        exact htext
    | obj kvs =>
        obtain ⟨_,rfl,-⟩ := isDeepStrictEqual_obj h
        exact htext
    | undefined | null | bool _ | num _ | str _ => rw [← eq_of_strictEq h]
  rw [joinTexts_cons,joinTexts_cons,helement,hrest]

theorem toStr_congr (v : JsVal) : ∀ w,isDeepStrictEqual v w = true → toStr v = toStr w := by
  induction v using JsVal.induct with
  | arr vs ih =>
      intro w h
      obtain ⟨ws,rfl,hsame⟩ := isDeepStrictEqual_arr h
      rw [sameElements_iff] at hsame
      have hjoin : joinTexts vs = joinTexts ws := by
        clear h
        induction hsame with
        | nil => rfl
        | cons hvw _ ihs =>
            rw [List.forall_mem_cons] at ih
            exact joinTexts_cons_congr hvw (ih.1 _ hvw) (ihs ih.2)
      rw [toStr,toStr,hjoin]
  | obj kvs ih =>
      intro w h
      obtain ⟨lws,rfl,-⟩ := isDeepStrictEqual_obj h
      rfl
  | undefined | null | bool _ | num _ | str _ =>
      intro w h
      rw [← eq_of_strictEq h]

/-- The members of a name are equal, or both objects lack it. -/
theorem field_congr {v w : JsVal} (hv : WellFormed v) (h : isDeepStrictEqual v w = true)
    (name : String) : isDeepStrictEqual (field v name) (field w name) = true := by
  cases v with
  | obj kvs =>
      obtain ⟨lws,rfl,hlen,hsame⟩ := isDeepStrictEqual_obj h
      cases hv with
      | obj hnd hm =>
          rw [field_obj,field_obj]
          cases hfind : kvs.find? fun p => p.1 = js name with
          | some p =>
              have hname : p.1 = js name := by simpa using List.find?_some hfind
              obtain ⟨q,hq,heq⟩ := sameMembers_iff.mp hsame p (List.mem_of_find?_eq_some hfind)
              rw [hname] at hq
              rw [hq]
              exact heq
          | none =>
              have hnone : lws.find? (fun p => p.1 = js name) = none := by
                rw [List.find?_eq_none] at hfind ⊢
                intro q hq hk
                have hname : q.1 ∈ kvs.map Prod.fst :=
                  (names_perm hnd hlen hsame).symm.subset (List.mem_map_of_mem hq)
                obtain ⟨p,hp,hpq⟩ := List.mem_map.mp hname
                exact hfind p hp (by simpa [hpq] using hk)
              rw [hnone]
              rfl
  | arr vs =>
      obtain ⟨ws,rfl,-⟩ := isDeepStrictEqual_arr h
      rfl
  | undefined | null | bool _ | num _ | str _ =>
      rw [← eq_of_strictEq h]
      rfl

end AstraNull.DeepEquality

import Mathlib
import AstraNull.JsonText

/-!
# Key order and canonical values

Two values are reorderings of each other when permuting object members, at any
depth and finitely often, turns one into the other. Sorting every object by its
property names in code unit order selects one representative of each class. The
sort is the array sort of the language on distinct names, so any sorting
procedure gives the same list.
-/
namespace AstraNull.CanonicalJson
open JsonText

/-- Code unit order of property names. -/
def keyLE (a b : JsString) : Prop := a.map UInt16.toNat ≤ b.map UInt16.toNat

instance (a b : JsString) : Decidable (keyLE a b) := inferInstanceAs (Decidable (_ ≤ _))

theorem keyLE_total (a b : JsString) : keyLE a b ∨ keyLE b a := le_total _ _

theorem keyLE_trans {a b c : JsString} (h : keyLE a b) (h' : keyLE b c) : keyLE a c :=
  le_trans h h'

theorem keyLE_antisymm {a b : JsString} (h : keyLE a b) (h' : keyLE b a) : a = b :=
  List.map_injective_iff.mpr (fun _ _ => UInt16.toNat_inj.mp) (le_antisymm h h')

/-- Order of members by name. -/
def memberLE {α : Type} (p q : JsString × α) : Prop := keyLE p.1 q.1

instance {α : Type} (p q : JsString × α) : Decidable (memberLE p q) :=
  inferInstanceAs (Decidable (keyLE _ _))

instance {α : Type} : @Std.Total (JsString × α) memberLE := ⟨fun p q => keyLE_total p.1 q.1⟩

instance {α : Type} : IsTrans (JsString × α) memberLE := ⟨fun _ _ _ => keyLE_trans⟩

def sortMembers {α : Type} (kvs : List (JsString × α)) : List (JsString × α) :=
  kvs.insertionSort memberLE

section Members
variable {α β : Type}

theorem sortMembers_perm (kvs : List (JsString × α)) : (sortMembers kvs).Perm kvs :=
  List.perm_insertionSort _ _

theorem sortMembers_sorted (kvs : List (JsString × α)) : (sortMembers kvs).Pairwise memberLE :=
  List.pairwise_insertionSort _ _

theorem mem_sortMembers {kvs : List (JsString × α)} {p : JsString × α} :
    p ∈ sortMembers kvs ↔ p ∈ kvs := (sortMembers_perm kvs).mem_iff

theorem sortMembers_map (f : α → β) (kvs : List (JsString × α)) :
    (sortMembers kvs).map (Prod.map id f) = sortMembers (kvs.map (Prod.map id f)) :=
  List.map_insertionSort _ _ _ _ fun _ _ _ _ => Iff.rfl

/-- A member is determined by its name. -/
theorem eq_of_name {kvs : List (JsString × α)} (h : (kvs.map Prod.fst).Nodup)
    {p q : JsString × α} (hp : p ∈ kvs) (hq : q ∈ kvs) (hname : p.1 = q.1) : p = q :=
  List.inj_on_of_nodup_map h hp hq hname

/-- Sorted permutations with distinct names are equal. -/
theorem eq_of_sorted {kvs kws : List (JsString × α)} (hnd : (kvs.map Prod.fst).Nodup)
    (hv : kvs.Pairwise memberLE) (hw : kws.Pairwise memberLE) (h : kvs.Perm kws) : kvs = kws := by
  refine List.Perm.eq_of_pairwise ?_ hv hw h
  intro p q hp hq hpq hqp
  exact eq_of_name hnd hp (h.mem_iff.mpr hq) (keyLE_antisymm hpq hqp)

theorem sortMembers_congr {kvs kws : List (JsString × α)} (hnd : (kvs.map Prod.fst).Nodup)
    (h : kvs.Perm kws) : sortMembers kvs = sortMembers kws := by
  refine eq_of_sorted ?_ (sortMembers_sorted _) (sortMembers_sorted _)
    ((sortMembers_perm kvs).trans (h.trans (sortMembers_perm kws).symm))
  exact ((sortMembers_perm kvs).map _).nodup_iff.mpr hnd

theorem sortMembers_filter (f : JsString × α → Bool) {kvs : List (JsString × α)}
    (hnd : (kvs.map Prod.fst).Nodup) :
    (sortMembers kvs).filter f = sortMembers (kvs.filter f) := by
  have hperm : ((sortMembers kvs).filter f).Perm (sortMembers (kvs.filter f)) :=
    ((sortMembers_perm kvs).filter f).trans (sortMembers_perm _).symm
  have hsub : (((sortMembers kvs).filter f).map Prod.fst).Nodup := by
    have h : ((sortMembers kvs).map Prod.fst).Nodup :=
      ((sortMembers_perm kvs).map _).nodup_iff.mpr hnd
    exact h.sublist (List.filter_sublist.map _)
  exact eq_of_sorted hsub ((sortMembers_sorted kvs).sublist List.filter_sublist)
    (sortMembers_sorted _) hperm

end Members

/-- Values that differ by the order of object members only. -/
inductive Reordering : JsVal → JsVal → Prop
  | refl (v : JsVal) : Reordering v v
  | perm {kvs kws : List (JsString × JsVal)} : kvs.Perm kws → Reordering (.obj kvs) (.obj kws)
  | element {v w : JsVal} (xs ys : List JsVal) : Reordering v w →
      Reordering (.arr (xs++v::ys)) (.arr (xs++w::ys))
  | member {v w : JsVal} (k : JsString) (xs ys : List (JsString × JsVal)) : Reordering v w →
      Reordering (.obj (xs++(k,v)::ys)) (.obj (xs++(k,w)::ys))
  | trans {u v w : JsVal} : Reordering u v → Reordering v w → Reordering u w

namespace Reordering

theorem symm {v w : JsVal} (h : Reordering v w) : Reordering w v := by
  induction h with
  | refl v => exact .refl v
  | perm h => exact .perm h.symm
  | element xs ys _ ih => exact .element xs ys ih
  | member k xs ys _ ih => exact .member k xs ys ih
  | trans _ _ ih ih' => exact .trans ih' ih

/-- Reordering every element, one position after the other. -/
theorem elements {f : JsVal → JsVal} {vs : List JsVal} (h : ∀ v ∈ vs,Reordering v (f v)) :
    ∀ xs,Reordering (.arr (xs++vs)) (.arr (xs++vs.map f)) := by
  induction vs with
  | nil => exact fun xs => .refl _
  | cons v vs ih =>
      intro xs
      have htail := ih (fun u hu => h u (List.mem_cons_of_mem v hu)) (xs++[f v])
      rw [List.append_assoc,List.append_assoc] at htail
      exact .trans (.element xs vs (h v List.mem_cons_self)) htail

theorem members {f : JsVal → JsVal} {kvs : List (JsString × JsVal)}
    (h : ∀ p ∈ kvs,Reordering p.2 (f p.2)) :
    ∀ xs,Reordering (.obj (xs++kvs)) (.obj (xs++kvs.map (Prod.map id f))) := by
  induction kvs with
  | nil => exact fun xs => .refl _
  | cons p kvs ih =>
      intro xs
      have htail := ih (fun q hq => h q (List.mem_cons_of_mem p hq)) (xs++[(p.1,f p.2)])
      rw [List.append_assoc,List.append_assoc] at htail
      exact .trans (.member p.1 xs kvs (h p List.mem_cons_self)) htail

end Reordering

mutual

/-- Sort the members of every object. -/
def canonical : JsVal → JsVal
  | .arr vs => .arr (canonicalElements vs)
  | .obj kvs => .obj (sortMembers (canonicalMembers kvs))
  | v => v

def canonicalElements : List JsVal → List JsVal
  | [] => []
  | v::vs => canonical v::canonicalElements vs

def canonicalMembers : List (JsString × JsVal) → List (JsString × JsVal)
  | [] => []
  | (k,v)::kvs => (k,canonical v)::canonicalMembers kvs

end

theorem canonicalElements_eq (vs : List JsVal) : canonicalElements vs = vs.map canonical := by
  induction vs with
  | nil => rfl
  | cons v vs ih => rw [canonicalElements,ih,List.map_cons]

theorem canonicalMembers_eq (kvs : List (JsString × JsVal)) :
    canonicalMembers kvs = kvs.map (Prod.map id canonical) := by
  induction kvs with
  | nil => rfl
  | cons p kvs ih =>
      rw [canonicalMembers,ih]
      rfl

theorem reordering_canonical (v : JsVal) : Reordering v (canonical v) := by
  induction v using JsVal.induct with
  | undefined => exact .refl _
  | null => exact .refl _
  | bool b => exact .refl _
  | num n => exact .refl _
  | str s => exact .refl _
  | arr vs ih =>
      rw [canonical,canonicalElements_eq]
      exact Reordering.elements ih []
  | obj kvs ih =>
      rw [canonical,canonicalMembers_eq]
      exact .trans (Reordering.members ih []) (.perm (sortMembers_perm _).symm)

theorem names_canonicalMembers (kvs : List (JsString × JsVal)) :
    (canonicalMembers kvs).map Prod.fst = kvs.map Prod.fst := by
  rw [canonicalMembers_eq,List.map_map]
  rfl

theorem canonical_perm {kvs kws : List (JsString × JsVal)} (hnd : (kvs.map Prod.fst).Nodup)
    (h : kvs.Perm kws) : canonical (.obj kvs) = canonical (.obj kws) := by
  have hmap : (canonicalMembers kvs).Perm (canonicalMembers kws) := by
    rw [canonicalMembers_eq,canonicalMembers_eq]
    exact h.map _
  rw [canonical,canonical,sortMembers_congr (by rwa [names_canonicalMembers]) hmap]

/-- Reordering keeps names distinct and does not change the representative. -/
theorem Reordering.canonical_eq {v w : JsVal} (h : Reordering v w) (hv : WellFormed v) :
    WellFormed w ∧ canonical v = canonical w := by
  induction h with
  | refl v => exact ⟨hv,rfl⟩
  | perm h =>
      cases hv with
      | obj hnd hm =>
          refine ⟨.obj ((h.map _).nodup_iff.mp hnd) fun p hp => hm p (h.mem_iff.mpr hp),?_⟩
          exact canonical_perm hnd h
  | element xs ys _ ih =>
      cases hv with
      | arr hm =>
          obtain ⟨hw,heq⟩ := ih (hm _ (by simp))
          refine ⟨.arr fun u hu => ?_,?_⟩
          · rcases List.mem_append.mp hu with hx | hx
            · exact hm u (List.mem_append_left _ hx)
            · rcases List.mem_cons.mp hx with rfl | hy
              · exact hw
              · exact hm u (List.mem_append_right _ (List.mem_cons_of_mem _ hy))
          · rw [canonical,canonical,canonicalElements_eq,canonicalElements_eq,List.map_append,
              List.map_append,List.map_cons,List.map_cons,heq]
  | member k xs ys _ ih =>
      cases hv with
      | obj hnd hm =>
          obtain ⟨hw,heq⟩ := ih (hm (k,_) (by simp))
          refine ⟨.obj (by simpa using hnd) fun p hp => ?_,?_⟩
          · rcases List.mem_append.mp hp with hx | hx
            · exact hm p (List.mem_append_left _ hx)
            · rcases List.mem_cons.mp hx with rfl | hy
              · exact hw
              · exact hm p (List.mem_append_right _ (List.mem_cons_of_mem _ hy))
          · rw [canonical,canonical,canonicalMembers_eq,canonicalMembers_eq,List.map_append,
              List.map_append,List.map_cons,List.map_cons,Prod.map,Prod.map,heq]
  | trans _ _ ih ih' =>
      obtain ⟨hw,heq⟩ := ih hv
      obtain ⟨hu,heq'⟩ := ih' hw
      exact ⟨hu,heq.trans heq'⟩

theorem wellFormed_canonical {v : JsVal} (h : WellFormed v) : WellFormed (canonical v) :=
  ((reordering_canonical v).canonical_eq h).1

/-- Values are reorderings of each other exactly when their representatives agree. -/
theorem reordering_iff {v w : JsVal} (hv : WellFormed v) :
    Reordering v w ↔ canonical v = canonical w := by
  constructor
  · exact fun h => (h.canonical_eq hv).2
  · intro h
    have hw := (reordering_canonical w).symm
    rw [← h] at hw
    exact (reordering_canonical v).trans hw

theorem isUndefined_canonical (v : JsVal) : (canonical v).isUndefined = v.isUndefined := by
  cases v <;> rfl

theorem canonicalMembers_defined (kvs : List (JsString × JsVal)) :
    defined (canonicalMembers kvs) = canonicalMembers (defined kvs) := by
  induction kvs with
  | nil => rfl
  | cons p kvs ih =>
      rw [canonicalMembers,defined_cons,defined_cons,ih,isUndefined_canonical]
      cases p.2.isUndefined <;> rfl

/-- Sorting members and dropping undefined ones commute. -/
theorem clean_canonical {v : JsVal} (h : WellFormed v) :
    clean (canonical v) = canonical (clean v) := by
  induction h with
  | undefined => rfl
  | null => rfl
  | bool b => rfl
  | num n => rfl
  | str s => rfl
  | arr h ih =>
      rw [canonical,clean,clean,canonical,cleanElements_eq,cleanElements_eq,canonicalElements_eq,
        canonicalElements_eq,List.map_map,List.map_map]
      exact congrArg JsVal.arr (List.map_congr_left ih)
  | @obj kvs hnd h ih =>
      have hmap : ∀ kws : List (JsString × JsVal),
          (kws.map fun p => (p.1,clean p.2)) = kws.map (Prod.map id clean) := fun _ => rfl
      have hval : (canonicalMembers (defined kvs)).map (Prod.map id clean) =
          canonicalMembers ((defined kvs).map (Prod.map id clean)) := by
        rw [canonicalMembers_eq,canonicalMembers_eq,List.map_map,List.map_map]
        apply List.map_congr_left
        intro p hp
        exact Prod.ext rfl (ih p (mem_of_mem_defined hp))
      have hnd' : ((canonicalMembers kvs).map Prod.fst).Nodup := by
        rwa [names_canonicalMembers]
      have hsort : defined (sortMembers (canonicalMembers kvs)) =
          sortMembers (canonicalMembers (defined kvs)) := by
        rw [← canonicalMembers_defined]
        exact sortMembers_filter _ hnd'
      rw [canonical,clean,clean,canonical,cleanMembers_eq,cleanMembers_eq,hsort,hmap,hmap,
        sortMembers_map,hval]

theorem find?_name {kvs : List (JsString × JsVal)} (hnd : (kvs.map Prod.fst).Nodup)
    {p : JsString × JsVal} (hp : p ∈ kvs) : kvs.find? (fun q => q.1 = p.1) = some p := by
  cases h : kvs.find? (fun q => q.1 = p.1) with
  | none =>
      have := List.find?_eq_none.mp h p hp
      simp at this
  | some q =>
      have hq := List.find?_some h
      rw [eq_of_name hnd (List.mem_of_find?_eq_some h) hp (by simpa using hq)]

theorem get_of_mem {kvs : List (JsString × JsVal)} (hnd : (kvs.map Prod.fst).Nodup)
    {k : JsString} {v : JsVal} (h : (k,v) ∈ kvs) : (JsVal.obj kvs).get k = v := by
  rw [JsVal.get,find?_name hnd h]
  rfl

theorem get_of_not_mem {kvs : List (JsString × JsVal)} {k : JsString}
    (h : k ∉ kvs.map Prod.fst) : (JsVal.obj kvs).get k = .undefined := by
  have hnone : kvs.find? (fun q => q.1 = k) = none := by
    rw [List.find?_eq_none]
    intro q hq hk
    exact h (List.mem_map.mpr ⟨q,hq,by simpa using hk⟩)
  rw [JsVal.get,hnone]
  rfl

/-- A property is either present with its value or absent. -/
theorem get_cases {kvs : List (JsString × JsVal)} (hnd : (kvs.map Prod.fst).Nodup)
    (k : JsString) :
    (∃ v,(k,v) ∈ kvs ∧ (JsVal.obj kvs).get k = v) ∨
      (k ∉ kvs.map Prod.fst ∧ (JsVal.obj kvs).get k = .undefined) := by
  by_cases h : k ∈ kvs.map Prod.fst
  · obtain ⟨⟨k,v⟩,hp,rfl⟩ := List.mem_map.mp h
    exact Or.inl ⟨v,hp,get_of_mem hnd hp⟩
  · exact Or.inr ⟨h,get_of_not_mem h⟩

theorem wellFormed_get {v : JsVal} (h : WellFormed v) (k : JsString) : WellFormed (v.get k) := by
  cases h with
  | obj hnd hm =>
      rcases get_cases hnd k with ⟨v,hv,heq⟩ | ⟨_,heq⟩
      · rw [heq]
        exact hm (k,v) hv
      · rw [heq]
        exact .undefined
  | _ => exact .undefined

theorem get_canonical {v : JsVal} (h : WellFormed v) (k : JsString) :
    (canonical v).get k = canonical (v.get k) := by
  cases h with
  | @obj kvs hnd hm =>
      have hperm : (sortMembers (canonicalMembers kvs)).Perm
          (kvs.map (Prod.map id canonical)) := by
        rw [← canonicalMembers_eq]
        exact sortMembers_perm _
      have hnames : ((sortMembers (canonicalMembers kvs)).map Prod.fst).Perm
          (kvs.map Prod.fst) := by
        rw [← names_canonicalMembers kvs]
        exact (sortMembers_perm _).map _
      rcases get_cases hnd k with ⟨v,hv,heq⟩ | ⟨hk,heq⟩
      · rw [heq,canonical]
        refine get_of_mem (hnames.nodup_iff.mpr hnd) (hperm.mem_iff.mpr ?_)
        exact List.mem_map.mpr ⟨(k,v),hv,rfl⟩
      · rw [heq,canonical]
        exact get_of_not_mem fun h => hk (hnames.mem_iff.mp h)
  | _ => rfl

theorem get_clean {v : JsVal} (h : WellFormed v) (k : JsString) :
    (clean v).get k = if (v.get k).isUndefined then .undefined else clean (v.get k) := by
  cases h with
  | @obj kvs hnd hm =>
      have hnames : (cleanMembers kvs).map Prod.fst = (defined kvs).map Prod.fst := by
        rw [cleanMembers_eq,List.map_map]
        rfl
      have hnd' : ((cleanMembers kvs).map Prod.fst).Nodup := by
        rw [hnames]
        exact hnd.sublist (List.filter_sublist.map _)
      rcases get_cases hnd k with ⟨v,hv,heq⟩ | ⟨hk,heq⟩
      · rw [heq,clean]
        cases hu : v.isUndefined with
        | true =>
            refine get_of_not_mem fun hmem => ?_
            rw [hnames] at hmem
            obtain ⟨q,hq,rfl⟩ := List.mem_map.mp hmem
            have hqv := eq_of_name hnd (mem_of_mem_defined hq) hv rfl
            have hdef := (List.mem_filter.mp hq).2
            rw [hqv,hu] at hdef
            exact absurd hdef (by decide)
        | false =>
            refine get_of_mem hnd' ?_
            rw [cleanMembers_eq]
            refine List.mem_map.mpr ⟨(k,v),List.mem_filter.mpr ⟨hv,?_⟩,rfl⟩
            rw [hu]
            rfl
      · rw [heq,clean]
        refine get_of_not_mem fun hmem => hk ?_
        rw [hnames] at hmem
        exact (List.filter_sublist.map _).subset hmem
  | _ => rfl

theorem clean_clean {v : JsVal} (h : WellFormed v) : clean (clean v) = clean v :=
  clean_of_isJson h.isJson_clean

end AstraNull.CanonicalJson

import Mathlib

/-!
# Tables as lists of rows

A table is read by the first row that satisfies a predicate and written by changing that
row in place, by changing every matching row, or by appending one. The rules say what a
read sees after a write.
-/
namespace AstraNull.Tables

section
variable {α β : Type*} {p q : α → Bool} {f : α → α} {l : List α}

/-- The first row that satisfies the predicate is replaced. -/
def update (p : α → Bool) (f : α → α) : List α → List α
  | [] => []
  | x::xs => if p x then f x::xs else x::update p f xs

@[simp] theorem update_nil : update p f [] = [] := rfl

@[simp] theorem length_update : (update p f l).length = l.length := by
  induction l with
  | nil => rfl
  | cons x xs ih =>
      simp only [update]
      split
      · simp
      · simp [ih]

/-- A write that keeps the key is seen by the next read of that key. -/
theorem find?_update (h : ∀ x,p x = true → p (f x) = true) :
    (update p f l).find? p = (l.find? p).map f := by
  induction l with
  | nil => rfl
  | cons x xs ih =>
      by_cases hx : p x = true
      · simp [update,hx,h x hx]
      · simp [update,hx,ih]

/-- Rows that another reader does not look at are not changed for it. -/
theorem find?_update_other (h : ∀ x,p x = true → q x = false ∧ q (f x) = false) :
    (update p f l).find? q = l.find? q := by
  induction l with
  | nil => rfl
  | cons x xs ih =>
      by_cases hx : p x = true
      · simp [update,hx,(h x hx).1,(h x hx).2]
      · simp only [update,hx,Bool.false_eq_true,if_false,List.find?_cons,ih]

theorem update_of_find?_none (h : l.find? p = none) : update p f l = l := by
  induction l with
  | nil => rfl
  | cons x xs ih =>
      by_cases hx : p x = true
      · simp [hx] at h
      · simp only [List.find?_cons,hx] at h
        simp only [update,hx,Bool.false_eq_true,if_false,ih h]

/-- Writing the row that is read changes nothing only when it writes that row. -/
theorem update_eq_self_iff {x : α} (h : l.find? p = some x) : update p f l = l ↔ f x = x := by
  induction l with
  | nil => simp at h
  | cons y ys ih =>
      by_cases hy : p y = true
      · obtain rfl : y = x := by simpa [hy] using h
        simp [update,hy]
      · have hys : ys.find? p = some x := by simpa [hy] using h
        simp only [update,hy,Bool.false_eq_true,if_false,List.cons.injEq,true_and,ih hys]

theorem mem_update {y : α} (hy : y ∈ update p f l) :
    y ∈ l ∨ ∃ x,l.find? p = some x ∧ y = f x := by
  induction l with
  | nil => simp at hy
  | cons x xs ih =>
      by_cases hx : p x = true
      · simp only [update,hx,if_true,List.mem_cons] at hy
        rcases hy with rfl | hy
        · exact Or.inr ⟨x,by simp [hx],rfl⟩
        · exact Or.inl (List.mem_cons_of_mem _ hy)
      · simp only [update,hx,Bool.false_eq_true,if_false,List.mem_cons] at hy
        rcases hy with rfl | hy
        · exact Or.inl (by simp)
        · rcases ih hy with hy | ⟨z,hz,rfl⟩
          · exact Or.inl (List.mem_cons_of_mem _ hy)
          · exact Or.inr ⟨z,by simp [hx,hz],rfl⟩

theorem forall_update {P : α → Prop} (hl : ∀ x ∈ l,P x)
    (hf : ∀ x,l.find? p = some x → P (f x)) : ∀ y ∈ update p f l,P y := by
  intro y hy
  rcases mem_update hy with hy | ⟨x,hx,rfl⟩
  · exact hl y hy
  · exact hf x hx

/-- A column that the write keeps is the same column. -/
theorem map_update {g : α → β} (h : ∀ x,g (f x) = g x) : (update p f l).map g = l.map g := by
  induction l with
  | nil => rfl
  | cons x xs ih =>
      simp only [update]
      split
      · simp [h]
      · simp [ih]

/-- Every row that satisfies the predicate is replaced. -/
def updateAll (p : α → Bool) (f : α → α) (l : List α) : List α :=
  l.map fun x => if p x then f x else x

theorem mem_updateAll {y : α} (hy : y ∈ updateAll p f l) :
    ∃ x ∈ l,y = if p x then f x else x := by
  obtain ⟨x,hx,rfl⟩ := List.mem_map.mp hy
  exact ⟨x,hx,rfl⟩

theorem forall_updateAll {P : α → Prop} (hl : ∀ x ∈ l,P x)
    (hf : ∀ x ∈ l,p x = true → P (f x)) : ∀ y ∈ updateAll p f l,P y := by
  intro y hy
  obtain ⟨x,hx,rfl⟩ := mem_updateAll hy
  split
  · exact hf x hx ‹_›
  · exact hl x hx

/-- A reader whose key the write keeps finds the same row, as it now is. -/
theorem find?_updateAll (h : ∀ x,q (f x) = q x) :
    (updateAll p f l).find? q = (l.find? q).map fun x => if p x then f x else x := by
  induction l with
  | nil => rfl
  | cons x xs ih =>
      have hx : q (if p x then f x else x) = q x := by
        split
        · exact h x
        · rfl
      simp only [updateAll,List.map_cons,List.find?_cons,hx] at ih ⊢
      cases q x <;> simp [ih]

theorem map_updateAll {g : α → β} (h : ∀ x,g (f x) = g x) :
    (updateAll p f l).map g = l.map g := by
  simp only [updateAll,List.map_map]
  refine List.map_congr_left fun x _ => ?_
  simp only [Function.comp_apply]
  split
  · exact h x
  · rfl

/-- A key that no two rows share makes the two writes one. -/
theorem update_eq_updateAll (h : l.Pairwise fun x y => ¬ (p x = true ∧ p y = true)) :
    update p f l = updateAll p f l := by
  induction l with
  | nil => rfl
  | cons x xs ih =>
      obtain ⟨hx,hxs⟩ := List.pairwise_cons.mp h
      by_cases hp : p x = true
      · have hrest : (xs.map fun y => if p y = true then f y else y) = xs := by
          conv_rhs => rw [← List.map_id xs]
          refine List.map_congr_left fun y hy => ?_
          have hpy : ¬ p y = true := fun hpy => hx y hy ⟨hp,hpy⟩
          simp [hpy]
        simp [update,updateAll,hp,hrest]
      · have ih := ih hxs
        simp only [updateAll] at ih
        simp [update,updateAll,hp,ih]

/-- The first row of a wider search is the first row of a narrower one that it satisfies. -/
theorem find?_of_wider {x : α} (h : l.find? q = some x) (hw : ∀ y,p y = true → q y = true)
    (hx : p x = true) : l.find? p = some x := by
  induction l with
  | nil => simp at h
  | cons y ys ih =>
      by_cases hy : q y = true
      · simp only [List.find?_cons,hy,Option.some.injEq] at h
        subst h
        simp [hx]
      · have hp : p y = false := by
          by_contra hc
          exact hy (hw y (by simpa using hc))
        simp only [List.find?_cons,hy] at h
        simp [hp,ih h]

/-- A row that is found stays the first one when rows are appended. -/
theorem find?_append_of_some {x : α} {k : List α} (h : l.find? q = some x) :
    (l++k).find? q = some x := by
  rw [List.find?_append,h]
  rfl

/-- Row by row, a write changes the first matching row only. -/
theorem forall₂_update {R : α → α → Prop} (hrefl : ∀ x,R x x)
    (hf : ∀ x,l.find? p = some x → R x (f x)) : List.Forall₂ R l (update p f l) := by
  induction l with
  | nil => exact .nil
  | cons x xs ih =>
      by_cases hx : p x = true
      · simp only [update,hx,if_true]
        exact .cons (hf x (by simp [hx])) (List.forall₂_same.mpr fun y _ => hrefl y)
      · simp only [update,hx,Bool.false_eq_true,if_false]
        exact .cons (hrefl x) (ih fun y hy => hf y (by simp [hx,hy]))

/-- A key some rows have stays unique when the written row keeps it, loses it, or takes one that is
free. -/
theorem nodup_filterMap_update {g : α → Option β} (h : (l.filterMap g).Nodup)
    (hf : ∀ x b,l.find? p = some x → g (f x) = some b → g x = some b ∨ b ∉ l.filterMap g) :
    ((update p f l).filterMap g).Nodup := by
  -- the written list has the keys of the rest and the new key
  have hmem : ∀ (m : List α) b,b ∈ (update p f m).filterMap g →
      b ∈ m.filterMap g ∨ ∃ x,m.find? p = some x ∧ g (f x) = some b := by
    intro m b hb
    obtain ⟨y,hy,hgy⟩ := List.mem_filterMap.mp hb
    rcases mem_update hy with hm | ⟨x,hx,rfl⟩
    · exact Or.inl (List.mem_filterMap.mpr ⟨y,hm,hgy⟩)
    · exact Or.inr ⟨x,hx,hgy⟩
  induction l with
  | nil => exact h
  | cons x xs ih =>
      have hxs : (xs.filterMap g).Nodup := by
        cases hg : g x with
        | none => simpa [List.filterMap_cons,hg] using h
        | some b => exact (List.nodup_cons.mp (by simpa [List.filterMap_cons,hg] using h)).2
      by_cases hx : p x = true
      · simp only [update,hx,if_true]
        cases hg : g (f x) with
        | none => simpa [List.filterMap_cons,hg] using hxs
        | some b =>
            rw [List.filterMap_cons_some hg,List.nodup_cons]
            refine ⟨fun hb => ?_,hxs⟩
            rcases hf x b (by simp [hx]) hg with hgx | hfree
            · rw [List.filterMap_cons_some hgx,List.nodup_cons] at h
              exact h.1 hb
            · refine hfree (List.mem_filterMap.mpr ?_)
              obtain ⟨y,hy,hgy⟩ := List.mem_filterMap.mp hb
              exact ⟨y,List.mem_cons_of_mem x hy,hgy⟩
      · have hstep : ∀ y b,xs.find? p = some y → g (f y) = some b →
            g y = some b ∨ b ∉ xs.filterMap g := by
          intro y b hy hgy
          rcases hf y b (by simp [hx,hy]) hgy with h' | h'
          · exact Or.inl h'
          · refine Or.inr fun hb => h' ?_
            obtain ⟨z,hz,hgz⟩ := List.mem_filterMap.mp hb
            exact List.mem_filterMap.mpr ⟨z,List.mem_cons_of_mem x hz,hgz⟩
        simp only [update,hx,Bool.false_eq_true,if_false]
        cases hg : g x with
        | none => simpa [List.filterMap_cons,hg] using ih hxs hstep
        | some b =>
            rw [List.filterMap_cons_some hg,List.nodup_cons]
            refine ⟨fun hb => ?_,ih hxs hstep⟩
            rw [List.filterMap_cons_some hg,List.nodup_cons] at h
            rcases hmem xs b hb with hb | ⟨y,hy,hgy⟩
            · exact h.1 hb
            · -- the written row would take the key of the head
              rcases hf y b (by simp [hx,hy]) hgy with hgy' | hfree
              · exact h.1 (List.mem_filterMap.mpr ⟨y,List.mem_of_find?_eq_some hy,hgy'⟩)
              · exact hfree (List.mem_filterMap.mpr ⟨x,List.mem_cons_self,hg⟩)

/-- Rows that keep their key or lose it. -/
theorem sublist_filterMap_of_forall₂ {g : α → Option β} {k : List α}
    (h : List.Forall₂ (fun x y => g y = g x ∨ g y = none) l k) :
    (k.filterMap g).Sublist (l.filterMap g) := by
  induction h with
  | nil => exact .slnil
  | @cons x y l k hxy _ ih =>
      rcases hxy with he | hn
      · cases hg : g x with
        | none => simpa [List.filterMap_cons,he,hg] using ih
        | some b => simpa [List.filterMap_cons,he,hg] using ih
      · rw [List.filterMap_cons_none hn]
        cases hg : g x with
        | none => simpa [List.filterMap_cons,hg] using ih
        | some b =>
            rw [List.filterMap_cons_some hg]
            exact ih.cons b

end

end AstraNull.Tables

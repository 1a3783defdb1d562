import Mathlib

/-!
# Pieces between separators

What a list and its pieces between separators have in common: members, length and images.
-/
namespace AstraNull.TextPieces

section
variable {α β : Type*} {sep : α}

theorem map_intercalate (f : α → β) (ps : List (List α)) :
    ([sep].intercalate ps).map f = [f sep].intercalate (ps.map (List.map f)) := by
  induction ps with
  | nil => rfl
  | cons p ps ih =>
      cases ps with
      | nil => simp
      | cons q qs =>
          rw [List.intercalate_cons_cons,List.map_append,List.map_append,ih]
          simp [List.intercalate_cons_cons]

theorem forall_mem_intercalate {Q : α → Prop} (hsep : Q sep) {ps : List (List α)}
    (hps : ∀ p ∈ ps,∀ a ∈ p,Q a) : ∀ a ∈ [sep].intercalate ps,Q a := by
  induction ps with
  | nil => simp
  | cons p ps ih =>
      cases ps with
      | nil => simpa using hps
      | cons q qs =>
          intro a ha
          rw [List.intercalate_cons_cons,List.mem_append,List.mem_append,List.mem_singleton] at ha
          rcases ha with (ha | rfl) | ha
          · exact hps p List.mem_cons_self a ha
          · exact hsep
          · exact ih (fun p hp => hps p (List.mem_cons_of_mem _ hp)) a ha

theorem mem_intercalate_of_mem {ps : List (List α)} {p : List α} (hp : p ∈ ps) {a : α}
    (ha : a ∈ p) : a ∈ [sep].intercalate ps := by
  induction ps with
  | nil => cases hp
  | cons q qs ih =>
      cases qs with
      | nil =>
          rw [List.intercalate_singleton,← List.mem_singleton.mp hp]
          exact ha
      | cons x xs =>
          rw [List.intercalate_cons_cons,List.mem_append,List.mem_append]
          rcases List.mem_cons.mp hp with rfl | hp
          · exact .inl (.inl ha)
          · exact .inr (ih hp)

theorem length_intercalate (sep : α) {ps : List (List α)} (hps : ps ≠ []) :
    ([sep].intercalate ps).length+1 = (ps.map fun p => p.length+1).sum := by
  induction ps with
  | nil => exact absurd rfl hps
  | cons p ps ih =>
      cases ps with
      | nil => simp
      | cons q qs =>
          have := ih (by simp)
          rw [List.intercalate_cons_cons,List.map_cons,List.sum_cons,← this]
          simp only [List.length_append,List.length_singleton]
          omega

end

section
variable {α β : Type*} [BEq α] [LawfulBEq α] [BEq β] [LawfulBEq β] {sep : α}

theorem mem_of_mem_splitOn {s p : List α} (hp : p ∈ s.splitOn sep) {a : α} (ha : a ∈ p) :
    a ∈ s := by
  have h := @mem_intercalate_of_mem _ sep _ _ hp _ ha
  rwa [List.intercalate_splitOn] at h

theorem splitOn_map {f : α → β} {sep' : β} {s : List α} (hf : ∀ a ∈ s,f a = sep' ↔ a = sep) :
    (s.map f).splitOn sep' = (s.splitOn sep).map (List.map f) := by
  induction s with
  | nil => simp
  | cons a s ih =>
      rw [List.forall_mem_cons] at hf
      rw [List.map_cons,List.splitOn_cons_eq_if_modifyHead,List.splitOn_cons_eq_if_modifyHead,
        ih hf.2]
      by_cases h : a = sep
      · have hfa := hf.1.mpr h
        simp [h,← hfa]
      · have hfa : f a ≠ sep' := fun hfa => h (hf.1.mp hfa)
        simp only [beq_eq_false_iff_ne.mpr hfa,beq_eq_false_iff_ne.mpr h,Bool.false_eq_true,if_false]
        cases s.splitOn sep <;> rfl

theorem notMem_of_mem_splitOn {s p : List α} (h : p ∈ s.splitOn sep) : sep ∉ p := by
  induction s generalizing p with
  | nil =>
      rw [List.splitOn_nil,List.mem_singleton] at h
      simp [h]
  | cons a s ih =>
      rw [List.splitOn_cons_eq_if_modifyHead] at h
      by_cases ha : a = sep
      · simp only [ha,beq_self_eq_true,if_true,List.mem_cons] at h
        rcases h with rfl | h
        · simp
        · exact ih h
      · simp only [beq_eq_false_iff_ne.mpr ha,Bool.false_eq_true,if_false] at h
        cases hs : s.splitOn sep with
        | nil => simp [hs] at h
        | cons q qs =>
            rw [hs,List.modifyHead_cons,List.mem_cons] at h
            rcases h with rfl | h
            · have hq := ih (p := q) (by simp [hs])
              simp [hq,Ne.symm ha]
            · exact ih (by simp [hs,h])

theorem exists_mem_splitOn {s : List α} {a : α} (ha : a ∈ s) (hne : a ≠ sep) :
    ∃ piece ∈ s.splitOn sep,a ∈ piece := by
  by_contra hnone
  push Not at hnone
  have hfree : a ∉ [sep].intercalate (s.splitOn sep) := by
    intro hmem
    refine @forall_mem_intercalate _ sep (fun b => b ≠ a) (Ne.symm hne) _ ?_ a hmem rfl
    rintro piece hpiece b hb rfl
    exact hnone piece hpiece hb
  rw [List.intercalate_splitOn] at hfree
  exact hfree ha

end

end AstraNull.TextPieces

import Mathlib

/-!
# Orders given by a comparison

A comparison with three answers is a total order when it answers `eq` for equal values only,
turns around with its arguments and is transitive. Such orders are pulled back along injective
functions and combined lexicographically. A list sorted by a relation that tells its elements apart
does not depend on the order it was given in.
-/
namespace AstraNull.Orders

structure TotalOrder {α : Type} (cmp : α → α → Ordering) : Prop where
  eq_iff : ∀ a b,cmp a b = .eq ↔ a = b
  swap : ∀ a b,cmp b a = (cmp a b).swap
  trans : ∀ a b c,cmp a b = .lt → cmp b c = .lt → cmp a c = .lt

namespace TotalOrder
variable {α : Type} {cmp : α → α → Ordering}

theorem refl (h : TotalOrder cmp) (a : α) : cmp a a = .eq := (h.eq_iff a a).mpr rfl

theorem gt_iff (h : TotalOrder cmp) (a b : α) : cmp a b = .gt ↔ cmp b a = .lt := by
  rw [h.swap a b]
  cases cmp a b <;> simp

/-- Not after, and before. -/
theorem lt_of_not_gt (h : TotalOrder cmp) {a b c : α} (hab : cmp a b ≠ .gt) (hbc : cmp b c = .lt) :
    cmp a c = .lt := by
  cases hcmp : cmp a b with
  | lt => exact h.trans a b c hcmp hbc
  | eq => rwa [(h.eq_iff a b).mp hcmp]
  | gt => exact absurd hcmp hab

end TotalOrder

theorem totalOrder_compare {α : Type} [Ord α] [Std.TransOrd α] [Std.LawfulEqOrd α] :
    TotalOrder (compare : α → α → Ordering) where
  eq_iff := fun _ _ => Std.compare_eq_iff_eq
  swap := fun _ _ => Std.OrientedCmp.eq_swap
  trans := fun _ _ _ hab hbc => Std.TransCmp.lt_trans hab hbc

namespace TotalOrder
variable {α β : Type} {cmp : α → α → Ordering} {cmp' : β → β → Ordering}

theorem ne_gt_trans (h : TotalOrder cmp) {a b c : α} (hab : cmp a b ≠ .gt) (hbc : cmp b c ≠ .gt) :
    cmp a c ≠ .gt := by
  intro hac
  have hlt := h.lt_of_not_gt hbc ((h.gt_iff a c).mp hac)
  exact hab ((h.gt_iff a b).mpr hlt)

theorem on (h : TotalOrder cmp) {f : β → α} (hf : ∀ a b,f a = f b → a = b) :
    TotalOrder fun a b => cmp (f a) (f b) where
  eq_iff a b := (h.eq_iff _ _).trans ⟨hf a b,congrArg f⟩
  swap := fun _ _ => h.swap _ _
  trans := fun _ _ _ => h.trans _ _ _

/-- The first components decide, then the second ones. -/
theorem prod (h : TotalOrder cmp) (h' : TotalOrder cmp') :
    TotalOrder fun a b : α × β => (cmp a.1 b.1).then (cmp' a.2 b.2) where
  eq_iff a b := by
    rw [Ordering.then_eq_eq,h.eq_iff,h'.eq_iff,Prod.ext_iff]
  swap a b := by
    rw [Ordering.swap_then,← h.swap,← h'.swap]
  trans a b c hab hbc := by
    rw [Ordering.then_eq_lt] at hab hbc ⊢
    rcases hab with hab | ⟨hab,hab'⟩ <;> rcases hbc with hbc | ⟨hbc,hbc'⟩
    · exact Or.inl (h.trans _ _ _ hab hbc)
    · exact Or.inl ((h.eq_iff _ _).mp hbc ▸ hab)
    · exact Or.inl ((h.eq_iff _ _).mp hab ▸ hbc)
    · refine Or.inr ⟨?_,h'.trans _ _ _ hab' hbc'⟩
      rw [(h.eq_iff _ _).mp hab]
      exact hbc

end TotalOrder

section
variable {α : Type*} {r : α → α → Prop} [DecidableRel r] [Std.Total r] [IsTrans α r]

theorem insertionSort_eq_of_perm {l l' : List α} (hperm : l.Perm l')
    (hanti : ∀ a ∈ l,∀ b ∈ l,r a b → r b a → a = b) :
    l.insertionSort r = l'.insertionSort r := by
  have hp : (l.insertionSort r).Perm (l'.insertionSort r) :=
    (List.perm_insertionSort r l).trans (hperm.trans (List.perm_insertionSort r l').symm)
  refine List.Perm.eq_of_pairwise ?_ (List.pairwise_insertionSort r l)
    (List.pairwise_insertionSort r l') hp
  intro a b ha hb hab hba
  have hb' : b ∈ l := hperm.symm.subset ((List.mem_insertionSort r).mp hb)
  exact hanti a ((List.mem_insertionSort r).mp ha) b hb' hab hba

theorem rel_of_head_insertionSort {l : List α} {a : α}
    (h : (l.insertionSort r).head? = some a) : a ∈ l ∧ ∀ b ∈ l,r a b := by
  obtain ⟨rest,hrest⟩ := List.head?_eq_some_iff.mp h
  have hsorted := List.pairwise_insertionSort r l
  rw [hrest,List.pairwise_cons] at hsorted
  refine ⟨(List.mem_insertionSort r).mp (by rw [hrest]; exact List.mem_cons_self),?_⟩
  intro b hb
  have hb' : b ∈ l.insertionSort r := (List.mem_insertionSort r).mpr hb
  rw [hrest,List.mem_cons] at hb'
  obtain rfl | hb' := hb'
  · exact (Std.Total.total (r := r) b b).elim id id
  · exact hsorted.1 b hb'

end

end AstraNull.Orders

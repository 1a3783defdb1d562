import Mathlib
import AstraNull.Orders

/-!
# Labelled intervals in the order of their starts

Rows sorted by start, end and label, with the widest span among them. A value is looked up by a
binary search for the last start at or below it and a walk back that ends at the first start more
than the widest span below it. Whatever is folded along that walk is folded over all the rows that
cover the value.
-/
namespace AstraNull.IntervalIndex
open Orders

structure Row (L : Type) where
  start : ℤ
  stop : ℤ
  label : L
deriving DecidableEq

def Row.span {L : Type} (r : Row L) : ℤ := r.stop-r.start

def Row.covers {L : Type} (r : Row L) (value : ℤ) : Bool := r.start ≤ value && value ≤ r.stop

section Order
variable {L : Type} {cmp : L → L → Ordering}

def compareRows (cmp : L → L → Ordering) (a b : Row L) : Ordering :=
  (compare a.start b.start).then ((compare a.stop b.stop).then (cmp a.label b.label))

def rowLe (cmp : L → L → Ordering) (a b : Row L) : Prop := compareRows cmp a b ≠ .gt

instance (cmp : L → L → Ordering) : DecidableRel (rowLe cmp) := fun a b =>
  inferInstanceAs (Decidable (compareRows cmp a b ≠ .gt))

theorem totalOrder_compareRows (h : TotalOrder cmp) : TotalOrder (compareRows cmp) := by
  have hprod : TotalOrder fun a b : ℤ × ℤ × L =>
      (compare a.1 b.1).then ((compare a.2.1 b.2.1).then (cmp a.2.2 b.2.2)) :=
    totalOrder_compare.prod (totalOrder_compare.prod h)
  refine hprod.on (f := fun r : Row L => (r.start,r.stop,r.label)) ?_
  rintro ⟨_,_,_⟩ ⟨_,_,_⟩ h
  cases h
  rfl

theorem total_rowLe (h : TotalOrder cmp) : Std.Total (rowLe cmp) := by
  refine ⟨fun a b => ?_⟩
  by_contra hno
  simp only [rowLe,not_or,not_not] at hno
  rw [(totalOrder_compareRows h).gt_iff,hno.2] at hno
  exact absurd hno.1 (by decide)

theorem trans_rowLe (h : TotalOrder cmp) : IsTrans (Row L) (rowLe cmp) :=
  ⟨fun _ _ _ => (totalOrder_compareRows h).ne_gt_trans⟩

theorem start_le_of_rowLe {a b : Row L} (h : rowLe cmp a b) : a.start ≤ b.start := by
  by_contra hlt
  have hgt : compare a.start b.start = .gt := Int.compare_eq_gt.mpr (lt_of_not_ge hlt)
  exact h (by rw [compareRows,hgt]; rfl)

def sortRows (cmp : L → L → Ordering) (rows : List (Row L)) : List (Row L) :=
  rows.insertionSort (rowLe cmp)

theorem mem_sortRows {rows : List (Row L)} {r : Row L} : r ∈ sortRows cmp rows ↔ r ∈ rows :=
  List.mem_insertionSort _

theorem sortRows_starts (h : TotalOrder cmp) (rows : List (Row L)) :
    (sortRows cmp rows).Pairwise fun a b => a.start ≤ b.start := by
  have := total_rowLe h
  have := trans_rowLe h
  exact (List.pairwise_insertionSort (rowLe cmp) rows).imp start_le_of_rowLe

theorem sortRows_perm (h : TotalOrder cmp) {rows rows' : List (Row L)} (hperm : rows.Perm rows') :
    sortRows cmp rows = sortRows cmp rows' := by
  have := total_rowLe h
  have := trans_rowLe h
  refine insertionSort_eq_of_perm hperm fun a _ b _ hab hba => ?_
  have horder := totalOrder_compareRows h
  cases hcmp : compareRows cmp a b with
  | lt => exact absurd ((horder.gt_iff b a).mpr hcmp) hba
  | eq => exact (horder.eq_iff a b).mp hcmp
  | gt => exact absurd hcmp hab

end Order

section Span
variable {L : Type}

def widen (widest : Option ℤ) (r : Row L) : Option ℤ :=
  match widest with
  | none => some r.span
  | some span => if span < r.span then some r.span else some span

def maxSpan (rows : List (Row L)) : Option ℤ := rows.foldl widen none

theorem widen_fold (rows : List (Row L)) (span : ℤ) :
    ∃ widest,rows.foldl widen (some span) = some widest ∧ span ≤ widest ∧
      ∀ r ∈ rows,r.span ≤ widest := by
  induction rows generalizing span with
  | nil => exact ⟨span,rfl,le_refl _,by simp⟩
  | cons r rows ih =>
      have hstep : ∃ next,widen (some span) r = some next ∧ span ≤ next ∧ r.span ≤ next := by
        by_cases hlt : span < r.span
        · exact ⟨r.span,by simp [widen,hlt],hlt.le,le_refl _⟩
        · exact ⟨span,by simp [widen,hlt],le_refl _,not_lt.mp hlt⟩
      obtain ⟨next,hnext,hspan,hr⟩ := hstep
      obtain ⟨widest,hfold,hle,hall⟩ := ih next
      rw [List.foldl_cons,hnext]
      refine ⟨widest,hfold,hspan.trans hle,?_⟩
      rintro s (_ | ⟨_,hs⟩)
      · exact hr.trans hle
      · exact hall s hs

theorem maxSpan_bounds {rows : List (Row L)} (hne : rows ≠ []) :
    ∃ widest,maxSpan rows = some widest ∧ ∀ r ∈ rows,r.span ≤ widest := by
  cases rows with
  | nil => exact absurd rfl hne
  | cons r rows =>
      obtain ⟨widest,hfold,hr,hall⟩ := widen_fold rows r.span
      exact ⟨widest,hfold,List.forall_mem_cons.mpr ⟨hr,hall⟩⟩

end Span

/-- The loop that narrows the positions from `low` to `high`, with the last position found. -/
def search (starts : List ℤ) (value low high index : ℤ) : ℤ :=
  if low ≤ high then
    let middle := (low+high)/2
    if starts.getD middle.toNat 0 ≤ value then search starts value (middle+1) high middle
    else search starts value low (middle-1) index
  else index
termination_by (high+1-low).toNat

theorem getD_le_getD {starts : List ℤ} (hsorted : starts.Pairwise (· ≤ ·)) {i j : ℕ} (hij : i ≤ j)
    (hj : j < starts.length) : starts.getD i 0 ≤ starts.getD j 0 := by
  have hi : i < starts.length := by omega
  rw [List.getD_eq_getElem _ _ hi,List.getD_eq_getElem _ _ hj]
  rcases Nat.lt_or_eq_of_le hij with hlt | rfl
  · exact List.pairwise_iff_getElem.mp hsorted i j hi hj hlt
  · exact le_refl _

/-- Starts before `low` are at most the value and starts after `high` are above it. -/
theorem search_spec {starts : List ℤ} (hsorted : starts.Pairwise (· ≤ ·)) {value : ℤ} :
    ∀ {low high index : ℤ},0 ≤ low → high < starts.length → low ≤ high+1 → index = low-1 →
      (∀ i : ℕ,(i : ℤ) < low → starts.getD i 0 ≤ value) →
      (∀ i : ℕ,high < i → i < starts.length → value < starts.getD i 0) →
      ∀ i : ℕ,i < starts.length →
        (starts.getD i 0 ≤ value ↔ (i : ℤ) ≤ search starts value low high index) := by
  intro low high index
  fun_induction search starts value low high index with
  | case1 low high index hle middle hat ih =>
      intro hlow hhigh hcross hindex hbelow habove
      have hmid : middle = (low+high)/2 := rfl
      refine ih (by omega) hhigh (by omega) (by omega) ?_ habove
      intro i hi
      exact (getD_le_getD hsorted (by omega) (by omega)).trans hat
  | case2 low high index hle middle hat ih =>
      intro hlow hhigh hcross hindex hbelow habove
      have hmid : middle = (low+high)/2 := rfl
      refine ih hlow (by omega) (by omega) hindex hbelow ?_
      intro i hi hlen
      exact (not_le.mp hat).trans_le (getD_le_getD hsorted (by omega) hlen)
  | case3 low high index hle =>
      intro hlow hhigh hcross hindex hbelow habove i hi
      constructor
      · intro hat
        by_contra hlt
        exact absurd hat (not_le.mpr (habove i (by omega) hi))
      · intro hindexed
        exact hbelow i (by omega)

theorem search_lt {starts : List ℤ} {value low high index n : ℤ} (hhigh : high < n)
    (hindex : index < n) : search starts value low high index < n := by
  fun_induction search starts value low high index with
  | case1 low high index hle middle hat ih =>
      have hmid : middle = (low+high)/2 := rfl
      exact ih hhigh (by omega)
  | case2 low high index hle middle hat ih =>
      have hmid : middle = (low+high)/2 := rfl
      exact ih (by omega) hindex
  | case3 low high index hle => exact hindex

/-- How many starts are at most the value. -/
def countAtMost (starts : List ℤ) (value : ℤ) : ℕ :=
  (search starts value 0 (starts.length-1) (-1)+1).toNat

theorem lt_countAtMost {starts : List ℤ} (hsorted : starts.Pairwise (· ≤ ·)) {value : ℤ} {i : ℕ}
    (hi : i < starts.length) : starts.getD i 0 ≤ value ↔ i < countAtMost starts value := by
  have hspec := @search_spec _ hsorted value 0 (starts.length-1) (-1) (by omega) (by omega) (by omega) (by omega) (by intros; omega)
    (by intros; omega) i hi
  rw [hspec,countAtMost]
  omega

theorem countAtMost_le (starts : List ℤ) (value : ℤ) :
    countAtMost starts value ≤ starts.length := by
  have h := @search_lt starts value 0 (starts.length-1) (-1) starts.length (by omega) (by omega)
  rw [countAtMost]
  omega

section Walk
variable {L σ : Type}

/-- The walk from the row before position `n` down to the first row. -/
def walk (rows : List (Row L)) (value lowest : ℤ) (step : σ → Row L → σ) : ℕ → σ → σ
  | 0,acc => acc
  | n+1,acc =>
      match rows[n]? with
      | none => acc
      | some row =>
          if row.start < lowest then acc
          else walk rows value lowest step n (if row.covers value then step acc row else acc)

theorem covers_iff {r : Row L} {value : ℤ} :
    r.covers value = true ↔ r.start ≤ value ∧ value ≤ r.stop := by
  simp [Row.covers]

/-- No row that starts more than the widest span below the value reaches it. -/
theorem covers_false {r : Row L} {value widest : ℤ} (hspan : r.span ≤ widest)
    (hstart : r.start < value-widest) : r.covers value = false := by
  rw [← Bool.not_eq_true,covers_iff]
  unfold Row.span at hspan
  omega

variable {rows : List (Row L)} (hsorted : rows.Pairwise fun a b => a.start ≤ b.start)
include hsorted

theorem walk_eq {value widest : ℤ} (hwide : ∀ r ∈ rows,r.span ≤ widest) (step : σ → Row L → σ)
    {n : ℕ} (hn : n ≤ rows.length) (acc : σ) :
    walk rows value (value-widest) step n acc =
      ((rows.take n).reverse.filter (·.covers value)).foldl step acc := by
  induction n generalizing acc with
  | zero => rfl
  | succ n ih =>
      have hlt : n < rows.length := by omega
      have hreverse : (rows.take (n+1)).reverse = rows[n]::(rows.take n).reverse := by
        rw [List.take_succ_eq_append_getElem hlt,List.reverse_append]
        rfl
      rw [walk,List.getElem?_eq_getElem hlt]
      dsimp only
      split_ifs with hlow hcovers
      · have hnone : ∀ r ∈ (rows.take (n+1)).reverse,¬ r.covers value = true := by
          intro r hr
          rw [List.mem_reverse,List.mem_take_iff_getElem] at hr
          obtain ⟨i,hi,rfl⟩ := hr
          have hstart : rows[i].start ≤ rows[n].start := by
            rcases Nat.lt_or_eq_of_le (show i ≤ n by omega) with hin | rfl
            · exact List.pairwise_iff_getElem.mp hsorted i n (by omega) hlt hin
            · exact le_refl _
          have hfalse := covers_false (hwide rows[i] (List.getElem_mem _))
            (lt_of_le_of_lt hstart hlow)
          simp [hfalse]
        rw [List.filter_eq_nil_iff.mpr hnone]
        rfl
      · rw [ih (by omega),hreverse,List.filter_cons,if_pos hcovers,List.foldl_cons]
      · rw [ih (by omega),hreverse,List.filter_cons,if_neg hcovers]

/-- The walk meets every row that covers the value. -/
theorem walk_countAtMost {value widest : ℤ} (hwide : ∀ r ∈ rows,r.span ≤ widest)
    (step : σ → Row L → σ) (acc : σ) :
    walk rows value (value-widest) step (countAtMost (rows.map Row.start) value) acc =
      (rows.reverse.filter (·.covers value)).foldl step acc := by
  have hstarts : (rows.map Row.start).Pairwise (· ≤ ·) := List.pairwise_map.mpr hsorted
  have hcount := countAtMost_le (rows.map Row.start) value
  have hlater := fun i (hi : i < (rows.map Row.start).length) =>
    @lt_countAtMost _ hstarts value i hi
  generalize countAtMost (rows.map Row.start) value = n at hcount hlater
  rw [List.length_map] at hcount hlater
  rw [walk_eq hsorted hwide step hcount]
  have hrest : ∀ r ∈ (rows.drop n).reverse,¬ r.covers value = true := by
    intro r hr hcovers
    rw [List.mem_reverse,List.mem_drop_iff_getElem] at hr
    obtain ⟨i,hi,rfl⟩ := hr
    have hle := (covers_iff.mp hcovers).1
    have hlen : n+i < (rows.map Row.start).length := by
      rw [List.length_map]
      omega
    have hat := (hlater (n+i) (by omega)).mp (by rwa [List.getD_eq_getElem _ _ hlen,List.getElem_map])
    omega
  conv_rhs => rw [← List.take_append_drop n rows]
  rw [List.reverse_append,List.filter_append,List.filter_eq_nil_iff.mpr hrest,List.nil_append]

end Walk

end AstraNull.IntervalIndex

import Mathlib
import AstraNull.Tables
import AstraNull.Orders
import AstraNull.JsonText
import AstraNull.TargetHistory

/-!
# The latest observations

A stored row repeats no nonce, event id or digest of its tenant, and the two pointers of a target
and family are the greatest successful and the greatest failed row, in whatever order the rows
arrived.
-/
namespace AstraNull.ObservationHistory
open Tables Orders JsonText TargetHistory

section
variable (P : Platform)

/-- The rows share a nonce, an event id or a digest. -/
def Shares (a b : Row) : Prop :=
  repeats a.nonce b.nonce = true ∨ repeats a.eventId b.eventId = true ∨ a.digest = b.digest

/-- The pointer to the rows of a class, if the class has one. -/
def pointerOf (c : Current) : AttemptClass → Option Pointer
  | .successful => c.successful
  | .failedAttempt => c.failed
  | .retainedNoncurrent => none

def pointer (currents : List Current) (k : Key) (attemptClass : AttemptClass) : Option Pointer :=
  (currents.find? fun c => c.key == k).bind fun c => pointerOf c attemptClass

def rowsOf (rows : List Row) (k : Key) (attemptClass : AttemptClass) : List Row :=
  rows.filter fun r => decide (r.key = k ∧ r.attemptClass = attemptClass)

/-- The pointer is to a greatest one of the rows. -/
def Latest (rows : List Row) : Option Pointer → Prop
  | none => rows = []
  | some p => (∃ r ∈ rows,pointerTimes r = p) ∧
      ∀ r ∈ rows,compareObservationOrder P (pointerTimes r) p ≠ .gt

structure History (s : State) : Prop where
  distinct : s.rows.Pairwise fun a b => a.tenantId = b.tenantId → ¬ Shares a b
  latest : ∀ k attemptClass,attemptClass ≠ .retainedNoncurrent →
    Latest P (rowsOf s.rows k attemptClass) (pointer s.currents k attemptClass)

end

section
variable {P : Platform}

def orderKey (P : Platform) (p : Pointer) : JsString × JsString × JsString :=
  (stampText P (some p.observedAt),stampText P p.sourceCompletedAt,p.id)

def compareOrderKeys (a b : JsString × JsString × JsString) : Ordering :=
  (compare a.1 b.1).then ((compare a.2.1 b.2.1).then (compare a.2.2 b.2.2))

theorem totalOrder_compareOrderKeys : TotalOrder compareOrderKeys :=
  totalOrder_compare.prod (totalOrder_compare.prod totalOrder_compare)

theorem compareObservationOrder_eq (P : Platform) (p q : Pointer) :
    compareObservationOrder P p q = compareOrderKeys (orderKey P p) (orderKey P q) := rfl

theorem compare_self (p : Pointer) : compareObservationOrder P p p = .eq :=
  totalOrder_compareOrderKeys.refl (orderKey P p)

theorem compare_trans {p q r : Pointer} (hpq : compareObservationOrder P p q ≠ .gt)
    (hqr : compareObservationOrder P q r ≠ .gt) : compareObservationOrder P p r ≠ .gt := by
  rw [compareObservationOrder_eq] at hpq hqr ⊢
  exact totalOrder_compareOrderKeys.ne_gt_trans hpq hqr

theorem compare_of_gt {p q : Pointer} (h : compareObservationOrder P p q = .gt) :
    compareObservationOrder P q p ≠ .gt := by
  rw [compareObservationOrder_eq] at h ⊢
  rw [(totalOrder_compareOrderKeys.gt_iff _ _).mp h]
  nofun

/-- The preferred pointer is the greatest of the rows and the candidate. -/
theorem latest_append {rows : List Row} {current : Option Pointer} (h : Latest P rows current)
    (row : Row) : Latest P (rows++[row]) (some (preferPointer P current (pointerTimes row))) := by
  cases current with
  | none =>
      have hnil : rows = [] := h
      subst hnil
      refine ⟨⟨row,by simp,rfl⟩,fun r hr => ?_⟩
      rw [List.mem_singleton.mp hr]
      simp only [preferPointer,compare_self]
      nofun
  | some p =>
      obtain ⟨⟨r₀,hr₀,hp⟩,hmax⟩ := h
      simp only [preferPointer]
      split_ifs with hgt
      · refine ⟨⟨row,by simp,rfl⟩,fun r hr => ?_⟩
        rcases List.mem_append.mp hr with hr | hr
        · exact compare_trans (hmax r hr) (compare_of_gt hgt)
        · rw [List.mem_singleton.mp hr,compare_self]
          nofun
      · refine ⟨⟨r₀,List.mem_append_left _ hr₀,hp⟩,fun r hr => ?_⟩
        rcases List.mem_append.mp hr with hr | hr
        · exact hmax r hr
        · rw [List.mem_singleton.mp hr]
          exact hgt

theorem movePointer_key (row : Row) (c : Current) : (movePointer P row c).key = c.key := by
  cases h : row.attemptClass <;> simp [movePointer,h]

theorem pointerOf_movePointer (row : Row) (c : Current) {attemptClass : AttemptClass}
    (ha : attemptClass ≠ .retainedNoncurrent) :
    pointerOf (movePointer P row c) attemptClass = if row.attemptClass = attemptClass then
      some (preferPointer P (pointerOf c attemptClass) (pointerTimes row))
    else pointerOf c attemptClass := by
  cases h : row.attemptClass <;> cases attemptClass <;> simp_all [movePointer,pointerOf]

theorem pointer_applyCurrent (currents : List Current) (row : Row) (k : Key)
    {attemptClass : AttemptClass} (ha : attemptClass ≠ .retainedNoncurrent) :
    pointer (applyCurrent P currents row) k attemptClass =
      if row.key = k ∧ row.attemptClass = attemptClass then
        some (preferPointer P (pointer currents k attemptClass) (pointerTimes row))
      else pointer currents k attemptClass := by
  by_cases hr : row.attemptClass = .retainedNoncurrent
  · have hne : row.attemptClass ≠ attemptClass := fun he => ha (he.symm.trans hr)
    simp [applyCurrent,hr,Ne.symm ha]
  · simp only [applyCurrent,hr,if_false]
    generalize hl : (if currents.any fun c => c.key == row.key then currents
      else currents++[⟨row.key,none,none,row.createdAt⟩]) = l
    have hkeep : ∀ x : Current,(x.key == row.key) = true →
        ((movePointer P row x).key == row.key) = true := by
      intro x hx
      rw [movePointer_key]
      exact hx
    by_cases hk : row.key = k
    · subst hk
      have hsame : pointer l row.key attemptClass = pointer currents row.key attemptClass ∧
          ∃ c,l.find? (fun c => c.key == row.key) = some c := by
        rw [← hl]
        split_ifs with hany
        · refine ⟨rfl,Option.isSome_iff_exists.mp ?_⟩
          rw [List.find?_isSome]
          exact List.any_eq_true.mp hany
        · have hnone : currents.find? (fun c => c.key == row.key) = none := by
            rw [List.find?_eq_none]
            intro c hc hkey
            exact hany (List.any_eq_true.mpr ⟨c,hc,hkey⟩)
          have hadded : (currents++[(⟨row.key,none,none,row.createdAt⟩ : Current)]).find?
              (fun c => c.key == row.key) = some ⟨row.key,none,none,row.createdAt⟩ := by
            rw [List.find?_append,hnone]
            simp
          refine ⟨?_,_,hadded⟩
          simp only [pointer,hnone,hadded,Option.bind_some,Option.bind_none]
          cases attemptClass <;> rfl
      obtain ⟨hsame,c,hc⟩ := hsame
      have hpc : pointer l row.key attemptClass = pointerOf c attemptClass := by
        simp [pointer,hc]
      rw [← hsame,hpc,pointer,find?_update hkeep,hc]
      simp [pointerOf_movePointer row c ha]
    · rw [if_neg fun h => hk h.1,pointer,pointer,find?_update_other]
      · rw [← hl]
        split_ifs with hany
        · rfl
        · rw [List.find?_append]
          simp [hk]
      · intro x hx
        have hne : ((movePointer P row x).key == k) = (x.key == k) := by rw [movePointer_key]
        rw [hne]
        have : x.key ≠ k := fun he => hk ((beq_iff_eq.mp hx).symm.trans he)
        simp [this]

theorem distinctRows_eq_nil {rows : List Row} (h : distinctRows rows = []) : rows = [] := by
  have hgrow : ∀ (rows seen : List Row),seen ≠ [] → rows.foldl (fun seen row =>
      if seen.any fun x => x.id == row.id then
        seen.map fun x => if x.id == row.id then row else x
      else seen++[row]) seen ≠ [] := by
    intro rows
    induction rows with
    | nil => exact fun seen hs => hs
    | cons row rows ih =>
        intro seen hs
        refine ih _ ?_
        dsimp only
        split_ifs
        · simpa using hs
        · simp
  cases rows with
  | nil => rfl
  | cons row rows => exact absurd h (hgrow rows [row] (by simp))

theorem repeats_comm (a b : Option JsString) : repeats a b = repeats b a := by
  cases a <;> cases b <;> simp [repeats,Bool.beq_comm]

/-- What a call does: nothing, or it stores a row that repeats no other. -/
theorem accept_cases (P : Platform) (s : State) (q : Request) :
    (acceptTargetObservation P s q).1 = s ∨
    ∃ row,acceptTargetObservation P s q =
        (⟨s.rows++[row],applyCurrent P s.currents row⟩,.stored row) ∧
      ∀ r ∈ s.rows,r.tenantId = row.tenantId → ¬ Shares r row := by
  unfold acceptTargetObservation
  split_ifs
  · exact Or.inl rfl
  · split
    · exact Or.inl rfl
    · rename_i record hp
      dsimp only
      split
      · rename_i hnone
        refine Or.inr ⟨_,rfl,fun r hr ht hs => ?_⟩
        have hempty := distinctRows_eq_nil hnone
        rw [matchingRows,List.filter_eq_nil_iff] at hempty
        refine hempty r hr ?_
        simp only [Bool.and_eq_true,Bool.or_eq_true,beq_iff_eq]
        refine ⟨ht,?_⟩
        rcases hs with hn | he | hd
        · exact Or.inl (Or.inl (by rw [repeats_comm]; exact hn))
        · exact Or.inl (Or.inr (by rw [repeats_comm]; exact he))
        · exact Or.inr hd
      · split_ifs <;> exact Or.inl rfl
      · exact Or.inl rfl

theorem history_accept {s : State} (h : History P s) (q : Request) :
    History P (acceptTargetObservation P s q).1 := by
  rcases accept_cases P s q with he | ⟨row,he,hfresh⟩
  · rw [he]
    exact h
  · rw [he]
    refine ⟨?_,fun k attemptClass ha => ?_⟩
    · rw [List.pairwise_append]
      refine ⟨h.distinct,List.pairwise_singleton _ _,fun a ha b hb => ?_⟩
      rw [List.mem_singleton.mp hb]
      exact hfresh a ha
    · have hrows : rowsOf (s.rows++[row]) k attemptClass = rowsOf s.rows k attemptClass++
          if row.key = k ∧ row.attemptClass = attemptClass then [row] else [] := by
        rw [rowsOf,List.filter_append,List.filter_singleton,Bool.cond_decide]
        rfl
      dsimp only
      rw [hrows,pointer_applyCurrent s.currents row k ha]
      split_ifs
      · exact latest_append (h.latest k attemptClass ha) row
      · rw [List.append_nil]
        exact h.latest k attemptClass ha

/-- The call stored a row. -/
def Reply.isStored : Reply → Bool
  | .stored _ => true
  | _ => false

end

/-- Observations in any order: stored rows are distinct, the pointers are the greatest rows, and
a call that is refused or replayed changes nothing. -/
theorem observation_history (P : Platform) (qs : List Request) :
    History P (acceptAll P ⟨[],[]⟩ qs) ∧
      ∀ s q,Reply.isStored (acceptTargetObservation P s q).2 = false →
        (acceptTargetObservation P s q).1 = s := by
  constructor
  · have hstart : History P ⟨[],[]⟩ := ⟨List.Pairwise.nil,fun _ _ _ => rfl⟩
    generalize (⟨[],[]⟩ : State) = s at hstart ⊢
    induction qs generalizing s with
    | nil => exact hstart
    | cons q qs ih => exact ih _ (history_accept hstart q)
  · intro s q hreply
    rcases accept_cases P s q with he | ⟨row,he,-⟩
    · exact he
    · rw [he] at hreply
      cases hreply

end AstraNull.ObservationHistory

import Mathlib
import AstraNull.IsoClock
import AstraNull.ScriptValue
import AstraNull.Orders

/-!
# The order of ownership times

Instants are compared digit by digit; the comparison is that of the rational numbers the texts
denote. A new row gets the first whole millisecond at or after the clock that lies above all the
rows of its target, so the times of a target only grow, whatever the clock does.
-/
namespace AstraNull.OwnershipChronology
open JsonText ScriptText ScriptValue Orders OwnershipTransitions OwnershipClock IsoClock

/-- The value of the digits after a point. -/
def decimalValue : List ℕ → ℚ
  | [] => 0
  | d::ds => (d+decimalValue ds)/10

theorem decimalValue_bounds {ds : List ℕ} (h : ∀ d ∈ ds,d < 10) :
    0 ≤ decimalValue ds ∧ decimalValue ds < 1 := by
  induction ds with
  | nil => norm_num [decimalValue]
  | cons d ds ih =>
      rw [List.forall_mem_cons] at h
      obtain ⟨hlow,hhigh⟩ := ih h.2
      have hd : (d : ℚ) ≤ 9 := by exact_mod_cast Nat.le_of_lt_succ h.1
      have hd' : (0 : ℚ) ≤ d := Nat.cast_nonneg d
      rw [decimalValue]
      constructor
      · positivity
      · rw [div_lt_one (by norm_num)]
        linarith

theorem decimalValue_zeros (ds : List ℕ) (k : ℕ) :
    decimalValue (ds++List.replicate k 0) = decimalValue ds := by
  induction ds with
  | nil =>
      induction k with
      | zero => rfl
      | succ k ih =>
          rw [List.nil_append] at ih ⊢
          simp only [List.replicate_succ,decimalValue] at ih ⊢
          rw [ih]
          norm_num
  | cons d ds ih => rw [List.cons_append,decimalValue,decimalValue,ih]

theorem dropTrailingZeros_append (ds : List ℕ) :
    ∃ k,ds = dropTrailingZeros ds++List.replicate k 0 := by
  refine ⟨(ds.rtakeWhile (· = 0)).length,?_⟩
  have hsplit := List.rdropWhile_append_rtakeWhile (p := (· = 0)) (l := ds)
  have hzeros : ds.rtakeWhile (· = 0) = List.replicate (ds.rtakeWhile (· = 0)).length 0 :=
    List.eq_replicate_iff.mpr ⟨rfl,fun d hd => by simpa using List.mem_rtakeWhile_imp hd⟩
  rw [← hzeros]
  exact hsplit.symm

theorem decimalValue_dropTrailingZeros (ds : List ℕ) :
    decimalValue (dropTrailingZeros ds) = decimalValue ds := by
  obtain ⟨k,hk⟩ := dropTrailingZeros_append ds
  conv_rhs => rw [hk]
  exact (decimalValue_zeros _ k).symm

theorem decimalValue_padEnd (width : ℕ) (ds : List ℕ) :
    decimalValue (padEnd width ds) = decimalValue ds := decimalValue_zeros ds _

theorem mem_padEnd {width : ℕ} {ds : List ℕ} (h : ∀ d ∈ ds,d < 10) :
    ∀ d ∈ padEnd width ds,d < 10 := by
  intro d hd
  rcases List.mem_append.mp hd with hd | hd
  · exact h d hd
  · rw [List.eq_of_mem_replicate hd]
    norm_num

theorem compareDigits_eq {as bs : List ℕ} (hlen : as.length = bs.length) (has : ∀ d ∈ as,d < 10)
    (hbs : ∀ d ∈ bs,d < 10) :
    compareDigits as bs = compare (decimalValue as) (decimalValue bs) := by
  induction as generalizing bs with
  | nil =>
      cases bs with
      | nil => simp [compareDigits,decimalValue]
      | cons b bs => cases hlen
  | cons a as ih =>
      cases bs with
      | nil => cases hlen
      | cons b bs =>
          rw [List.forall_mem_cons] at has hbs
          have hinner := ih (by simpa using hlen) has.2 hbs.2
          obtain ⟨ha₀,ha₁⟩ := decimalValue_bounds has.2
          obtain ⟨hb₀,hb₁⟩ := decimalValue_bounds hbs.2
          rw [compareDigits,hinner,decimalValue,decimalValue]
          rcases lt_trichotomy a b with hlt | heq | hgt
          · have hcast : (a : ℚ)+1 ≤ b := by exact_mod_cast hlt
            have hrat : (a+decimalValue as)/10 < (b+decimalValue bs)/10 := by
              linarith
            rw [compare_lt_iff_lt.mpr hlt,compare_lt_iff_lt.mpr hrat]
            rfl
          · subst heq
            rw [compare_eq_iff_eq.mpr rfl,Ordering.then]
            rcases lt_trichotomy (decimalValue as) (decimalValue bs) with hv | hv | hv
            · rw [compare_lt_iff_lt.mpr hv,compare_lt_iff_lt.mpr (by linarith)]
            · rw [hv]
              simp
            · rw [compare_gt_iff_gt.mpr hv,compare_gt_iff_gt.mpr (by linarith)]
          · have hcast : (b : ℚ)+1 ≤ a := by exact_mod_cast hgt
            have hrat : (b+decimalValue bs)/10 < (a+decimalValue as)/10 := by
              linarith
            rw [compare_gt_iff_gt.mpr hgt,compare_gt_iff_gt.mpr hrat]
            rfl

/-- Seconds since the epoch, exactly. -/
def exactTime (i : Instant) : ℚ := i.seconds+decimalValue i.fraction

/-- The rational number of seconds a clock text denotes. -/
def denotedTime (c : Clock) : ℚ := c.seconds+decimalValue c.decimals

theorem exactTime_toInstant (c : Clock) : exactTime c.toInstant = denotedTime c := by
  rw [exactTime,denotedTime,Clock.toInstant,decimalValue_dropTrailingZeros]

structure Normal (i : Instant) : Prop where
  digits : ∀ d ∈ i.fraction,d < 10
  trimmed : dropTrailingZeros i.fraction = i.fraction

theorem normal_of_parsed {value : JsString} {i : Instant}
    (h : ownershipTransitionInstant value = some i) : Normal i := by
  obtain ⟨c,hvalid,-,-,rfl⟩ := clock_of_instant h
  have hsub : ∀ d ∈ dropTrailingZeros c.decimals,d ∈ c.decimals := by
    intro d hd
    exact (@List.rdropWhile_prefix ℕ (fun d => decide (d = 0)) c.decimals).subset hd
  exact ⟨fun d hd => hvalid.decimals d (hsub d hd),List.rdropWhile_idempotent _ _⟩

theorem compareOwnershipInstants_eq {i j : Instant} (hi : Normal i) (hj : Normal j) :
    compareOwnershipInstants i j = compare (exactTime i) (exactTime j) := by
  obtain ⟨hi₀,hi₁⟩ := decimalValue_bounds hi.digits
  obtain ⟨hj₀,hj₁⟩ := decimalValue_bounds hj.digits
  rw [compareOwnershipInstants,exactTime,exactTime]
  split_ifs with hne
  · rcases lt_or_gt_of_ne hne with hlt | hgt
    · have hcast : (i.seconds : ℚ)+1 ≤ j.seconds := by exact_mod_cast hlt
      rw [compare_lt_iff_lt.mpr hlt,compare_lt_iff_lt.mpr (by linarith)]
    · have hcast : (j.seconds : ℚ)+1 ≤ i.seconds := by exact_mod_cast hgt
      rw [compare_gt_iff_gt.mpr hgt,compare_gt_iff_gt.mpr (by linarith)]
  · rw [ne_eq,not_not] at hne
    have hlen : (padEnd (max i.fraction.length j.fraction.length) i.fraction).length =
        (padEnd (max i.fraction.length j.fraction.length) j.fraction).length := by
      simp only [padEnd,List.length_append,List.length_replicate]
      omega
    dsimp only
    rw [compareDigits_eq hlen (mem_padEnd hi.digits) (mem_padEnd hj.digits),decimalValue_padEnd,
      decimalValue_padEnd,hne]
    rcases lt_trichotomy (decimalValue i.fraction) (decimalValue j.fraction) with hv | hv | hv
    · rw [compare_lt_iff_lt.mpr hv,compare_lt_iff_lt.mpr (by linarith)]
    · rw [hv]
      simp
    · rw [compare_gt_iff_gt.mpr hv,compare_gt_iff_gt.mpr (by linarith)]

theorem digits_unique {as bs : List ℕ} (hlen : as.length = bs.length) (has : ∀ d ∈ as,d < 10)
    (hbs : ∀ d ∈ bs,d < 10) (h : decimalValue as = decimalValue bs) : as = bs := by
  induction as generalizing bs with
  | nil =>
      cases bs with
      | nil => rfl
      | cons b bs => cases hlen
  | cons a as ih =>
      cases bs with
      | nil => cases hlen
      | cons b bs =>
          rw [List.forall_mem_cons] at has hbs
          obtain ⟨ha₀,ha₁⟩ := decimalValue_bounds has.2
          obtain ⟨hb₀,hb₁⟩ := decimalValue_bounds hbs.2
          rw [decimalValue,decimalValue,div_left_inj' (by norm_num)] at h
          have hhead : a = b := by
            have hle : (a : ℚ) < b+1 := by linarith
            have hge : (b : ℚ) < a+1 := by linarith
            have hle' : a < b+1 := by exact_mod_cast hle
            have hge' : b < a+1 := by exact_mod_cast hge
            omega
          subst hhead
          rw [ih (by simpa using hlen) has.2 hbs.2 (by linarith)]

theorem dropTrailingZeros_padEnd {width : ℕ} {ds : List ℕ} (h : dropTrailingZeros ds = ds) :
    dropTrailingZeros (padEnd width ds) = ds := by
  rw [padEnd]
  generalize width-ds.length = k
  induction k with
  | zero => simpa using h
  | succ k ih =>
      rw [List.replicate_succ',← List.append_assoc]
      exact (List.rdropWhile_concat_pos _ _ _ (by simp)).trans ih

/-- Instants without trailing zeros are told apart by their times. -/
theorem exactTime_injective {i j : Instant} (hi : Normal i) (hj : Normal j)
    (h : exactTime i = exactTime j) : i = j := by
  obtain ⟨hi₀,hi₁⟩ := decimalValue_bounds hi.digits
  obtain ⟨hj₀,hj₁⟩ := decimalValue_bounds hj.digits
  rw [exactTime,exactTime] at h
  have hseconds : i.seconds = j.seconds := by
    have hle : (i.seconds : ℚ) < j.seconds+1 := by linarith
    have hge : (j.seconds : ℚ) < i.seconds+1 := by linarith
    have hle' : i.seconds < j.seconds+1 := by exact_mod_cast hle
    have hge' : j.seconds < i.seconds+1 := by exact_mod_cast hge
    omega
  have hvalues : decimalValue i.fraction = decimalValue j.fraction := by
    rw [hseconds] at h
    linarith
  have hpadded : padEnd (max i.fraction.length j.fraction.length) i.fraction =
      padEnd (max i.fraction.length j.fraction.length) j.fraction := by
    refine digits_unique ?_ (mem_padEnd hi.digits) (mem_padEnd hj.digits) ?_
    · simp only [padEnd,List.length_append,List.length_replicate]
      omega
    · rw [decimalValue_padEnd,decimalValue_padEnd,hvalues]
  have hfraction := congrArg dropTrailingZeros hpadded
  rw [dropTrailingZeros_padEnd hi.trimmed,dropTrailingZeros_padEnd hj.trimmed] at hfraction
  cases i
  cases j
  simp_all

/-- The instants some text is read as. -/
def ParsedInstant : Type := { i : Instant // ∃ value,ownershipTransitionInstant value = some i }

theorem ParsedInstant.normal (i : ParsedInstant) : Normal i.1 := by
  obtain ⟨value,h⟩ := i.2
  exact normal_of_parsed h

theorem totalOrder_parsed :
    TotalOrder fun i j : ParsedInstant => compareOwnershipInstants i.1 j.1 := by
  have hexact : TotalOrder fun i j : ParsedInstant => compare (exactTime i.1) (exactTime j.1) :=
    totalOrder_compare.on fun i j h => Subtype.ext (exactTime_injective i.normal j.normal h)
  have hsame : (fun i j : ParsedInstant => compareOwnershipInstants i.1 j.1) =
      fun i j => compare (exactTime i.1) (exactTime j.1) := by
    funext i j
    exact compareOwnershipInstants_eq i.normal j.normal
  rw [hsame]
  exact hexact

/-- The first whole millisecond above an instant is above it by at most a millisecond. -/
theorem afterInstant_bounds {i : Instant} (h : Normal i) :
    exactTime i*1000 < afterInstant i ∧ (afterInstant i : ℚ) ≤ exactTime i*1000+1 := by
  have hsplit : ∃ v : ℚ,0 ≤ v ∧ v < 1 ∧ decimalValue i.fraction*1000 =
      ((((padEnd 3 i.fraction).take 3).foldl (fun acc d => acc*10+d) 0 : ℕ) : ℚ)+v := by
    have hdigits := h.digits
    generalize i.fraction = ds at hdigits ⊢
    rcases ds with _ | ⟨a,_ | ⟨b,_ | ⟨c,rest⟩⟩⟩
    · exact ⟨0,le_refl _,by norm_num,by simp [decimalValue,padEnd,List.replicate]⟩
    · refine ⟨0,le_refl _,by norm_num,?_⟩
      simp [decimalValue,padEnd]
      ring
    · refine ⟨0,le_refl _,by norm_num,?_⟩
      simp [decimalValue,padEnd]
      ring
    · obtain ⟨hlow,hhigh⟩ := @decimalValue_bounds rest fun d hd => hdigits d (by simp [hd])
      refine ⟨decimalValue rest,hlow,hhigh,?_⟩
      simp [decimalValue,padEnd]
      ring
  obtain ⟨v,hlow,hhigh,hvalue⟩ := hsplit
  rw [exactTime,afterInstant,add_mul,hvalue]
  push_cast
  constructor <;> linarith

/-- The integers above an instant begin there. -/
theorem afterInstant_le {i : Instant} (h : Normal i) {m : ℤ} (hm : exactTime i*1000 < m) :
    afterInstant i ≤ m := by
  have hbound := (afterInstant_bounds h).2
  have hlt : (afterInstant i : ℚ) < m+1 := by linarith
  have hlt' : afterInstant i < m+1 := by exact_mod_cast hlt
  omega

def parsed (row : Verification) : Option Instant := ownershipTransitionInstant row.transitionedAt

/-- One row of the loop of `allocateOwnershipTransitionAt`. -/
def advance (latest : Option Instant) (row : Verification) : Option (Option Instant) := do
  let instant ← ownershipTransitionInstant row.transitionedAt
  match latest with
  | none => some (some instant)
  | some l => some (some (if compareOwnershipInstants instant l = .gt then instant else l))

theorem latestInstant_eq (rows : List Verification) :
    latestInstant rows = rows.foldlM advance none := rfl

theorem advance_unread {row : Verification} (h : parsed row = none) (latest : Option Instant) :
    advance latest row = none := by
  rw [advance,show ownershipTransitionInstant row.transitionedAt = none from h]
  rfl

/-- A read row moves the latest instant to itself or leaves it above itself. -/
theorem advance_read {row : Verification} {i : Instant} (h : parsed row = some i)
    {latest : Option Instant} (hlatest : ∀ l ∈ latest,Normal l) :
    ∃ l,advance latest row = some (some l) ∧ Normal l ∧ exactTime i ≤ exactTime l ∧
      (l = i ∨ l ∈ latest) ∧ ∀ l' ∈ latest,exactTime l' ≤ exactTime l := by
  have hnormal := normal_of_parsed h
  cases latest with
  | none =>
      refine ⟨i,?_,hnormal,le_refl _,.inl rfl,by simp⟩
      rw [advance,show ownershipTransitionInstant row.transitionedAt = some i from h]
      rfl
  | some l =>
      have hl := hlatest l rfl
      have hcompare := compareOwnershipInstants_eq hnormal hl
      by_cases hgt : compareOwnershipInstants i l = .gt
      · have hlt : exactTime l < exactTime i := compare_gt_iff_gt.mp (hcompare ▸ hgt)
        refine ⟨i,?_,hnormal,le_refl _,.inl rfl,?_⟩
        · rw [advance,show ownershipTransitionInstant row.transitionedAt = some i from h]
          simp [hgt]
        · rintro l' ⟨⟩
          exact hlt.le
      · have hle : exactTime i ≤ exactTime l := by
          by_contra hlt
          exact hgt (hcompare.trans (compare_gt_iff_gt.mpr (not_le.mp hlt)))
        refine ⟨l,?_,hl,hle,.inr rfl,?_⟩
        · rw [advance,show ownershipTransitionInstant row.transitionedAt = some i from h]
          simp [hgt]
        · rintro l' ⟨⟩
          exact le_refl _

theorem advance_rows {rows : List Verification} {latest : Option Instant}
    (hlatest : ∀ l ∈ latest,Normal l) (hread : ∀ row ∈ rows,∃ i,parsed row = some i) :
    ∃ last,rows.foldlM advance latest = some last ∧
      (∀ l ∈ last,Normal l ∧ (l ∈ latest ∨ ∃ row ∈ rows,parsed row = some l)) ∧
      (∀ l' ∈ latest,∃ l ∈ last,exactTime l' ≤ exactTime l) ∧
      ∀ row ∈ rows,∀ i,parsed row = some i → ∃ l ∈ last,exactTime i ≤ exactTime l := by
  induction rows generalizing latest with
  | nil =>
      exact ⟨latest,rfl,fun l hl => ⟨hlatest l hl,.inl hl⟩,fun l hl => ⟨l,hl,le_refl _⟩,by simp⟩
  | cons row rows ih =>
      rw [List.forall_mem_cons] at hread
      obtain ⟨⟨i,hi⟩,hrest⟩ := hread
      obtain ⟨l,hadvance,hnormal,hil,hfrom,habove⟩ := advance_read hi hlatest
      have hnext : ∀ l' ∈ some l,Normal l' := by
        rintro l' ⟨⟩
        exact hnormal
      obtain ⟨last,hfold,hlast,hkeep,hrows⟩ := ih hnext hrest
      obtain ⟨m,hm,hlm⟩ := hkeep l rfl
      refine ⟨last,?_,?_,?_,?_⟩
      · rw [List.foldlM_cons,hadvance]
        exact hfold
      · intro k hk
        obtain ⟨hkn,hkfrom⟩ := hlast k hk
        refine ⟨hkn,?_⟩
        rcases hkfrom with hkl | ⟨row',hrow',hk'⟩
        · cases hkl
          rcases hfrom with rfl | hin
          · exact .inr ⟨row,List.mem_cons_self,hi⟩
          · exact .inl hin
        · exact .inr ⟨row',List.mem_cons_of_mem _ hrow',hk'⟩
      · intro l' hl'
        exact ⟨m,hm,(habove l' hl').trans hlm⟩
      · intro row' hrow' j hj
        rcases List.mem_cons.mp hrow' with rfl | hrow'
        · cases hi.symm.trans hj
          exact ⟨m,hm,hil.trans hlm⟩
        · exact hrows row' hrow' j hj

theorem advance_refused {rows : List Verification} {row : Verification} (hrow : row ∈ rows)
    (h : parsed row = none) (latest : Option Instant) : rows.foldlM advance latest = none := by
  induction rows generalizing latest with
  | nil => cases hrow
  | cons r rows ih =>
      rw [List.foldlM_cons]
      rcases List.mem_cons.mp hrow with rfl | hrow
      · rw [advance_unread h]
        rfl
      · cases advance latest r with
        | none => rfl
        | some next => exact ih hrow next

/-- Every row of the target has a time that can be read. -/
def Readable (rows : List Verification) (tenantId targetId : JsString) : Prop :=
  ∀ row ∈ rows,isOf tenantId targetId row = true → ∃ i,parsed row = some i

/-- The milliseconds lie above every row of the target. -/
def Above (rows : List Verification) (tenantId targetId : JsString) (ms : ℤ) : Prop :=
  ∀ row ∈ rows,isOf tenantId targetId row = true → ∀ i,parsed row = some i →
    exactTime i*1000 < ms

/-- The first milliseconds from the clock on that lie above every row of the target. -/
structure FirstAbove (rows : List Verification) (tenantId targetId : JsString) (now next : ℤ) :
    Prop where
  clock : now ≤ next
  above : Above rows tenantId targetId next
  least : ∀ ms,now ≤ ms → Above rows tenantId targetId ms → next ≤ ms

theorem allocate_unreadable {rows : List Verification} {tenantId targetId : JsString} {now : ℤ}
    (h : ¬ Readable rows tenantId targetId) :
    allocateOwnershipTransitionAt rows tenantId targetId now = none := by
  rw [Readable] at h
  push Not at h
  obtain ⟨row,hrow,hof,hnone⟩ := h
  have hread : parsed row = none := Option.eq_none_iff_forall_ne_some.mpr hnone
  have hlatest := advance_refused (List.mem_filter.mpr ⟨hrow,hof⟩) hread none
  rw [← latestInstant_eq] at hlatest
  simp only [allocateOwnershipTransitionAt,hlatest]
  split_ifs <;> rfl

def nextMs (now : ℤ) : Option Instant → ℤ
  | none => now
  | some l => max (afterInstant l) now

theorem allocate_of_latest {rows : List Verification} {tenantId targetId : JsString} {now : ℤ}
    {last : Option Instant} (hnow : |now| ≤ maxDateMs)
    (h : latestInstant (rows.filter (isOf tenantId targetId)) = some last) :
    allocateOwnershipTransitionAt rows tenantId targetId now =
      if maxDateMs < nextMs now last then none else some (nextMs now last) := by
  have hlow := (abs_le.mp hnow).1
  have hnext : now ≤ nextMs now last := by
    cases last with
    | none => exact le_refl _
    | some l => exact le_max_right _ _
  have hbound : ¬ nextMs now last < -maxDateMs := by omega
  simp only [allocateOwnershipTransitionAt,if_neg (not_lt.mpr hnow),h,Option.bind_eq_bind,
    Option.bind_some]
  change (if maxDateMs < nextMs now last ∨ nextMs now last < -maxDateMs then _ else
    some (nextMs now last)) = _
  by_cases hbig : maxDateMs < nextMs now last
  · rw [if_pos (.inl hbig),if_pos hbig]
    rfl
  · rw [if_neg (not_or.mpr ⟨hbig,hbound⟩),if_neg hbig]

theorem allocate_readable {rows : List Verification} {tenantId targetId : JsString} {now : ℤ}
    (hread : Readable rows tenantId targetId) (hnow : |now| ≤ maxDateMs) :
    ∃ next,FirstAbove rows tenantId targetId now next ∧
      allocateOwnershipTransitionAt rows tenantId targetId now =
        if maxDateMs < next then none else some next := by
  have hfiltered : ∀ row ∈ rows.filter (isOf tenantId targetId),∃ i,parsed row = some i := by
    intro row hrow
    obtain ⟨hmem,hof⟩ := List.mem_filter.mp hrow
    exact hread row hmem hof
  have hstart : ∀ l ∈ (none : Option Instant),Normal l := by simp
  obtain ⟨last,hfold,hlast,-,hrows⟩ := advance_rows hstart hfiltered
  rw [← latestInstant_eq] at hfold
  refine ⟨nextMs now last,⟨?_,?_,?_⟩,allocate_of_latest hnow hfold⟩
  · cases last with
    | none => exact le_refl _
    | some l => exact le_max_right _ _
  · intro row hrow hof i hi
    obtain ⟨l,rfl,hle⟩ := hrows row (List.mem_filter.mpr ⟨hrow,hof⟩) i hi
    have hafter := (afterInstant_bounds (hlast l rfl).1).1
    have hmax : (afterInstant l : ℚ) ≤ (nextMs now (some l) : ℤ) := by
      exact_mod_cast le_max_left (afterInstant l) now
    linarith
  · intro ms hms habove
    cases last with
    | none => exact hms
    | some l =>
        obtain ⟨hnormal,hfrom⟩ := hlast l rfl
        rcases hfrom with hnone | ⟨row,hrow,hl⟩
        · cases hnone
        · obtain ⟨hmem,hof⟩ := List.mem_filter.mp hrow
          exact max_le (afterInstant_le hnormal (habove row hmem hof l hl)) hms

/-- The number is a safe integer. -/
def safeInteger : Numeric → Option ℤ
  | .finite n =>
      if (rational n).den = 1 ∧ |rational n| ≤ maxSafeInteger then some (rational n).num else none
  | _ => none

/-- `allocateOwnershipTransitionAt` with the check of its clock and the text it returns. -/
def allocateTimestamp (rows : List Verification) (tenantId targetId : JsString)
    (nowMs : Numeric) : Option JsString :=
  match safeInteger nowMs with
  | none => none
  | some now => (allocateOwnershipTransitionAt rows tenantId targetId now).map toISOString

theorem exactTime_iso {ms : ℤ} (h : |ms| ≤ maxDateMs) :
    ∃ i,ownershipTransitionInstant (toISOString ms) = some i ∧ exactTime i = ms/1000 := by
  refine ⟨_,instant_of_clock (isoClock_valid h) (isoClock_inRange h) (chars_toISOString ms),?_⟩
  rw [exactTime_toInstant,denotedTime,isoClock_seconds]
  have hdecimals : decimalValue (isoClock ms).decimals = ((ms%1000 : ℤ) : ℚ)/1000 := by
    generalize ht : (ms%86400000).toNat = t
    have hlist : (isoClock ms).decimals = [t/100%10,t/10%10,t%10] := by
      rw [← ht]
      rfl
    have hthousand : ((t/100%10*100+t/10%10*10+t%10 : ℕ) : ℤ) = ms%1000 := by omega
    rw [hlist,← hthousand]
    generalize t/100%10 = a
    generalize t/10%10 = b
    generalize t%10 = c
    simp only [decimalValue]
    push_cast
    ring
  rw [hdecimals]
  have hsplit : ((1000*(ms/1000)+ms%1000 : ℤ) : ℚ) = ms := by
    rw [Int.mul_ediv_add_emod]
  push_cast at hsplit
  linarith

/-- What happens to the rows: a caller asks for a time and appends its row, or rows come from
elsewhere. -/
inductive Act
  | transition (template : Verification) (nowMs : Numeric)
  | stored (row : Verification)

structure History where
  rows : List Verification
  /-- The rows that got their time from the allocation, in order. -/
  issued : List Verification := []

def step (h : History) : Act → History
  | .transition template nowMs =>
      match allocateTimestamp h.rows template.tenantId template.targetId nowMs with
      | none => h
      | some stamp =>
          let row := { template with transitionedAt := stamp }
          { rows := h.rows++[row], issued := h.issued++[row] }
  | .stored row => { h with rows := h.rows++[row] }

def run (h : History) (acts : List Act) : History := acts.foldl step h

/-- The second row has a later time than the first, as the texts denote them. -/
def Later (a b : Verification) : Prop :=
  ∃ i j,parsed a = some i ∧ parsed b = some j ∧ exactTime i < exactTime j

/-- What an allocated time is. -/
theorem allocateTimestamp_some {rows : List Verification} {tenantId targetId : JsString}
    {nowMs : Numeric} {stamp : JsString}
    (h : allocateTimestamp rows tenantId targetId nowMs = some stamp) :
    Readable rows tenantId targetId ∧ ∃ now next i,safeInteger nowMs = some now ∧
      |now| ≤ maxDateMs ∧ FirstAbove rows tenantId targetId now next ∧ next ≤ maxDateMs ∧
      stamp = toISOString next ∧ ownershipTransitionInstant stamp = some i ∧
      exactTime i = next/1000 := by
  rw [allocateTimestamp] at h
  cases hsafe : safeInteger nowMs with
  | none =>
      rw [hsafe] at h
      cases h
  | some now =>
      rw [hsafe] at h
      obtain ⟨ms,hms,rfl⟩ := Option.map_eq_some_iff.mp h
      have hnow : |now| ≤ maxDateMs := by
        by_contra hbig
        simp only [allocateOwnershipTransitionAt,if_pos (not_le.mp hbig)] at hms
        cases hms
      have hread : Readable rows tenantId targetId := by
        by_contra hno
        rw [allocate_unreadable hno] at hms
        cases hms
      obtain ⟨next,hfirst,hallocate⟩ := allocate_readable hread hnow
      rw [hallocate] at hms
      split_ifs at hms with hbig
      cases hms
      have hclock := hfirst.clock
      have hlow := (abs_le.mp hnow).1
      obtain ⟨i,hi,hexact⟩ := exactTime_iso (abs_le.mpr ⟨by omega,not_lt.mp hbig⟩)
      exact ⟨hread,now,ms,i,rfl,hnow,hfirst,not_lt.mp hbig,rfl,hi,hexact⟩

theorem issued_subset (acts : List Act) (rows : List Verification) :
    ∀ row ∈ (run ⟨rows,[]⟩ acts).issued,row ∈ (run ⟨rows,[]⟩ acts).rows := by
  have hstep : ∀ (h : History) (act : Act),(∀ row ∈ h.issued,row ∈ h.rows) →
      ∀ row ∈ (step h act).issued,row ∈ (step h act).rows := by
    intro h act hsub
    cases act with
    | stored row =>
        intro r hr
        exact List.mem_append_left _ (hsub r hr)
    | transition template nowMs =>
        rw [step]
        split
        · exact hsub
        · intro r hr
          rcases List.mem_append.mp hr with hr | hr
          · exact List.mem_append_left _ (hsub r hr)
          · exact List.mem_append_right _ hr
  induction acts using List.reverseRecOn with
  | nil => simp [run]
  | append_singleton acts act ih =>
      rw [run,List.foldl_append]
      exact hstep _ act ih

/-- Every allocated time is later than those allocated before it for the same target. -/
theorem issued_later (acts : List Act) (rows : List Verification) :
    (run ⟨rows,[]⟩ acts).issued.Pairwise fun a b =>
      isOf b.tenantId b.targetId a = true → Later a b := by
  induction acts using List.reverseRecOn with
  | nil => exact List.Pairwise.nil
  | append_singleton acts act ih =>
      have hsub := issued_subset acts rows
      rw [run,List.foldl_append]
      change (step (run ⟨rows,[]⟩ acts) act).issued.Pairwise _
      generalize run ⟨rows,[]⟩ acts = h at ih hsub
      cases act with
      | stored row => exact ih
      | transition template nowMs =>
          rw [step]
          split
          · exact ih
          · rename_i stamp hallocate
            obtain ⟨hread,now,next,i,-,-,hfirst,-,-,hi,hexact⟩ := allocateTimestamp_some hallocate
            refine List.pairwise_append.mpr ⟨ih,List.pairwise_singleton _ _,?_⟩
            intro a ha b hb hof
            rw [List.mem_singleton.mp hb] at hof ⊢
            obtain ⟨j,hj⟩ := hread a (hsub a ha) hof
            have habove := hfirst.above a (hsub a ha) hof j hj
            refine ⟨j,i,hj,hi,?_⟩
            rw [hexact]
            linarith

/-- The clock is a time of a date, all the rows of the target can be read, and the first time above
them is one of a date. -/
structure Allocatable (rows : List Verification) (tenantId targetId : JsString) (nowMs : Numeric)
    (now next : ℤ) : Prop where
  safe : safeInteger nowMs = some now
  date : |now| ≤ maxDateMs
  readable : Readable rows tenantId targetId
  first : FirstAbove rows tenantId targetId now next
  inRange : next ≤ maxDateMs

theorem allocateTimestamp_eq {rows : List Verification} {tenantId targetId : JsString}
    {nowMs : Numeric} {now next : ℤ} (h : Allocatable rows tenantId targetId nowMs now next) :
    allocateTimestamp rows tenantId targetId nowMs = some (toISOString next) := by
  obtain ⟨next',hfirst,hallocate⟩ := allocate_readable h.readable h.date
  have hsame : next' = next :=
    le_antisymm (hfirst.least next h.first.clock h.first.above)
      (h.first.least next' hfirst.clock hfirst.above)
  rw [allocateTimestamp,h.safe]
  dsimp only
  rw [hallocate,hsame,if_neg (not_lt.mpr h.inRange)]
  rfl

theorem allocation_outcome (rows : List Verification) (tenantId targetId : JsString)
    (nowMs : Numeric) :
    (∃ now next,Allocatable rows tenantId targetId nowMs now next ∧
      ∃ stamp i,allocateTimestamp rows tenantId targetId nowMs = some stamp ∧
        ownershipTransitionInstant stamp = some i ∧ (now : ℚ)/1000 ≤ exactTime i ∧
        ∀ row ∈ rows,isOf tenantId targetId row = true → ∃ j,parsed row = some j ∧
          exactTime j < exactTime i ∧ compareOwnershipInstants j i = .lt) ∨
    (¬ ∃ now next,Allocatable rows tenantId targetId nowMs now next) ∧
      allocateTimestamp rows tenantId targetId nowMs = none := by
  by_cases hcan : ∃ now next,Allocatable rows tenantId targetId nowMs now next
  · left
    obtain ⟨now,next,h⟩ := hcan
    have hlow := (abs_le.mp h.date).1
    have hclock := h.first.clock
    obtain ⟨i,hi,hexact⟩ := exactTime_iso (abs_le.mpr ⟨by omega,h.inRange⟩)
    refine ⟨now,next,h,toISOString next,i,allocateTimestamp_eq h,hi,?_,?_⟩
    · rw [hexact]
      have : (now : ℚ) ≤ next := by exact_mod_cast hclock
      linarith
    · intro row hrow hof
      obtain ⟨j,hj⟩ := h.readable row hrow hof
      have habove := h.first.above row hrow hof j hj
      have hlt : exactTime j < exactTime i := by
        rw [hexact]
        linarith
      refine ⟨j,hj,hlt,?_⟩
      rw [compareOwnershipInstants_eq (normal_of_parsed hj) (normal_of_parsed hi)]
      exact compare_lt_iff_lt.mpr hlt
  · refine .inr ⟨hcan,?_⟩
    by_contra hsome
    obtain ⟨stamp,hstamp⟩ := Option.ne_none_iff_exists'.mp hsome
    obtain ⟨hread,now,next,i,hsafe,hdate,hfirst,hin,-⟩ := allocateTimestamp_some hstamp
    exact hcan ⟨now,next,hsafe,hdate,hread,hfirst,hin⟩

/-- Allocation succeeds exactly where it can and then lies above the history; the comparison is the
total order of the denoted times; and allocated times grow along every run. -/
theorem ownership_chronology :
    (∀ rows tenantId targetId nowMs,
      (∃ now next,Allocatable rows tenantId targetId nowMs now next ∧
        ∃ stamp i,allocateTimestamp rows tenantId targetId nowMs = some stamp ∧
          ownershipTransitionInstant stamp = some i ∧ (now : ℚ)/1000 ≤ exactTime i ∧
          ∀ row ∈ rows,isOf tenantId targetId row = true → ∃ j,parsed row = some j ∧
            exactTime j < exactTime i ∧ compareOwnershipInstants j i = .lt) ∨
      (¬ ∃ now next,Allocatable rows tenantId targetId nowMs now next) ∧
        allocateTimestamp rows tenantId targetId nowMs = none) ∧
    TotalOrder (fun i j : ParsedInstant => compareOwnershipInstants i.1 j.1) ∧
    (∀ i j : ParsedInstant,
      compareOwnershipInstants i.1 j.1 = compare (exactTime i.1) (exactTime j.1)) ∧
    (∀ value i,ownershipTransitionInstant value = some i ↔ ∃ c : Clock,c.Valid ∧ c.InRange ∧
      chars value = c.text ∧ Normal i ∧ exactTime i = denotedTime c) ∧
    ∀ acts rows,(run ⟨rows,[]⟩ acts).issued.Pairwise fun a b =>
      isOf b.tenantId b.targetId a = true → Later a b := by
  refine ⟨allocation_outcome,totalOrder_parsed,?_,?_,issued_later⟩
  · intro i j
    exact compareOwnershipInstants_eq i.normal j.normal
  · intro value i
    constructor
    · intro h
      obtain ⟨c,hvalid,hrange,htext,hi⟩ := clock_of_instant h
      refine ⟨c,hvalid,hrange,htext,normal_of_parsed h,?_⟩
      rw [hi,exactTime_toInstant]
    · rintro ⟨c,hvalid,hrange,htext,hnormal,hexact⟩
      have hread := instant_of_clock hvalid hrange htext
      rw [hread,exactTime_injective hnormal (normal_of_parsed hread)]
      rw [hexact,exactTime_toInstant]

def rowAt (transitionedAt : String) : Verification where
  id := js "v"
  tenantId := js "t"
  targetId := js "g"
  state := js "dns_verified"
  sourceKind := js "dns_txt"
  sourceRef := .null
  transitionedAt := js transitionedAt
  transitionedBy := js "u"
  auditEntryId := js "a"

/-- Two rows of a target inside one millisecond; the second is written in another zone. -/
def finerRows : List Verification :=
  [rowAt "1970-01-01T00:00:00.0005Z",rowAt "1970-01-01T01:00:00.00049999+01:00"]

/-- The next row gets the millisecond above them, although the clock is below. -/
theorem finer_rows_passed : ∃ i,allocateTimestamp finerRows (js "t") (js "g") (.finite .zero) =
      some (js "1970-01-01T00:00:00.001Z") ∧
    ownershipTransitionInstant (js "1970-01-01T00:00:00.001Z") = some i ∧ exactTime i = 1/1000 ∧
    ∀ row ∈ finerRows,∃ j,parsed row = some j ∧ exactTime j < exactTime i ∧
      compareOwnershipInstants j i = .lt := by
  have hstamp : allocateTimestamp finerRows (js "t") (js "g") (.finite .zero) =
      some (js "1970-01-01T00:00:00.001Z") := by
    have hsafe : safeInteger (.finite .zero) = some 0 := by
      norm_num [safeInteger,rational,maxSafeInteger]
    have hallocate : allocateOwnershipTransitionAt finerRows (js "t") (js "g") 0 = some 1 := by
      decide +kernel
    have htext : toISOString 1 = js "1970-01-01T00:00:00.001Z" := by decide +kernel
    rw [allocateTimestamp,hsafe]
    dsimp only
    rw [hallocate,Option.map_some,htext]
  have hread : ownershipTransitionInstant (js "1970-01-01T00:00:00.001Z") =
      some ⟨0,[0,0,1]⟩ := by decide +kernel
  rcases ownership_chronology.1 finerRows (js "t") (js "g") (.finite .zero) with
    ⟨now,next,-,stamp,i,hsome,hi,-,habove⟩ | ⟨-,hnone⟩
  · cases hstamp.symm.trans hsome
    cases hread.symm.trans hi
    refine ⟨_,hstamp,hread,by norm_num [exactTime,decimalValue],fun row hrow => habove row hrow ?_⟩
    simp only [finerRows,List.mem_cons,List.not_mem_nil,or_false] at hrow
    rcases hrow with rfl | rfl <;> rfl
  · cases hstamp.symm.trans hnone

end AstraNull.OwnershipChronology

import Mathlib
import AstraNull.OwnershipClock

/-!
# The text of a date

`toISOString` of a date by its milliseconds: the year, month and day of the proleptic Gregorian
calendar, the time of day with three decimals, and the letter of universal time. The clock it
writes is one the reader of ownership times accepts, and it denotes the same milliseconds.
-/
namespace AstraNull.IsoClock
open JsonText ScriptText OwnershipTransitions OwnershipClock

theorem daysBeforeYear_succ (y : ℤ) :
    daysBeforeYear (y+1) = daysBeforeYear y+(daysInMonth y).sum := by
  have hsum : ((daysInMonth y).sum : ℤ) = if isLeapYear y then 366 else 365 := by
    simp only [daysInMonth]
    split_ifs <;> simp
  rw [hsum]
  simp only [daysBeforeYear,isLeapYear,Bool.and_eq_true,Bool.or_eq_true,decide_eq_true_eq]
  split_ifs with h <;> omega

example : daysBeforeYear 1970 = 0 := by decide

/-- The year of a day, from the mean length of a year. -/
def yearOfDay (day : ℤ) : ℤ :=
  let y := day*400/146097+1970
  if day < daysBeforeYear y then y-1 else if daysBeforeYear (y+1) ≤ day then y+1 else y

theorem yearOfDay_bounds (day : ℤ) :
    daysBeforeYear (yearOfDay day) ≤ day ∧ day < daysBeforeYear (yearOfDay day+1) := by
  have hmean := Int.mul_ediv_add_emod (day*400) 146097
  have hlow := Int.emod_nonneg (day*400) (show (146097 : ℤ) ≠ 0 by norm_num)
  have hhigh := Int.emod_lt_of_pos (day*400) (show (0 : ℤ) < 146097 by norm_num)
  simp only [yearOfDay]
  generalize day*400/146097 = q at hmean
  split_ifs with hbefore hafter
  · refine ⟨?_,by rwa [sub_add_cancel]⟩
    simp only [daysBeforeYear]
    omega
  · refine ⟨hafter,?_⟩
    simp only [daysBeforeYear]
    omega
  · exact ⟨not_lt.mp hbefore,not_le.mp hafter⟩

/-- The month and the day in it, from the lengths of the months on. -/
def monthOfDay : List ℕ → ℕ → ℕ → ℕ × ℕ
  | [],month,day => (month,day+1)
  | length::lengths,month,day =>
      if day < length then (month,day+1) else monthOfDay lengths (month+1) (day-length)

theorem monthOfDay_spec {lengths : List ℕ} {month day : ℕ} (h : day < lengths.sum) :
    ∃ k < lengths.length,(monthOfDay lengths month day).1 = month+k ∧
      1 ≤ (monthOfDay lengths month day).2 ∧
      (monthOfDay lengths month day).2 ≤ lengths.getD k 0 ∧
      day+1 = (lengths.take k).sum+(monthOfDay lengths month day).2 := by
  induction lengths generalizing month day with
  | nil => simp at h
  | cons length lengths ih =>
      rw [monthOfDay]
      split_ifs with hin
      · exact ⟨0,by simp,rfl,by simp,by simpa using hin,by simp⟩
      · rw [List.sum_cons] at h
        obtain ⟨k,hk,hmonth,hpos,hle,hday⟩ := @ih (month+1) (day-length) (by omega)
        refine ⟨k+1,by simpa using hk,by omega,hpos,by simpa using hle,?_⟩
        rw [List.take_succ_cons,List.sum_cons]
        omega

def isoClock (ms : ℤ) : Clock :=
  let day := ms/86400000
  let time := (ms%86400000).toNat
  let year := yearOfDay day
  let date := monthOfDay (daysInMonth year) 1 (day-daysBeforeYear year).toNat
  { year := year
    signed := !(0 ≤ year && year ≤ 9999)
    month := date.1
    day := date.2
    separator := 'T'
    hour := time/3600000
    minute := time/60000%60
    second := time/1000%60
    decimals := [time/100%10,time/10%10,time%10]
    zone := .utc 'Z' }

/-- `new Date(ms).toISOString()` for a date in range. -/
def toISOString (ms : ℤ) : JsString := (isoClock ms).text.flatMap units

example : chars (toISOString (-1)) = "1969-12-31T23:59:59.999Z".toList := by decide

theorem chars_toISOString (ms : ℤ) : chars (toISOString ms) = (isoClock ms).text :=
  chars_units _

theorem isoClock_date (ms : ℤ) :
    1 ≤ (isoClock ms).month ∧ (isoClock ms).month ≤ 12 ∧ 1 ≤ (isoClock ms).day ∧
      (isoClock ms).day ≤ (daysInMonth (isoClock ms).year).getD ((isoClock ms).month-1) 0 ∧
      daysBefore (isoClock ms).year (isoClock ms).month (isoClock ms).day = ms/86400000 := by
  obtain ⟨hlow,hhigh⟩ := yearOfDay_bounds (ms/86400000)
  rw [daysBeforeYear_succ] at hhigh
  have hday : (ms/86400000-daysBeforeYear (yearOfDay (ms/86400000))).toNat <
      (daysInMonth (yearOfDay (ms/86400000))).sum := by
    omega
  obtain ⟨k,hk,hmonth,hpos,hle,hsum⟩ := @monthOfDay_spec _ 1 _ hday
  have hlength : (daysInMonth (yearOfDay (ms/86400000))).length = 12 := rfl
  have hindex : (isoClock ms).month-1 = k := by
    rw [show (isoClock ms).month = 1+k from hmonth]
    omega
  rw [hindex]
  refine ⟨?_,?_,hpos,hle,?_⟩
  · rw [show (isoClock ms).month = 1+k from hmonth]
    omega
  · rw [show (isoClock ms).month = 1+k from hmonth]
    omega
  · rw [daysBefore,hindex]
    have hcast : ((isoClock ms).day : ℤ)+((daysInMonth (isoClock ms).year).take k).sum =
        (ms/86400000-daysBeforeYear (yearOfDay (ms/86400000))).toNat+1 := by
      rw [add_comm]
      exact_mod_cast hsum.symm
    have hyear : (isoClock ms).year = yearOfDay (ms/86400000) := rfl
    rw [hyear] at hcast ⊢
    omega

theorem isoClock_seconds (ms : ℤ) : (isoClock ms).seconds = ms/1000 := by
  obtain ⟨-,-,-,-,hdays⟩ := isoClock_date ms
  rw [Clock.seconds,hdays]
  simp only [isoClock,Zone.ahead]
  omega

theorem isoClock_year {ms : ℤ} (h : |ms| ≤ maxDateMs) : (isoClock ms).year.natAbs < 1000000 := by
  obtain ⟨hlow,hhigh⟩ := yearOfDay_bounds (ms/86400000)
  have hyear : (isoClock ms).year = yearOfDay (ms/86400000) := rfl
  rw [hyear]
  rw [abs_le] at h
  simp only [daysBeforeYear,maxDateMs] at hlow hhigh h
  omega

theorem isoClock_valid {ms : ℤ} (h : |ms| ≤ maxDateMs) : (isoClock ms).Valid := by
  obtain ⟨hmonth,hmonth',hday,hday',-⟩ := isoClock_date ms
  have hyear := isoClock_year h
  refine ⟨?_,⟨hmonth,hmonth'⟩,⟨hday,hday'⟩,.inl rfl,?_,?_,?_,?_,.inl rfl⟩
  · simp only [YearFits]
    split_ifs with hsigned
    · exact hyear
    · have : (0 ≤ (isoClock ms).year && (isoClock ms).year ≤ 9999) = true := by
        simpa [isoClock] using hsigned
      simp only [Bool.and_eq_true,decide_eq_true_eq] at this
      omega
  · simp only [isoClock]
    omega
  · simp only [isoClock]
    omega
  · simp only [isoClock]
    omega
  · simp only [isoClock,List.forall_mem_cons]
    refine ⟨by omega,by omega,by omega,by simp⟩

theorem isoClock_inRange {ms : ℤ} (h : |ms| ≤ maxDateMs) : (isoClock ms).InRange := by
  rw [abs_le] at h
  simp only [maxDateMs] at h
  rw [Clock.InRange,isoClock_seconds,abs_le]
  refine ⟨by simp only [maxDateSeconds]; omega,fun hmax => ?_⟩
  have hms : ms = 8640000000000000 := by
    simp only [maxDateSeconds] at hmax
    omega
  rw [hms]
  decide

end AstraNull.IsoClock

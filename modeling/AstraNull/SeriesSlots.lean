import Mathlib
import AstraNull.RuntimeStore
import AstraNull.OwnershipTransitions
import AstraNull.Schedules
import AstraNull.ScanPlanning
import AstraNull.CalendarDays
import AstraNull.SafeWindows

/-!
# Slots of a recurring series

`nextScanOccurrenceAfter` of `contracts/validationScanManagement.mjs` walks from one occurrence to
the next until it is past the present. In zones with a fixed offset a walk of at most 4000 steps
ends at the first slot of the series, as long as no month on the way was too short for the day
that the series was to return to.
-/
namespace AstraNull.SeriesSlots
open RuntimeStore OwnershipTransitions Schedules ScanPlanning CalendarDays SafeWindows

section
variable {zone : Zone} {recurrence : Recurrence} {now : ℤ} {c : ℕ → ℤ}

/-- A walk along rising instants ends at the first one after the present. -/
theorem seekOccurrence_first (hstep : ∀ i,(i = 0 ∨ c i ≤ now) →
      nextScanOccurrenceAt zone recurrence (c i) = some (c (i+1)) ∧ c i < c (i+1))
    {k : ℕ} (hk : now < c k) {n i : ℕ} (hi : i < k) (hkn : k ≤ i+n)
    (hbefore : ∀ j < k,j = 0 ∨ c j ≤ now) :
    seekOccurrence zone recurrence now n (c i) = some (c k) := by
  induction n generalizing i with
  | zero => omega
  | succ n ih =>
      obtain ⟨hnext,hlt⟩ := hstep i (hbefore i hi)
      rw [seekOccurrence,hnext]
      simp only [Option.bind_eq_bind,Option.bind_some]
      rcases Nat.lt_or_ge (i+1) k with hlater | hhere
      · have hpast : c (i+1) ≤ now := (hbefore (i+1) hlater).resolve_left (Nat.succ_ne_zero i)
        rw [if_neg (not_lt.mpr hpast),if_neg (not_le.mpr hlt)]
        exact ih hlater (by omega)
      · obtain rfl : i+1 = k := by omega
        rw [if_pos hk]

end

/-- The number of steps that first lead past the present. -/
theorem exists_steps {p : ℤ} (hp : 0 < p) (source now : ℤ) : ∃ k : ℕ,1 ≤ k ∧ now < source+k*p ∧
    (∀ j < k,j = 0 ∨ source+j*p ≤ now) ∧ source+k*p ≤ max source now+p := by
  rcases lt_or_ge now source with hlt | hge
  · exact ⟨1,le_rfl,by omega,fun j hj => Or.inl (by omega),by omega⟩
  · have hdiv := Int.ediv_mul_le (now-source) (show p ≠ 0 by omega)
    have hdiv' := Int.lt_ediv_add_one_mul_self (now-source) hp
    have hnonneg : 0 ≤ (now-source)/p := Int.ediv_nonneg (by omega) hp.le
    have hcast : ((((now-source)/p).toNat+1 : ℕ) : ℤ) = (now-source)/p+1 := by
      push_cast
      rw [Int.toNat_of_nonneg hnonneg]
    refine ⟨((now-source)/p).toNat+1,by omega,?_,fun j hj => Or.inr ?_,?_⟩
    · rw [hcast]
      omega
    · have hle : (j : ℤ)*p ≤ (now-source)/p*p := mul_le_mul_of_nonneg_right (by omega) hp.le
      omega
    · rw [hcast,add_mul,one_mul]
      omega

/-- No multiple of the step lies between the present and the end of the walk. -/
theorem steps_least {p : ℤ} (hp : 0 < p) {source now x : ℤ} {k : ℕ}
    (hbefore : ∀ j < k,j = 0 ∨ source+j*p ≤ now) (hx : source < x) (hnow : now < x)
    (hmem : (x-source)%p = 0) : source+k*p ≤ x := by
  obtain ⟨m,hm⟩ := Int.dvd_of_emod_eq_zero hmem
  have hm0 : 0 < m := by
    by_contra hneg
    have : p*m ≤ 0 := mul_nonpos_of_nonneg_of_nonpos hp.le (by omega)
    omega
  have hkm : (k : ℤ) ≤ m := by
    by_contra hlt
    rcases hbefore m.toNat (by omega) with h0 | hle
    · omega
    · rw [Int.toNat_of_nonneg hm0.le,mul_comm] at hle
      omega
  have : p*(k : ℤ) ≤ p*m := mul_le_mul_of_nonneg_left hkm hp.le
  rw [mul_comm p (k : ℤ)] at this
  omega

/-- The date is one of the cadence. -/
def OnDate (zone : Zone) (recurrence : Recurrence) (source x : ℤ) : Prop :=
  match recurrence.cadence with
  | .daily => True
  | .weekly => (zone recurrence.timezone x).weekday = (zone recurrence.timezone source).weekday
  | .monthly => (zone recurrence.timezone x).day = min (zone recurrence.timezone source).day
      (monthLength ((zone recurrence.timezone x).year*12+((zone recurrence.timezone x).month-1)))

/-- The instant shows the time of day of the source, on a date of the cadence. -/
structure InSeries (zone : Zone) (recurrence : Recurrence) (source x : ℤ) : Prop where
  hour : (zone recurrence.timezone x).hour = (zone recurrence.timezone source).hour
  minute : (zone recurrence.timezone x).minute = (zone recurrence.timezone source).minute
  second : (zone recurrence.timezone x).second = (zone recurrence.timezone source).second
  whole : x%1000 = 0
  date : OnDate zone recurrence source x

/-- The slots of a series that are still to come. -/
def upcoming (zone : Zone) (recurrence : Recurrence) (source now : ℤ) : Set ℤ :=
  {x | source < x ∧ now < x ∧ InSeries zone recurrence source x}

/-- What is planned is the first slot to come. -/
def Aligned (zone : Zone) (recurrence : Recurrence) (source now : ℤ) : Prop :=
  ∃ t,nextScanOccurrenceAfter zone recurrence source now = some t ∧
    IsLeast (upcoming zone recurrence source now) t

section
variable {zone : Zone} {minutes : String → ℤ} {source now : ℤ}

/-- The same clock on a later day, to the second. -/
theorem floor_days_eq (hz : Fixed zone minutes) (timezone : String) {days : ℤ}
    (hroom : Roomy source) (h1 : 1 ≤ days) (h7 : days ≤ 7) :
    (addLocalDays (zone timezone source) days).bind
      (fun parts => zonedDateToUtc zone parts timezone) =
        some (source/1000*1000+days*86400000) := by
  obtain ⟨hneg,hpos⟩ := offset_bounds hz timezone
  obtain ⟨hlow,hhigh⟩ := hroom
  have hmax : maxDateMs = 8640000000000000 := rfl
  rw [hz.shows timezone source (by omega) (by omega)]
  generalize hclock : source+minutes timezone*60000 = clock
  have hnext := @addLocalDays_onDay (clock/86400000) (clock/3600000%24) (clock/60000%60)
    (clock/1000%60) ((clock/86400000+4)%7).toNat (by omega) (by omega) (by omega) (by omega) days
    (by omega) (by omega)
  have hutc := @zonedDateToUtc_onDay _ _ hz timezone (clock/86400000+days) (clock/3600000%24)
    (clock/60000%60) (clock/1000%60) ((clock/86400000+4)%7).toNat (by omega) (by omega) (by omega)
    (by omega) (by omega)
  rw [shown_eq_onDay,hnext,Option.bind_some,hutc]
  congr 1
  omega

/-- In range, the instants of a series are whole days apart. -/
theorem inSeries_iff (hz : Fixed zone minutes) {recurrence : Recurrence} (hroom : Roomy source)
    (hwhole : source%1000 = 0) {x : ℤ} (hx : source ≤ x) (hlate : x ≤ maxDateMs) :
    InSeries zone recurrence source x ↔
      (x-source)%86400000 = 0 ∧ OnDate zone recurrence source x := by
  obtain ⟨hneg,hpos⟩ := offset_bounds hz recurrence.timezone
  obtain ⟨hlow,hhigh⟩ := hroom
  have hmax : maxDateMs = 8640000000000000 := rfl
  have hxs := hz.shows recurrence.timezone x (by omega) hlate
  have hss := hz.shows recurrence.timezone source (by omega) (by omega)
  constructor
  · rintro ⟨hh,hm,hs,hw,hd⟩
    rw [hxs,hss] at hh hm hs
    simp only [shown] at hh hm hs
    exact ⟨by omega,hd⟩
  · rintro ⟨hdays,hd⟩
    refine ⟨?_,?_,?_,by omega,hd⟩
    · rw [hxs,hss]
      simp only [shown]
      omega
    · rw [hxs,hss]
      simp only [shown]
      omega
    · rw [hxs,hss]
      simp only [shown]
      omega

/-- Slots that come every so many whole days. -/
theorem day_slots {recurrence : Recurrence} {days : ℤ} (h1 : 1 ≤ days) (h7 : days ≤ 7)
    (hroom : Roomy source) (hwhole : source%1000 = 0) (hnow : now ≤ maxDateMs-100*86400000)
    (hat : ∀ t,Roomy t → nextScanOccurrenceAt zone recurrence t =
      some (t/1000*1000+days*86400000))
    (hseries : ∀ x,source ≤ x → x ≤ maxDateMs →
      (InSeries zone recurrence source x ↔ (x-source)%(days*86400000) = 0))
    (hcap : now < source+4000*(days*86400000)) : Aligned zone recurrence source now := by
  obtain ⟨hlow,hhigh⟩ := hroom
  have hmax : maxDateMs = 8640000000000000 := rfl
  have hpos : 0 < days*86400000 := by omega
  obtain ⟨k,hk1,hk,hbefore,hlast⟩ := exists_steps hpos source now
  have hk4000 : k ≤ 4000 := by
    by_contra hlt
    rcases hbefore 4000 (by omega) with h0 | hle
    · omega
    · push_cast at hle
      omega
  have hstep : ∀ i : ℕ,(i = 0 ∨ source+i*(days*86400000) ≤ now) →
      nextScanOccurrenceAt zone recurrence (source+i*(days*86400000)) =
          some (source+(i+1 : ℕ)*(days*86400000)) ∧
        source+i*(days*86400000) < source+(i+1 : ℕ)*(days*86400000) := by
    intro i hi
    have hnonneg : (0 : ℤ) ≤ i*(days*86400000) := mul_nonneg (by omega) hpos.le
    have hnext : ((i+1 : ℕ) : ℤ)*(days*86400000) = i*(days*86400000)+days*86400000 := by
      push_cast
      ring
    have hdays : (i : ℤ)*(days*86400000) = i*days*86400*1000 := by ring
    have hbound : source+i*(days*86400000) ≤ maxDateMs-100*86400000 := by
      rcases hi with rfl | hi
      · push_cast
        omega
      · omega
    rw [hnext]
    refine ⟨?_,by omega⟩
    rw [hat _ ⟨by omega,hbound⟩]
    congr 1
    omega
  refine ⟨source+k*(days*86400000),?_,⟨?_,hk,?_⟩,?_⟩
  · have hwalk := @seekOccurrence_first zone recurrence now (fun i => source+i*(days*86400000))
      hstep k hk 4000 0 (by omega) (by omega) hbefore
    rw [nextScanOccurrenceAfter]
    simpa using hwalk
  · have hle : (1 : ℤ)*(days*86400000) ≤ k*(days*86400000) :=
      mul_le_mul_of_nonneg_right (by exact_mod_cast hk1) hpos.le
    omega
  · have hnonneg : (0 : ℤ) ≤ k*(days*86400000) := mul_nonneg (by omega) hpos.le
    rw [hseries _ (by omega) (by omega),add_sub_cancel_left,Int.mul_emod_left]
  · rintro x ⟨hx,hxnow,hmem⟩
    rcases lt_or_ge maxDateMs x with hlate | hle
    · omega
    · exact steps_least hpos hbefore hx hxnow ((hseries x hx.le hle).mp hmem)

end

section
variable {zone : Zone} {minutes : String → ℤ} {timezone : String} {source now : ℤ}

theorem daily_slots (hz : Fixed zone minutes) (hroom : Roomy source) (hwhole : source%1000 = 0)
    (hnow : now ≤ maxDateMs-100*86400000) (hcap : now < source+4000*86400000) :
    Aligned zone ⟨.daily,timezone⟩ source now := by
  refine day_slots le_rfl (by norm_num) hroom hwhole hnow
    (fun t ht => floor_days_eq hz timezone ht le_rfl (by norm_num)) (fun x hx hlate => ?_)
    (by rwa [one_mul])
  rw [inSeries_iff hz hroom hwhole hx hlate,one_mul]
  exact and_iff_left trivial

/-- The days of a week differ, so the same one comes every seven days. -/
theorem weekly_slots (hz : Fixed zone minutes) (hroom : Roomy source) (hwhole : source%1000 = 0)
    (hnow : now ≤ maxDateMs-100*86400000) (hcap : now < source+4000*(7*86400000)) :
    Aligned zone ⟨.weekly,timezone⟩ source now := by
  refine day_slots (by norm_num) le_rfl hroom hwhole hnow
    (fun t ht => floor_days_eq hz timezone ht (by norm_num) le_rfl) (fun x hx hlate => ?_) hcap
  rw [inSeries_iff hz hroom hwhole hx hlate]
  obtain ⟨hneg,hpos⟩ := offset_bounds hz timezone
  obtain ⟨hlow,hhigh⟩ := hroom
  have hmax : maxDateMs = 8640000000000000 := rfl
  have hdate : OnDate zone ⟨.weekly,timezone⟩ source x ↔
      (shown (x+minutes timezone*60000)).weekday =
        (shown (source+minutes timezone*60000)).weekday := by
    rw [← hz.shows timezone x (by omega) hlate,← hz.shows timezone source (by omega) (by omega)]
    exact Iff.rfl
  rw [hdate]
  simp only [shown]
  omega

end

section
variable (minutes : String → ℤ) (timezone : String)

/-- The day that a clock of the zone is at. -/
def clockDay (t : ℤ) : ℤ := (t+minutes timezone*60000)/86400000

/-- Its month, in the row of all months. -/
def clockMonth (t : ℤ) : ℤ := monthOf (clockDay minutes timezone t)

/-- Its day of the month. -/
def clockDate (t : ℤ) : ℤ := (civilDate (clockDay minutes timezone t)).2.2

/-- The instant of a date of a month at the time of day of the source. -/
def dateIn (source month date : ℤ) : ℤ :=
  (monthDay month+(date-1))*86400000+(source+minutes timezone*60000)%86400000-
    minutes timezone*60000

/-- The slot of a month: the date of the source, or the last one there is. -/
def slot (source month : ℤ) : ℤ :=
  dateIn minutes timezone source month
    (min (clockDate minutes timezone source) (monthLength month))

/-- The first month after that of the source whose slot is after the present. -/
def slotMonth (source now : ℤ) : ℤ :=
  max (clockMonth minutes timezone source+1)
    (if now < slot minutes timezone source (clockMonth minutes timezone now) then
      clockMonth minutes timezone now
    else clockMonth minutes timezone now+1)

/-- The date the walk is at after some months. A month that is too short shortens it for good. -/
def walkDate (source : ℤ) : ℕ → ℤ
  | 0 => clockDate minutes timezone source
  | i+1 => min (walkDate source i) (monthLength (clockMonth minutes timezone source+(i+1 : ℕ)))

end

section
variable {minutes : String → ℤ} {timezone : String} {source now : ℤ}

theorem clock_dateIn {month date : ℤ} (h1 : 1 ≤ date) (hlast : date ≤ monthLength month) :
    clockMonth minutes timezone (dateIn minutes timezone source month date) = month ∧
      clockDate minutes timezone (dateIn minutes timezone source month date) = date := by
  have hday : clockDay minutes timezone (dateIn minutes timezone source month date) =
      monthDay month+(date-1) := by
    rw [clockDay,dateIn]
    omega
  rw [clockMonth,clockDate,hday]
  exact day_of_month h1 hlast

theorem clockDate_bounds (t : ℤ) : 1 ≤ clockDate minutes timezone t ∧
    clockDate minutes timezone t ≤ monthLength (clockMonth minutes timezone t) :=
  (monthOf_spec _).2

theorem dateIn_self : dateIn minutes timezone source (clockMonth minutes timezone source)
    (clockDate minutes timezone source) = source := by
  have hday := (monthOf_spec (clockDay minutes timezone source)).1
  rw [dateIn,clockMonth,clockDate,hday,clockDay]
  omega

/-- A date lies before every date of a later month. -/
theorem dateIn_lt {a b date date' : ℤ} (hab : a < b) (hlast : date ≤ monthLength a)
    (h1 : 1 ≤ date') :
    dateIn minutes timezone source a date < dateIn minutes timezone source b date' := by
  have hmonths := monthDay_le (show a+1 ≤ b by omega)
  rw [monthLength] at hlast
  simp only [dateIn]
  omega

theorem slot_date (month : ℤ) : 1 ≤ min (clockDate minutes timezone source) (monthLength month) ∧
    min (clockDate minutes timezone source) (monthLength month) ≤ monthLength month := by
  have h1 := (@clockDate_bounds minutes timezone source).1
  have h28 := (monthLength_bounds month).1
  omega

theorem clock_slot (month : ℤ) :
    clockMonth minutes timezone (slot minutes timezone source month) = month ∧
      clockDate minutes timezone (slot minutes timezone source month) =
        min (clockDate minutes timezone source) (monthLength month) :=
  clock_dateIn (slot_date month).1 (slot_date month).2

theorem slot_lt {a b : ℤ} (h : a < b) :
    slot minutes timezone source a < slot minutes timezone source b :=
  dateIn_lt h (slot_date a).2 (slot_date b).1

theorem slot_le {a b : ℤ} (h : a ≤ b) :
    slot minutes timezone source a ≤ slot minutes timezone source b := by
  rcases eq_or_lt_of_le h with rfl | hlt
  · exact le_rfl
  · exact (slot_lt hlt).le

theorem slot_self : slot minutes timezone source (clockMonth minutes timezone source) = source := by
  rw [slot,min_eq_left (clockDate_bounds source).2,dateIn_self]

/-- The instants of a month, against a date in an earlier or a later one. -/
theorem dateIn_lt_instant {t month date : ℤ} (h : month < clockMonth minutes timezone t)
    (hlast : date ≤ monthLength month) : dateIn minutes timezone source month date < t := by
  have hself := @dateIn_self minutes timezone t
  have hmonths := monthDay_le (show month+1 ≤ clockMonth minutes timezone t by omega)
  have h1 := (@clockDate_bounds minutes timezone t).1
  rw [monthLength] at hlast
  rw [← hself]
  simp only [dateIn]
  omega

theorem instant_lt_dateIn {t month date : ℤ} (h : clockMonth minutes timezone t < month)
    (h1 : 1 ≤ date) : t < dateIn minutes timezone source month date := by
  have hself := @dateIn_self minutes timezone t
  have hmonths := monthDay_le (show clockMonth minutes timezone t+1 ≤ month by omega)
  have hlast := (@clockDate_bounds minutes timezone t).2
  rw [monthLength] at hlast
  rw [← hself]
  simp only [dateIn]
  omega

/-- A date of the next month at the latest is less than two months away. -/
theorem dateIn_near {t month date : ℤ} (h : month ≤ clockMonth minutes timezone t+1)
    (hlast : date ≤ monthLength month) :
    dateIn minutes timezone source month date < t+62*86400000 := by
  have hself := @dateIn_self minutes timezone t
  have hmonths := monthDay_le (show month+1 ≤ clockMonth minutes timezone t+1+1 by omega)
  have hthis := (monthLength_bounds (clockMonth minutes timezone t)).2
  have hnext := (monthLength_bounds (clockMonth minutes timezone t+1)).2
  have h1 := (@clockDate_bounds minutes timezone t).1
  rw [monthLength] at hlast hthis hnext
  rw [← hself]
  simp only [dateIn]
  omega

theorem slotMonth_spec : clockMonth minutes timezone source < slotMonth minutes timezone source now ∧
    now < slot minutes timezone source (slotMonth minutes timezone source now) ∧
    ∀ month,clockMonth minutes timezone source < month →
      month < slotMonth minutes timezone source now →
        slot minutes timezone source month ≤ now := by
  have hlater : ∀ month,clockMonth minutes timezone now < month →
      now < slot minutes timezone source month := fun month h =>
    instant_lt_dateIn h (slot_date month).1
  have hearlier : ∀ month,month < clockMonth minutes timezone now →
      slot minutes timezone source month ≤ now := fun month h =>
    (dateIn_lt_instant h (slot_date month).2).le
  rw [slotMonth]
  split_ifs with hin
  · refine ⟨by omega,?_,fun month hmonth hlt => hearlier month (by omega)⟩
    exact hin.trans_le (slot_le (le_max_right _ _))
  · refine ⟨by omega,hlater _ (by omega),fun month hmonth hlt => ?_⟩
    rcases eq_or_lt_of_le (show month ≤ clockMonth minutes timezone now by omega) with rfl | hlt'
    · exact not_lt.mp hin
    · exact hearlier month hlt'

theorem slotMonth_le (source now : ℤ) :
    slotMonth minutes timezone source now ≤ clockMonth minutes timezone source+1 ∨
      slotMonth minutes timezone source now ≤ clockMonth minutes timezone now+1 := by
  rw [slotMonth]
  split_ifs <;> omega

theorem walkDate_bounds (i : ℕ) : 1 ≤ walkDate minutes timezone source i ∧
    walkDate minutes timezone source i ≤
      monthLength (clockMonth minutes timezone source+i) ∧
    walkDate minutes timezone source i ≤ clockDate minutes timezone source := by
  have hdate := @clockDate_bounds minutes timezone source
  induction i with
  | zero => simpa [walkDate] using hdate
  | succ i ih =>
      have h28 := (monthLength_bounds (clockMonth minutes timezone source+(i+1 : ℕ))).1
      rw [walkDate]
      omega

/-- The date that is left is the least of what the months on the way allow. -/
theorem le_walkDate_iff {i : ℕ} {date : ℤ} : date ≤ walkDate minutes timezone source i ↔
    date ≤ clockDate minutes timezone source ∧
      ∀ month,clockMonth minutes timezone source < month →
        month ≤ clockMonth minutes timezone source+i → date ≤ monthLength month := by
  induction i with
  | zero =>
      rw [walkDate]
      exact ⟨fun h => ⟨h,fun month hlt hle => by push_cast at hle; omega⟩,fun h => h.1⟩
  | succ i ih =>
      rw [walkDate,le_min_iff,ih]
      constructor
      · rintro ⟨⟨hdate,hmonths⟩,hlast⟩
        refine ⟨hdate,fun month hlt hle => ?_⟩
        rcases eq_or_lt_of_le hle with rfl | hlt'
        · exact hlast
        · exact hmonths month hlt (by push_cast at hlt'; omega)
      · rintro ⟨hdate,hmonths⟩
        refine ⟨⟨hdate,fun month hlt hle => hmonths month hlt (by push_cast; omega)⟩,?_⟩
        exact hmonths _ (by push_cast; omega) le_rfl

theorem dateIn_congr {t month date month' date' : ℤ}
    (h : t = dateIn minutes timezone source month date) :
    dateIn minutes timezone t month' date' = dateIn minutes timezone source month' date' := by
  have htime : (t+minutes timezone*60000)%86400000 = (source+minutes timezone*60000)%86400000 := by
    rw [h,dateIn]
    omega
  rw [dateIn,dateIn,htime]

end

section
variable {zone : Zone} {minutes : String → ℤ} {timezone : String} {source now : ℤ}

/-- The last day of the month after the one that is shown. -/
theorem lastDayOfNextMonth_shown {clock : ℤ} (hlow : -683002 ≤ clock/86400000)
    (hhigh : clock/86400000 ≤ 99999930) : lastDayOfNextMonth (shown clock) =
      some (monthLength (monthOf (clock/86400000)+1)) := by
  have hyear := hundred_le_year hlow
  obtain ⟨hday,hpos,hlast⟩ := monthOf_spec (clock/86400000)
  have hthis := monthLength_bounds (monthOf (clock/86400000))
  have hnext := monthLength_bounds (monthOf (clock/86400000)+1)
  have hlater := (@day_of_month (monthOf (clock/86400000)+1)
    (monthLength (monthOf (clock/86400000)+1)) (by omega) le_rfl).2
  have hmonth : (civilDate (clock/86400000)).1*12+((civilDate (clock/86400000)).2.1+1) =
      monthOf (clock/86400000)+1+1 := by
    rw [monthOf]
    ring
  have hstart : monthStart (civilDate (clock/86400000)).1 ((civilDate (clock/86400000)).2.1+1) =
      monthDay (monthOf (clock/86400000)+1)+monthLength (monthOf (clock/86400000)+1) := by
    rw [monthStart_eq_monthDay,hmonth,monthLength]
    ring
  have hend : monthDay (monthOf (clock/86400000)+1) =
      monthDay (monthOf (clock/86400000))+monthLength (monthOf (clock/86400000)) := by
    rw [monthLength]
    ring
  have hclip : dateUTC (shown clock).year ((shown clock).month+1) 0 0 0 0 =
      some ((monthDay (monthOf (clock/86400000)+1)+
        (monthLength (monthOf (clock/86400000)+1)-1))*86400000) := by
    have hmax : maxDateMs = 8640000000000000 := rfl
    simp only [shown]
    rw [dateUTC_of_hundred_le hyear,hstart]
    refine (timeClip_of_le (abs_le.mpr ⟨?_,?_⟩)).trans (congrArg some ?_) <;> omega
  rw [lastDayOfNextMonth,hclip]
  simp only [Option.bind_eq_bind,Option.bind_some]
  rw [Int.mul_ediv_cancel _ (by norm_num),hlater]
  rfl

/-- One step of a monthly series. -/
theorem floor_month_eq (hz : Fixed zone minutes) (hroom : Roomy source) (hwhole : source%1000 = 0) :
    cadenceFloor zone .monthly timezone source false =
      some (dateIn minutes timezone source (clockMonth minutes timezone source+1)
        (min (clockDate minutes timezone source)
          (monthLength (clockMonth minutes timezone source+1)))) := by
  obtain ⟨hneg,hpos⟩ := offset_bounds hz timezone
  obtain ⟨hlow,hhigh⟩ := hroom
  have hmax : maxDateMs = 8640000000000000 := rfl
  have hshown := hz.shows timezone source (by omega) (by omega)
  simp only [dateIn,clockMonth,clockDate,clockDay]
  generalize hclock : source+minutes timezone*60000 = clock at hshown
  have hyear := hundred_le_year (show -683002 ≤ clock/86400000 by omega)
  have hlast := @lastDayOfNextMonth_shown clock (by omega) (by omega)
  obtain ⟨hday,hday1,hdayLast⟩ := monthOf_spec (clock/86400000)
  have hthis := monthLength_bounds (monthOf (clock/86400000))
  have hend : monthDay (monthOf (clock/86400000)+1) =
      monthDay (monthOf (clock/86400000))+monthLength (monthOf (clock/86400000)) := by
    rw [monthLength]
    ring
  have h28 := (monthLength_bounds (monthOf (clock/86400000)+1)).1
  have hstart : monthStart (civilDate (clock/86400000)).1 (civilDate (clock/86400000)).2.1 =
      monthDay (monthOf (clock/86400000)+1) := by
    rw [monthStart_eq_monthDay,monthOf]
    congr 1
    ring
  generalize hdate : min (civilDate (clock/86400000)).2.2
    (monthLength (monthOf (clock/86400000)+1)) = date
  have hdateBounds : 1 ≤ date ∧ date ≤ (civilDate (clock/86400000)).2.2 := by omega
  have hutc : dateUTC (shown clock).year ((shown clock).month+1-1)
      (min (shown clock).day (monthLength (monthOf (clock/86400000)+1))) (shown clock).hour
      (shown clock).minute (shown clock).second =
      some ((monthDay (monthOf (clock/86400000)+1)+(date-1))*86400000+clock%86400000) := by
    simp only [shown,hdate,add_sub_cancel_right]
    rw [dateUTC_of_hundred_le hyear,hstart]
    refine (timeClip_of_le (abs_le.mpr ⟨?_,?_⟩)).trans (congrArg some ?_) <;> omega
  rw [cadenceFloor,if_neg Bool.false_ne_true]
  simp only [hshown,hlast,Option.bind_eq_bind,Option.bind_some]
  exact zonedDateToUtc_fixed hz timezone hutc (by omega) (by omega) (by omega)

/-- In range, an instant belongs to a monthly series when it is the slot of its month. -/
theorem inSeries_monthly_iff (hz : Fixed zone minutes) (hroom : Roomy source)
    (hwhole : source%1000 = 0) {x : ℤ} (hx : source ≤ x) (hlate : x ≤ maxDateMs) :
    InSeries zone ⟨.monthly,timezone⟩ source x ↔
      x = slot minutes timezone source (clockMonth minutes timezone x) := by
  obtain ⟨hneg,hpos⟩ := offset_bounds hz timezone
  obtain ⟨hlow,hhigh⟩ := hroom
  have hmax : maxDateMs = 8640000000000000 := rfl
  have hdate : OnDate zone ⟨.monthly,timezone⟩ source x ↔ clockDate minutes timezone x =
      min (clockDate minutes timezone source) (monthLength (clockMonth minutes timezone x)) := by
    rw [OnDate,hz.shows timezone x (by omega) hlate,hz.shows timezone source (by omega) (by omega)]
    exact Iff.rfl
  rw [inSeries_iff hz ⟨hlow,hhigh⟩ hwhole hx hlate,hdate]
  constructor
  · rintro ⟨hdays,hd⟩
    have hself := (monthOf_spec (clockDay minutes timezone x)).1
    rw [slot,← hd,dateIn,clockMonth,clockDate,hself,clockDay]
    omega
  · intro he
    have hclock := (@clock_slot minutes timezone source (clockMonth minutes timezone x)).2
    rw [← he] at hclock
    rw [slot,dateIn] at he
    exact ⟨by omega,hclock⟩

/-- The slot of the month that is due is the first one to come. -/
theorem slot_least (hz : Fixed zone minutes) (hroom : Roomy source) (hwhole : source%1000 = 0)
    (hnow : now ≤ maxDateMs-100*86400000) :
    IsLeast (upcoming zone ⟨.monthly,timezone⟩ source now)
      (slot minutes timezone source (slotMonth minutes timezone source now)) := by
  obtain ⟨hafter,hpast,hbefore⟩ := @slotMonth_spec minutes timezone source now
  have hsource : source < slot minutes timezone source (slotMonth minutes timezone source now) := by
    conv_lhs => rw [← @slot_self minutes timezone source]
    exact slot_lt hafter
  -- the month is at most one after that of the later one of the two
  have hrange : slot minutes timezone source (slotMonth minutes timezone source now) ≤
      maxDateMs := by
    have hmax : maxDateMs = 8640000000000000 := rfl
    obtain ⟨-,hhigh⟩ := hroom
    rcases slotMonth_le source now with hle | hle
    · have hnear : slot minutes timezone source (slotMonth minutes timezone source now) <
          source+62*86400000 := dateIn_near hle (slot_date _).2
      omega
    · have hnear : slot minutes timezone source (slotMonth minutes timezone source now) <
          now+62*86400000 := dateIn_near hle (slot_date _).2
      omega
  refine ⟨⟨hsource,hpast,?_⟩,?_⟩
  · rw [inSeries_monthly_iff hz hroom hwhole hsource.le hrange,(clock_slot _).1]
  · rintro x ⟨hx,hxnow,hmem⟩
    rcases lt_or_ge maxDateMs x with hlate | hle
    · exact hrange.trans hlate.le
    · rw [inSeries_monthly_iff hz hroom hwhole hx.le hle] at hmem
      rw [hmem]
      refine slot_le ?_
      by_contra hlt
      have hmonth : clockMonth minutes timezone source < clockMonth minutes timezone x := by
        by_contra hge
        have := @slot_le minutes timezone source _ _ (not_lt.mp hge)
        rw [slot_self,← hmem] at this
        omega
      have := hbefore _ hmonth (not_le.mp hlt)
      rw [← hmem] at this
      omega

/-- The instant of the walk after some months. -/
def walked (minutes : String → ℤ) (timezone : String) (source : ℤ) (i : ℕ) : ℤ :=
  dateIn minutes timezone source (clockMonth minutes timezone source+i)
    (walkDate minutes timezone source i)

theorem walked_zero : walked minutes timezone source 0 = source := by
  rw [walked,walkDate,Nat.cast_zero,add_zero,dateIn_self]

theorem walked_lt (i : ℕ) :
    walked minutes timezone source i < walked minutes timezone source (i+1) :=
  dateIn_lt (by push_cast; omega) (walkDate_bounds i).2.1 (walkDate_bounds (i+1)).1

theorem le_walked (i : ℕ) : source ≤ walked minutes timezone source i := by
  induction i with
  | zero => rw [walked_zero]
  | succ i ih => exact ih.trans (walked_lt i).le

/-- The walk is never past the slot of the month it is in. -/
theorem walked_le_slot (i : ℕ) : walked minutes timezone source i ≤
    slot minutes timezone source (clockMonth minutes timezone source+i) := by
  obtain ⟨-,hlast,hdate⟩ := @walkDate_bounds minutes timezone source i
  have hmin := le_min hdate hlast
  simp only [walked,slot,dateIn]
  omega

theorem next_walked (hz : Fixed zone minutes) (hroom : Roomy source) (hwhole : source%1000 = 0)
    {i : ℕ} (hlate : walked minutes timezone source i ≤ maxDateMs-100*86400000) :
    nextScanOccurrenceAt zone ⟨.monthly,timezone⟩ (walked minutes timezone source i) =
      some (walked minutes timezone source (i+1)) := by
  obtain ⟨h1,hlast,-⟩ := @walkDate_bounds minutes timezone source i
  obtain ⟨hmonth,hdate⟩ := @clock_dateIn minutes timezone source _ _ h1 hlast
  have hstep := @floor_month_eq zone minutes timezone (walked minutes timezone source i) hz
    ⟨hroom.1.trans (le_walked i),hlate⟩ (by simp only [walked,dateIn]; omega)
  have hpos : clockMonth minutes timezone source+((i+1 : ℕ) : ℤ) =
      clockMonth minutes timezone source+i+1 := by
    push_cast
    ring
  rw [nextScanOccurrenceAt,hstep,walked,dateIn_congr rfl,hmonth,hdate,walked,walkDate,hpos]

/-- A monthly walk ends in the month of the first slot to come, or in the one after it. -/
theorem walk_ends (hz : Fixed zone minutes) (hroom : Roomy source) (hwhole : source%1000 = 0)
    (hnow : now ≤ maxDateMs-100*86400000) {n : ℕ}
    (hn : clockMonth minutes timezone source+n = slotMonth minutes timezone source now)
    (hcap : n < 4000) :
    nextScanOccurrenceAfter zone ⟨.monthly,timezone⟩ source now =
      some (if now < walked minutes timezone source n then walked minutes timezone source n
        else walked minutes timezone source (n+1)) := by
  obtain ⟨hafter,hpast,hbefore⟩ := @slotMonth_spec minutes timezone source now
  have hearlier : ∀ j < n,j = 0 ∨ walked minutes timezone source j ≤ now := by
    intro j hj
    rcases Nat.eq_zero_or_pos j with h0 | hpos
    · exact Or.inl h0
    · exact Or.inr ((walked_le_slot j).trans (hbefore _ (by omega) (by omega)))
  have hstep : ∀ i,(i = 0 ∨ walked minutes timezone source i ≤ now) →
      nextScanOccurrenceAt zone ⟨.monthly,timezone⟩ (walked minutes timezone source i) =
          some (walked minutes timezone source (i+1)) ∧
        walked minutes timezone source i < walked minutes timezone source (i+1) := by
    intro i hi
    refine ⟨next_walked hz hroom hwhole ?_,walked_lt i⟩
    rcases hi with rfl | hi
    · rw [walked_zero]
      exact hroom.2
    · exact hi.trans hnow
  rw [nextScanOccurrenceAfter]
  split_ifs with hhere
  · have hwalk := @seekOccurrence_first _ _ _ _ hstep n hhere 4000 0 (by omega) (by omega) hearlier
    rwa [walked_zero] at hwalk
  · -- the slot of the month is after the present, so the present is not in a later month
    have hthis : clockMonth minutes timezone now ≤ slotMonth minutes timezone source now := by
      by_contra hlt
      have hthen : slot minutes timezone source (slotMonth minutes timezone source now) < now :=
        dateIn_lt_instant (not_le.mp hlt) (slot_date _).2
      omega
    have hnext : now < walked minutes timezone source (n+1) :=
      instant_lt_dateIn (by push_cast; omega) (walkDate_bounds (n+1)).1
    have hwalk := @seekOccurrence_first _ _ _ _ hstep (n+1) hnext 4000 0 (by omega) (by omega)
      (fun j hj => ?_)
    · rwa [walked_zero] at hwalk
    · rcases Nat.lt_or_ge j n with hlt | hge
      · exact hearlier j hlt
      · obtain rfl : j = n := by omega
        exact Or.inr (not_lt.mp hhere)

/-- The months on the way are those that decide. -/
theorem aligned_monthly_iff (hz : Fixed zone minutes) (hroom : Roomy source)
    (hwhole : source%1000 = 0) (hnow : now ≤ maxDateMs-100*86400000)
    (hcap : slotMonth minutes timezone source now < clockMonth minutes timezone source+4000) :
    Aligned zone ⟨.monthly,timezone⟩ source now ↔
      ∀ month,clockMonth minutes timezone source < month →
        month < slotMonth minutes timezone source now →
          min (clockDate minutes timezone source)
            (monthLength (slotMonth minutes timezone source now)) ≤ monthLength month := by
  obtain ⟨hafter,hpast,-⟩ := @slotMonth_spec minutes timezone source now
  have hleast := @slot_least zone minutes timezone source now hz hroom hwhole hnow
  obtain ⟨n,hn⟩ : ∃ n : ℕ,clockMonth minutes timezone source+n =
      slotMonth minutes timezone source now :=
    ⟨(slotMonth minutes timezone source now-clockMonth minutes timezone source).toNat,by omega⟩
  have hends := walk_ends hz hroom hwhole hnow hn (by omega)
  have hleft := @le_walkDate_iff minutes timezone source n
    (min (clockDate minutes timezone source)
      (monthLength (slotMonth minutes timezone source now)))
  obtain ⟨h1,hlast,hdate⟩ := @walkDate_bounds minutes timezone source n
  rw [hn] at hleft hlast
  constructor
  · rintro ⟨t,ht,ht'⟩
    obtain rfl := ht'.unique hleast
    rw [hends] at ht
    have hmonth := @clock_slot minutes timezone source (slotMonth minutes timezone source now)
    rw [← Option.some.inj ht] at hmonth
    split_ifs at hmonth with hhere
    · have hclock := (@clock_dateIn minutes timezone source _ _ h1 hlast).2
      rw [walked,hn,hclock] at hmonth
      intro month hlow hhigh
      exact (hleft.mp hmonth.2.ge).2 month hlow hhigh.le
    · obtain ⟨h1',hlast',-⟩ := @walkDate_bounds minutes timezone source (n+1)
      have hclock := (@clock_dateIn minutes timezone source _ _ h1' hlast').1
      rw [walked,hclock] at hmonth
      push_cast at hmonth
      omega
  · intro h
    have hfull : walkDate minutes timezone source n = min (clockDate minutes timezone source)
        (monthLength (slotMonth minutes timezone source now)) := by
      refine le_antisymm (le_min hdate hlast) (hleft.mpr ⟨min_le_left _ _,?_⟩)
      intro month hlow hhigh
      rcases eq_or_lt_of_le hhigh with rfl | hlt
      · exact min_le_right _ _
      · exact h month hlow hlt
    have hslot : walked minutes timezone source n =
        slot minutes timezone source (slotMonth minutes timezone source now) := by
      rw [walked,hn,hfull,slot]
    refine ⟨_,hends,?_⟩
    rw [hslot,if_pos hpast]
    exact hleast

/-- The second that an instant is in. Only that is read of the source of a series. -/
def wholeSecond (t : ℤ) : ℤ := t/1000*1000

theorem clockDay_wholeSecond :
    clockDay minutes timezone (wholeSecond source) = clockDay minutes timezone source := by
  rw [clockDay,clockDay,wholeSecond]
  omega

theorem roomy_wholeSecond (h : Roomy source) : Roomy (wholeSecond source) := by
  obtain ⟨hlow,hhigh⟩ := h
  have hmax : maxDateMs = 8640000000000000 := rfl
  rw [wholeSecond]
  constructor <;> omega

theorem zone_wholeSecond (hz : Fixed zone minutes) (hroom : Roomy source) :
    zone timezone (wholeSecond source) = zone timezone source := by
  obtain ⟨hneg,hpos⟩ := offset_bounds hz timezone
  obtain ⟨hlow,hhigh⟩ := hroom
  have hmax : maxDateMs = 8640000000000000 := rfl
  rw [wholeSecond,hz.shows timezone source (by omega) (by omega),
    hz.shows timezone _ (by omega) (by omega)]
  have hday : (source/1000*1000+minutes timezone*60000)/86400000 =
      (source+minutes timezone*60000)/86400000 := by omega
  have hhour : (source/1000*1000+minutes timezone*60000)/3600000 =
      (source+minutes timezone*60000)/3600000 := by omega
  have hminute : (source/1000*1000+minutes timezone*60000)/60000 =
      (source+minutes timezone*60000)/60000 := by omega
  have hsecond : (source/1000*1000+minutes timezone*60000)/1000 =
      (source+minutes timezone*60000)/1000 := by omega
  simp only [shown,hday,hhour,hminute,hsecond]

theorem upcoming_wholeSecond (hz : Fixed zone minutes) (hroom : Roomy source)
    (recurrence : Recurrence) : upcoming zone recurrence (wholeSecond source) now =
      upcoming zone recurrence source now := by
  have hzone := @zone_wholeSecond zone minutes recurrence.timezone source hz hroom
  have hseries : ∀ x,InSeries zone recurrence (wholeSecond source) x ↔
      InSeries zone recurrence source x := by
    intro x
    have hdate : OnDate zone recurrence (wholeSecond source) x ↔
        OnDate zone recurrence source x := by
      rw [OnDate,OnDate,hzone]
    constructor
    · rintro ⟨hh,hm,hs,hw,hd⟩
      rw [hzone] at hh hm hs
      exact ⟨hh,hm,hs,hw,hdate.mp hd⟩
    · rintro ⟨hh,hm,hs,hw,hd⟩
      rw [← hzone] at hh hm hs
      exact ⟨hh,hm,hs,hw,hdate.mpr hd⟩
  ext x
  constructor
  · rintro ⟨hx,hnow,hmem⟩
    refine ⟨?_,hnow,(hseries x).mp hmem⟩
    rcases lt_or_ge maxDateMs x with hlate | hle
    · exact lt_of_le_of_lt (hroom.2.trans (by omega)) hlate
    · have hdays := ((inSeries_iff hz (roomy_wholeSecond hroom) (by rw [wholeSecond]; omega) hx.le
        hle).mp hmem).1
      rw [wholeSecond] at hx hdays
      omega
  · rintro ⟨hx,hnow,hmem⟩
    refine ⟨lt_of_le_of_lt ?_ hx,hnow,(hseries x).mpr hmem⟩
    rw [wholeSecond]
    omega

/-- The next slot is not in the second of the source. -/
theorem lt_nextScanOccurrenceAt (hz : Fixed zone minutes) (hroom : Roomy source) {cadence : Cadence}
    {t : ℤ} (h : nextScanOccurrenceAt zone ⟨cadence,timezone⟩ (wholeSecond source) = some t) :
    source < t := by
  have hstart := roomy_wholeSecond hroom
  have hwhole : wholeSecond source%1000 = 0 := by
    rw [wholeSecond]
    omega
  cases cadence with
  | daily =>
      rw [nextScanOccurrenceAt] at h
      cases (floor_days_eq hz timezone hstart le_rfl (by norm_num)).symm.trans h
      rw [wholeSecond]
      omega
  | weekly =>
      rw [nextScanOccurrenceAt] at h
      cases (floor_days_eq hz timezone hstart (by norm_num) le_rfl).symm.trans h
      rw [wholeSecond]
      omega
  | monthly =>
      rw [nextScanOccurrenceAt] at h
      cases (floor_month_eq hz hstart hwhole).symm.trans h
      refine instant_lt_dateIn ?_ (slot_date _).1
      rw [clockMonth,clockMonth,clockDay_wholeSecond]
      exact lt_add_one _

theorem aligned_wholeSecond (hz : Fixed zone minutes) (hroom : Roomy source) {cadence : Cadence} :
    Aligned zone ⟨cadence,timezone⟩ (wholeSecond source) now ↔
      Aligned zone ⟨cadence,timezone⟩ source now := by
  have hzone := @zone_wholeSecond zone minutes timezone source hz hroom
  have hat : nextScanOccurrenceAt zone ⟨cadence,timezone⟩ source =
      nextScanOccurrenceAt zone ⟨cadence,timezone⟩ (wholeSecond source) := by
    simp only [nextScanOccurrenceAt,cadenceFloor,hzone,Bool.false_eq_true,if_false]
  have hwalk : nextScanOccurrenceAfter zone ⟨cadence,timezone⟩ source now =
      nextScanOccurrenceAfter zone ⟨cadence,timezone⟩ (wholeSecond source) now := by
    rw [nextScanOccurrenceAfter,nextScanOccurrenceAfter,seekOccurrence,seekOccurrence,hat]
    cases hnext : nextScanOccurrenceAt zone ⟨cadence,timezone⟩ (wholeSecond source) with
    | none => rfl
    | some t =>
        have hlt := lt_nextScanOccurrenceAt hz hroom hnext
        have hle : wholeSecond source ≤ source := by
          rw [wholeSecond]
          omega
        simp only [Option.bind_eq_bind,Option.bind_some,not_le.mpr hlt,
          not_le.mpr (lt_of_le_of_lt hle hlt),if_false]
  rw [Aligned,Aligned,hwalk,upcoming_wholeSecond hz hroom]

/-- In a zone with a fixed offset, what a daily or weekly series plans is its first slot to come.
A monthly one does so as long as no month on the way is shorter than the date of that slot. Slots
are whole seconds, whatever the milliseconds of the source. -/
theorem series_keeps_slots (hz : Fixed zone minutes) (hroom : Roomy source)
    (hnow : now ≤ maxDateMs-100*86400000) :
    (now < wholeSecond source+4000*86400000 → Aligned zone ⟨.daily,timezone⟩ source now) ∧
    (now < wholeSecond source+4000*(7*86400000) → Aligned zone ⟨.weekly,timezone⟩ source now) ∧
    IsLeast (upcoming zone ⟨.monthly,timezone⟩ source now)
      (slot minutes timezone (wholeSecond source)
        (slotMonth minutes timezone (wholeSecond source) now)) ∧
    (slotMonth minutes timezone (wholeSecond source) now <
        clockMonth minutes timezone source+4000 →
      (Aligned zone ⟨.monthly,timezone⟩ source now ↔
        ∀ month,clockMonth minutes timezone source < month →
          month < slotMonth minutes timezone (wholeSecond source) now →
            min (clockDate minutes timezone source)
              (monthLength (slotMonth minutes timezone (wholeSecond source) now)) ≤
                monthLength month)) := by
  have hstart := roomy_wholeSecond hroom
  have hwhole : wholeSecond source%1000 = 0 := by
    rw [wholeSecond]
    omega
  have hmonth : clockMonth minutes timezone (wholeSecond source) =
      clockMonth minutes timezone source := by rw [clockMonth,clockMonth,clockDay_wholeSecond]
  have hdate : clockDate minutes timezone (wholeSecond source) =
      clockDate minutes timezone source := by rw [clockDate,clockDate,clockDay_wholeSecond]
  have hmonthly := @aligned_monthly_iff zone minutes timezone (wholeSecond source) now hz hstart
    hwhole hnow
  rw [hmonth,hdate] at hmonthly
  refine ⟨fun h => ?_,fun h => ?_,?_,fun h => ?_⟩
  · exact (aligned_wholeSecond hz hroom).mp (daily_slots hz hstart hwhole hnow h)
  · exact (aligned_wholeSecond hz hroom).mp (weekly_slots hz hstart hwhole hnow h)
  · rw [← upcoming_wholeSecond hz hroom]
    exact slot_least hz hstart hwhole hnow
  · rw [← aligned_wholeSecond hz hroom]
    exact hmonthly h

/-- A series of the last day of January, from half a second past midnight, has lost it by March. -/
theorem month_end_lost : Roomy 1706659200500 ∧
    ¬ Aligned universal ⟨.monthly,"UTC"⟩ 1706659200500 1709251200000 := by
  have hroom : Roomy 1706659200500 := by constructor <;> decide
  have hmonth : slotMonth (fun _ => 0) "UTC" (wholeSecond 1706659200500) 1709251200000 = 24290 ∧
      clockMonth (fun _ => 0) "UTC" 1706659200500 = 24288 ∧
      clockDate (fun _ => 0) "UTC" 1706659200500 = 31 ∧ monthLength 24289 = 29 ∧
      monthLength 24290 = 31 := by decide
  have hslots := (@series_keeps_slots universal (fun _ => 0) "UTC" 1706659200500 1709251200000
    fixed_universal hroom (by decide)).2.2.2
  rw [hmonth.1,hmonth.2.1,hmonth.2.2.1,hmonth.2.2.2.2] at hslots
  refine ⟨hroom,fun h => ?_⟩
  have hshort := (hslots (by norm_num)).mp h 24289 (by norm_num) (by norm_num)
  rw [hmonth.2.2.2.1] at hshort
  omega

end

end AstraNull.SeriesSlots

import Mathlib
import AstraNull.Schedules

/-!
# Dates and days

The two directions of the calendar agree: `Date.UTC` of the date of a day is that day. Months are
counted from March, so that the day that a leap year adds is the last one of its year.
-/
namespace AstraNull.CalendarDays
open OwnershipTransitions Schedules

/-- The first day of a month, counted from zero, of a year as `Date.UTC` normalises them. -/
def monthStart (year month : ℤ) : ℤ := daysBefore (year+month/12) ((month%12).toNat+1) 1

/-- Days from the first of March of the year 0. -/
def marchDays (year : ℤ) : ℤ := 365*year+year/4-year/100+year/400

theorem monthStart_add (year month : ℤ) (years : ℤ) :
    monthStart (year+years) month = monthStart year (month+12*years) := by
  have hyear : (month+12*years)/12 = month/12+years := by omega
  have hmonth : (month+12*years)%12 = month%12 := by omega
  rw [monthStart,monthStart,hyear,hmonth]
  congr 1
  ring

/-- The last days before March, by the days of the year that begins then. -/
theorem daysBeforeYear_march (year : ℤ) :
    daysBeforeYear year+31+(if isLeapYear year then 29 else 28 : ℕ) = marchDays year-719468 := by
  simp only [daysBeforeYear,marchDays,isLeapYear,Bool.and_eq_true,Bool.or_eq_true,
    decide_eq_true_eq]
  split_ifs with hleap <;> omega

theorem daysBeforeYear_succ_march (year : ℤ) :
    daysBeforeYear (year+1) = marchDays year-719468+306 := by
  simp only [daysBeforeYear,marchDays]
  omega

theorem monthStart_inside (year : ℤ) {month : ℕ} (h : month < 12) :
    monthStart year month = daysBefore year (month+1) 1 := by
  have hyear : (month : ℤ)/12 = 0 := by omega
  have hmonth : ((month : ℤ)%12).toNat = month := by omega
  rw [monthStart,hyear,hmonth,add_zero]

/-- The months from March on begin by one rule; the length of February is left to the year. -/
theorem monthStart_march (year : ℤ) {k : ℕ} (h : k ≤ 11) :
    monthStart year (k+2) = marchDays year-719468+(153*k+2)/5 := by
  rcases le_or_gt k 9 with hk | hk
  · have hsum : (([31,30,31,30,31,31,30,31,30,31] : List ℕ).take k).sum = (153*k+2)/5 := by
      interval_cases k <;> rfl
    have hinside := monthStart_inside year (show k+2 < 12 by omega)
    push_cast at hinside
    rw [hinside,← daysBeforeYear_march]
    simp only [daysBefore,daysInMonth,Nat.add_one_sub_one,List.take_succ_cons,List.sum_cons,hsum]
    push_cast
    ring
  · have hnext := daysBeforeYear_succ_march year
    have hinside := monthStart_inside (year+1) (show k-10 < 12 by omega)
    have hmonth : ((k-10 : ℕ) : ℤ)+12 = k+2 := by omega
    rw [monthStart_add,mul_one,hmonth] at hinside
    rw [hinside]
    obtain rfl | rfl : k = 10 ∨ k = 11 := by omega
    · simp only [daysBefore,hnext,daysInMonth]
      norm_num
    · simp only [daysBefore,hnext,daysInMonth]
      norm_num
      ring

/-- Every month has 28 to 31 days. -/
theorem monthStart_next (year month : ℤ) : monthStart year month+28 ≤ monthStart year (month+1) ∧
    monthStart year (month+1) ≤ monthStart year month+31 := by
  obtain ⟨k,hk,hmonth⟩ : ∃ k : ℕ,k ≤ 11 ∧ month = k+2+12*((month-2)/12) :=
    ⟨((month-2)%12).toNat,by omega,by omega⟩
  generalize (month-2)/12 = years at hmonth
  have hthis := monthStart_march (year+years) hk
  rw [monthStart_add,← hmonth] at hthis
  rcases Nat.lt_or_ge k 11 with hlt | hge
  · have hnext := monthStart_march (year+years) (show k+1 ≤ 11 by omega)
    rw [monthStart_add,show ((k+1 : ℕ) : ℤ)+2+12*years = month+1 by push_cast; omega] at hnext
    push_cast at hnext
    omega
  · have hnext := monthStart_march (year+years+1) (show 0 ≤ 11 by omega)
    rw [add_assoc,monthStart_add,← add_assoc,
      show ((0 : ℕ) : ℤ)+2+12*(years+1) = month+1 by push_cast; omega] at hnext
    have hlength : marchDays (year+years)+365 ≤ marchDays (year+years+1) ∧
        marchDays (year+years+1) ≤ marchDays (year+years)+366 := by
      simp only [marchDays]
      omega
    push_cast at hnext
    omega

theorem marchDays_era (year era : ℤ) : marchDays (year+era*400) = marchDays year+era*146097 := by
  have hfour : (year+era*400)/4 = year/4+era*100 := by omega
  have hcentury : (year+era*400)/100 = year/100+era*4 := by omega
  have hera : (year+era*400)/400 = year/400+era := by omega
  rw [marchDays,hfour,hcentury,hera,marchDays]
  ring

/-- A day of an era of 400 years, by its century, its group of four years, and its year. -/
theorem era_split {d : ℤ} (h0 : 0 ≤ d) (h : d < 146096) :
    ∃ g c q t : ℤ,d = 36524*g+1461*c+365*q+t ∧ (0 ≤ g ∧ g ≤ 3) ∧ (0 ≤ c ∧ c ≤ 24) ∧
      (0 ≤ q ∧ q ≤ 3) ∧ (0 ≤ t ∧ t ≤ 365) ∧ (t = 365 → q = 3 ∧ c < 24) := by
  obtain ⟨g,r,hg,hr0,hr⟩ : ∃ g r : ℤ,d = 36524*g+r ∧ 0 ≤ r ∧ r < 36524 :=
    ⟨d/36524,d%36524,by omega,by omega,by omega⟩
  obtain ⟨c,s,hc,hs0,hs⟩ : ∃ c s : ℤ,r = 1461*c+s ∧ 0 ≤ s ∧ s < 1461 :=
    ⟨r/1461,r%1461,by omega,by omega,by omega⟩
  have hlast : s = 1460 → c < 24 := by omega
  obtain ⟨q,t,hq,hqb,htb,ht⟩ : ∃ q t : ℤ,s = 365*q+t ∧ (0 ≤ q ∧ q ≤ 3) ∧ (0 ≤ t ∧ t ≤ 365) ∧
      (t = 365 → q = 3) := by
    rcases lt_or_ge s 1095 with hsmall | hbig
    · exact ⟨s/365,s%365,by omega,by omega,by omega,by omega⟩
    · exact ⟨3,s-1095,by omega,by omega,by omega,by omega⟩
  exact ⟨g,c,q,t,by omega,by omega,by omega,hqb,htb,by omega⟩

theorem yearOfEra_eq {g c q t : ℤ} (hg : 0 ≤ g ∧ g ≤ 3) (hc : 0 ≤ c ∧ c ≤ 24) (hq : 0 ≤ q ∧ q ≤ 3)
    (ht : 0 ≤ t ∧ t ≤ 365) (hleap : t = 365 → q = 3 ∧ c < 24) {d : ℤ}
    (hd : d = 36524*g+1461*c+365*q+t) :
    (d-d/1460+d/36524-d/146096)/365 = 100*g+4*c+q := by
  have hera : d/146096 = 0 := by omega
  have hcentury : d/36524 = g := by omega
  obtain ⟨e,he,hlow,hhigh⟩ : ∃ e : ℤ,(e = 0 ∨ e = 1) ∧ 1460*e ≤ 24*g+c+365*q+t ∧
      24*g+c+365*q+t < 1460*e+1460 := by
    rcases lt_or_ge (24*g+c+365*q+t) 1460 with hsmall | hbig
    · exact ⟨0,by omega,by omega,by omega⟩
    · exact ⟨1,by omega,by omega,by omega⟩
  have hfour : d/1460 = 25*g+c+e := by omega
  have hrest : 0 ≤ t-e ∧ t-e < 365 := by omega
  have hsum : d-d/1460+d/36524-d/146096 = 365*(100*g+4*c+q)+(t-e) := by
    rw [hera,hcentury,hfour,hd]
    ring
  rw [hsum]
  omega

theorem yearOfEra_spec {d : ℤ} (h0 : 0 ≤ d) (h : d < 146097) :
    let y := (d-d/1460+d/36524-d/146096)/365
    0 ≤ y ∧ y ≤ 399 ∧ marchDays y ≤ d ∧ d < marchDays (y+1) := by
  rcases eq_or_ne d 146096 with rfl | hne
  · decide
  obtain ⟨g,c,q,t,hd,hg,hc,hq,ht,hleap⟩ := era_split h0 (by omega)
  rw [yearOfEra_eq hg hc hq ht hleap hd]
  have hfour : (100*g+4*c+q)/4 = 25*g+c := by omega
  have hcentury : (100*g+4*c+q)/100 = g := by omega
  have hera : (100*g+4*c+q)/400 = 0 := by omega
  have hnext : 25*g+c ≤ (100*g+4*c+q+1)/4 := by omega
  have hleapNext : q = 3 → (100*g+4*c+q+1)/4 = 25*g+c+1 := by omega
  have hturn : c < 24 ∨ q < 3 → (100*g+4*c+q+1)/100 = g := by omega
  have hturned : c = 24 ∧ q = 3 → (100*g+4*c+q+1)/100 = g+1 := by omega
  have heraNext : 0 ≤ (100*g+4*c+q+1)/400 := by omega
  simp only [marchDays,hfour,hcentury,hera]
  refine ⟨by omega,by omega,by omega,?_⟩
  generalize (100*g+4*c+q+1)/4 = a at *
  generalize (100*g+4*c+q+1)/100 = b at *
  generalize (100*g+4*c+q+1)/400 = e at *
  omega

/-- `civilDate` is the date of the day, in a month that is long enough. -/
theorem civilDate_spec (n : ℤ) : 1 ≤ (civilDate n).2.1 ∧ (civilDate n).2.1 ≤ 12 ∧
    1 ≤ (civilDate n).2.2 ∧
    monthStart (civilDate n).1 ((civilDate n).2.1-1)+((civilDate n).2.2-1) = n ∧
    n < monthStart (civilDate n).1 (civilDate n).2.1 := by
  obtain ⟨era,d,hn,hd0,hd⟩ : ∃ era d : ℤ,n+719468 = era*146097+d ∧ 0 ≤ d ∧ d < 146097 :=
    ⟨(n+719468)/146097,(n+719468)%146097,by omega,by omega,by omega⟩
  have hera : (n+719468)/146097 = era := by omega
  have hrest : (n+719468)%146097 = d := by omega
  simp only [civilDate,hera,hrest]
  obtain ⟨hy0,hy399,hlow,hhigh⟩ := yearOfEra_spec hd0 hd
  generalize (d-d/1460+d/36524-d/146096)/365 = y at *
  have hmarch : 365*y+y/4-y/100 = marchDays y := by
    rw [marchDays,show y/400 = 0 by omega,add_zero]
  have hlength : marchDays (y+1) ≤ marchDays y+366 := by
    simp only [marchDays]
    omega
  have hera := marchDays_era y era
  have heraNext := marchDays_era (y+1) era
  rw [show y+1+era*400 = y+era*400+1 by ring] at heraNext
  rw [hmarch]
  obtain ⟨doy,hdoy⟩ : ∃ doy,d = marchDays y+doy := ⟨d-marchDays y,by ring⟩
  rw [show d-marchDays y = doy by omega]
  obtain ⟨m,hm⟩ : ∃ m : ℕ,(m : ℤ) = (5*doy+2)/153 := ⟨((5*doy+2)/153).toNat,by omega⟩
  rw [← hm]
  have hthis := monthStart_march (y+era*400) (show m ≤ 11 by omega)
  have hnext : n < monthStart (y+era*400) (m+3) := by
    rcases Nat.lt_or_ge m 11 with hlt | hge
    · have hmonth := monthStart_march (y+era*400) (show m+1 ≤ 11 by omega)
      push_cast at hmonth
      rw [show (m : ℤ)+3 = m+1+2 by ring,hmonth]
      omega
    · have hmonth := monthStart_march (y+era*400+1) (show 0 ≤ 11 by omega)
      rw [monthStart_add] at hmonth
      rw [show (m : ℤ)+3 = (0 : ℕ)+2+12*1 by omega,hmonth]
      push_cast
      omega
  have hsum : monthStart (y+era*400) (m+2)+(doy-(153*m+2)/5) = n := by
    rw [hthis]
    omega
  split_ifs with hten hjan hjan
  · omega
  · rw [show (m : ℤ)+3-1 = m+2 by ring]
    exact ⟨by omega,by omega,by omega,by omega,hnext⟩
  · rw [monthStart_add (y+era*400) (m-9-1) 1,monthStart_add (y+era*400) (m-9) 1,
      show (m : ℤ)-9-1+12*1 = m+2 by ring,show (m : ℤ)-9+12*1 = m+3 by ring]
    exact ⟨by omega,by omega,by omega,by omega,hnext⟩
  · omega

/-- The days from 2 January of the year 100 on have a year that `Date.UTC` takes as it is. -/
theorem hundred_le_year {n : ℤ} (h : -683002 ≤ n) : 100 ≤ (civilDate n).1 := by
  obtain ⟨h1,h12,-,hday,hnext⟩ := civilDate_spec n
  have hlength := (monthStart_next (civilDate n).1 ((civilDate n).2.1-1)).2
  rw [sub_add_cancel] at hlength
  generalize (civilDate n).1 = year at *
  generalize (civilDate n).2.1 = month at *
  obtain ⟨k,rfl⟩ := Int.eq_ofNat_of_zero_le (show 0 ≤ month by omega)
  by_contra hlt
  have hyear : daysBeforeYear year ≤ daysBeforeYear 99 := by
    simp only [daysBeforeYear]
    omega
  have hend : daysBeforeYear 99 = -683368 := by decide
  have hstart : monthStart year (k-1) ≤ daysBeforeYear year+335 := by
    have hsum : ((daysInMonth year).take (k-1)).sum ≤ 335 := by
      have hk : k-1 ≤ 11 := by omega
      generalize k-1 = j at hk
      simp only [daysInMonth]
      split_ifs <;> interval_cases j <;> decide
    have hinside := monthStart_inside year (show k-1 < 12 by omega)
    rw [show ((k-1 : ℕ) : ℤ) = (k : ℤ)-1 by omega,daysBefore,Nat.add_sub_cancel] at hinside
    omega
  omega

theorem dateUTC_of_hundred_le {year : ℤ} (h : 100 ≤ year) (month day hour minute second : ℤ) :
    dateUTC year month day hour minute second = timeClip
      ((monthStart year month+(day-1))*86400000+hour*3600000+minute*60000+second*1000) := by
  rw [dateUTC,if_neg (by omega),monthStart]

/-- `Date.UTC` of the date of a day, some days and a time later. -/
theorem dateUTC_civilDate {n : ℤ} (h : -683002 ≤ n) (days hour minute second : ℤ) :
    dateUTC (civilDate n).1 ((civilDate n).2.1-1) ((civilDate n).2.2+days) hour minute second =
      timeClip ((n+days)*86400000+hour*3600000+minute*60000+second*1000) := by
  obtain ⟨-,-,-,hday,-⟩ := civilDate_spec n
  rw [dateUTC_of_hundred_le (hundred_le_year h)]
  congr 5
  omega

/-- The first day of a month, counted from January of the year 0. -/
def monthDay (month : ℤ) : ℤ := monthStart 0 month

def monthLength (month : ℤ) : ℤ := monthDay (month+1)-monthDay month

/-- The month of a day, in this count. -/
def monthOf (day : ℤ) : ℤ := (civilDate day).1*12+((civilDate day).2.1-1)

theorem monthStart_eq_monthDay (year month : ℤ) :
    monthStart year month = monthDay (year*12+month) := by
  have hadd := monthStart_add 0 month year
  rw [zero_add] at hadd
  rw [hadd,monthDay]
  congr 1
  ring

theorem monthLength_bounds (month : ℤ) : 28 ≤ monthLength month ∧ monthLength month ≤ 31 := by
  have hnext := monthStart_next 0 month
  simp only [monthLength,monthDay]
  omega

theorem monthDay_add (month : ℤ) (k : ℕ) : monthDay month+28*k ≤ monthDay (month+k) := by
  induction k with
  | zero => simp
  | succ k ih =>
      have hnext := (monthLength_bounds (month+k)).1
      rw [monthLength] at hnext
      push_cast
      rw [← add_assoc]
      omega

theorem monthDay_lt {a b : ℤ} (h : a < b) : monthDay a+28 ≤ monthDay b := by
  obtain ⟨k,hk⟩ := Int.eq_ofNat_of_zero_le (show 0 ≤ b-a by omega)
  have hadd := monthDay_add a k
  rw [show a+k = b by omega] at hadd
  omega

theorem monthDay_le {a b : ℤ} (h : a ≤ b) : monthDay a ≤ monthDay b := by
  rcases eq_or_lt_of_le h with rfl | hlt
  · exact le_rfl
  · have := monthDay_lt hlt
    omega

/-- A day is in its month, at the day of the month that the date shows. -/
theorem monthOf_spec (n : ℤ) : monthDay (monthOf n)+((civilDate n).2.2-1) = n ∧
    1 ≤ (civilDate n).2.2 ∧ (civilDate n).2.2 ≤ monthLength (monthOf n) := by
  obtain ⟨-,-,hpos,hday,hnext⟩ := civilDate_spec n
  rw [monthStart_eq_monthDay] at hday hnext
  rw [monthLength,monthOf]
  rw [show (civilDate n).1*12+((civilDate n).2.1-1)+1 = (civilDate n).1*12+(civilDate n).2.1 by
    ring]
  omega

theorem monthOf_eq {n month : ℤ} (hlow : monthDay month ≤ n) (hhigh : n < monthDay (month+1)) :
    monthOf n = month := by
  obtain ⟨hday,hpos,hlast⟩ := monthOf_spec n
  rw [monthLength] at hlast
  rcases lt_trichotomy (monthOf n) month with hlt | he | hgt
  · have hle := monthDay_le (show monthOf n+1 ≤ month by omega)
    omega
  · exact he
  · have hle := monthDay_le (show month+1 ≤ monthOf n by omega)
    omega

/-- The day of the month, from the month it is in. -/
theorem day_of_month {month day : ℤ} (h1 : 1 ≤ day) (hlast : day ≤ monthLength month) :
    monthOf (monthDay month+(day-1)) = month ∧ (civilDate (monthDay month+(day-1))).2.2 = day := by
  rw [monthLength] at hlast
  have hmonth := monthOf_eq (show monthDay month ≤ monthDay month+(day-1) by omega) (by omega)
  have hday := (monthOf_spec (monthDay month+(day-1))).1
  rw [hmonth] at hday
  exact ⟨hmonth,by omega⟩

end AstraNull.CalendarDays

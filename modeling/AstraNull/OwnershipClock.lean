import Mathlib
import AstraNull.OwnershipTransitions

/-!
# Clock texts

What the reader of ownership times accepts, described apart from it: a clock has a date of the
proleptic Gregorian calendar, a time of day, any number of decimals and a zone, and a spelling. The
reader accepts exactly the spellings of the clocks within the range of a date.
-/
namespace AstraNull.OwnershipClock
open JsonText ScriptText OwnershipTransitions

def padDigits : ℕ → ℕ → Text
  | 0,_ => []
  | n+1,v => Nat.digitChar (v/10^n%10)::padDigits n (v%10^n)

theorem digitChar_digit {d : ℕ} (h : d < 10) :
    (Nat.digitChar d).isDigit = true ∧ (Nat.digitChar d).toNat-48 = d := by
  interval_cases d <;> decide

theorem digitChar_of_isDigit {c : Char} (h : c.isDigit = true) :
    c.toNat-48 < 10 ∧ Nat.digitChar (c.toNat-48) = c := by
  have hrange : 48 ≤ c.toNat ∧ c.toNat ≤ 57 := by
    simpa [Char.isDigit,UInt32.le_iff_toNat_le] using h
  refine ⟨by omega,Char.toNat_inj.mp ?_⟩
  rw [Nat.toNat_digitChar_of_lt_ten (by omega)]
  omega

theorem readDigits_padDigits {n v : ℕ} (h : v < 10^n) (acc : ℕ) (rest : Text) :
    readDigits n acc (padDigits n v++rest) = some (acc*10^n+v,rest) := by
  induction n generalizing v acc with
  | zero =>
      have : v = 0 := by simpa using h
      simp [readDigits,padDigits,this]
  | succ n ih =>
      have hd : v/10^n < 10 := by
        rw [Nat.div_lt_iff_lt_mul (by positivity),← pow_succ']
        exact h
      obtain ⟨hdigit,hvalue⟩ := digitChar_digit hd
      rw [padDigits,Nat.mod_eq_of_lt hd,List.cons_append,readDigits,if_pos hdigit,hvalue,
        ih (Nat.mod_lt _ (by positivity))]
      have hsplit := Nat.div_add_mod v (10^n)
      congr 2
      rw [pow_succ']
      linarith

theorem padDigits_of_readDigits {n acc w : ℕ} {cs rest : Text}
    (h : readDigits n acc cs = some (w,rest)) :
    ∃ v,v < 10^n ∧ cs = padDigits n v++rest ∧ w = acc*10^n+v := by
  induction n generalizing acc cs with
  | zero =>
      rw [readDigits] at h
      cases h
      exact ⟨0,by norm_num,rfl,by ring⟩
  | succ n ih =>
      cases cs with
      | nil => cases h
      | cons c cs =>
          rw [readDigits] at h
          split_ifs at h with hdigit
          obtain ⟨v,hv,rfl,rfl⟩ := ih h
          obtain ⟨hlt,hchar⟩ := digitChar_of_isDigit hdigit
          generalize c.toNat-48 = d at hlt hchar
          have hpos : 0 < 10^n := by positivity
          have hquotient : (d*10^n+v)/10^n = d := by
            rw [Nat.add_comm,Nat.add_mul_div_right _ _ hpos,Nat.div_eq_of_lt hv,Nat.zero_add]
          have hremainder : (d*10^n+v)%10^n = v := by
            rw [Nat.mul_add_mod_self_right,Nat.mod_eq_of_lt hv]
          refine ⟨d*10^n+v,?_,?_,?_⟩
          · calc d*10^n+v < d*10^n+10^n := by omega
              _ = (d+1)*10^n := by ring
              _ ≤ 10*10^n := Nat.mul_le_mul_right _ (by omega)
              _ = 10^(n+1) := by ring
          · rw [padDigits,hquotient,hremainder,Nat.mod_eq_of_lt hlt,hchar]
            rfl
          · rw [pow_succ']
            ring

theorem digits_iff {n v : ℕ} {cs rest : Text} :
    digits n cs = some (v,rest) ↔ v < 10^n ∧ cs = padDigits n v++rest := by
  constructor
  · intro h
    obtain ⟨w,hw,hcs,rfl⟩ := padDigits_of_readDigits h
    simpa using ⟨hw,hcs⟩
  · rintro ⟨hv,rfl⟩
    rw [digits,readDigits_padDigits hv]
    simp

theorem padDigits_head {n v : ℕ} (hn : 0 < n) : ∃ c cs,padDigits n v = c::cs ∧ c.isDigit = true := by
  cases n with
  | zero => omega
  | succ n => exact ⟨_,_,rfl,(digitChar_digit (Nat.mod_lt _ (by norm_num))).1⟩

theorem expect_iff {allowed : List Char} {cs rest : Text} :
    expect allowed cs = some rest ↔ ∃ c ∈ allowed,cs = c::rest := by
  cases cs with
  | nil => simp [expect]
  | cons c cs =>
      rw [expect]
      split_ifs with h
      · constructor
        · rintro ⟨⟩
          exact ⟨c,h,rfl⟩
        · rintro ⟨d,-,hd⟩
          rw [(List.cons.inj hd).2]
      · constructor
        · intro hnone
          cases hnone
        · rintro ⟨d,hd,hcs⟩
          rw [(List.cons.inj hcs).1] at h
          exact absurd hd h

inductive Zone
  | utc (letter : Char)
  | offset (behind : Bool) (hours minutes : ℕ)

/-- Seconds by which local time is ahead. -/
def Zone.ahead : Zone → ℤ
  | .utc _ => 0
  | .offset behind hours minutes =>
      if behind then -((hours : ℤ)*3600+minutes*60) else hours*3600+minutes*60

def Zone.text : Zone → Text
  | .utc letter => [letter]
  | .offset behind hours minutes =>
      (if behind then '-' else '+')::(padDigits 2 hours++ ':'::padDigits 2 minutes)

def Zone.Valid : Zone → Prop
  | .utc letter => letter = 'Z' ∨ letter = 'z'
  | .offset _ hours minutes => hours ≤ 23 ∧ minutes ≤ 59

structure Clock where
  year : ℤ
  /-- The year is written with a sign and six digits. -/
  signed : Bool
  month : ℕ
  day : ℕ
  separator : Char
  hour : ℕ
  minute : ℕ
  second : ℕ
  /-- The digits after the point; without any there is no point. -/
  decimals : List ℕ
  zone : Zone

def yearText (signed : Bool) (year : ℤ) : Text :=
  if signed then (if year < 0 then '-' else '+')::padDigits 6 year.natAbs
  else padDigits 4 year.toNat

def YearFits (signed : Bool) (year : ℤ) : Prop :=
  if signed then year.natAbs < 1000000 else 0 ≤ year ∧ year < 10000

def fractionText (decimals : List ℕ) : Text :=
  if decimals = [] then [] else '.'::decimals.map Nat.digitChar

namespace Clock

def text (c : Clock) : Text :=
  yearText c.signed c.year++ '-'::(padDigits 2 c.month++ '-'::(padDigits 2 c.day++c.separator::
    (padDigits 2 c.hour++ ':'::(padDigits 2 c.minute++ ':'::(padDigits 2 c.second++
      (fractionText c.decimals++c.zone.text))))))

structure Valid (c : Clock) : Prop where
  year : YearFits c.signed c.year
  month : 1 ≤ c.month ∧ c.month ≤ 12
  day : 1 ≤ c.day ∧ c.day ≤ (daysInMonth c.year).getD (c.month-1) 0
  separator : c.separator = 'T' ∨ c.separator = 't'
  hour : c.hour ≤ 23
  minute : c.minute ≤ 59
  second : c.second ≤ 59
  decimals : ∀ d ∈ c.decimals,d < 10
  zone : c.zone.Valid

/-- Whole seconds since the epoch. -/
def seconds (c : Clock) : ℤ :=
  daysBefore c.year c.month c.day*86400+c.hour*3600+c.minute*60+c.second-c.zone.ahead

def toInstant (c : Clock) : Instant := ⟨c.seconds,dropTrailingZeros c.decimals⟩

/-- Within the range of a date. -/
def InRange (c : Clock) : Prop :=
  |c.seconds| ≤ maxDateSeconds ∧ (c.seconds = maxDateSeconds → dropTrailingZeros c.decimals = [])

end Clock

theorem readYear_iff {cs rest : Text} {year : ℤ} : readYear cs = some (year,rest) ↔
    ∃ signed,YearFits signed year ∧ cs = yearText signed year++rest := by
  constructor
  · intro h
    unfold readYear at h
    split at h
    · obtain ⟨⟨v,tail⟩,hdigits,h⟩ := Option.bind_eq_some_iff.mp h
      cases h
      obtain ⟨hv,rfl⟩ := digits_iff.mp hdigits
      refine ⟨true,by simpa [YearFits] using hv,?_⟩
      simp [yearText]
    · obtain ⟨⟨v,tail⟩,hdigits,h⟩ := Option.bind_eq_some_iff.mp h
      dsimp only at h
      split_ifs at h with hzero
      cases h
      obtain ⟨hv,rfl⟩ := digits_iff.mp hdigits
      refine ⟨true,by simpa [YearFits] using hv,?_⟩
      simpa [yearText] using hzero
    · obtain ⟨⟨v,tail⟩,hdigits,h⟩ := Option.bind_eq_some_iff.mp h
      cases h
      obtain ⟨hv,rfl⟩ := digits_iff.mp hdigits
      refine ⟨false,?_,by simp [yearText]⟩
      simp only [YearFits,Bool.false_eq_true,if_false]
      omega
  · rintro ⟨signed,hfits,rfl⟩
    cases signed with
    | true =>
        simp only [YearFits,if_true] at hfits
        have hdigits : digits 6 (padDigits 6 year.natAbs++rest) = some (year.natAbs,rest) :=
          digits_iff.mpr ⟨by simpa using hfits,rfl⟩
        by_cases hneg : year < 0
        · have hne : year.natAbs ≠ 0 := by omega
          have habs : -(year.natAbs : ℤ) = year := by omega
          simp only [yearText,if_true,hneg,List.cons_append,readYear,hdigits,Option.bind_eq_bind,
            Option.bind_some,if_neg hne,habs]
        · have habs : (year.natAbs : ℤ) = year := by omega
          simp only [yearText,if_true,hneg,if_false,List.cons_append,readYear,hdigits,
            Option.bind_eq_bind,Option.bind_some,habs]
          rfl
    | false =>
        simp only [YearFits,Bool.false_eq_true,if_false] at hfits
        have hdigits : digits 4 (padDigits 4 year.toNat++rest) = some (year.toNat,rest) :=
          digits_iff.mpr ⟨by omega,rfl⟩
        have hcast : (year.toNat : ℤ) = year := by omega
        obtain ⟨c,tail,hhead,hdigit⟩ := @padDigits_head 4 year.toNat (by omega)
        simp only [yearText,Bool.false_eq_true,if_false]
        rw [hhead] at hdigits ⊢
        unfold readYear
        split
        · rename_i hcs
          rw [(List.cons.inj hcs).1] at hdigit
          exact absurd hdigit (by decide)
        · rename_i hcs
          rw [(List.cons.inj hcs).1] at hdigit
          exact absurd hdigit (by decide)
        · rw [hdigits]
          simp only [Option.bind_eq_bind,Option.bind_some,hcast]
          rfl

theorem readFraction_sound {cs rest : Text} {fraction : List ℕ}
    (h : readFraction cs = some (fraction,rest)) :
    ∃ decimals,(∀ d ∈ decimals,d < 10) ∧ fraction = dropTrailingZeros decimals ∧
      cs = fractionText decimals++rest := by
  unfold readFraction at h
  split at h
  · rename_i tail
    have hdigit : ∀ c ∈ tail.takeWhile Char.isDigit,c.isDigit = true :=
      fun c hc => List.mem_takeWhile_imp hc
    have hsplit := List.takeWhile_append_dropWhile (p := Char.isDigit) (l := tail)
    generalize tail.takeWhile Char.isDigit = ds at h hdigit hsplit
    dsimp only at h
    split_ifs at h with hnone
    obtain ⟨hfraction,hrest⟩ := Prod.mk.inj (Option.some.inj h)
    have hlt : ∀ d ∈ ds.map fun c => c.toNat-48,d < 10 := by
      intro d hd
      obtain ⟨c,hc,hcd⟩ := List.mem_map.mp hd
      have := (digitChar_of_isDigit (hdigit c hc)).1
      omega
    have hback : (ds.map fun c => c.toNat-48).map Nat.digitChar = ds := by
      rw [List.map_map]
      conv_rhs => rw [← List.map_id ds]
      exact List.map_congr_left fun c hc => (digitChar_of_isDigit (hdigit c hc)).2
    refine ⟨_,hlt,hfraction.symm,?_⟩
    rw [fractionText,if_neg (by simpa using hnone),hback,List.cons_append,← hrest,hsplit]
  · cases h
    exact ⟨[],by simp,rfl,by simp [fractionText]⟩

/-- What follows the decimals is neither a digit nor a point. -/
def EndsFraction (rest : Text) : Prop := ∀ c ∈ rest.head?,c.isDigit = false ∧ c ≠ '.'

theorem readFraction_complete {decimals : List ℕ} (hd : ∀ d ∈ decimals,d < 10) {rest : Text}
    (hrest : EndsFraction rest) :
    readFraction (fractionText decimals++rest) = some (dropTrailingZeros decimals,rest) := by
  by_cases hempty : decimals = []
  · rw [fractionText,if_pos hempty,List.nil_append,hempty]
    unfold readFraction
    split
    · exact absurd rfl (hrest '.' rfl).2
    · rfl
  · have hdigits : ∀ c ∈ decimals.map Nat.digitChar,c.isDigit = true := by
      intro c hc
      obtain ⟨d,hmem,rfl⟩ := List.mem_map.mp hc
      exact (digitChar_digit (hd d hmem)).1
    have hstop : rest.takeWhile Char.isDigit = [] ∧ rest.dropWhile Char.isDigit = rest := by
      cases rest with
      | nil => exact ⟨rfl,rfl⟩
      | cons c cs =>
          have hc := (hrest c rfl).1
          exact ⟨List.takeWhile_cons_of_neg (by simp [hc]),List.dropWhile_cons_of_neg (by simp [hc])⟩
    have htake : (decimals.map Nat.digitChar++rest).takeWhile Char.isDigit =
        decimals.map Nat.digitChar := by
      rw [List.takeWhile_append_of_pos hdigits,hstop.1,List.append_nil]
    have hdrop : (decimals.map Nat.digitChar++rest).dropWhile Char.isDigit = rest := by
      rw [List.dropWhile_append_of_pos hdigits,hstop.2]
    have hback : (decimals.map Nat.digitChar).map (fun c => c.toNat-48) = decimals := by
      rw [List.map_map]
      conv_rhs => rw [← List.map_id decimals]
      exact List.map_congr_left fun d hmem => (digitChar_digit (hd d hmem)).2
    rw [fractionText,if_neg hempty,List.cons_append]
    simp only [readFraction,htake,hdrop,hback,List.map_eq_nil_iff,if_neg hempty]

theorem readZone_iff {cs rest : Text} {ahead : ℤ} : readZone cs = some (ahead,rest) ↔
    ∃ zone : Zone,zone.Valid ∧ cs = zone.text++rest ∧ ahead = zone.ahead := by
  constructor
  · intro h
    unfold readZone at h
    split at h
    · cases h
      exact ⟨.utc 'Z',.inl rfl,rfl,rfl⟩
    · cases h
      exact ⟨.utc 'z',.inr rfl,rfl,rfl⟩
    · rename_i sign tail _ _
      by_cases hsign : sign ≠ '+' ∧ sign ≠ '-'
      · rw [if_pos hsign] at h
        cases h
      rw [if_neg hsign] at h
      obtain ⟨⟨hours,cs₁⟩,hhours,hnext⟩ := Option.bind_eq_some_iff.mp h
      clear h
      obtain ⟨cs₂,hcolon,hlast⟩ := Option.bind_eq_some_iff.mp hnext
      clear hnext
      obtain ⟨⟨minutes,cs₃⟩,hminutes,hresult⟩ := Option.bind_eq_some_iff.mp hlast
      clear hlast
      obtain ⟨-,rfl⟩ := digits_iff.mp hhours
      obtain ⟨c,hc,rfl⟩ := expect_iff.mp hcolon
      obtain ⟨-,rfl⟩ := digits_iff.mp hminutes
      dsimp only at hresult
      by_cases hlimits : 23 < hours ∨ 59 < minutes
      · rw [if_pos hlimits] at hresult
        cases hresult
      rw [if_neg hlimits] at hresult
      cases hresult
      refine ⟨.offset (sign = '-') hours minutes,⟨by omega,by omega⟩,?_,?_⟩
      · rw [List.mem_singleton.mp hc]
        by_cases hminus : sign = '-'
        · simp [Zone.text,hminus]
        · have hplus : sign = '+' := by
            by_contra hne
            exact hsign ⟨hne,hminus⟩
          simp [Zone.text,hplus]
      · by_cases hminus : sign = '-' <;> simp [Zone.ahead,hminus]
    · cases h
  · rintro ⟨zone,hvalid,rfl,rfl⟩
    cases zone with
    | utc letter =>
        rcases hvalid with rfl | rfl <;> rfl
    | offset behind hours minutes =>
        have hhours : digits 2 (padDigits 2 hours++ ':'::(padDigits 2 minutes++rest)) =
            some (hours,':'::(padDigits 2 minutes++rest)) :=
          digits_iff.mpr ⟨by have := hvalid.1; omega,rfl⟩
        have hminutes : digits 2 (padDigits 2 minutes++rest) = some (minutes,rest) :=
          digits_iff.mpr ⟨by have := hvalid.2; omega,rfl⟩
        have hlimits : ¬ (23 < hours ∨ 59 < minutes) := by
          have := hvalid.1
          have := hvalid.2
          omega
        cases behind <;> simp [Zone.text,Zone.ahead,readZone,hhours,hminutes,expect,hlimits]

theorem Zone.endsFraction {zone : Zone} (h : zone.Valid) : EndsFraction zone.text := by
  intro c hc
  cases zone with
  | utc letter =>
      cases hc
      rcases h with rfl | rfl <;> decide
  | offset behind hours minutes =>
      cases hc
      cases behind <;> decide

theorem instant_of_clock {c : Clock} (hvalid : c.Valid) (hrange : c.InRange) {value : JsString}
    (htext : chars value = c.text) : ownershipTransitionInstant value = some c.toInstant := by
  obtain ⟨hyear,hmonth,hday,hsep,hhour,hminute,hsecond,hdecimals,hzone⟩ := hvalid
  have hlast : (daysInMonth c.year).getD (c.month-1) 0 ≤ 31 := by
    have hmo := hmonth
    generalize c.month = mo at hmo ⊢
    obtain ⟨hlow,hhigh⟩ := hmo
    interval_cases mo <;> simp [daysInMonth]
    split_ifs <;> norm_num
  have htwo : ∀ {v : ℕ},v < 100 → ∀ rest,digits 2 (padDigits 2 v++rest) = some (v,rest) :=
    fun hv rest => digits_iff.mpr ⟨by simpa using hv,rfl⟩
  have hyearRead := readYear_iff.mpr ⟨c.signed,hyear,htext⟩
  have hsepRead : ∀ rest,expect ['T','t'] (c.separator::rest) = some rest := by
    intro rest
    exact expect_iff.mpr ⟨c.separator,by simpa using hsep,rfl⟩
  have hdash : ∀ rest,expect ['-'] ('-'::rest) = some rest := fun _ => rfl
  have hcolon : ∀ rest,expect [':'] (':'::rest) = some rest := fun _ => rfl
  have hfractionRead := readFraction_complete hdecimals (Zone.endsFraction hzone)
  have hzoneRead : readZone c.zone.text = some (c.zone.ahead,[]) :=
    readZone_iff.mpr ⟨c.zone,hzone,by simp,rfl⟩
  have hfields : ¬ (c.month < 1 ∨ 12 < c.month ∨ c.day < 1 ∨
      (daysInMonth c.year).getD (c.month-1) 0 < c.day ∨ 23 < c.hour ∨ 59 < c.minute ∨
      59 < c.second) := by
    omega
  have hin : ¬ (maxDateSeconds < |c.seconds| ∨
      (c.seconds = maxDateSeconds ∧ dropTrailingZeros c.decimals ≠ [])) := by
    rintro (hbig | ⟨hmax,hfraction⟩)
    · exact absurd hbig (not_lt.mpr hrange.1)
    · exact hfraction (hrange.2 hmax)
  unfold ownershipTransitionInstant
  refine Option.bind_eq_some_iff.mpr ⟨_,hyearRead,?_⟩
  refine Option.bind_eq_some_iff.mpr ⟨_,hdash _,?_⟩
  refine Option.bind_eq_some_iff.mpr ⟨_,htwo (show c.month < 100 by omega) _,?_⟩
  refine Option.bind_eq_some_iff.mpr ⟨_,hdash _,?_⟩
  refine Option.bind_eq_some_iff.mpr ⟨_,htwo (show c.day < 100 by omega) _,?_⟩
  refine Option.bind_eq_some_iff.mpr ⟨_,hsepRead _,?_⟩
  refine Option.bind_eq_some_iff.mpr ⟨_,htwo (show c.hour < 100 by omega) _,?_⟩
  refine Option.bind_eq_some_iff.mpr ⟨_,hcolon _,?_⟩
  refine Option.bind_eq_some_iff.mpr ⟨_,htwo (show c.minute < 100 by omega) _,?_⟩
  refine Option.bind_eq_some_iff.mpr ⟨_,hcolon _,?_⟩
  refine Option.bind_eq_some_iff.mpr ⟨_,htwo (show c.second < 100 by omega) _,?_⟩
  refine Option.bind_eq_some_iff.mpr ⟨_,hfractionRead,?_⟩
  refine Option.bind_eq_some_iff.mpr ⟨_,hzoneRead,?_⟩
  dsimp only
  rw [if_neg (not_not.mpr rfl),if_neg hfields]
  exact if_neg hin

theorem clock_of_instant {value : JsString} {i : Instant}
    (h : ownershipTransitionInstant value = some i) :
    ∃ c : Clock,c.Valid ∧ c.InRange ∧ chars value = c.text ∧ i = c.toInstant := by
  unfold ownershipTransitionInstant at h
  obtain ⟨⟨year,cs₁⟩,hyear,h₁⟩ := Option.bind_eq_some_iff.mp h
  clear h
  obtain ⟨cs₂,hdash,h₂⟩ := Option.bind_eq_some_iff.mp h₁
  clear h₁
  obtain ⟨⟨month,cs₃⟩,hmonth,h₃⟩ := Option.bind_eq_some_iff.mp h₂
  clear h₂
  obtain ⟨cs₄,hdash',h₄⟩ := Option.bind_eq_some_iff.mp h₃
  clear h₃
  obtain ⟨⟨day,cs₅⟩,hday,h₅⟩ := Option.bind_eq_some_iff.mp h₄
  clear h₄
  obtain ⟨cs₆,hsep,h₆⟩ := Option.bind_eq_some_iff.mp h₅
  clear h₅
  obtain ⟨⟨hour,cs₇⟩,hhour,h₇⟩ := Option.bind_eq_some_iff.mp h₆
  clear h₆
  obtain ⟨cs₈,hcolon,h₈⟩ := Option.bind_eq_some_iff.mp h₇
  clear h₇
  obtain ⟨⟨minute,cs₉⟩,hminute,h₉⟩ := Option.bind_eq_some_iff.mp h₈
  clear h₈
  obtain ⟨cs₁₀,hcolon',h₁₀⟩ := Option.bind_eq_some_iff.mp h₉
  clear h₉
  obtain ⟨⟨second,cs₁₁⟩,hsecond,h₁₁⟩ := Option.bind_eq_some_iff.mp h₁₀
  clear h₁₀
  obtain ⟨⟨fraction,cs₁₂⟩,hfraction,h₁₂⟩ := Option.bind_eq_some_iff.mp h₁₁
  clear h₁₁
  obtain ⟨⟨ahead,cs₁₃⟩,hzone,hresult⟩ := Option.bind_eq_some_iff.mp h₁₂
  clear h₁₂
  obtain ⟨signed,hfits,hvalue⟩ := readYear_iff.mp hyear
  obtain ⟨_,hc,rfl⟩ := expect_iff.mp hdash
  obtain ⟨-,rfl⟩ := digits_iff.mp hmonth
  obtain ⟨_,hc',rfl⟩ := expect_iff.mp hdash'
  obtain ⟨-,rfl⟩ := digits_iff.mp hday
  obtain ⟨separator,hseparator,rfl⟩ := expect_iff.mp hsep
  obtain ⟨-,rfl⟩ := digits_iff.mp hhour
  obtain ⟨_,hc'',rfl⟩ := expect_iff.mp hcolon
  obtain ⟨-,rfl⟩ := digits_iff.mp hminute
  obtain ⟨_,hlast,rfl⟩ := expect_iff.mp hcolon'
  obtain ⟨-,rfl⟩ := digits_iff.mp hsecond
  obtain ⟨decimals,hdecimals,rfl,rfl⟩ := readFraction_sound hfraction
  obtain ⟨zone,hzoneValid,rfl,rfl⟩ := readZone_iff.mp hzone
  cases List.mem_singleton.mp hc
  cases List.mem_singleton.mp hc'
  cases List.mem_singleton.mp hc''
  cases List.mem_singleton.mp hlast
  dsimp only at hresult
  by_cases hend : cs₁₃ ≠ []
  · rw [if_pos hend] at hresult
    cases hresult
  rw [if_neg hend] at hresult
  rw [not_not] at hend
  subst hend
  by_cases hfields : month < 1 ∨ 12 < month ∨ day < 1 ∨
      (daysInMonth year).getD (month-1) 0 < day ∨ 23 < hour ∨ 59 < minute ∨ 59 < second
  · rw [if_pos hfields] at hresult
    cases hresult
  rw [if_neg hfields] at hresult
  split_ifs at hresult with hin
  · cases hresult
  simp only [not_or,not_lt] at hfields
  obtain ⟨hm₁,hm₂,hd₁,hd₂,hh,hmi,hs⟩ := hfields
  refine ⟨⟨year,signed,month,day,separator,hour,minute,second,decimals,zone⟩,
    ⟨hfits,⟨hm₁,hm₂⟩,⟨hd₁,hd₂⟩,by simpa using hseparator,hh,hmi,hs,hdecimals,hzoneValid⟩,
    ⟨?_,?_⟩,?_,?_⟩
  · exact not_lt.mp fun hbig => hin (.inl hbig)
  · intro hmax
    by_contra hne
    exact hin (.inr ⟨hmax,hne⟩)
  · rw [hvalue,Clock.text]
    simp
  · exact (Option.some.inj hresult).symm

end AstraNull.OwnershipClock

import Mathlib

/-!
# Finite binary64 numbers and their shortest decimal text

A finite nonzero number is a sign and a magnitude `mantissa * 2^(shift-1074)`
with a normalized mantissa; the two zeros are one value. Rounding is stated by
intervals: a rational rounds to the magnitude whose half-gap interval contains
it, the endpoints belonging to even mantissas. Distinct magnitudes have disjoint
intervals, so rounding is a partial function without any reference to a search.

The printer is the ECMAScript `Number::toString`: a coefficient with the fewest
digits whose decimal rounds back to the number, laid out in one of four
forms. The reader takes a JSON number token and rounds its decimal value. The
main result is that the reader inverts the printer before any continuation that
does not extend the token.
-/
namespace AstraNull.NumberText

/-- Positive finite binary64 magnitude. -/
structure Magnitude where
  mantissa : ℕ
  shift : ℕ
  mantissa_pos : 0 < mantissa
  mantissa_lt : mantissa < 2 ^ 53
  shift_lt : shift < 2046
  normal : 2 ^ 52 ≤ mantissa ∨ shift = 0
deriving DecidableEq

/-- A finite number. Negative zero is identified with zero. -/
inductive Number where
  | zero
  | nonzero (neg : Bool) (x : Magnitude)
deriving DecidableEq

def Number.one : Number := .nonzero false ⟨2^52,1022,by decide,by decide,by decide,by decide⟩

namespace Magnitude

/-- The shift of the numbers from 16 to 31. -/
theorem sixteen_shift_lt : 1026 < 2046 := by decide

theorem ext_fields {x y : Magnitude} (hm : x.mantissa = y.mantissa)
    (hs : x.shift = y.shift) : x = y := by
  cases x
  cases y
  simp_all

/-- The unit of the least exponent is `4 / scale`, so that quarter units stay
integral multiples of `2 ^ shift / scale`. -/
@[irreducible]
def scale : ℚ := 4 * 2 ^ 1074

theorem scale_pos : 0 < scale := by
  unfold scale
  positivity

def value (x : Magnitude) : ℚ := 4 * x.mantissa * 2 ^ x.shift / scale

/-- Quarter units below the number that still round to it: the gap under a
power of two is half the gap above it. -/
def lowGap (x : Magnitude) : ℚ := if x.mantissa = 2 ^ 52 ∧ 0 < x.shift then 1 else 2

def low (x : Magnitude) : ℚ := (4 * x.mantissa - x.lowGap) * 2 ^ x.shift / scale

def high (x : Magnitude) : ℚ := (4 * x.mantissa + 2) * 2 ^ x.shift / scale

/-- Round-to-nearest, ties to the even mantissa. -/
def Rounds (x : Magnitude) (v : ℚ) : Prop :=
  (x.low < v ∧ v < x.high) ∨ (x.mantissa % 2 = 0 ∧ (v = x.low ∨ v = x.high))

instance (x : Magnitude) (v : ℚ) : Decidable (x.Rounds v) := by
  unfold Rounds
  infer_instance

theorem lowGap_pos (x : Magnitude) : 0 < x.lowGap := by
  unfold lowGap
  split_ifs <;> norm_num

theorem lowGap_le (x : Magnitude) : x.lowGap ≤ 2 := by
  unfold lowGap
  split_ifs <;> norm_num

theorem value_pos (x : Magnitude) : 0 < x.value := by
  have hm : (0 : ℚ) < x.mantissa := by exact_mod_cast x.mantissa_pos
  have hs := scale_pos
  unfold value
  positivity

theorem rounds_value (x : Magnitude) : x.Rounds x.value := by
  have hg := x.lowGap_pos
  have hs := scale_pos
  refine Or.inl ⟨?_, ?_⟩
  · unfold low value
    gcongr
    linarith
  · unfold high value
    gcongr
    linarith

theorem low_lt_high (x : Magnitude) : x.low < x.high := by
  have hg := x.lowGap_pos
  have hs := scale_pos
  unfold low high
  gcongr
  linarith

theorem Rounds.low_le {x : Magnitude} {v : ℚ} (h : x.Rounds v) : x.low ≤ v := by
  rcases h with h | ⟨_, rfl | rfl⟩
  · exact h.1.le
  · exact le_rfl
  · exact x.low_lt_high.le

theorem Rounds.le_high {x : Magnitude} {v : ℚ} (h : x.Rounds v) : v ≤ x.high := by
  rcases h with h | ⟨_, rfl | rfl⟩
  · exact h.2.le
  · exact x.low_lt_high.le
  · exact le_rfl

theorem Rounds.odd_lt_high {x : Magnitude} {v : ℚ} (h : x.Rounds v)
    (ho : x.mantissa % 2 ≠ 0) : v < x.high := by
  rcases h with h | ⟨he, _⟩
  · exact h.2
  · exact (ho he).elim

theorem Rounds.odd_low_lt {x : Magnitude} {v : ℚ} (h : x.Rounds v)
    (ho : x.mantissa % 2 ≠ 0) : x.low < v := by
  rcases h with h | ⟨he, _⟩
  · exact h.1
  · exact (ho he).elim

/-- Neighbours on one binary scale meet in at most their common endpoint, and
one of the two mantissas is odd there. -/
theorem not_rounds_of_mantissa_lt {x y : Magnitude} {v : ℚ} (hs : x.shift = y.shift)
    (hm : x.mantissa < y.mantissa) (hx : x.Rounds v) : ¬ y.Rounds v := by
  intro hy
  have hq : (x.mantissa : ℚ) + 1 ≤ y.mantissa := by exact_mod_cast hm
  have hg := y.lowGap_le
  have hp := scale_pos
  have hmeet : x.high ≤ y.low := by
    unfold high low
    rw [hs]
    gcongr
    linarith
  by_cases hx2 : x.mantissa % 2 = 0
  · by_cases hy2 : y.mantissa % 2 = 0
    · have hq2 : (x.mantissa : ℚ) + 2 ≤ y.mantissa := by
        have : x.mantissa + 2 ≤ y.mantissa := by omega
        exact_mod_cast this
      have hstrict : x.high < y.low := by
        unfold high low
        rw [hs]
        gcongr
        linarith
      exact absurd (hx.le_high.trans_lt hstrict) (not_lt.mpr hy.low_le)
    · exact absurd (hx.le_high.trans hmeet) (not_le.mpr (hy.odd_low_lt hy2))
  · exact absurd ((hx.odd_lt_high hx2).trans_le hmeet) (not_lt.mpr hy.low_le)

/-- Across a change of scale the upper number is normal, so its lower endpoint is
at least the upper endpoint of the largest mantissa below it, which is odd. -/
theorem not_rounds_of_shift_lt {x y : Magnitude} {v : ℚ} (hs : x.shift < y.shift)
    (hx : x.Rounds v) : ¬ y.Rounds v := by
  intro hy
  have hn : 2 ^ 52 ≤ y.mantissa := by
    rcases y.normal with h | h
    · exact h
    · omega
  have hylow : (2 ^ 54 - 1 : ℚ) ≤ 4 * y.mantissa - y.lowGap := by
    unfold lowGap
    split_ifs with h
    · rw [h.1]
      norm_num
    · have h1 : 2 ^ 52 + 1 ≤ y.mantissa := by
        rcases Nat.lt_or_ge (2 ^ 52) y.mantissa with h2 | h2
        · exact h2
        · exact (h ⟨le_antisymm h2 hn, by omega⟩).elim
      have : ((2 ^ 52 + 1 : ℕ) : ℚ) ≤ y.mantissa := by exact_mod_cast h1
      push_cast at this
      linarith
  have hpow : (2 : ℚ) ^ x.shift * 2 ≤ 2 ^ y.shift := by
    rw [← pow_succ]
    exact pow_le_pow_right₀ (by norm_num) hs
  have hp := scale_pos
  have hyl : (2 ^ 54 - 1) * (2 ^ x.shift * 2) / scale ≤ y.low := by
    unfold low
    have : (0 : ℚ) ≤ 4 * y.mantissa - y.lowGap := by linarith
    gcongr
  have hxm : x.mantissa + 1 ≤ 2 ^ 53 := x.mantissa_lt
  have hxq : (x.mantissa : ℚ) + 1 ≤ 2 ^ 53 := by exact_mod_cast hxm
  have hxh : x.high ≤ (2 ^ 54 - 1) * (2 ^ x.shift * 2) / scale := by
    unfold high
    rw [show (2 ^ 54 - 1 : ℚ) * (2 ^ x.shift * 2) = (2 ^ 55 - 2) * 2 ^ x.shift by ring]
    gcongr
    linarith
  by_cases hodd : x.mantissa % 2 = 0
  · have hxe : (x.mantissa : ℚ) + 2 ≤ 2 ^ 53 := by
      have : x.mantissa + 2 ≤ 2 ^ 53 := by omega
      exact_mod_cast this
    have hxs : x.high < (2 ^ 54 - 1) * (2 ^ x.shift * 2) / scale := by
      unfold high
      rw [show (2 ^ 54 - 1 : ℚ) * (2 ^ x.shift * 2) = (2 ^ 55 - 2) * 2 ^ x.shift by ring]
      gcongr
      linarith
    exact absurd (hx.le_high.trans_lt (hxs.trans_le hyl)) (not_lt.mpr hy.low_le)
  · exact absurd ((hx.odd_lt_high hodd).trans_le (hxh.trans hyl)) (not_lt.mpr hy.low_le)

/-- Rounding is single valued. -/
theorem rounds_unique {x y : Magnitude} {v : ℚ} (hx : x.Rounds v) (hy : y.Rounds v) :
    x = y := by
  rcases lt_trichotomy x.shift y.shift with hs | hs | hs
  · exact (not_rounds_of_shift_lt hs hx hy).elim
  · rcases lt_trichotomy x.mantissa y.mantissa with hm | hm | hm
    · exact (not_rounds_of_mantissa_lt hs hm hx hy).elim
    · exact ext_fields hm hs
    · exact (not_rounds_of_mantissa_lt hs.symm hm hy hx).elim
  · exact (not_rounds_of_shift_lt hs hy hx).elim

/-- Try one mantissa on one binary scale. -/
def atScale (mantissa shift : ℕ) : Option Magnitude :=
  if h : 0 < mantissa ∧ mantissa < 2 ^ 53 ∧ shift < 2046 ∧ (2 ^ 52 ≤ mantissa ∨ shift = 0) then
    some ⟨mantissa, shift, h.1, h.2.1, h.2.2.1, h.2.2.2⟩
  else none

theorem atScale_self (x : Magnitude) : atScale x.mantissa x.shift = some x := by
  unfold atScale
  rw [dif_pos ⟨x.mantissa_pos, x.mantissa_lt, x.shift_lt, x.normal⟩]

/-- The two mantissas around a rational on one scale, kept only when the rational
rounds to them. -/
def nearScale (v : ℚ) (shift : ℕ) : Option Magnitude :=
  let f := ⌊v * scale / (4 * 2 ^ shift)⌋₊
  ((atScale f shift).filter (·.Rounds v)).or ((atScale (f + 1) shift).filter (·.Rounds v))

/-- Nearest finite magnitude, if the rational does not underflow or overflow. -/
def ofRational (v : ℚ) : Option Magnitude := (List.range 2046).findSome? (nearScale v)

theorem nearScale_sound {v : ℚ} {shift : ℕ} {y : Magnitude} (h : nearScale v shift = some y) :
    y.Rounds v := by
  simp only [nearScale, Option.or_eq_some_iff, Option.filter_eq_some_iff,
    decide_eq_true_eq] at h
  rcases h with h | h
  · exact h.2
  · exact h.2.2

theorem floor_near {x : Magnitude} {v : ℚ} (h : x.Rounds v) :
    x.mantissa = ⌊v * scale / (4 * 2 ^ x.shift)⌋₊ ∨
      x.mantissa = ⌊v * scale / (4 * 2 ^ x.shift)⌋₊ + 1 := by
  have hs := scale_pos
  have hm : (1 : ℚ) ≤ x.mantissa := by exact_mod_cast x.mantissa_pos
  have hl : (x.mantissa : ℚ) - 1 ≤ v * scale / (4 * 2 ^ x.shift) := by
    rw [le_div_iff₀ (by positivity)]
    have h1 := h.low_le
    unfold low at h1
    rw [div_le_iff₀ hs] at h1
    have h2 := x.lowGap_le
    have h3 : (0 : ℚ) < 2 ^ x.shift := by positivity
    nlinarith
  have hu : v * scale / (4 * 2 ^ x.shift) < x.mantissa + 1 := by
    rw [div_lt_iff₀ (by positivity)]
    have h1 := h.le_high
    unfold high at h1
    rw [le_div_iff₀ hs] at h1
    have h3 : (0 : ℚ) < 2 ^ x.shift := by positivity
    nlinarith
  have hnn : (0 : ℚ) ≤ v * scale / (4 * 2 ^ x.shift) := by linarith
  have hfl : ⌊v * scale / (4 * 2 ^ x.shift)⌋₊ < x.mantissa + 1 := by
    rw [Nat.floor_lt hnn]
    exact_mod_cast hu
  have hfu : x.mantissa - 1 ≤ ⌊v * scale / (4 * 2 ^ x.shift)⌋₊ := by
    apply Nat.le_floor
    rw [Nat.cast_sub x.mantissa_pos]
    simpa using hl
  have := x.mantissa_pos
  omega

theorem nearScale_complete {x : Magnitude} {v : ℚ} (h : x.Rounds v) :
    (nearScale v x.shift).isSome := by
  have hx : (atScale x.mantissa x.shift).filter (·.Rounds v) = some x := by
    rw [atScale_self]
    simp [h]
  rcases floor_near h with hf | hf
  · rw [nearScale, ← hf, hx]
    rfl
  · rw [nearScale, ← hf, hx]
    cases Option.filter _ (atScale _ x.shift) <;> rfl

/-- The search returns the number a rational rounds to. -/
theorem ofRational_eq {x : Magnitude} {v : ℚ} (h : x.Rounds v) : ofRational v = some x := by
  have hsome : (ofRational v).isSome := by
    rw [ofRational, List.findSome?_isSome_iff]
    exact ⟨x.shift, List.mem_range.mpr x.shift_lt, nearScale_complete h⟩
  obtain ⟨y, hy⟩ := Option.isSome_iff_exists.mp hsome
  obtain ⟨s, _, hs⟩ := List.exists_of_findSome?_eq_some hy
  rw [hy, rounds_unique (nearScale_sound hs) h]

/-- Multiples of one power of ten around the value that round to it; the nearer
one is kept, the even one at equal distance. -/
def candidate (x : Magnitude) (p : ℤ) : Option ℕ :=
  let q := x.value/10^p
  let f := ⌊q⌋₊
  if x.Rounds (f*10^p) then
    if x.Rounds ((f+1 : ℕ)*10^p) ∧ (1 < 2*(q-f) ∨ 2*(q-f) = 1 ∧ f % 2 = 1) then some (f+1)
    else some f
  else if x.Rounds ((f+1 : ℕ)*10^p) then some (f+1) else none

theorem candidate_rounds {x : Magnitude} {p : ℤ} {c : ℕ} (h : candidate x p = some c) :
    x.Rounds (c*10^p) := by
  unfold candidate at h
  simp only at h
  split_ifs at h with h1 h2 h3
  · cases h
    exact h2.1
  · cases h
    exact h1
  · cases h
    exact h3

/-- Search for the coarsest power of ten, from `10^(n-1074)` down to the unit
`10^(-1074)` in which every magnitude is an integer. -/
def shortestFrom (x : Magnitude) : ℕ → ℕ × ℤ
  | 0 => (x.mantissa*2^x.shift*5^1074,-1074)
  | n+1 =>
      match candidate x ((n : ℤ)-1073) with
      | some c => (c,(n : ℤ)-1073)
      | none => shortestFrom x n

/-- Every finite magnitude is below `10^309`. -/
def shortest (x : Magnitude) : ℕ × ℤ := shortestFrom x 1382

theorem value_eq_decimal (x : Magnitude) :
    ((x.mantissa*2^x.shift*5^1074 : ℕ) : ℚ)*10^(-1074 : ℤ) = x.value := by
  have h10 : (10 : ℚ)^(-1074 : ℤ) = 1/(2^1074*5^1074) := by
    rw [zpow_neg,one_div,show (10 : ℚ) = 2*5 by norm_num,← mul_pow]
    rfl
  have h5 : (5 : ℚ)^1074 ≠ 0 := pow_ne_zero _ (by norm_num)
  have h2 : (2 : ℚ)^1074 ≠ 0 := pow_ne_zero _ (by norm_num)
  unfold value scale
  rw [h10,Nat.cast_mul,Nat.cast_mul,Nat.cast_pow,Nat.cast_pow,Nat.cast_ofNat,Nat.cast_ofNat]
  generalize (5 : ℚ)^1074 = a at h5
  generalize (2 : ℚ)^1074 = b at h2
  field_simp

theorem shortestFrom_rounds (x : Magnitude) (n : ℕ) :
    x.Rounds ((shortestFrom x n).1*10^(shortestFrom x n).2) := by
  induction n with
  | zero =>
      rw [shortestFrom,value_eq_decimal]
      exact x.rounds_value
  | succ n ih =>
      rw [shortestFrom]
      split
      · next c h => exact candidate_rounds h
      · exact ih

theorem shortest_rounds (x : Magnitude) : x.Rounds (x.shortest.1*10^x.shortest.2) :=
  x.shortestFrom_rounds 1382

theorem low_pos (x : Magnitude) : 0 < x.low := by
  have hm : (1 : ℚ) ≤ x.mantissa := by exact_mod_cast x.mantissa_pos
  have hg := x.lowGap_le
  have hs := scale_pos
  have h : (0 : ℚ) < 4*x.mantissa-x.lowGap := by linarith
  unfold low
  positivity

theorem Rounds.pos {x : Magnitude} {v : ℚ} (h : x.Rounds v) : 0 < v :=
  x.low_pos.trans_le h.low_le

/-- Nothing at or below half of the least magnitude rounds to a magnitude. -/
theorem Rounds.not_underflow {x : Magnitude} {v : ℚ} (h : x.Rounds v) : 2/scale < v := by
  have hs := scale_pos
  have hg := x.lowGap_le
  have hp : (1 : ℚ) ≤ 2^x.shift := one_le_pow₀ (by norm_num)
  have hbase : ∀ k : ℕ,k ≤ x.mantissa → (4*k-2 : ℚ)/scale ≤ x.low := by
    intro k hk
    have hkq : (k : ℚ) ≤ x.mantissa := by exact_mod_cast hk
    have hm : (1 : ℚ) ≤ x.mantissa := by exact_mod_cast x.mantissa_pos
    unfold low
    gcongr
    nlinarith
  rcases Nat.lt_or_ge x.mantissa 2 with hm | hm
  · have h1 : x.mantissa = 1 := by
      have := x.mantissa_pos
      omega
    have hlow := h.odd_low_lt (by omega)
    have := hbase 1 h1.ge
    norm_num at this
    exact this.trans_lt hlow
  · have := hbase 2 hm
    have h26 : 2/scale < (4*(2 : ℕ)-2 : ℚ)/scale := by
      gcongr
      norm_num
    exact h26.trans_le (this.trans h.low_le)

theorem shortest_pos (x : Magnitude) : 0 < (shortest x).1 := by
  have h := x.shortest_rounds.pos
  by_contra hc
  have h0 : x.shortest.1 = 0 := Nat.eq_zero_of_not_pos hc
  rw [h0,Nat.cast_zero,zero_mul] at h
  exact lt_irrefl _ h

/-- The search for the digits of a natural number stops at the unit at the latest. -/
theorem shortestFrom_natural {x : Magnitude} {k : ℕ} (hx : x.value = k) (n : ℕ) :
    0 ≤ (x.shortestFrom (1074+n)).2 := by
  induction n with
  | zero =>
      have hfloor : ⌊(k : ℚ)/10^((1073 : ℕ)-1073 : ℤ)⌋₊ = k := by simp
      have hk : x.Rounds ((k : ℚ)*10^((1073 : ℕ)-1073 : ℤ)) := by simpa [hx] using x.rounds_value
      have hcandidate : x.candidate ((1073 : ℕ)-1073) ≠ none := by
        simp only [candidate,hx,hfloor,if_pos hk]
        split_ifs <;> simp
      rw [shortestFrom]
      split
      · simp
      · next hnone => exact absurd hnone hcandidate
  | succ n ih =>
      rw [← Nat.add_assoc,Magnitude.shortestFrom]
      split
      · push_cast
        omega
      · exact ih

theorem high_le (x : Magnitude) : x.high ≤ 2*x.value := by
  have hm : (1 : ℚ) ≤ x.mantissa := by exact_mod_cast x.mantissa_pos
  have hs := scale_pos
  have hp : (0 : ℚ) < 2^x.shift := by positivity
  rw [high,value,← mul_div_assoc,div_le_div_iff_of_pos_right hs]
  nlinarith

end Magnitude

/-- A JSON number token without its sign. The digits carry no order of magnitude
of their own: the value is read from all digits and one power of ten. -/
structure Token where
  whole : List Char
  fraction : List Char
  exponent : Option ℤ

namespace Token

def exponentText : Option ℤ → List Char
  | none => []
  | some e => 'e'::(if e < 0 then '-' else '+')::Nat.toDigits 10 e.natAbs

def fractionText (fraction : List Char) : List Char :=
  if fraction = [] then [] else '.'::fraction

def text (t : Token) : List Char :=
  t.whole++(fractionText t.fraction++exponentText t.exponent)

def value (t : Token) : ℚ :=
  Nat.ofDigitChars 10 (t.whole++t.fraction) 0*10^(t.exponent.getD 0-t.fraction.length)

/-- The JSON grammar: digits only, and no superfluous leading zero. -/
structure Valid (t : Token) : Prop where
  whole_ne : t.whole ≠ []
  whole_digits : ∀ c ∈ t.whole,c.isDigit
  whole_zero : t.whole.head? = some '0' → t.whole = ['0']
  fraction_digits : ∀ c ∈ t.fraction,c.isDigit

end Token

theorem toDigits_head (n : ℕ) (h : 0 < n) : (Nat.toDigits 10 n).head? ≠ some '0' := by
  induction n using Nat.strong_induction_on with
  | _ n ih =>
      by_cases hn : n < 10
      · rw [Nat.toDigits_of_lt_base hn]
        interval_cases n <;> decide
      · rw [Nat.toDigits_of_base_le (by norm_num) (by omega),
          List.head?_append_of_ne_nil _ Nat.toDigits_ne_nil]
        exact ih (n/10) (by omega) (by omega)

/-- The four ECMAScript layouts of `coefficient * 10^p`. -/
def layout (coefficient : ℕ) (p : ℤ) : Token :=
  let ds := Nat.toDigits 10 coefficient
  let n : ℤ := ds.length+p
  if 0 ≤ p ∧ n ≤ 21 then ⟨ds++List.replicate p.toNat '0',[],none⟩
  else if 0 < n ∧ n ≤ 21 then ⟨ds.take n.toNat,ds.drop n.toNat,none⟩
  else if -6 < n ∧ n ≤ 0 then ⟨['0'],List.replicate (-n).toNat '0'++ds,none⟩
  else ⟨ds.take 1,ds.drop 1,some (n-1)⟩

theorem layout_valid {coefficient : ℕ} (p : ℤ) (h : 0 < coefficient) :
    (layout coefficient p).Valid := by
  have hne : Nat.toDigits 10 coefficient ≠ [] := Nat.toDigits_ne_nil
  have hd : ∀ c ∈ Nat.toDigits 10 coefficient,c.isDigit :=
    fun c hc => Nat.isDigit_of_mem_toDigits (by norm_num) (by norm_num) hc
  have hz : ∀ k,∀ c ∈ List.replicate k '0',c.isDigit := by
    intro k c hc
    rw [List.eq_of_mem_replicate hc]
    rfl
  have hh := toDigits_head coefficient h
  unfold layout
  generalize Nat.toDigits 10 coefficient = ds at *
  simp only
  split_ifs with h1 h2 h3
  · refine ⟨by simp [hne],?_,?_,by simp⟩
    · intro c hc
      rcases List.mem_append.mp hc with hc | hc
      · exact hd c hc
      · exact hz _ c hc
    · intro hc
      rw [List.head?_append_of_ne_nil _ hne] at hc
      exact (hh hc).elim
  · have htake : ds.take ((ds.length : ℤ)+p).toNat ≠ [] := by
      rw [Ne,List.take_eq_nil_iff,not_or]
      exact ⟨by omega,hne⟩
    refine ⟨htake,fun c hc => hd c (List.mem_of_mem_take hc),?_,
      fun c hc => hd c (List.mem_of_mem_drop hc)⟩
    intro hc
    rw [List.head?_take,if_neg (by omega)] at hc
    exact (hh hc).elim
  · refine ⟨by simp,by simp,fun _ => rfl,?_⟩
    intro c hc
    rcases List.mem_append.mp hc with hc | hc
    · exact hz _ c hc
    · exact hd c hc
  · refine ⟨by simp [hne],fun c hc => hd c (List.mem_of_mem_take hc),?_,
      fun c hc => hd c (List.mem_of_mem_drop hc)⟩
    intro hc
    rw [List.head?_take,if_neg (by omega)] at hc
    exact (hh hc).elim

theorem layout_value (coefficient : ℕ) (p : ℤ) :
    (layout coefficient p).value = coefficient*10^p := by
  have hv : Nat.ofDigitChars 10 (Nat.toDigits 10 coefficient) 0 = coefficient :=
    Nat.ofDigitChars_ten_toDigits
  have hne : Nat.toDigits 10 coefficient ≠ [] := Nat.toDigits_ne_nil
  unfold layout
  generalize Nat.toDigits 10 coefficient = ds at *
  have hlen : 0 < ds.length := List.length_pos_iff.mpr hne
  simp only
  split_ifs with h1 h2 h3
  · obtain ⟨k,rfl⟩ := Int.eq_ofNat_of_zero_le h1.1
    simp only [Token.value,List.append_nil,Nat.ofDigitChars_append,hv,
      Nat.ofDigitChars_replicate_zero,Option.getD_none,List.length_nil,Int.toNat_natCast]
    push_cast
    simp [mul_comm]
  · simp only [Token.value,List.take_append_drop,hv,Option.getD_none,List.length_drop]
    congr 2
    omega
  · simp only [Token.value,Option.getD_none,List.length_append,List.length_replicate,
      List.singleton_append,Nat.ofDigitChars_cons,Nat.ofDigitChars_append,
      Nat.ofDigitChars_replicate_zero]
    have h0 : 10*0+('0'.toNat- '0'.toNat) = 0 := rfl
    rw [h0,mul_zero,hv]
    congr 2
    omega
  · simp only [Token.value,List.take_append_drop,hv,Option.getD_some,List.length_drop]
    congr 2
    omega

/-- The digits of a token continue as far as they can. -/
def readDigits (cs : List Char) : List Char × List Char :=
  (cs.takeWhile Char.isDigit,cs.dropWhile Char.isDigit)

def readFraction : List Char → Option (List Char × List Char)
  | '.'::cs =>
      let r := readDigits cs
      if r.1 = [] then none else some r
  | cs => some ([],cs)

def readExponentDigits (neg : Bool) (cs : List Char) : Option (Option ℤ × List Char) :=
  let r := readDigits cs
  if r.1 = [] then none
  else
    let e : ℤ := Nat.ofDigitChars 10 r.1 0
    some (some (if neg then -e else e),r.2)

def readExponentBody : List Char → Option (Option ℤ × List Char)
  | '-'::cs => readExponentDigits true cs
  | '+'::cs => readExponentDigits false cs
  | cs => readExponentDigits false cs

def readExponent : List Char → Option (Option ℤ × List Char)
  | 'e'::cs => readExponentBody cs
  | 'E'::cs => readExponentBody cs
  | cs => some (none,cs)

def readToken (cs : List Char) : Option (Token × List Char) := do
  let w := readDigits cs
  if w.1 = [] ∨ (w.1.head? = some '0' ∧ w.1 ≠ ['0']) then none
  else
    let f ← readFraction w.2
    let e ← readExponent f.2
    some (⟨w.1,f.1,e.1⟩,e.2)

/-- A continuation that cannot extend a number token. -/
def TokenEnd (r : List Char) : Prop :=
  ∀ c ∈ r.head?,¬ c.isDigit ∧ c ≠ '.' ∧ c ≠ 'e' ∧ c ≠ 'E'

theorem readDigits_append {ds r : List Char} (hd : ∀ c ∈ ds,c.isDigit)
    (hr : ∀ c ∈ r.head?,¬ c.isDigit) : readDigits (ds++r) = (ds,r) := by
  have hstop : r.takeWhile Char.isDigit = [] ∧ r.dropWhile Char.isDigit = r := by
    cases r with
    | nil => exact ⟨rfl,rfl⟩
    | cons c cs =>
        have hc : ¬ c.isDigit := hr c rfl
        simp [hc]
  unfold readDigits
  rw [List.takeWhile_append_of_pos hd,List.dropWhile_append_of_pos hd,hstop.1,hstop.2,
    List.append_nil]

theorem readFraction_text {fraction r : List Char} (hd : ∀ c ∈ fraction,c.isDigit)
    (hr : ∀ c ∈ r.head?,¬ c.isDigit ∧ c ≠ '.') :
    readFraction (Token.fractionText fraction++r) = some (fraction,r) := by
  unfold Token.fractionText
  split_ifs with h
  · subst h
    cases r with
    | nil => rfl
    | cons c cs =>
        have hc := (hr c rfl).2
        rw [List.nil_append,readFraction]
        intro cs' heq
        exact hc (List.cons.inj heq).1
  · rw [List.cons_append,readFraction,readDigits_append hd fun c hc => (hr c hc).1]
    exact if_neg h

theorem readExponent_text (e : Option ℤ) {r : List Char} (hr : TokenEnd r) :
    readExponent (Token.exponentText e++r) = some (e,r) := by
  cases e with
  | none =>
      cases r with
      | nil => rfl
      | cons c cs =>
          obtain ⟨-,-,he,hE⟩ := hr c rfl
          rw [Token.exponentText,List.nil_append,readExponent]
          · intro cs' heq
            exact he (List.cons.inj heq).1
          · intro cs' heq
            exact hE (List.cons.inj heq).1
  | some e =>
      have hd : ∀ c ∈ Nat.toDigits 10 e.natAbs,c.isDigit :=
        fun c hc => Nat.isDigit_of_mem_toDigits (by norm_num) (by norm_num) hc
      have hdigits := readDigits_append hd fun c hc => (hr c hc).1
      rw [Token.exponentText]
      split_ifs with hneg
      · rw [List.cons_append,List.cons_append,readExponent,readExponentBody,readExponentDigits,
          hdigits,if_neg Nat.toDigits_ne_nil,Nat.ofDigitChars_ten_toDigits]
        have : -(e.natAbs : ℤ) = e := by omega
        simp only [if_true,this]
      · rw [List.cons_append,List.cons_append,readExponent,readExponentBody,readExponentDigits,
          hdigits,if_neg Nat.toDigits_ne_nil,Nat.ofDigitChars_ten_toDigits]
        have : (e.natAbs : ℤ) = e := by omega
        simp only [Bool.false_eq_true,if_false,this]

theorem exponentText_head (e : Option ℤ) {r : List Char} (hr : TokenEnd r) :
    ∀ c ∈ (Token.exponentText e++r).head?,¬ c.isDigit ∧ c ≠ '.' := by
  cases e with
  | none => exact fun c hc => ⟨(hr c hc).1,(hr c hc).2.1⟩
  | some e =>
      intro c hc
      cases Option.some.inj hc
      exact ⟨by decide,by decide⟩

theorem fractionText_head (fraction : List Char) {r : List Char}
    (hr : ∀ c ∈ r.head?,¬ c.isDigit ∧ c ≠ '.') :
    ∀ c ∈ (Token.fractionText fraction++r).head?,¬ c.isDigit := by
  unfold Token.fractionText
  split_ifs with h
  · exact fun c hc => (hr c hc).1
  · intro c hc
    cases Option.some.inj hc
    decide

theorem readToken_text {t : Token} (ht : t.Valid) {r : List Char} (hr : TokenEnd r) :
    readToken (t.text++r) = some (t,r) := by
  have he := exponentText_head t.exponent hr
  have hw := readDigits_append ht.whole_digits (fractionText_head t.fraction he)
  have hgood : ¬ (t.whole = [] ∨ t.whole.head? = some '0' ∧ t.whole ≠ ['0']) := by
    rintro (h | ⟨h,h'⟩)
    · exact ht.whole_ne h
    · exact h' (ht.whole_zero h)
  rw [Token.text,List.append_assoc,List.append_assoc,readToken]
  simp only [hw,if_neg hgood,readFraction_text ht.fraction_digits he,readExponent_text _ hr,
    Option.bind_eq_bind,Option.bind_some]

namespace Number

/-- `Number::toString` in radix ten. -/
def text : Number → List Char
  | zero => ['0']
  | nonzero neg x =>
      (if neg then ['-'] else [])++(layout x.shortest.1 x.shortest.2).text

/-- Rounding of a signed decimal. A value that overflows has no finite number. -/
def ofDecimal (neg : Bool) (v : ℚ) : Option Number :=
  if v ≤ 2/Magnitude.scale then some zero else (Magnitude.ofRational v).map (nonzero neg)

def readUnsigned (neg : Bool) (cs : List Char) : Option (Number × List Char) := do
  let t ← readToken cs
  let n ← ofDecimal neg t.1.value
  some (n,t.2)

def read : List Char → Option (Number × List Char)
  | '-'::cs => readUnsigned true cs
  | cs => readUnsigned false cs

theorem ofDecimal_rounds {x : Magnitude} {v : ℚ} (neg : Bool) (h : x.Rounds v) :
    ofDecimal neg v = some (nonzero neg x) := by
  rw [ofDecimal,if_neg (not_le.mpr h.not_underflow),Magnitude.ofRational_eq h,Option.map_some]

theorem readUnsigned_text (neg : Bool) (x : Magnitude) {r : List Char} (hr : TokenEnd r) :
    readUnsigned neg ((layout x.shortest.1 x.shortest.2).text++r) = some (nonzero neg x,r) := by
  have hv := layout_valid x.shortest.2 x.shortest_pos
  rw [readUnsigned,readToken_text hv hr]
  simp only [Option.bind_eq_bind,Option.bind_some,layout_value]
  rw [ofDecimal_rounds neg x.shortest_rounds]
  rfl

theorem text_head_ne_minus {t : Token} (ht : t.Valid) (r : List Char) :
    ∀ cs,t.text++r ≠ '-'::cs := by
  intro cs h
  obtain ⟨c,w,hw⟩ := List.exists_cons_of_ne_nil ht.whole_ne
  have hc := ht.whole_digits c (by rw [hw]; exact List.mem_cons_self)
  rw [Token.text,hw] at h
  rw [(List.cons.inj h).1] at hc
  exact absurd hc (by decide)

/-- The reader inverts the printer before every continuation that does not extend
the token. -/
theorem read_text (n : Number) {r : List Char} (hr : TokenEnd r) :
    read (n.text++r) = some (n,r) := by
  cases n with
  | zero =>
      have hv : Token.Valid ⟨['0'],[],none⟩ := ⟨by simp,by simp,fun _ => rfl,by simp⟩
      have h := readToken_text hv hr
      have h0 : Token.value ⟨['0'],[],none⟩ = 0 := by
        rw [Token.value]
        norm_num [Nat.ofDigitChars_cons]
      have hs := Magnitude.scale_pos
      have hpos : (0 : ℚ) ≤ 2/Magnitude.scale := by positivity
      change readUnsigned false (Token.text ⟨['0'],[],none⟩++r) = _
      rw [readUnsigned,h]
      simp only [Option.bind_eq_bind,Option.bind_some,h0,ofDecimal,if_pos hpos]
  | nonzero neg x =>
      cases neg with
      | true => exact readUnsigned_text true x hr
      | false =>
          have hv := layout_valid x.shortest.2 x.shortest_pos
          change read ((layout x.shortest.1 x.shortest.2).text++r) = _
          rw [read]
          · exact readUnsigned_text false x hr
          · exact text_head_ne_minus hv r

/-- Integers below 2^53 are numbers. -/
theorem exists_natural {k : ℕ} (h0 : 0 < k) (hk : k < 2^53) :
    ∃ x : Magnitude,x.value = k ∧ ofDecimal false k = some (nonzero false x) := by
  have hlog : Nat.log 2 k ≤ 52 := Nat.lt_succ_iff.mp (Nat.log_lt_of_lt_pow h0.ne' hk)
  have hlow : 2^Nat.log 2 k ≤ k := Nat.pow_log_le_self 2 h0.ne'
  have hhigh : k < 2^(Nat.log 2 k+1) := Nat.lt_pow_succ_log_self (by norm_num) k
  generalize Nat.log 2 k = e at hlog hlow hhigh
  have hd : e+(52-e) = 52 := by omega
  have hpos : 0 < 2^(52-e) := by positivity
  have hmin : 2^52 ≤ k*2^(52-e) := by
    calc 2^52 = 2^e*2^(52-e) := by rw [← pow_add,hd]
      _ ≤ k*2^(52-e) := Nat.mul_le_mul_right _ hlow
  have hmax : k*2^(52-e) < 2^53 := by
    calc k*2^(52-e) < 2^(e+1)*2^(52-e) := Nat.mul_lt_mul_of_pos_right hhigh hpos
      _ = 2^53 := by rw [← pow_add,show e+1+(52-e) = 53 by omega]
  let x : Magnitude := ⟨k*2^(52-e),1022+e,by positivity,hmax,by omega,Or.inl hmin⟩
  have hx : x.value = k := by
    have hscale : (4 : ℚ)*(k*2^(52-e) : ℕ)*2^(1022+e) = k*Magnitude.scale := by
      rw [Magnitude.scale]
      push_cast
      calc (4 : ℚ)*(k*2^(52-e))*2^(1022+e) = k*(4*(2^(52-e)*2^(1022+e))) := by
            rw [← mul_assoc,mul_comm (4 : ℚ) k,mul_assoc,mul_assoc]
        _ = k*(4*2^1074) := by rw [← pow_add,show 52-e+(1022+e) = 1074 by omega]
    change (4 : ℚ)*(k*2^(52-e) : ℕ)*2^(1022+e)/Magnitude.scale = k
    rw [hscale,mul_div_cancel_right₀ _ Magnitude.scale_pos.ne']
  refine ⟨x,hx,ofDecimal_rounds false ?_⟩
  rw [← hx]
  exact x.rounds_value

/-- A natural number is written with at most so many digits and nothing else. -/
theorem text_natural {x : Magnitude} {k : ℕ} (hk : k < 2^53) (hx : x.value = k) :
    (nonzero false x).text.length ≤ 17 ∧
      ∀ c ∈ (nonzero false x).text,c.isDigit = true := by
  have hp : 0 ≤ x.shortest.2 := Magnitude.shortestFrom_natural hx 308
  have hround := x.shortest_rounds.le_high.trans x.high_le
  have hpos := x.shortest_pos
  rw [text,if_neg (by decide),List.nil_append]
  generalize x.shortest = shortest at hp hround hpos ⊢
  obtain ⟨c,p⟩ := shortest
  dsimp only at hp hround hpos ⊢
  obtain ⟨e,rfl⟩ := Int.eq_ofNat_of_zero_le hp
  have hvalue : c*10^e < 10^17 := by
    rw [hx,zpow_natCast] at hround
    have hle : c*10^e ≤ 2*k := by exact_mod_cast hround
    omega
  have he : e < 17 := by
    refine (Nat.pow_lt_pow_iff_right (by norm_num : 1 < 10)).mp (lt_of_le_of_lt ?_ hvalue)
    exact Nat.le_mul_of_pos_left _ hpos
  have hc : c < 10^(17-e) := by
    refine lt_of_mul_lt_mul_right ?_ (Nat.zero_le (10^e))
    rwa [← pow_add,Nat.sub_add_cancel he.le]
  have hdigits : (Nat.toDigits 10 c).length ≤ 17-e :=
    (Nat.length_toDigits_le_iff (by norm_num) (by omega)).mpr hc
  have hwhole : layout c (e : ℤ) = ⟨Nat.toDigits 10 c++List.replicate e '0',[],none⟩ := by
    rw [layout,if_pos ⟨by omega,by omega⟩,Int.toNat_natCast]
  rw [hwhole]
  simp only [Token.text,Token.fractionText,Token.exponentText,if_true,List.append_nil]
  constructor
  · rw [List.length_append,List.length_replicate]
    omega
  · intro d hd
    rcases List.mem_append.mp hd with hd | hd
    · exact Nat.isDigit_of_mem_toDigits (by norm_num) (by norm_num) hd
    · rw [List.eq_of_mem_replicate hd]
      rfl

end Number

end AstraNull.NumberText

import Mathlib
import AstraNull.JsonText

/-!
# String operations of the language

The operations the modelled services apply to strings of code units: conversion to
a UTF-8 buffer, the comparison of two buffers, white space and trimming. An
unpaired surrogate is replaced on conversion, so the conversion is injective only
on strings without surrogates.
-/
namespace AstraNull.ScriptText
open JsonText

/-- Characters of a string; an unpaired surrogate becomes the replacement
character, as in a UTF-8 buffer. -/
def chars : JsString → List Char
  | [] => []
  | [u] => if isHigh u ∨ isLow u then [Char.ofNat 0xFFFD] else [Char.ofNat u.toNat]
  | u::v::us =>
      if isHigh u ∧ isLow v then pairChar u v::chars us
      else (if isHigh u ∨ isLow u then Char.ofNat 0xFFFD else Char.ofNat u.toNat)::chars (v::us)

def utf8 (s : JsString) : ByteArray := (String.ofList (chars s)).toUTF8

def safeEqualUtf8 (a b : JsString) : Bool :=
  if a = [] ∨ b = [] then false else decide (utf8 a = utf8 b)

/-- White space and line terminators, by code point. All of them are single units. -/
def isWhiteSpace (n : ℕ) : Bool :=
  (9 ≤ n && n ≤ 13) || n = 32 || n = 0xA0 || n = 0x1680 || (0x2000 ≤ n && n ≤ 0x200A) ||
    n = 0x2028 || n = 0x2029 || n = 0x202F || n = 0x205F || n = 0x3000 || n = 0xFEFF

def trimBy {α : Type} (blank : α → Bool) (s : List α) : List α :=
  ((s.dropWhile blank).reverse.dropWhile blank).reverse

def trim (s : JsString) : JsString := trimBy (fun u => isWhiteSpace u.toNat) s

theorem trimBy_ne_nil {α : Type} {blank : α → Bool} {s : List α} {c : α} (hc : c ∈ s)
    (hb : blank c = false) : trimBy blank s ≠ [] := by
  have hstays : ∀ l : List α,c ∈ l → c ∈ l.dropWhile blank := by
    intro l hl
    rw [← List.takeWhile_append_dropWhile (p := blank) (l := l),List.mem_append] at hl
    rcases hl with hl | hl
    · exact absurd (List.mem_takeWhile_imp hl) (by simp [hb])
    · exact hl
  have hmem : c ∈ trimBy blank s :=
    List.mem_reverse.mpr (hstays _ (List.mem_reverse.mpr (hstays s hc)))
  exact List.ne_nil_of_mem hmem

theorem trimBy_idem {α : Type} (blank : α → Bool) (s : List α) :
    trimBy blank (trimBy blank s) = trimBy blank s := by
  have hstart : trimBy blank s <+: s.dropWhile blank := List.rdropWhile_prefix blank _
  have hleft : (trimBy blank s).dropWhile blank = trimBy blank s := by
    cases ht : trimBy blank s with
    | nil => rfl
    | cons c t =>
        obtain ⟨u,hu⟩ := hstart
        rw [ht,List.cons_append] at hu
        have hc : blank c = false := by
          have := List.head?_dropWhile_not blank s
          rw [← hu] at this
          simpa using this
        rw [List.dropWhile_cons_of_neg (by simp [hc])]
  rw [trimBy,hleft]
  exact List.rdropWhile_idempotent blank _

theorem trim_trim (s : JsString) : trim (trim s) = trim s := trimBy_idem _ s

theorem chars_plain {s : JsString} (h : ∀ u ∈ s,u.toNat < 0xD800) :
    chars s = s.map fun u => Char.ofNat u.toNat := by
  have hsur : ∀ u ∈ s,¬ isHigh u ∧ ¬ (isHigh u ∨ isLow u) := by
    intro u hu
    have := h u hu
    simp only [isHigh,isLow,Bool.and_eq_true,decide_eq_true_eq]
    omega
  induction s using chars.induct with
  | case1 => rfl
  | case2 u hs => exact absurd hs (hsur u List.mem_cons_self).2
  | case3 u hs =>
      rw [chars,if_neg hs]
      rfl
  | case4 u v us hs ih => exact absurd hs.1 (hsur u List.mem_cons_self).1
  | case5 u v us hs ih =>
      rw [chars,if_neg hs,if_neg (hsur u List.mem_cons_self).2,
        ih (fun w hw => h w (List.mem_cons_of_mem u hw))
          fun w hw => hsur w (List.mem_cons_of_mem u hw)]
      rfl

theorem utf8_injective {s t : JsString} (hs : ∀ u ∈ s,u.toNat < 0xD800)
    (ht : ∀ u ∈ t,u.toNat < 0xD800) (h : utf8 s = utf8 t) : s = t := by
  have hc : chars s = chars t :=
    String.ofList_injective (String.toByteArray_inj.mp h)
  rw [chars_plain hs,chars_plain ht] at hc
  have hn : s.map UInt16.toNat = t.map UInt16.toNat := by
    have hmap := congrArg (List.map Char.toNat) hc
    rw [List.map_map,List.map_map] at hmap
    have hval : ∀ l : JsString,(∀ u ∈ l,u.toNat < 0xD800) →
        l.map (Char.toNat ∘ fun u => Char.ofNat u.toNat) = l.map UInt16.toNat := by
      intro l hl
      apply List.map_congr_left
      intro u hu
      exact toNat_ofNat (Or.inl (hl u hu))
    rwa [hval s hs,hval t ht] at hmap
  exact List.map_injective_iff.mpr (fun _ _ => UInt16.toNat_inj.mp) hn

/-- Reading back the code units of characters. -/
theorem chars_units (cs : List Char) : chars (cs.flatMap units) = cs := by
  induction cs with
  | nil => rfl
  | cons c cs ih =>
      have hvalid : c.toNat < 0xD800 ∨ 0xDFFF < c.toNat ∧ c.toNat < 0x110000 := c.valid
      rw [List.flatMap_cons,units]
      by_cases hsmall : c.toNat < 0x10000
      · have hunit : (UInt16.ofNat c.toNat).toNat = c.toNat :=
          UInt16.toNat_ofNat_of_lt' hsmall
        have hhigh : ¬ isHigh (UInt16.ofNat c.toNat) := by
          simp only [isHigh,hunit,Bool.and_eq_true,decide_eq_true_eq]
          omega
        have hlow : ¬ isLow (UInt16.ofNat c.toNat) := by
          simp only [isLow,hunit,Bool.and_eq_true,decide_eq_true_eq]
          omega
        rw [if_pos hsmall,List.singleton_append]
        cases htail : cs.flatMap units with
        | nil =>
            rw [htail] at ih
            rw [chars,if_neg (not_or.mpr ⟨hhigh,hlow⟩),hunit,Char.ofNat_toNat,← ih]
            rfl
        | cons v us =>
            rw [htail] at ih
            rw [chars,if_neg fun h => hhigh h.1,if_neg (not_or.mpr ⟨hhigh,hlow⟩),hunit,
              Char.ofNat_toNat,ih]
      · have hhi : (UInt16.ofNat (0xD800+(c.toNat-0x10000)/1024)).toNat =
            0xD800+(c.toNat-0x10000)/1024 :=
          UInt16.toNat_ofNat_of_lt' (by change _ < 65536; omega)
        have hlo : (UInt16.ofNat (0xDC00+(c.toNat-0x10000)%1024)).toNat =
            0xDC00+(c.toNat-0x10000)%1024 :=
          UInt16.toNat_ofNat_of_lt' (by change _ < 65536; omega)
        have hpair : isHigh (UInt16.ofNat (0xD800+(c.toNat-0x10000)/1024)) ∧
            isLow (UInt16.ofNat (0xDC00+(c.toNat-0x10000)%1024)) := by
          simp only [isHigh,isLow,hhi,hlo,Bool.and_eq_true,decide_eq_true_eq]
          omega
        have hnat : 0x10000+((0xD800+(c.toNat-0x10000)/1024)-0xD800)*1024+
            ((0xDC00+(c.toNat-0x10000)%1024)-0xDC00) = c.toNat := by omega
        rw [if_neg hsmall,List.cons_append,List.singleton_append,chars,if_pos hpair,pairChar,hhi,
          hlo,hnat,Char.ofNat_toNat,ih]

section Separator
variable {α : Type} {sep : α} {a b x y : List α}

/-- The part before the first separator. -/
theorem before_separator (hx : sep ∉ x) (hy : sep ∉ y) (h : x++sep::a = y++sep::b) :
    x = y ∧ a = b := by
  induction x generalizing y with
  | nil =>
      cases y with
      | nil => exact ⟨rfl,(List.cons.inj h).2⟩
      | cons c y => exact absurd (List.cons.inj h).1 fun hc => hy (hc ▸ List.mem_cons_self)
  | cons c x ih =>
      cases y with
      | nil => exact absurd (List.cons.inj h).1.symm fun hc => hx (hc ▸ List.mem_cons_self)
      | cons d y =>
          obtain ⟨hcd,htail⟩ := List.cons.inj h
          obtain ⟨hxy,hab⟩ := ih (fun hm => hx (List.mem_cons_of_mem c hm))
            (fun hm => hy (List.mem_cons_of_mem d hm)) htail
          exact ⟨by rw [hcd,hxy],hab⟩

/-- The part after the last separator. -/
theorem after_separator (hx : sep ∉ x) (hy : sep ∉ y) (h : a++sep::x = b++sep::y) :
    a = b ∧ x = y := by
  have hr := congrArg List.reverse h
  simp only [List.reverse_append,List.reverse_cons,List.append_assoc,List.singleton_append] at hr
  obtain ⟨hxy,hab⟩ := before_separator (by simpa using hx) (by simpa using hy) hr
  exact ⟨List.reverse_injective hab,List.reverse_injective hxy⟩

end Separator

end AstraNull.ScriptText

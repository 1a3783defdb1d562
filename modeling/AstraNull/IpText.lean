import Mathlib
import AstraNull.JsonText

/-!
# Textual IP addresses

Dotted quads and the textual forms of IPv6 addresses with the addresses they denote.
A literal is a list of hexadecimal groups, at most one gap written as two colons, an
optional dotted quad in place of the last two groups, and an optional zone. The forms
are given by construction, so that every spelling of an address (case, leading zeros,
place of the gap) is a value of one type.

Forbidden addresses are those no request from inside may be sent to: the special
ranges of both families and the IPv6 forms that embed a special IPv4 address.
-/
namespace AstraNull.IpText
open JsonText

abbrev Text := List Char

def isHex (c : Char) : Bool := (hexValue c).isSome

def hexNumber (digits : Text) : ℕ :=
  digits.foldl (fun acc c => acc*16+(hexValue c).getD 0) 0

/-- One to four hexadecimal digits. -/
structure Hextet where
  digits : Text
  digits_ne : digits ≠ []
  digits_length : digits.length ≤ 4
  digits_hex : ∀ c ∈ digits,isHex c = true

theorem ones_ne : ['f','f','f','f'] ≠ [] := by decide

theorem ones_length : ['f','f','f','f'].length ≤ 4 := by decide

theorem ones_hex : ∀ c ∈ ['f','f','f','f'],isHex c = true := by simp [isHex,hexValue]

def Hextet.value (h : Hextet) : ℕ := hexNumber h.digits

/-- An IPv4 address. -/
structure Quad where
  a : Fin 256
  b : Fin 256
  c : Fin 256
  d : Fin 256

def Quad.octets (q : Quad) : List ℕ := [q.a,q.b,q.c,q.d]

/-- Octets in decimal without leading zeros, between points. -/
def quadText (octets : List ℕ) : Text := ['.'].intercalate (octets.map (Nat.toDigits 10))

def Quad.text (q : Quad) : Text := quadText q.octets

/-- The two groups a quad stands for. -/
def Quad.groups (q : Quad) : List ℕ := [q.a*256+q.b,q.c*256+q.d]

def width : Option Quad → ℕ
  | none => 0
  | some _ => 2

/-- The groups of a literal. A gap stands for at least one group. -/
structure Literal where
  head : List Hextet
  gap : Bool
  tail : List Hextet
  quad : Option Quad
  full : gap = false → tail = [] ∧ head.length+width quad = 8
  gapped : gap = true → head.length+tail.length+width quad ≤ 7

namespace Literal

/-- The pieces after the gap, or at the end of a literal without one. -/
def pieces (groups : List Hextet) (quad : Option Quad) : List Text :=
  groups.map Hextet.digits++quad.toList.map Quad.text

def text (l : Literal) : Text :=
  if l.gap then
    [':'].intercalate (l.head.map Hextet.digits)++(':' :: ':' :: [':'].intercalate
      (pieces l.tail l.quad))
  else [':'].intercalate (pieces l.head l.quad)

/-- The eight groups of the address. -/
def groups (l : Literal) : List ℕ :=
  l.head.map Hextet.value++(List.replicate (8-l.head.length-l.tail.length-width l.quad) 0++
    (l.tail.map Hextet.value++(l.quad.map Quad.groups).getD []))

end Literal

/-- Digits, letters, hyphen, point and colon. -/
def isZoneChar (c : Char) : Bool :=
  c.isAlphanum || c = '-' || c = '.' || c = ':'

/-- A zone follows a percent sign and is not empty. -/
def zoneText : Option Text → Text
  | none => []
  | some zone => '%'::zone

/-- The zone is absent, or not empty and over the given characters. -/
def ZoneOver (allowed : Char → Prop) : Option Text → Prop
  | none => True
  | some zone => zone ≠ [] ∧ ∀ c ∈ zone,isZoneChar c = true ∧ allowed c

def DottedQuad (s : Text) : Prop := ∃ q : Quad,s = q.text

def Ipv6Text (s : Text) : Prop :=
  ∃ (l : Literal) (zone : Option Text),ZoneOver (fun _ => True) zone ∧ s = l.text++zoneText zone

/-- The version of an address text, as the platform tells it. -/
structure NetIsIP where
  isIP : Text → ℕ
  isIP_four : ∀ s,isIP s = 4 ↔ DottedQuad s
  isIP_six : ∀ s,isIP s = 6 ↔ Ipv6Text s
  isIP_other : ∀ s,isIP s = 4 ∨ isIP s = 6 ∨ isIP s = 0

/-- The special IPv4 ranges, by the first two octets. -/
inductive Forbidden4 : ℕ → ℕ → Prop
  | unspecified {b : ℕ} : Forbidden4 0 b
  | loopback {b : ℕ} : Forbidden4 127 b
  | private10 {b : ℕ} : Forbidden4 10 b
  | private172 {b : ℕ} : 16 ≤ b → b ≤ 31 → Forbidden4 172 b
  | private192 : Forbidden4 192 168
  | carrierGrade {b : ℕ} : 64 ≤ b → b ≤ 127 → Forbidden4 100 b
  | linkLocal : Forbidden4 169 254
  | multicast {a b : ℕ} : 224 ≤ a → a ≤ 239 → Forbidden4 a b
  | reserved {a b : ℕ} : 240 ≤ a → Forbidden4 a b

/-- The special IPv6 ranges and the forms that embed a special IPv4 address. -/
inductive Forbidden6 : List ℕ → Prop
  | unspecified : Forbidden6 [0,0,0,0,0,0,0,0]
  | loopback : Forbidden6 [0,0,0,0,0,0,0,1]
  | linkLocal {g : ℕ} {gs : List ℕ} : 0xfe80 ≤ g → g ≤ 0xfebf → Forbidden6 (g::gs)
  | multicast {g : ℕ} {gs : List ℕ} : 0xff00 ≤ g → Forbidden6 (g::gs)
  | uniqueLocal {g : ℕ} {gs : List ℕ} : 0xfc00 ≤ g → g ≤ 0xfdff → Forbidden6 (g::gs)
  | siteLocal {g : ℕ} {gs : List ℕ} : 0xfec0 ≤ g → g ≤ 0xfeff → Forbidden6 (g::gs)
  | teredo {gs : List ℕ} : Forbidden6 (0x2001::0::gs)
  | sixToFour {gs : List ℕ} : Forbidden6 (0x2002::gs)
  | nat64 {gs : List ℕ} : Forbidden6 (0x64::0xff9b::0::0::0::0::gs)
  | localNat64 {gs : List ℕ} : Forbidden6 (0x64::0xff9b::1::gs)
  | mapped {g h : ℕ} : Forbidden4 (g/256) (g%256) → Forbidden6 [0,0,0,0,0,0xffff,g,h]
  | compatible {g h : ℕ} : Forbidden4 (g/256) (g%256) → Forbidden6 [0,0,0,0,0,0,g,h]
  | translated {g h : ℕ} : Forbidden4 (g/256) (g%256) → Forbidden6 [0,0,0,0,0xffff,0,g,h]

/-- The address a text denotes is forbidden, its zone ignored. The zone is over the
given characters. -/
inductive DenotesForbidden (allowed : Char → Prop) : Text → Prop
  | quad {q : Quad} : Forbidden4 q.a q.b → DenotesForbidden allowed q.text
  | literal {l : Literal} {zone : Option Text} : ZoneOver allowed zone → Forbidden6 l.groups →
      DenotesForbidden allowed (l.text++zoneText zone)

theorem toLower_cases (c : Char) :
    (∃ n,65 ≤ n ∧ n ≤ 90 ∧ c = Char.ofNat n) ∨ c.toLower = c := by
  by_cases h : c.val ≥ 'A'.val ∧ c.val ≤ 'Z'.val
  · refine Or.inl ⟨c.toNat,?_,?_,(Char.ofNat_toNat c).symm⟩
    · exact UInt32.le_iff_toNat_le.mp h.1
    · exact UInt32.le_iff_toNat_le.mp h.2
  · exact Or.inr (dif_neg h)

theorem hexValue_toLower (c : Char) : hexValue c.toLower = hexValue c := by
  rcases toLower_cases c with ⟨n,h1,h2,rfl⟩ | h
  · interval_cases n <;> rfl
  · rw [h]

theorem toLower_ne_colon {c : Char} (h : c ≠ ':') : c.toLower ≠ ':' := by
  rcases toLower_cases c with ⟨n,h1,h2,rfl⟩ | hl
  · interval_cases n <;> decide
  · rw [hl]
    exact h

def lower (s : Text) : Text := s.map Char.toLower

theorem hexNumber_lower (s : Text) : hexNumber (lower s) = hexNumber s := by
  simp only [hexNumber,lower,List.foldl_map,hexValue_toLower]

def Hextet.lower (h : Hextet) : Hextet where
  digits := IpText.lower h.digits
  digits_ne := by simpa [IpText.lower] using h.digits_ne
  digits_length := by simpa [IpText.lower] using h.digits_length
  digits_hex := by
    intro c hc
    obtain ⟨d,hd,rfl⟩ := List.mem_map.mp hc
    rw [isHex,hexValue_toLower]
    exact h.digits_hex d hd

theorem Hextet.lower_value (h : Hextet) : h.lower.value = h.value := hexNumber_lower _

theorem hexNumber_lt (s : Text) : hexNumber s < 16^s.length := by
  induction s using List.reverseRecOn with
  | nil => decide
  | append_singleton s c ih =>
      have hc : (hexValue c).getD 0 < 16 := by
        unfold hexValue
        split_ifs with h1 h2 h3
        · have := UInt32.le_iff_toNat_le.mp h1.2
          change c.toNat ≤ 57 at this
          simp only [Option.getD_some]
          omega
        · have := UInt32.le_iff_toNat_le.mp h2.2
          change c.toNat ≤ 102 at this
          simp only [Option.getD_some]
          omega
        · have := UInt32.le_iff_toNat_le.mp h3.2
          change c.toNat ≤ 70 at this
          simp only [Option.getD_some]
          omega
        · decide
      have happ : hexNumber (s++[c]) = hexNumber s*16+(hexValue c).getD 0 := by
        simp [hexNumber]
      rw [happ,List.length_append,List.length_singleton,pow_succ]
      omega

theorem Hextet.value_lt (h : Hextet) : h.value < 65536 :=
  lt_of_lt_of_le (hexNumber_lt h.digits) (Nat.pow_le_pow_right (by decide) h.digits_length)

theorem isHex_ne {c : Char} (h : isHex c = true) : c ≠ ':' ∧ c ≠ '.' ∧ c ≠ '%' ∧ c ≠ 'x' := by
  refine ⟨?_,?_,?_,?_⟩
  all_goals
    rintro rfl
    revert h
    decide

theorem Hextet.no_colon (h : Hextet) : ':' ∉ h.digits :=
  fun hc => (isHex_ne (h.digits_hex _ hc)).1 rfl

theorem octet_digits (n : ℕ) : ∀ c ∈ Nat.toDigits 10 n,c.isDigit = true :=
  fun _ hc => Nat.isDigit_of_mem_toDigits (by norm_num) (by norm_num) hc

theorem digit_ne {c : Char} (h : c.isDigit = true) :
    c ≠ ':' ∧ c ≠ '.' ∧ c ≠ '%' ∧ c.toLower = c ∧ isHex c = true := by
  have hr : 48 ≤ c.toNat ∧ c.toNat ≤ 57 := by
    simp only [Char.isDigit,Bool.and_eq_true,decide_eq_true_eq] at h
    exact ⟨UInt32.le_iff_toNat_le.mp h.1,UInt32.le_iff_toNat_le.mp h.2⟩
  obtain ⟨n,hn⟩ : ∃ n,n = c.toNat := ⟨_,rfl⟩
  have hc : c = Char.ofNat n := by rw [hn,Char.ofNat_toNat]
  rw [← hn] at hr
  obtain ⟨h1,h2⟩ := hr
  rw [hc]
  interval_cases n <;> decide

theorem octet_text_length {n : ℕ} (h : n < 256) :
    1 ≤ (Nat.toDigits 10 n).length ∧ (Nat.toDigits 10 n).length ≤ 3 := by
  constructor
  · exact List.length_pos_iff.mpr Nat.toDigits_ne_nil
  · interval_cases n <;> decide

theorem mem_intercalate {sep : Text} {ps : List Text} {c : Char} (h : c ∈ sep.intercalate ps) :
    c ∈ sep ∨ ∃ p ∈ ps,c ∈ p := by
  induction ps with
  | nil => simp at h
  | cons p ps ih =>
      cases ps with
      | nil =>
          rw [List.intercalate_singleton] at h
          exact Or.inr ⟨p,by simp,h⟩
      | cons q ps =>
          rw [List.intercalate_cons_cons,List.mem_append,List.mem_append] at h
          rcases h with (h | h) | h
          · exact Or.inr ⟨p,by simp,h⟩
          · exact Or.inl h
          · rcases ih h with h | ⟨r,hr,hc⟩
            · exact Or.inl h
            · exact Or.inr ⟨r,List.mem_cons_of_mem _ hr,hc⟩

theorem quadText_chars {octets : List ℕ} : ∀ c ∈ quadText octets,c = '.' ∨ c.isDigit = true := by
  intro c hc
  rcases mem_intercalate hc with h | ⟨p,hp,h⟩
  · exact Or.inl (List.mem_singleton.mp h)
  · obtain ⟨n,_,rfl⟩ := List.mem_map.mp hp
    exact Or.inr (octet_digits n c h)

theorem quadText_lower (octets : List ℕ) : lower (quadText octets) = quadText octets := by
  unfold lower
  rw [List.map_congr_left (g := id)]
  · exact List.map_id _
  · intro c hc
    rcases quadText_chars c hc with rfl | hd
    · rfl
    · exact (digit_ne hd).2.2.2.1

theorem quadText_no_colon (octets : List ℕ) : ':' ∉ quadText octets := by
  intro hc
  rcases quadText_chars _ hc with h | h
  · cases h
  · exact (digit_ne h).1 rfl

theorem splitOn_quadText {octets : List ℕ} (h : octets ≠ []) :
    (quadText octets).splitOn '.' = octets.map (Nat.toDigits 10) := by
  apply List.splitOn_intercalate
  · intro s hs hdot
    obtain ⟨n,_,rfl⟩ := List.mem_map.mp hs
    exact (digit_ne (octet_digits n _ hdot)).2.1 rfl
  · simpa using h

def Literal.lower (l : Literal) : Literal where
  head := l.head.map Hextet.lower
  gap := l.gap
  tail := l.tail.map Hextet.lower
  quad := l.quad
  full := by simpa using l.full
  gapped := by simpa using l.gapped

theorem Literal.lower_groups (l : Literal) : l.lower.groups = l.groups := by
  have hvalue : Hextet.value ∘ Hextet.lower = Hextet.value := funext Hextet.lower_value
  simp [Literal.groups,Literal.lower,hvalue]

theorem lower_append (s t : Text) : lower (s++t) = lower s++lower t := List.map_append

theorem lower_intercalate (ps : List Text) :
    lower ([':'].intercalate ps) = [':'].intercalate (ps.map lower) := by
  induction ps with
  | nil => rfl
  | cons p ps ih =>
      cases ps with
      | nil => simp
      | cons q ps =>
          rw [List.intercalate_cons_cons,lower_append,lower_append,ih,List.map_cons,List.map_cons,
            List.map_cons,List.intercalate_cons_cons]
          rfl

theorem lower_pieces (gs : List Hextet) (quad : Option Quad) :
    (Literal.pieces gs quad).map lower = Literal.pieces (gs.map Hextet.lower) quad := by
  simp only [Literal.pieces,List.map_append,List.map_map]
  congr 1
  refine List.map_congr_left fun q _ => ?_
  exact quadText_lower _

theorem Literal.lower_text (l : Literal) : IpText.lower l.text = l.lower.text := by
  have hhead := lower_pieces l.head none
  simp only [Literal.pieces,Option.toList_none,List.map_nil,List.append_nil] at hhead
  unfold Literal.text
  cases hgap : l.gap with
  | true =>
      simp only [if_true,Literal.lower,hgap,lower_append,lower_intercalate,hhead,← lower_pieces]
      rw [← lower_intercalate]
      rfl
  | false => simp [Literal.lower,hgap,lower_intercalate,lower_pieces]

theorem lower_zone (zone : Option Text) : lower (zoneText zone) = zoneText (zone.map lower) := by
  cases zone <;> rfl

theorem lower_no_colon {s : Text} (h : ':' ∉ s) : ':' ∉ lower s := by
  intro hc
  obtain ⟨c,hmem,hlow⟩ := List.mem_map.mp hc
  exact toLower_ne_colon (fun h' => h (h' ▸ hmem)) hlow

theorem Literal.colon_mem (l : Literal) : ':' ∈ l.text := by
  unfold Literal.text
  cases hgap : l.gap with
  | true => simp
  | false =>
      have hlen := (l.full hgap).2
      have hpieces : 2 ≤ (Literal.pieces l.head l.quad).length := by
        cases hquad : l.quad with
        | none =>
            rw [hquad] at hlen
            simp only [width] at hlen
            simp only [Literal.pieces,List.length_append,List.length_map]
            omega
        | some q =>
            rw [hquad] at hlen
            simp only [width] at hlen
            simp only [Literal.pieces,List.length_append,List.length_map]
            omega
      match h : Literal.pieces l.head l.quad,hpieces with
      | p::q::ps,_ => simp [List.intercalate_cons_cons]

theorem dottedQuad_not_ipv6 {s : Text} (h4 : DottedQuad s) : ¬ Ipv6Text s := by
  rintro ⟨l,zone,_,rfl⟩
  obtain ⟨q,hq⟩ := h4
  refine quadText_no_colon q.octets ?_
  change ':' ∈ q.text
  rw [← hq]
  exact List.mem_append_left _ l.colon_mem

open Classical in
/-- The version test as documented. -/
noncomputable def netIsIP : NetIsIP where
  isIP s := if DottedQuad s then 4 else if Ipv6Text s then 6 else 0
  isIP_four s := by
    split_ifs with h4 h6
    · simp [h4]
    · simp [h4]
    · simp [h4]
  isIP_six s := by
    split_ifs with h4 h6
    · simp [dottedQuad_not_ipv6 h4]
    · simp [h6]
    · simp [h6]
  isIP_other s := by
    split_ifs
    · exact Or.inl rfl
    · exact Or.inr (Or.inl rfl)
    · exact Or.inr (Or.inr rfl)

end AstraNull.IpText

import Mathlib
import AstraNull.JsonText

/-!
# Bytes of a text: UTF-8 and base64url

Bytes are natural numbers below 256. The UTF-8 decoder replaces every maximal ill-formed
subsequence by the replacement character, and the base64url decoder skips what is not in one of
the two alphabets and stops at padding. Both invert their encoders.
-/
namespace AstraNull.ByteText
open JsonText

def encodeChar (c : Char) : List ℕ :=
  let n := c.toNat
  if n < 0x80 then [n]
  else if n < 0x800 then [0xC0+n/64,0x80+n%64]
  else if n < 0x10000 then [0xE0+n/4096,0x80+n/64%64,0x80+n%64]
  else [0xF0+n/262144,0x80+n/4096%64,0x80+n/64%64,0x80+n%64]

def utf8 (cs : List Char) : List ℕ := cs.flatMap encodeChar

def replacement : Char := Char.ofNat 0xFFFD

/-- So many continuation bytes are owed, the next one between `lo` and `hi`. A byte that does not
fit is left for the next character. -/
def continueChar : ℕ → ℕ → ℕ → ℕ → List ℕ → Char × List ℕ
  | 0,_,_,code,bs => (Char.ofNat code,bs)
  | _+1,_,_,_,[] => (replacement,[])
  | owed+1,lo,hi,code,b::bs =>
      if lo ≤ b ∧ b ≤ hi then continueChar owed 0x80 0xBF (code*64+b%64) bs else (replacement,b::bs)

def decodeChar (b : ℕ) (bs : List ℕ) : Char × List ℕ :=
  if b < 0x80 then (Char.ofNat b,bs)
  else if 0xC2 ≤ b ∧ b ≤ 0xDF then continueChar 1 0x80 0xBF (b%32) bs
  else if 0xE0 ≤ b ∧ b ≤ 0xEF then
    continueChar 2 (if b = 0xE0 then 0xA0 else 0x80) (if b = 0xED then 0x9F else 0xBF) (b%16) bs
  else if 0xF0 ≤ b ∧ b ≤ 0xF4 then
    continueChar 3 (if b = 0xF0 then 0x90 else 0x80) (if b = 0xF4 then 0x8F else 0xBF) (b%8) bs
  else (replacement,bs)

/-- Each character takes at least one byte, so the length is enough fuel. -/
def decodeChars : ℕ → List ℕ → List Char
  | 0,_ => []
  | _+1,[] => []
  | fuel+1,b::bs => (decodeChar b bs).1::decodeChars fuel (decodeChar b bs).2

def fromUtf8 (bytes : List ℕ) : List Char := decodeChars bytes.length bytes

theorem encodeChar_cons (c : Char) (rest : List ℕ) :
    ∃ b bs,encodeChar c++rest = b::bs ∧ decodeChar b bs = (c,rest) := by
  have hvalid : c.toNat < 0xD800 ∨ 0xDFFF < c.toNat ∧ c.toNat < 0x110000 := c.valid
  have hback : Char.ofNat c.toNat = c := Char.ofNat_toNat c
  unfold encodeChar
  generalize c.toNat = n at hvalid hback
  subst hback
  simp only
  split_ifs with h1 h2 h3
  · refine ⟨n,rest,rfl,?_⟩
    rw [decodeChar,if_pos h1]
  · refine ⟨0xC0+n/64,(0x80+n%64)::rest,rfl,?_⟩
    rw [decodeChar,if_neg (by omega),if_pos (by omega),continueChar,
      if_pos (by omega),continueChar,show (0xC0+n/64)%32*64+(0x80+n%64)%64 = n by omega]
  · refine ⟨0xE0+n/4096,(0x80+n/64%64)::(0x80+n%64)::rest,rfl,?_⟩
    have hlow : (if 0xE0+n/4096 = 0xE0 then 0xA0 else 0x80) ≤ 0x80+n/64%64 := by
      split_ifs <;> omega
    have hhigh : 0x80+n/64%64 ≤ (if 0xE0+n/4096 = 0xED then 0x9F else 0xBF) := by
      split_ifs <;> omega
    rw [decodeChar,if_neg (by omega),if_neg (by omega),if_pos (by omega),continueChar,
      if_pos ⟨hlow,hhigh⟩,continueChar,if_pos (by omega),continueChar,
      show ((0xE0+n/4096)%16*64+(0x80+n/64%64)%64)*64+(0x80+n%64)%64 = n by omega]
  · refine ⟨0xF0+n/262144,(0x80+n/4096%64)::(0x80+n/64%64)::(0x80+n%64)::rest,rfl,?_⟩
    have hlow : (if 0xF0+n/262144 = 0xF0 then 0x90 else 0x80) ≤ 0x80+n/4096%64 := by
      split_ifs <;> omega
    have hhigh : 0x80+n/4096%64 ≤ (if 0xF0+n/262144 = 0xF4 then 0x8F else 0xBF) := by
      split_ifs <;> omega
    rw [decodeChar,if_neg (by omega),if_neg (by omega),if_neg (by omega),if_pos (by omega),
      continueChar,if_pos ⟨hlow,hhigh⟩,continueChar,
      if_pos (by omega),continueChar,if_pos (by omega),continueChar,
      show (((0xF0+n/262144)%8*64+(0x80+n/4096%64)%64)*64+(0x80+n/64%64)%64)*64+(0x80+n%64)%64 = n
        by omega]

theorem decodeChars_utf8 (cs : List Char) {fuel : ℕ} (h : (utf8 cs).length ≤ fuel) :
    decodeChars fuel (utf8 cs) = cs := by
  induction cs generalizing fuel with
  | nil => cases fuel <;> rfl
  | cons c cs ih =>
      obtain ⟨b,bs,he,hd⟩ := encodeChar_cons c (utf8 cs)
      have hcons : utf8 (c::cs) = b::bs := he
      have hshort : (utf8 cs).length ≤ bs.length := by
        have hpos : 0 < (encodeChar c).length := by
          unfold encodeChar
          simp only
          split_ifs <;> simp
        have hlen := congrArg List.length he
        rw [List.length_append,List.length_cons] at hlen
        omega
      rw [hcons] at h ⊢
      cases fuel with
      | zero => simp at h
      | succ fuel =>
          rw [decodeChars,hd,ih (by rw [List.length_cons] at h; omega)]

theorem fromUtf8_utf8 (cs : List Char) : fromUtf8 (utf8 cs) = cs := decodeChars_utf8 cs le_rfl

theorem length_utf8_append (cs ds : List Char) :
    (utf8 (cs++ds)).length = (utf8 cs).length+(utf8 ds).length := by
  simp [utf8]

theorem length_utf8_digits {cs : List Char} (h : ∀ c ∈ cs,c.isDigit = true) :
    (utf8 cs).length = cs.length := by
  induction cs with
  | nil => rfl
  | cons c cs ih =>
      rw [List.forall_mem_cons] at h
      have hbyte : c.toNat < 0x80 := by
        have hdigit := h.1
        simp only [Char.isDigit,Bool.and_eq_true,decide_eq_true_eq,UInt32.le_iff_toNat_le] at hdigit
        have h57 : '9'.val.toNat = 57 := rfl
        have hnat : c.toNat = c.val.toNat := rfl
        omega
      have hsplit := length_utf8_append [c] cs
      rw [List.singleton_append,ih h.2] at hsplit
      rw [hsplit,List.length_cons]
      simp [utf8,encodeChar,hbyte]
      omega

theorem utf8_lt (cs : List Char) : ∀ b ∈ utf8 cs,b < 256 := by
  intro b hb
  obtain ⟨c,-,hb⟩ := List.mem_flatMap.mp hb
  have hvalid : c.toNat < 0xD800 ∨ 0xDFFF < c.toNat ∧ c.toNat < 0x110000 := c.valid
  unfold encodeChar at hb
  generalize c.toNat = n at hvalid hb
  simp only at hb
  split_ifs at hb with h1 h2 h3
  all_goals
    simp only [List.mem_cons,List.not_mem_nil,or_false] at hb
    omega

def digit (n : ℕ) : UInt16 :=
  UInt16.ofNat (if n < 26 then 65+n else if n < 52 then 71+n else if n < 62 then n-4
    else if n = 62 then 45 else 95)

/-- Either alphabet is read. -/
def digitValue (u : UInt16) : Option ℕ :=
  let n := u.toNat
  if 65 ≤ n ∧ n ≤ 90 then some (n-65)
  else if 97 ≤ n ∧ n ≤ 122 then some (n-71)
  else if 48 ≤ n ∧ n ≤ 57 then some (n+4)
  else if n = 45 ∨ n = 43 then some 62
  else if n = 95 ∨ n = 47 then some 63
  else none

def sextets : List ℕ → List ℕ
  | [] => []
  | [a] => [a/4,a%4*16]
  | [a,b] => [a/4,a%4*16+b/16,b%16*4]
  | a::b::c::bs => a/4::(a%4*16+b/16)::(b%16*4+c/64)::c%64::sextets bs

def octets : List ℕ → List ℕ
  | [] => []
  | [_] => []
  | [a,b] => [a*4+b/16]
  | [a,b,c] => [a*4+b/16,b%16*16+c/4]
  | a::b::c::d::bs => (a*4+b/16)::(b%16*16+c/4)::(c%4*64+d)::octets bs

def base64Url (bytes : List ℕ) : JsString := (sextets bytes).map digit

def fromBase64Url (s : JsString) : List ℕ :=
  octets ((s.takeWhile fun u => u != 61).filterMap digitValue)

theorem octets_sextets (bytes : List ℕ) (h : ∀ b ∈ bytes,b < 256) : octets (sextets bytes) = bytes := by
  induction bytes using sextets.induct with
  | case1 => rfl
  | case2 a =>
      have ha := h a (by simp)
      simp only [sextets,octets,List.cons.injEq,and_true]
      omega
  | case3 a b =>
      have ha := h a (by simp)
      have hb := h b (by simp)
      simp only [sextets,octets,List.cons.injEq,and_true]
      omega
  | case4 a b c bs ih =>
      have ha := h a (by simp)
      have hb := h b (by simp)
      have hc := h c (by simp)
      have hbs := ih fun x hx => h x (by simp [hx])
      simp only [sextets,octets,hbs,List.cons.injEq,and_true]
      omega

theorem sextets_lt (bytes : List ℕ) (h : ∀ b ∈ bytes,b < 256) : ∀ n ∈ sextets bytes,n < 64 := by
  induction bytes using sextets.induct with
  | case1 => simp [sextets]
  | case2 a =>
      have ha := h a (by simp)
      simp only [sextets,List.forall_mem_cons,List.not_mem_nil,false_implies,implies_true,and_true]
      omega
  | case3 a b =>
      have ha := h a (by simp)
      have hb := h b (by simp)
      simp only [sextets,List.forall_mem_cons,List.not_mem_nil,false_implies,implies_true,and_true]
      omega
  | case4 a b c bs ih =>
      have ha := h a (by simp)
      have hb := h b (by simp)
      have hc := h c (by simp)
      have hbs := ih fun x hx => h x (by simp [hx])
      simp only [sextets,List.forall_mem_cons]
      exact ⟨by omega,by omega,by omega,by omega,hbs⟩

theorem digitValue_digit : ∀ n < 64,digitValue (digit n) = some n ∧ digit n ≠ 61 := by decide

theorem fromBase64Url_base64Url {bytes : List ℕ} (h : ∀ b ∈ bytes,b < 256) :
    fromBase64Url (base64Url bytes) = bytes := by
  have hread : ∀ l : List ℕ,(∀ n ∈ l,n < 64) →
      ((l.map digit).takeWhile fun u => u != 61).filterMap digitValue = l := by
    intro l hl
    have hall : (l.map digit).takeWhile (fun u => u != 61) = l.map digit := by
      rw [List.takeWhile_eq_self_iff]
      intro u hu
      obtain ⟨n,hn,rfl⟩ := List.mem_map.mp hu
      simpa using (digitValue_digit n (hl n hn)).2
    rw [hall,List.filterMap_map]
    conv_rhs => rw [← List.filterMap_some (l := l)]
    refine List.filterMap_congr fun n hn => ?_
    exact (digitValue_digit n (hl n hn)).1
  rw [fromBase64Url,base64Url,hread _ (sextets_lt bytes h),octets_sextets bytes h]

end AstraNull.ByteText

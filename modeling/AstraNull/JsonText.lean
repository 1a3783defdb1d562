import Mathlib
import AstraNull.NumberText

/-!
# JSON text of ECMAScript values

Strings are sequences of UTF-16 code units, so unpaired surrogates are ordinary
values; the printed text is a sequence of characters because the printer escapes
every unpaired surrogate. An object is its list of members in enumeration order.
The enumeration order of an engine is not modelled: the results that need it hold
for every order.

The printer is the value position of `JSON.stringify`, where an undefined array
element prints as `null` and an undefined member is left out. The reader is
`JSON.parse` with fuel bounded by the text, including white space, every escape
and the rule that the last duplicate member wins. A number that overflows has no
finite value and is refused here.
-/
namespace AstraNull.JsonText
open NumberText

/-- A string as its UTF-16 code units. -/
abbrev JsString := List UInt16

instance lawfulBEq_jsString : LawfulBEq (List UInt16) := inferInstance

/-- Code units of a source literal. -/
def js (s : String) : JsString := s.toList.map fun c => UInt16.ofNat c.toNat

def isHigh (u : UInt16) : Bool := 0xD800 ≤ u.toNat && u.toNat < 0xDC00

def isLow (u : UInt16) : Bool := 0xDC00 ≤ u.toNat && u.toNat < 0xE000

/-- The character of a surrogate pair. -/
def pairChar (u v : UInt16) : Char :=
  Char.ofNat (0x10000+(u.toNat-0xD800)*1024+(v.toNat-0xDC00))

def unicodeEscape (u : UInt16) : List Char :=
  ['\\','u',Nat.digitChar (u.toNat/4096),Nat.digitChar (u.toNat/256%16),
    Nat.digitChar (u.toNat/16%16),Nat.digitChar (u.toNat%16)]

/-- One code unit that is not the first half of a pair. -/
def quoteUnit (u : UInt16) : List Char :=
  if u.toNat = 8 then ['\\','b']
  else if u.toNat = 9 then ['\\','t']
  else if u.toNat = 10 then ['\\','n']
  else if u.toNat = 12 then ['\\','f']
  else if u.toNat = 13 then ['\\','r']
  else if u.toNat = 34 then ['\\','"']
  else if u.toNat = 92 then ['\\','\\']
  else if u.toNat < 32 ∨ isHigh u ∨ isLow u then unicodeEscape u
  else [Char.ofNat u.toNat]

def quoteUnits : JsString → List Char
  | [] => []
  | [u] => quoteUnit u
  | u::v::us =>
      if isHigh u ∧ isLow v then pairChar u v::quoteUnits us
      else quoteUnit u++quoteUnits (v::us)

def quote (s : JsString) : List Char := '"'::(quoteUnits s++['"'])

/-- Code units of one character. -/
def units (c : Char) : JsString :=
  if c.toNat < 0x10000 then [UInt16.ofNat c.toNat]
  else [UInt16.ofNat (0xD800+(c.toNat-0x10000)/1024),UInt16.ofNat (0xDC00+(c.toNat-0x10000)%1024)]

def hexValue (c : Char) : Option ℕ :=
  if '0' ≤ c ∧ c ≤ '9' then some (c.toNat-48)
  else if 'a' ≤ c ∧ c ≤ 'f' then some (c.toNat-87)
  else if 'A' ≤ c ∧ c ≤ 'F' then some (c.toNat-55)
  else none

def escapeValue : Char → Option UInt16
  | '"' => some 34
  | '\\' => some 92
  | '/' => some 47
  | 'b' => some 8
  | 'f' => some 12
  | 'n' => some 10
  | 'r' => some 13
  | 't' => some 9
  | _ => none

def readUnits : List Char → Option (JsString × List Char)
  | [] => none
  | '"'::cs => some ([],cs)
  | '\\' :: 'u' :: a :: b :: c :: d :: cs => do
      let a ← hexValue a
      let b ← hexValue b
      let c ← hexValue c
      let d ← hexValue d
      let r ← readUnits cs
      some (UInt16.ofNat (a*4096+b*256+c*16+d)::r.1,r.2)
  | '\\'::e::cs => do
      let u ← escapeValue e
      let r ← readUnits cs
      some (u::r.1,r.2)
  | c::cs =>
      if c.toNat < 32 ∨ c = '\\' then none
      else do
        let r ← readUnits cs
        some (units c++r.1,r.2)

theorem hexValue_digitChar {n : ℕ} (h : n < 16) : hexValue (Nat.digitChar n) = some n := by
  interval_cases n <;> rfl

theorem readUnits_char {c : Char} (hc : ¬ c.toNat < 32) (hq : c ≠ '"') (hb : c ≠ '\\')
    (cs : List Char) :
    readUnits (c::cs) = (readUnits cs).map fun r => (units c++r.1,r.2) := by
  rw [readUnits]
  · rw [if_neg (not_or.mpr ⟨hc,hb⟩)]
    cases readUnits cs <;> rfl
  · exact fun h => hq h
  · exact fun a b c d cs' h => absurd h hb
  · exact fun e cs' h => absurd h hb

theorem readUnits_unicodeEscape (u : UInt16) (cs : List Char) :
    readUnits (unicodeEscape u++cs) = (readUnits cs).map fun r => (u::r.1,r.2) := by
  have hu := u.toNat_lt
  have hval : u.toNat/4096*4096+u.toNat/256%16*256+u.toNat/16%16*16+u.toNat%16 = u.toNat := by
    omega
  simp only [unicodeEscape,List.cons_append,List.nil_append,readUnits]
  rw [hexValue_digitChar (by omega),hexValue_digitChar (by omega),hexValue_digitChar (by omega),
    hexValue_digitChar (by omega)]
  simp only [Option.bind_eq_bind,Option.bind_some,hval,UInt16.ofNat_toNat]
  cases readUnits cs <;> rfl

theorem toNat_ofNat {n : ℕ} (h : n.isValidChar) : (Char.ofNat n).toNat = n := by
  rw [Char.ofNat,dif_pos h]
  rfl

theorem units_ofNat {n : ℕ} (h : n < 0xD800 ∨ 0xE000 ≤ n ∧ n < 0x10000) :
    units (Char.ofNat n) = [UInt16.ofNat n] := by
  have hv : n.isValidChar := by
    rcases h with h | h
    · exact Or.inl h
    · exact Or.inr ⟨by omega,by omega⟩
  rw [units,toNat_ofNat hv,if_pos (by omega)]

theorem readUnits_quoteUnit (u : UInt16) (cs : List Char) :
    readUnits (quoteUnit u++cs) = (readUnits cs).map fun r => (u::r.1,r.2) := by
  have hu : ∀ n : ℕ,u.toNat = n → u = UInt16.ofNat n := by
    rintro n rfl
    exact UInt16.ofNat_toNat.symm
  have hshort : ∀ (e : Char) (n : ℕ),escapeValue e = some (UInt16.ofNat n) → e ≠ 'u' →
      u.toNat = n →
      readUnits ('\\'::e::cs) = (readUnits cs).map fun r => (u::r.1,r.2) := by
    intro e n he hne hn
    rw [readUnits,he,← hu n hn]
    · cases readUnits cs <;> rfl
    · exact fun a b c d cs' h => absurd h hne
  unfold quoteUnit
  split_ifs with h1 h2 h3 h4 h5 h6 h7 h8
  · exact hshort 'b' 8 rfl (by decide) h1
  · exact hshort 't' 9 rfl (by decide) h2
  · exact hshort 'n' 10 rfl (by decide) h3
  · exact hshort 'f' 12 rfl (by decide) h4
  · exact hshort 'r' 13 rfl (by decide) h5
  · exact hshort '"' 34 rfl (by decide) h6
  · exact hshort '\\' 92 rfl (by decide) h7
  · exact readUnits_unicodeEscape u cs
  · have hlt := u.toNat_lt
    simp only [isHigh,isLow,Bool.and_eq_true,decide_eq_true_eq] at h8
    have hrange : u.toNat < 0xD800 ∨ 0xE000 ≤ u.toNat ∧ u.toNat < 0x10000 := by omega
    have hv : u.toNat.isValidChar := by
      rcases hrange with h | h
      · exact Or.inl h
      · exact Or.inr ⟨by omega,by omega⟩
    have hn := toNat_ofNat hv
    have hne : ∀ c : Char,c.toNat ≠ u.toNat → Char.ofNat u.toNat ≠ c := by
      rintro c hc rfl
      exact hc hn
    rw [List.singleton_append,readUnits_char (by omega) (hne _ (Ne.symm h6)) (hne _ (Ne.symm h7)),
      units_ofNat hrange,UInt16.ofNat_toNat]
    rfl

theorem readUnits_pairChar {u v : UInt16} (hu : isHigh u) (hv : isLow v) (cs : List Char) :
    readUnits (pairChar u v::cs) = (readUnits cs).map fun r => (u::v::r.1,r.2) := by
  simp only [isHigh,isLow,Bool.and_eq_true,decide_eq_true_eq] at hu hv
  have hvalid : (0x10000+(u.toNat-0xD800)*1024+(v.toNat-0xDC00)).isValidChar :=
    Or.inr ⟨by omega,by omega⟩
  have hn : (pairChar u v).toNat = 0x10000+(u.toNat-0xD800)*1024+(v.toNat-0xDC00) :=
    toNat_ofNat hvalid
  have hne : ∀ c : Char,c.toNat < 0x10000 → pairChar u v ≠ c := by
    rintro c hc rfl
    omega
  have hhi : 0xD800+((pairChar u v).toNat-0x10000)/1024 = u.toNat := by omega
  have hlo : 0xDC00+((pairChar u v).toNat-0x10000)%1024 = v.toNat := by omega
  rw [readUnits_char (by omega) (hne _ (by decide)) (hne _ (by decide)),units,
    if_neg (by omega),hhi,hlo,UInt16.ofNat_toNat,UInt16.ofNat_toNat]
  rfl

theorem readUnits_quoteUnits (s : JsString) (r : List Char) :
    readUnits (quoteUnits s++ '"'::r) = some (s,r) := by
  induction s using quoteUnits.induct with
  | case1 => rfl
  | case2 u =>
      rw [quoteUnits,readUnits_quoteUnit,readUnits]
      rfl
  | case3 u v us h ih =>
      rw [quoteUnits,if_pos h,List.cons_append,readUnits_pairChar h.1 h.2,ih]
      rfl
  | case4 u v us h ih =>
      rw [quoteUnits,if_neg h,List.append_assoc,readUnits_quoteUnit,ih]
      rfl

/-- A value. Numbers are finite and both zeros are one number. -/
inductive JsVal where
  | undefined
  | null
  | bool (b : Bool)
  | num (n : Number)
  | str (s : JsString)
  | arr (vs : List JsVal)
  | obj (kvs : List (JsString × JsVal))

namespace JsVal

/-- Structural induction with the members of arrays and objects as hypotheses. -/
@[elab_as_elim]
theorem induct {motive : JsVal → Prop} (undefined : motive undefined) (null : motive null)
    (bool : ∀ b,motive (bool b)) (num : ∀ n,motive (num n)) (str : ∀ s,motive (str s))
    (arr : ∀ vs,(∀ v ∈ vs,motive v) → motive (arr vs))
    (obj : ∀ kvs : List (JsString × JsVal),(∀ p ∈ kvs,motive p.2) → motive (obj kvs))
    (v : JsVal) : motive v := by
  refine @JsVal.rec motive (fun vs => ∀ v ∈ vs,motive v) (fun kvs => ∀ p ∈ kvs,motive p.2)
    (fun p => motive p.2) undefined null bool num str arr obj ?_ ?_ ?_ ?_ ?_ v
  · exact fun v hv => absurd hv List.not_mem_nil
  · exact fun v vs hv hvs => List.forall_mem_cons.mpr ⟨hv,hvs⟩
  · exact fun p hp => absurd hp List.not_mem_nil
  · exact fun p kvs hp hkvs => List.forall_mem_cons.mpr ⟨hp,hkvs⟩
  · exact fun _ _ hv => hv

def isUndefined : JsVal → Bool
  | undefined => true
  | _ => false

/-- Property access; a missing property reads as `undefined`. -/
def get (v : JsVal) (k : JsString) : JsVal :=
  match v with
  | obj kvs => ((kvs.find? fun p => p.1 = k).map Prod.snd).getD undefined
  | _ => undefined

end JsVal

/-- Comma separated parts. -/
def commaJoin : List (List Char) → List Char
  | [] => []
  | [t] => t
  | t::ts => t++ ','::commaJoin ts

def memberText (p : JsString × List Char) : List Char := quote p.1++ ':'::p.2

mutual

/-- Text in value position. -/
def text : JsVal → List Char
  | .undefined => "null".toList
  | .null => "null".toList
  | .bool true => "true".toList
  | .bool false => "false".toList
  | .num n => n.text
  | .str s => quote s
  | .arr vs => '['::(commaJoin (elementTexts vs)++[']'])
  | .obj kvs => '\x7b'::(commaJoin ((memberTexts kvs).map memberText)++['\x7d'])

def elementTexts : List JsVal → List (List Char)
  | [] => []
  | v::vs => text v::elementTexts vs

/-- The defined members with their texts. -/
def memberTexts : List (JsString × JsVal) → List (JsString × List Char)
  | [] => []
  | (k,v)::kvs => if v.isUndefined then memberTexts kvs else (k,text v)::memberTexts kvs

end

/-- `JSON.stringify`, which has no text for `undefined` itself. -/
def stringify (v : JsVal) : Option (List Char) := if v.isUndefined then none else some (text v)

mutual

/-- What a text round trip keeps of a value. -/
def clean : JsVal → JsVal
  | .undefined => .null
  | .arr vs => .arr (cleanElements vs)
  | .obj kvs => .obj (cleanMembers kvs)
  | v => v

def cleanElements : List JsVal → List JsVal
  | [] => []
  | v::vs => clean v::cleanElements vs

def cleanMembers : List (JsString × JsVal) → List (JsString × JsVal)
  | [] => []
  | (k,v)::kvs => if v.isUndefined then cleanMembers kvs else (k,clean v)::cleanMembers kvs

end

/-- Property names of an object are distinct, at every depth. -/
inductive WellFormed : JsVal → Prop
  | undefined : WellFormed .undefined
  | null : WellFormed .null
  | bool (b : Bool) : WellFormed (.bool b)
  | num (n : Number) : WellFormed (.num n)
  | str (s : JsString) : WellFormed (.str s)
  | arr {vs : List JsVal} : (∀ v ∈ vs,WellFormed v) → WellFormed (.arr vs)
  | obj {kvs : List (JsString × JsVal)} : (kvs.map Prod.fst).Nodup →
      (∀ p ∈ kvs,WellFormed p.2) → WellFormed (.obj kvs)

/-- The values a text denotes: well formed and nowhere undefined. -/
inductive IsJson : JsVal → Prop
  | null : IsJson .null
  | bool (b : Bool) : IsJson (.bool b)
  | num (n : Number) : IsJson (.num n)
  | str (s : JsString) : IsJson (.str s)
  | arr {vs : List JsVal} : (∀ v ∈ vs,IsJson v) → IsJson (.arr vs)
  | obj {kvs : List (JsString × JsVal)} : (kvs.map Prod.fst).Nodup →
      (∀ p ∈ kvs,IsJson p.2) → IsJson (.obj kvs)

def isSpace (c : Char) : Bool := c = ' ' || c = '\t' || c = '\n' || c = '\r'

def skipSpace (cs : List Char) : List Char := cs.dropWhile isSpace

/-- Add a member; an earlier member of the same name is overwritten in place. -/
def setMember (kvs : List (JsString × JsVal)) (k : JsString) (v : JsVal) :
    List (JsString × JsVal) :=
  if k ∈ kvs.map Prod.fst then kvs.map fun p => if p.1 = k then (k,v) else p
  else kvs++[(k,v)]

mutual

def readValue : ℕ → List Char → Option (JsVal × List Char)
  | 0,_ => none
  | fuel+1,cs =>
      match skipSpace cs with
      | 'n' :: 'u' :: 'l' :: 'l' :: r => some (.null,r)
      | 't' :: 'r' :: 'u' :: 'e' :: r => some (.bool true,r)
      | 'f' :: 'a' :: 'l' :: 's' :: 'e' :: r => some (.bool false,r)
      | '"'::r => (readUnits r).map fun s => (.str s.1,s.2)
      | '['::r =>
          match skipSpace r with
          | ']'::r => some (.arr [],r)
          | r => (readElements fuel r).map fun vs => (.arr vs.1,vs.2)
      | '\x7b'::r =>
          match skipSpace r with
          | '\x7d'::r => some (.obj [],r)
          | r => (readMembers fuel [] r).map fun kvs => (.obj kvs.1,kvs.2)
      | r => (Number.read r).map fun n => (.num n.1,n.2)

def readElements : ℕ → List Char → Option (List JsVal × List Char)
  | 0,_ => none
  | fuel+1,cs => do
      let v ← readValue fuel cs
      match skipSpace v.2 with
      | ','::r => (readElements fuel r).map fun vs => (v.1::vs.1,vs.2)
      | ']'::r => some ([v.1],r)
      | _ => none

def readMembers : ℕ → List (JsString × JsVal) → List Char →
    Option (List (JsString × JsVal) × List Char)
  | 0,_,_ => none
  | fuel+1,kvs,cs =>
      match skipSpace cs with
      | '"'::r => do
          let k ← readUnits r
          match skipSpace k.2 with
          | ':'::r => do
              let v ← readValue fuel r
              match skipSpace v.2 with
              | ','::r => readMembers fuel (setMember kvs k.1 v.1) r
              | '\x7d'::r => some (setMember kvs k.1 v.1,r)
              | _ => none
          | _ => none
      | _ => none

end

/-- `JSON.parse`. -/
def parse (cs : List Char) : Option JsVal := do
  let v ← readValue (cs.length+1) cs
  if skipSpace v.2 = [] then some v.1 else none

theorem IsJson.defined {v : JsVal} (h : IsJson v) : v.isUndefined = false := by
  cases h <;> rfl

theorem IsJson.wellFormed {v : JsVal} (h : IsJson v) : WellFormed v := by
  induction h with
  | null => exact .null
  | bool b => exact .bool b
  | num n => exact .num n
  | str s => exact .str s
  | arr _ ih => exact .arr ih
  | obj hnd _ ih => exact .obj hnd ih

theorem elementTexts_eq (vs : List JsVal) : elementTexts vs = vs.map text := by
  induction vs with
  | nil => rfl
  | cons v vs ih => rw [elementTexts,ih,List.map_cons]

theorem cleanElements_eq (vs : List JsVal) : cleanElements vs = vs.map clean := by
  induction vs with
  | nil => rfl
  | cons v vs ih => rw [cleanElements,ih,List.map_cons]

/-- The defined members of an object. -/
def defined (kvs : List (JsString × JsVal)) : List (JsString × JsVal) :=
  kvs.filter fun p => !p.2.isUndefined

theorem defined_cons (p : JsString × JsVal) (kvs : List (JsString × JsVal)) :
    defined (p::kvs) = if p.2.isUndefined then defined kvs else p::defined kvs := by
  rw [defined,List.filter_cons]
  cases p.2.isUndefined <;> rfl

theorem memberTexts_eq (kvs : List (JsString × JsVal)) :
    memberTexts kvs = (defined kvs).map fun p => (p.1,text p.2) := by
  induction kvs with
  | nil => rfl
  | cons p kvs ih =>
      rw [memberTexts,ih,defined_cons]
      cases p.2.isUndefined <;> rfl

theorem cleanMembers_eq (kvs : List (JsString × JsVal)) :
    cleanMembers kvs = (defined kvs).map fun p => (p.1,clean p.2) := by
  induction kvs with
  | nil => rfl
  | cons p kvs ih =>
      rw [cleanMembers,ih,defined_cons]
      cases p.2.isUndefined <;> rfl

theorem defined_of_isJson {kvs : List (JsString × JsVal)} (h : ∀ p ∈ kvs,IsJson p.2) :
    defined kvs = kvs := by
  rw [defined,List.filter_eq_self]
  intro p hp
  rw [(h p hp).defined]
  rfl

theorem mem_of_mem_defined {kvs : List (JsString × JsVal)} {p : JsString × JsVal}
    (h : p ∈ defined kvs) : p ∈ kvs := List.mem_of_mem_filter h

theorem isUndefined_clean (v : JsVal) : (clean v).isUndefined = false := by
  cases v <;> rfl

/-- Undefined positions leave no trace in the text. -/
theorem text_clean (v : JsVal) : text (clean v) = text v := by
  induction v using JsVal.induct with
  | undefined => rfl
  | null => rfl
  | bool b => rfl
  | num n => rfl
  | str s => rfl
  | arr vs ih =>
      rw [clean,text,text,elementTexts_eq,elementTexts_eq,cleanElements_eq,List.map_map]
      have h : vs.map (text ∘ clean) = vs.map text := List.map_congr_left ih
      rw [h]
  | obj kvs ih =>
      have hdef : defined (cleanMembers kvs) = cleanMembers kvs := by
        rw [defined,List.filter_eq_self,cleanMembers_eq]
        intro p hp
        obtain ⟨q,_,rfl⟩ := List.mem_map.mp hp
        rw [isUndefined_clean]
        rfl
      have h : ((defined kvs).map fun p => (p.1,clean p.2)).map (fun p => (p.1,text p.2)) =
          (defined kvs).map fun p => (p.1,text p.2) := by
        rw [List.map_map]
        apply List.map_congr_left
        intro p hp
        exact congrArg (Prod.mk p.1) (ih p (mem_of_mem_defined hp))
      rw [clean,text,text,memberTexts_eq,memberTexts_eq,hdef,cleanMembers_eq,h]

theorem WellFormed.isJson_clean {v : JsVal} (h : WellFormed v) : IsJson (clean v) := by
  induction h with
  | undefined => exact .null
  | null => exact .null
  | bool b => exact .bool b
  | num n => exact .num n
  | str s => exact .str s
  | arr h ih =>
      rw [clean,cleanElements_eq]
      refine .arr fun v hv => ?_
      obtain ⟨w,hw,rfl⟩ := List.mem_map.mp hv
      exact ih w hw
  | obj hnd h ih =>
      rw [clean,cleanMembers_eq]
      refine .obj ?_ fun p hp => ?_
      · rw [List.map_map]
        exact hnd.sublist (List.Sublist.map _ List.filter_sublist)
      · obtain ⟨q,hq,rfl⟩ := List.mem_map.mp hp
        exact ih q (mem_of_mem_defined hq)

theorem clean_of_isJson {v : JsVal} (h : IsJson v) : clean v = v := by
  induction h with
  | null => rfl
  | bool b => rfl
  | num n => rfl
  | str s => rfl
  | arr h ih =>
      rw [clean,cleanElements_eq]
      exact congrArg JsVal.arr ((List.map_congr_left ih).trans (List.map_id' _))
  | obj hnd h ih =>
      rw [clean,cleanMembers_eq,defined_of_isJson h]
      refine congrArg JsVal.obj ((List.map_congr_left fun p hp => ?_).trans (List.map_id' _))
      exact Prod.ext rfl (ih p hp)

theorem skipSpace_cons {c : Char} (h : ¬ isSpace c) (cs : List Char) :
    skipSpace (c::cs) = c::cs := List.dropWhile_cons_of_neg h

/-- No text starts with white space or a closing bracket. -/
def ValueStart (c : Char) : Prop := ¬ isSpace c ∧ c ≠ ']' ∧ c ≠ '\x7d'

instance (c : Char) : Decidable (ValueStart c) := inferInstanceAs (Decidable (_ ∧ _))

theorem number_start (n : Number) :
    ∃ c cs,n.text = c::cs ∧ (c.isDigit ∨ c = '-') := by
  cases n with
  | zero => exact ⟨'0',[],rfl,Or.inl rfl⟩
  | nonzero neg x =>
      cases neg with
      | true => exact ⟨'-',_,rfl,Or.inr rfl⟩
      | false =>
          have hv := layout_valid x.shortest.2 x.shortest_pos
          obtain ⟨c,w,hw⟩ := List.exists_cons_of_ne_nil hv.whole_ne
          have hc := hv.whole_digits c (by rw [hw]; exact List.mem_cons_self)
          have ht : ∀ t : Token,t.whole = c::w → ∃ cs,t.text = c::cs := by
            intro t h
            exact ⟨_,congrArg (·++(Token.fractionText t.fraction++Token.exponentText t.exponent)) h⟩
          obtain ⟨cs,hcs⟩ := ht _ hw
          exact ⟨c,cs,hcs,Or.inl hc⟩

theorem number_char_ne {c d : Char} (hc : c.isDigit ∨ c = '-')
    (hd : d.isDigit = false ∧ d ≠ '-') : c ≠ d := by
  rintro rfl
  rcases hc with hc | hc
  · rw [hd.1] at hc
    exact absurd hc (by decide)
  · exact hd.2 hc

theorem text_start (v : JsVal) : ∃ c cs,text v = c::cs ∧ ValueStart c := by
  cases v with
  | undefined => exact ⟨'n',_,rfl,by decide⟩
  | null => exact ⟨'n',_,rfl,by decide⟩
  | bool b =>
      cases b with
      | true => exact ⟨'t',_,rfl,by decide⟩
      | false => exact ⟨'f',_,rfl,by decide⟩
  | num n =>
      obtain ⟨c,cs,hn,hc⟩ := number_start n
      refine ⟨c,cs,hn,?_,number_char_ne hc (by decide),number_char_ne hc (by decide)⟩
      simp only [isSpace,Bool.or_eq_true,decide_eq_true_eq,not_or]
      exact ⟨⟨⟨number_char_ne hc (by decide),number_char_ne hc (by decide)⟩,
        number_char_ne hc (by decide)⟩,number_char_ne hc (by decide)⟩
  | str s => exact ⟨'"',_,rfl,by decide⟩
  | arr vs => exact ⟨'[',_,rfl,by decide⟩
  | obj kvs => exact ⟨'\x7b',_,rfl,by decide⟩

theorem skipSpace_text (v : JsVal) (r : List Char) : skipSpace (text v++r) = text v++r := by
  obtain ⟨c,cs,h,hc⟩ := text_start v
  rw [h,List.cons_append,skipSpace_cons hc.1]

theorem readValue_number (fuel : ℕ) (n : Number) {r : List Char} (hr : TokenEnd r) :
    readValue (fuel+1) (n.text++r) = some (.num n,r) := by
  have hskip := skipSpace_text (.num n) r
  obtain ⟨c,cs,hn,hc⟩ := number_start n
  have hread := n.read_text hr
  simp only [text,hn,List.cons_append] at hskip hread ⊢
  rw [readValue]
  simp only [hskip]
  split
  · next h => exact absurd (List.cons.inj h).1 (number_char_ne hc (by decide))
  · next h => exact absurd (List.cons.inj h).1 (number_char_ne hc (by decide))
  · next h => exact absurd (List.cons.inj h).1 (number_char_ne hc (by decide))
  · next h => exact absurd (List.cons.inj h).1 (number_char_ne hc (by decide))
  · next h => exact absurd (List.cons.inj h).1 (number_char_ne hc (by decide))
  · next h => exact absurd (List.cons.inj h).1 (number_char_ne hc (by decide))
  · rw [hread]
    rfl

/-- What the reader must do on the text of one value. -/
def Reads (v : JsVal) : Prop :=
  ∀ fuel r,(text v).length < fuel → TokenEnd r → readValue fuel (text v++r) = some (v,r)

theorem tokenEnd_of_separator {c : Char} (h : c = ',' ∨ c = ']' ∨ c = '\x7d') (r : List Char) :
    TokenEnd (c::r) := by
  intro d hd
  cases Option.some.inj hd
  rcases h with rfl | rfl | rfl <;> decide

theorem text_length_pos (v : JsVal) : 0 < (text v).length := by
  obtain ⟨c,cs,h,_⟩ := text_start v
  rw [h]
  exact Nat.succ_pos _

theorem readElements_more {fuel : ℕ} {cs r : List Char} {v : JsVal}
    (h : readValue fuel cs = some (v,','::r)) :
    readElements (fuel+1) cs = (readElements fuel r).map fun vs => (v::vs.1,vs.2) := by
  rw [readElements,h]
  rfl

theorem readElements_last {fuel : ℕ} {cs r : List Char} {v : JsVal}
    (h : readValue fuel cs = some (v,']'::r)) : readElements (fuel+1) cs = some ([v],r) := by
  rw [readElements,h]
  rfl

theorem readElements_texts {vs : List JsVal} (h : ∀ v ∈ vs,Reads v) (hne : vs ≠ []) :
    ∀ fuel r,(commaJoin (vs.map text)).length+1 < fuel →
      readElements fuel (commaJoin (vs.map text)++ ']'::r) = some (vs,r) := by
  induction vs with
  | nil => exact absurd rfl hne
  | cons v vs ih =>
      intro fuel r hf
      have hv := h v List.mem_cons_self
      have hlen := text_length_pos v
      obtain ⟨fuel,rfl⟩ : ∃ n,fuel = n+1 := ⟨fuel-1,by omega⟩
      cases vs with
      | nil =>
          simp only [List.map_cons,List.map_nil,commaJoin] at hf ⊢
          exact readElements_last (hv fuel _ (by omega) (tokenEnd_of_separator (by simp) r))
      | cons w vs =>
          simp only [List.map_cons,commaJoin,List.length_append,List.length_cons] at hf ih ⊢
          have htail := ih (fun u hu => h u (List.mem_cons_of_mem v hu)) (by simp) fuel r (by omega)
          have hhead := hv fuel (','::(commaJoin (text w::vs.map text)++ ']'::r)) (by omega)
            (tokenEnd_of_separator (Or.inl rfl) _)
          rw [List.append_assoc,List.cons_append,readElements_more hhead,htail]
          rfl

theorem setMember_new {kvs : List (JsString × JsVal)} {k : JsString} (v : JsVal)
    (h : k ∉ kvs.map Prod.fst) : setMember kvs k v = kvs++[(k,v)] := if_neg h

theorem readMembers_key (fuel : ℕ) (kvs : List (JsString × JsVal)) (k : JsString)
    (cs : List Char) :
    readMembers (fuel+1) kvs (quote k++ ':'::cs) =
      (readValue fuel cs).bind fun v =>
        match skipSpace v.2 with
        | ','::r => readMembers fuel (setMember kvs k v.1) r
        | '\x7d'::r => some (setMember kvs k v.1,r)
        | _ => none := by
  have hq : quote k++ ':'::cs = '"'::(quoteUnits k++ '"' :: ':' :: cs) := by
    simp [quote]
  rw [readMembers,hq,skipSpace_cons (by decide)]
  simp only [readUnits_quoteUnits,Option.bind_eq_bind,Option.bind_some]
  rfl

theorem readMembers_more {fuel : ℕ} {kvs : List (JsString × JsVal)} {k : JsString} {v : JsVal}
    {cs r : List Char} (hk : k ∉ kvs.map Prod.fst) (h : readValue fuel cs = some (v,','::r)) :
    readMembers (fuel+1) kvs (quote k++ ':'::cs) = readMembers fuel (kvs++[(k,v)]) r := by
  rw [readMembers_key,h,← setMember_new v hk]
  rfl

theorem readMembers_last {fuel : ℕ} {kvs : List (JsString × JsVal)} {k : JsString} {v : JsVal}
    {cs r : List Char} (hk : k ∉ kvs.map Prod.fst) (h : readValue fuel cs = some (v,'\x7d'::r)) :
    readMembers (fuel+1) kvs (quote k++ ':'::cs) = some (kvs++[(k,v)],r) := by
  rw [readMembers_key,h,← setMember_new v hk]
  rfl

/-- The accumulated members are those already read, all under other names. -/
theorem readMembers_texts {kvs : List (JsString × JsVal)} (h : ∀ p ∈ kvs,Reads p.2)
    (hne : kvs ≠ []) :
    ∀ acc fuel r,((acc++kvs).map Prod.fst).Nodup →
      (commaJoin (kvs.map fun p => memberText (p.1,text p.2))).length+1 < fuel →
      readMembers fuel acc (commaJoin (kvs.map fun p => memberText (p.1,text p.2))++ '\x7d'::r) =
        some (acc++kvs,r) := by
  induction kvs with
  | nil => exact absurd rfl hne
  | cons p kvs ih =>
      intro acc fuel r hnd hf
      have hv := h p List.mem_cons_self
      obtain ⟨fuel,rfl⟩ : ∃ n,fuel = n+1 := ⟨fuel-1,by omega⟩
      have hnew : p.1 ∉ acc.map Prod.fst := by
        rw [List.map_append,List.map_cons] at hnd
        intro hmem
        exact (List.nodup_append.mp hnd).2.2 _ hmem _ List.mem_cons_self rfl
      cases kvs with
      | nil =>
          simp only [List.map_cons,List.map_nil,commaJoin,memberText,List.length_append,
            List.length_cons] at hf ⊢
          rw [List.append_assoc,List.cons_append]
          exact readMembers_last hnew
            (hv fuel _ (by omega) (tokenEnd_of_separator (by simp) r))
      | cons q kvs =>
          simp only [List.map_cons,commaJoin,List.length_append,List.length_cons,memberText]
            at hf ih ⊢
          have htail := ih (fun u hu => h u (List.mem_cons_of_mem p hu)) (by simp)
            (acc++[p]) fuel r (by simpa using hnd) (by omega)
          have hhead := hv fuel _ (by omega) (tokenEnd_of_separator (Or.inl rfl)
            (commaJoin ((quote q.1++ ':'::text q.2)::kvs.map fun p => quote p.1++ ':'::text p.2)++
              '\x7d'::r))
          rw [List.append_assoc,List.append_assoc,List.cons_append,List.cons_append,
            readMembers_more hnew hhead,htail,List.append_assoc]
          rfl

theorem readValue_arr {fuel : ℕ} {c : Char} {cs : List Char} (h : ValueStart c) :
    readValue (fuel+1) ('['::c::cs) =
      (readElements fuel (c::cs)).map fun vs => (.arr vs.1,vs.2) := by
  rw [readValue,skipSpace_cons (by decide)]
  simp only [skipSpace_cons h.1]
  split
  · next heq => exact absurd (List.cons.inj heq).1 h.2.1
  · rfl

theorem readValue_obj {fuel : ℕ} {c : Char} {cs : List Char} (h : ValueStart c) :
    readValue (fuel+1) ('\x7b'::c::cs) =
      (readMembers fuel [] (c::cs)).map fun kvs => (.obj kvs.1,kvs.2) := by
  rw [readValue,skipSpace_cons (by decide)]
  simp only [skipSpace_cons h.1]
  split
  · next heq => exact absurd (List.cons.inj heq).1 h.2.2
  · rfl

theorem commaJoin_start (ts : List (List Char)) {c : Char} {cs : List Char}
    (h : ts.head? = some (c::cs)) (r : List Char) : ∃ cs',commaJoin ts++r = c::cs' := by
  cases ts with
  | nil => cases h
  | cons t ts =>
      cases Option.some.inj h
      cases ts with
      | nil => exact ⟨cs++r,rfl⟩
      | cons t ts => exact ⟨_,rfl⟩

/-- The reader inverts the printer on every JSON value. -/
theorem readValue_text {v : JsVal} (h : IsJson v) : Reads v := by
  intro fuel r hf hr
  obtain ⟨fuel,rfl⟩ : ∃ n,fuel = n+1 := ⟨fuel-1,by omega⟩
  induction h generalizing fuel r with
  | null => rfl
  | bool b => cases b <;> rfl
  | num n => exact readValue_number fuel n hr
  | str s =>
      have hq : text (.str s)++r = '"'::(quoteUnits s++ '"'::r) := by
        simp [text,quote]
      rw [hq,readValue,skipSpace_cons (by decide)]
      simp only [readUnits_quoteUnits,Option.map_some]
  | @arr vs h ih =>
      have hreads : ∀ v ∈ vs,Reads v := by
        intro v hv fuel r hf hr
        obtain ⟨fuel,rfl⟩ : ∃ n,fuel = n+1 := ⟨fuel-1,by omega⟩
        exact ih v hv r hr fuel hf
      rw [text,elementTexts_eq] at hf ⊢
      cases vs with
      | nil => rfl
      | cons v vs =>
          obtain ⟨c,cs,hv,hc⟩ := text_start v
          have hread := readElements_texts hreads (by simp) fuel r (by simpa using hf)
          obtain ⟨cs',hjoin⟩ := commaJoin_start ((v::vs).map text) (congrArg some hv) (']'::r)
          rw [hjoin] at hread
          rw [List.cons_append,List.append_assoc,List.singleton_append,hjoin,readValue_arr hc,
            hread]
          rfl
  | @obj kvs hnd h ih =>
      have hreads : ∀ p ∈ kvs,Reads p.2 := by
        intro p hp fuel r hf hr
        obtain ⟨fuel,rfl⟩ : ∃ n,fuel = n+1 := ⟨fuel-1,by omega⟩
        exact ih p hp r hr fuel hf
      rw [text,memberTexts_eq,defined_of_isJson h,List.map_map] at hf ⊢
      cases kvs with
      | nil => rfl
      | cons p kvs =>
          have hread := readMembers_texts hreads (by simp) [] fuel r (by simpa using hnd)
            (by simpa [Function.comp_def] using hf)
          obtain ⟨cs',hjoin⟩ := commaJoin_start
            ((p::kvs).map fun p => memberText (p.1,text p.2)) rfl ('\x7d'::r)
          rw [hjoin] at hread
          change readValue _ ('\x7b'::(_++['\x7d'])++r) = _
          rw [List.cons_append,List.append_assoc,List.singleton_append]
          change readValue _ ('\x7b'::(commaJoin ((p::kvs).map fun p => memberText (p.1,text p.2))++
            '\x7d'::r)) = _
          rw [hjoin,readValue_obj (by decide),hread]
          rfl

theorem parse_text {v : JsVal} (h : WellFormed v) : parse (text v) = some (clean v) := by
  have hread := readValue_text h.isJson_clean ((text v).length+1) []
    (by rw [text_clean]; exact Nat.lt_succ_self _) (by simp [TokenEnd])
  rw [List.append_nil,text_clean] at hread
  rw [parse,hread]
  rfl

/-- Values with equal texts agree up to undefined positions. -/
theorem text_injective {v w : JsVal} (hv : WellFormed v) (hw : WellFormed w)
    (h : text v = text w) : clean v = clean w := by
  have hp := parse_text hv
  rw [h,parse_text hw] at hp
  exact (Option.some.inj hp).symm

end AstraNull.JsonText

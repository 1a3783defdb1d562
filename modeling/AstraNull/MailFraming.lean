import Mathlib
import AstraNull.ByteText
import AstraNull.ScriptText
import AstraNull.SmtpTransport

/-!
# The message after DATA

`buildEmailPayload` and the bytes `runSmtpMailTransaction` writes after `DATA`, against what a
server makes of them: it reads lines up to one that is a single point and drops the first point
of any other line that starts with one. The client writes the body as it is, so the message
arrives as intended exactly when no text of the event has a line break with a point behind it.
-/
namespace AstraNull.MailFraming
open JsonText ScriptText

section Infix
variable {α β : Type} {q : List α}

/-- An element outside the pattern separates its occurrences. -/
theorem infix_append_cons_iff {c : α} (hc : c ∉ q) (hq : q ≠ []) (a b : List α) :
    q <:+: a++c::b ↔ q <:+: a ∨ q <:+: b := by
  constructor
  · rintro ⟨s,t,h⟩
    rw [List.append_assoc] at h
    rcases List.append_eq_append_iff.mp h with ⟨m,ha,hm⟩ | ⟨m,hs,hm⟩
    · rcases List.append_eq_append_iff.mp hm with ⟨k,hk,hk'⟩ | ⟨k,hk,hk'⟩
      · exact .inl ⟨s,k,by rw [ha,hk,List.append_assoc]⟩
      · cases k with
        | nil =>
            rw [List.append_nil] at hk
            exact .inl ⟨s,[],by rw [ha,hk,List.append_nil]⟩
        | cons d k =>
            obtain ⟨rfl,_⟩ := List.cons.inj hk'
            exact absurd (by rw [hk]; simp) hc
    · cases m with
      | nil =>
          cases q with
          | nil => exact absurd rfl hq
          | cons d q =>
              obtain ⟨rfl,_⟩ := List.cons.inj hm
              exact absurd List.mem_cons_self hc
      | cons d m =>
          obtain ⟨rfl,hb⟩ := List.cons.inj hm
          exact .inr ⟨m,t,by simpa using hb.symm⟩
  · rintro (⟨s,t,rfl⟩ | ⟨s,t,rfl⟩)
    · exact ⟨s,t++c::b,by simp⟩
    · exact ⟨a++c::s,t,by simp⟩

theorem infix_cons_other {c : α} (hc : c ∉ q) (hq : q ≠ []) (l : List α) :
    q <:+: c::l ↔ q <:+: l := by
  have h := infix_append_cons_iff hc hq [] l
  rwa [List.nil_append,List.infix_nil,or_iff_right hq] at h

theorem infix_append_other {front : List α} (hfront : ∀ a ∈ front,a ∉ q) (hq : q ≠ [])
    (l : List α) : q <:+: front++l ↔ q <:+: l := by
  induction front with
  | nil => rfl
  | cons c front ih =>
      rw [List.cons_append,infix_cons_other (hfront c List.mem_cons_self) hq]
      exact ih fun a ha => hfront a (List.mem_cons_of_mem c ha)

/-- A text is written element by element, except for blocks without any of the pattern. -/
inductive Written (q : List α) (g : α → β) : List α → List β → Prop
  | nil : Written q g [] []
  | kept (a : α) {l : List α} {m : List β} : Written q g l m → Written q g (a::l) (g a::m)
  | other {front l : List α} {block m : List β} : front ≠ [] → (∀ a ∈ front,a ∉ q) →
      (∀ b ∈ block,b ∉ q.map g) → block ≠ [] → Written q g l m →
      Written q g (front++l) (block++m)

variable {g : α → β} {l : List α} {m : List β}

theorem prefix_written (hg : Function.Injective g) (h : Written q g l m) {k : List α}
    (hk : ∀ a ∈ k,a ∈ q) : k.map g <+: m ↔ k <+: l := by
  induction h generalizing k with
  | nil => cases k <;> simp
  | kept a h ih =>
      cases k with
      | nil => simp
      | cons c k =>
          rw [List.map_cons,List.cons_prefix_cons,List.cons_prefix_cons,hg.eq_iff,
            ih fun a ha => hk a (List.mem_cons_of_mem c ha)]
  | @other front l block m hne hfront hblock hblock' h ih =>
      cases k with
      | nil => simp
      | cons c k =>
          have hc := hk c List.mem_cons_self
          obtain ⟨a,front,rfl⟩ := List.exists_cons_of_ne_nil hne
          obtain ⟨b,block,rfl⟩ := List.exists_cons_of_ne_nil hblock'
          rw [List.map_cons,List.cons_append,List.cons_append,List.cons_prefix_cons,
            List.cons_prefix_cons]
          refine iff_of_false ?_ ?_
          · rintro ⟨rfl,_⟩
            exact hblock _ List.mem_cons_self (List.mem_map_of_mem hc)
          · rintro ⟨rfl,_⟩
            exact hfront _ List.mem_cons_self hc

/-- The pattern occurs where it occurred. -/
theorem infix_written (hg : Function.Injective g) (hq : q ≠ []) (h : Written q g l m) :
    q.map g <:+: m ↔ q <:+: l := by
  have hq' : q.map g ≠ [] := by simpa using hq
  induction h with
  | nil => simp
  | kept a h ih =>
      rw [List.infix_cons_iff,List.infix_cons_iff]
      exact or_congr (prefix_written hg (.kept a h) fun _ ha => ha) ih
  | other hne hfront hblock hblock' h ih =>
      rw [infix_append_other hfront hq,infix_append_other hblock hq']
      exact ih

theorem written_ne_nil (h : Written q g l m) (hl : l ≠ []) : m ≠ [] := by
  cases h with
  | nil => exact absurd rfl hl
  | kept a h => exact List.cons_ne_nil _ _
  | other hne hfront hblock hblock' h => exact List.append_ne_nil_of_left_ne_nil hblock' _

theorem mem_written (hg : Function.Injective g) (h : Written q g l m) {a : α} (ha : a ∈ q) :
    g a ∈ m ↔ a ∈ l := by
  induction h with
  | nil => simp
  | kept c h ih => rw [List.mem_cons,List.mem_cons,hg.eq_iff,ih]
  | other hne hfront hblock hblock' h ih =>
      rw [List.mem_append,List.mem_append,ih,
        or_iff_right fun hb => hblock _ hb (List.mem_map_of_mem ha),
        or_iff_right fun hf => hfront _ hf ha]

end Infix

/-- The data of a message, from the start of a line or within one, and what follows it. -/
def receive : Bool → List ℕ → Option (List ℕ × List ℕ)
  | true,46::13::10::bs => some ([],bs)
  | true,46::bs => receive false bs
  | _,13::10::bs => (receive true bs).map fun r => (13::10::r.1,r.2)
  | _,b::bs => (receive false bs).map fun r => (b::r.1,r.2)
  | _,[] => none

/-- Header lines up to the empty line, and the body. -/
def readHeader : List ℕ → List ℕ → List (List ℕ) × List ℕ
  | line,13::10::bs =>
      if line = [] then ([],bs)
      else
        let r := readHeader [] bs
        (line::r.1,r.2)
  | line,b::bs => readHeader (line++[b]) bs
  | line,[] => ([line],[])

structure Mail where
  header : List (List ℕ)
  body : List ℕ
  /-- What the server goes on to read as commands. -/
  rest : List ℕ
deriving DecidableEq

def readMail (bs : List ℕ) : Option Mail :=
  (receive true bs).map fun r => ⟨(readHeader [] r.1).1,(readHeader [] r.1).2,r.2⟩

def crlf : List ℕ := [13,10]

/-- A line break and a point. -/
def breakPoint : List ℕ := [13,10,46]

section Receive
variable {start : Bool} {b : ℕ} {bs m r : List ℕ}

/-- Any byte but a first point and the beginning of a line break is data. -/
theorem receive_cons (hpoint : start = true → b ≠ 46) (hbreak : b = 13 → bs.head? ≠ some 10) :
    receive start (b::bs) = (receive false bs).map fun r => (b::r.1,r.2) := by
  rw [receive]
  · rintro bs' rfl rfl
    exact hbreak rfl rfl
  · rintro bs' hs rfl
    exact absurd rfl (hpoint hs)
  · exact fun hs hb => hpoint hs hb

theorem receive_head (h : receive false bs = some (m,r)) : m.head? = bs.head? := by
  unfold receive at h
  split at h
  · simp_all
  · simp_all
  · obtain ⟨q,_,hq⟩ := Option.map_eq_some_iff.mp h
    rw [← (Prod.mk.inj hq).1]
    rfl
  · obtain ⟨q,_,hq⟩ := Option.map_eq_some_iff.mp h
    rw [← (Prod.mk.inj hq).1]
    rfl
  · cases h

theorem breakPoint_cons_iff (m : List ℕ) : breakPoint <:+: b::m ↔
    (b = 13 ∧ [10,46] <+: m) ∨ breakPoint <:+: m := by
  rw [List.infix_cons_iff,breakPoint,List.cons_prefix_cons,eq_comm]

/-- Text without such breaks arrives as it was written. -/
theorem receive_text (t : List ℕ) (hbreak : ¬ breakPoint <:+: t)
    (hpoint : start = true → t.head? ≠ some 46) :
    receive start (t++[13,10,46,13,10]) = some (t++crlf,[]) := by
  induction hn : t.length using Nat.strong_induction_on generalizing t start with
  | _ n ih =>
      cases t with
      | nil => cases start <;> rfl
      | cons c t =>
          rw [breakPoint_cons_iff,not_or] at hbreak
          by_cases hcr : c = 13 ∧ t.head? = some 10
          · obtain ⟨rfl,hhead⟩ := hcr
            obtain ⟨t,rfl⟩ : ∃ t',t = 10::t' := by
              cases t <;> simp_all
            rw [breakPoint_cons_iff,not_or] at hbreak
            have hrest := @ih t.length (by simp [← hn]) true t hbreak.2.2
              (fun _ hp => hbreak.1 ⟨rfl,by cases t <;> simp_all⟩) rfl
            cases start <;> simp only [List.cons_append,receive,hrest] <;> rfl
          · rw [List.cons_append,receive_cons]
            · rw [@ih t.length (by simp [← hn]) false t hbreak.2 nofun rfl]
              rfl
            · exact fun hs hc => hpoint hs (by rw [hc]; rfl)
            · intro hc hhead
              refine hcr ⟨hc,?_⟩
              cases t with
              | nil => simp at hhead
              | cons d t => simpa using hhead

/-- What arrives is no longer than what was written, and as long only without such breaks. -/
theorem receive_spec (h : receive start bs = some (m,r)) :
    m.length+r.length+3 ≤ bs.length ∧ (m.length+r.length+3 = bs.length →
      ¬ breakPoint <:+: m ∧ (start = true → m.head? ≠ some 46)) := by
  fun_induction receive start bs generalizing m r with
  | case1 bs =>
      obtain ⟨rfl,rfl⟩ : [] = m ∧ bs = r := by simpa using h
      simp [breakPoint]
  | case2 bs hne ih =>
      have hle := (ih h).1
      simp only [List.length_cons]
      exact ⟨by omega,fun heq => absurd heq (by omega)⟩
  | case3 start bs ih =>
      obtain ⟨q,hq,heq⟩ := Option.map_eq_some_iff.mp h
      obtain ⟨rfl,rfl⟩ := Prod.mk.inj heq
      obtain ⟨hle,hrest⟩ := ih hq
      refine ⟨by simp only [List.length_cons]; omega,fun hlen => ?_⟩
      obtain ⟨hno,hfirst⟩ := hrest (by simp only [List.length_cons] at hlen; omega)
      refine ⟨?_,fun _ => by simp⟩
      rw [breakPoint_cons_iff,breakPoint_cons_iff]
      rintro (⟨_,hp⟩ | ⟨hbad,_⟩ | hin)
      · have := hfirst rfl
        cases hm : q.1 <;> simp_all
      · cases hbad
      · exact hno hin
  | case4 start c bs h1 h2 h3 ih =>
      obtain ⟨q,hq,heq⟩ := Option.map_eq_some_iff.mp h
      obtain ⟨rfl,rfl⟩ := Prod.mk.inj heq
      obtain ⟨hle,hrest⟩ := ih hq
      refine ⟨by simp only [List.length_cons]; omega,fun hlen => ?_⟩
      obtain ⟨hno,_⟩ := hrest (by simp only [List.length_cons] at hlen; omega)
      have hhead := receive_head hq
      refine ⟨?_,fun hs hc => h2 hs (by simpa using hc)⟩
      rw [breakPoint_cons_iff]
      rintro (⟨rfl,hp⟩ | hin)
      · obtain ⟨bs',rfl⟩ : ∃ bs',bs = 10::bs' := by
          cases hm : q.1 <;> cases bs <;> simp_all
        exact h3 bs' rfl rfl
      · exact hno hin
  | case5 => cases h

end Receive

/-- The header lines and the body make up the data. -/
theorem readHeader_join {line m : List ℕ} (h : (readHeader line m).2 ≠ []) :
    line++m = ((readHeader line m).1.flatMap (·++crlf))++crlf++(readHeader line m).2 := by
  fun_induction readHeader line m with
  | case1 bs => rfl
  | case2 line bs hne r ih =>
      have hrest : bs = _ := ih h
      simp only [List.flatMap_cons,List.append_assoc] at hrest ⊢
      rw [← hrest]
      rfl
  | case3 line b bs hb ih =>
      rw [← ih h,List.append_assoc]
      rfl
  | case4 line => exact absurd rfl h

/-- A line without a return is read up to the break. -/
theorem readHeader_line (front t m : List ℕ) (ht : 13 ∉ t) :
    readHeader front (t++m) = readHeader (front++t) m := by
  induction t generalizing front with
  | nil => rw [List.nil_append,List.append_nil]
  | cons b t ih =>
      obtain ⟨hb,ht⟩ := not_or.mp (mt List.mem_cons.mpr ht)
      rw [List.cons_append,readHeader]
      · rw [ih _ ht,List.append_assoc]
        rfl
      · rintro bs rfl
        exact absurd rfl hb

theorem readHeader_lines (lines : List (List ℕ)) (body : List ℕ)
    (h : ∀ line ∈ lines,line ≠ [] ∧ 13 ∉ line) :
    readHeader [] (lines.flatMap (·++crlf)++crlf++body) = (lines,body) := by
  induction lines with
  | nil => rfl
  | cons line lines ih =>
      obtain ⟨hne,hreturn⟩ := h line List.mem_cons_self
      rw [List.flatMap_cons,List.append_assoc,List.append_assoc,List.append_assoc,
        readHeader_line _ _ _ hreturn,List.nil_append]
      have hrest := ih fun l hl => h l (List.mem_cons_of_mem line hl)
      rw [List.append_assoc] at hrest
      simp only [crlf,List.cons_append,List.nil_append] at hrest ⊢
      rw [readHeader,if_neg hne]
      simp only [hrest]

/-- What a socket writes for a string. -/
def bytes (s : JsString) : List ℕ := ByteText.utf8 (chars s)

/-- A line break and a point, as code units. -/
def breakPointUnits : JsString := [13,10,46]

theorem encodeChar_low {c : Char} (h : c.toNat < 128) : ByteText.encodeChar c = [c.toNat] := by
  rw [ByteText.encodeChar]
  exact if_pos h

theorem encodeChar_high {c : Char} (h : 128 ≤ c.toNat) :
    ByteText.encodeChar c ≠ [] ∧ ∀ b ∈ ByteText.encodeChar c,128 ≤ b := by
  simp only [ByteText.encodeChar]
  rw [if_neg (by omega)]
  split_ifs <;> simp <;> omega

/-- The character of a code unit that is in no pair. -/
def unitChar (u : UInt16) : Char :=
  if isHigh u ∨ isLow u then Char.ofNat 0xFFFD else Char.ofNat u.toNat

theorem bytes_pair {u v : UInt16} (h : isHigh u ∧ isLow v) (us : JsString) :
    bytes (u::v::us) = ByteText.encodeChar (pairChar u v)++bytes us := by
  rw [bytes,chars,if_pos h]
  rfl

theorem bytes_cons {u : UInt16} {us : JsString} (h : isHigh u → ∀ v ∈ us.head?,¬ isLow v) :
    bytes (u::us) = ByteText.encodeChar (unitChar u)++bytes us := by
  cases us with
  | nil =>
      have hc : chars [u] = [unitChar u] := by
        rw [chars,unitChar]
        split <;> rfl
      rw [bytes,hc]
      rfl
  | cons v us =>
      rw [bytes,chars,if_neg fun hp => h hp.1 v rfl hp.2]
      rfl

/-- Induction along the characters of a text. -/
theorem units_induct {motive : JsString → Prop} (nil : motive [])
    (pair : ∀ u v us,isHigh u ∧ isLow v → motive us → motive (u::v::us))
    (unit : ∀ u us,(isHigh u → ∀ v ∈ us.head?,¬ isLow v) → motive us → motive (u::us))
    (s : JsString) : motive s := by
  induction s using chars.induct with
  | case1 => exact nil
  | case2 u hs => exact unit u [] (fun _ v hv => absurd hv (by simp)) nil
  | case3 u hs => exact unit u [] (fun _ v hv => absurd hv (by simp)) nil
  | case4 u v us hs ih => exact pair u v us hs ih
  | case5 u v us hs ih =>
      refine unit u (v::us) (fun hu w hw hl => ?_) ih
      obtain rfl := Option.some.inj hw
      exact hs ⟨hu,hl⟩

/-- A text may be cut before anything but a second half. -/
theorem bytes_append (a : JsString) {b : JsString} (hb : ∀ v ∈ b.head?,¬ isLow v) :
    bytes (a++b) = bytes a++bytes b := by
  induction a using units_induct with
  | nil => rfl
  | pair u v us h ih =>
      rw [List.cons_append,List.cons_append,bytes_pair h,bytes_pair h,ih,List.append_assoc]
  | unit u us h ih =>
      rw [List.cons_append,bytes_cons h,bytes_cons,ih,List.append_assoc]
      cases us with
      | nil => exact fun _ => hb
      | cons v us => exact h

theorem notSurrogate_valid {u : UInt16} (h : ¬ (isHigh u ∨ isLow u)) : u.toNat.isValidChar := by
  have hlt := u.toNat_lt
  simp only [isHigh,isLow,Bool.and_eq_true,decide_eq_true_eq] at h
  rw [Nat.isValidChar]
  omega

/-- A block of one character beyond ASCII. -/
theorem Written.beyond {front l : JsString} {m : List ℕ} {c : Char} (hc : 128 ≤ c.toNat)
    (hne : front ≠ []) (hfront : ∀ u ∈ front,u ∉ breakPointUnits)
    (h : Written breakPointUnits UInt16.toNat l m) :
    Written breakPointUnits UInt16.toNat (front++l) (ByteText.encodeChar c++m) := by
  refine .other hne hfront (fun b hb hq => ?_) (encodeChar_high hc).1 h
  have hb := (encodeChar_high hc).2 b hb
  have hq : b = 13 ∨ b = 10 ∨ b = 46 := by simpa [breakPointUnits] using hq
  omega

theorem not_breakPointUnits {u : UInt16} (hu : 46 < u.toNat) : u ∉ breakPointUnits := by
  intro hq
  have hq : u = 13 ∨ u = 10 ∨ u = 46 := by simpa [breakPointUnits] using hq
  rcases hq with rfl | rfl | rfl <;> revert hu <;> decide

theorem Written.unit {u : UInt16} {l : JsString} {m : List ℕ}
    (h : Written breakPointUnits UInt16.toNat l m) :
    Written breakPointUnits UInt16.toNat (u::l) (ByteText.encodeChar (unitChar u)++m) := by
  have hsingle : ∀ {c : Char},128 ≤ c.toNat → 46 < u.toNat →
      Written breakPointUnits UInt16.toNat (u::l) (ByteText.encodeChar c++m) := by
    intro c hc hu
    refine @Written.beyond [u] _ _ _ hc (by simp) (fun v hv => ?_) h
    obtain rfl := List.mem_singleton.mp hv
    exact not_breakPointUnits hu
  by_cases hs : isHigh u ∨ isLow u
  · rw [unitChar,if_pos hs]
    refine hsingle (by decide) ?_
    simp only [isHigh,isLow,Bool.and_eq_true,decide_eq_true_eq] at hs
    omega
  · have hn := toNat_ofNat (notSurrogate_valid hs)
    rw [unitChar,if_neg hs]
    by_cases hu : u.toNat < 128
    · rw [encodeChar_low (by omega),hn]
      exact .kept u h
    · exact hsingle (by omega) (by omega)

theorem written_bytes (s : JsString) : Written breakPointUnits UInt16.toNat s (bytes s) := by
  induction s using units_induct with
  | nil => exact .nil
  | pair u v us h ih =>
      rw [bytes_pair h]
      obtain ⟨hu,hv⟩ := h
      simp only [isHigh,isLow,Bool.and_eq_true,decide_eq_true_eq] at hu hv
      have hpair : 128 ≤ (pairChar u v).toNat := by
        rw [pairChar,toNat_ofNat (Or.inr ⟨by omega,by omega⟩)]
        omega
      refine @Written.beyond [u,v] _ _ _ hpair (by simp) (fun w hw => ?_) ih
      rcases List.mem_pair.mp hw with rfl | rfl
      · exact not_breakPointUnits (by omega)
      · exact not_breakPointUnits (by omega)
  | unit u us h ih =>
      rw [bytes_cons h]
      exact .unit ih

theorem breakPoint_bytes (s : JsString) : breakPoint <:+: bytes s ↔ breakPointUnits <:+: s :=
  infix_written (fun _ _ => UInt16.toNat_inj.mp) (by decide) (written_bytes s)

/-- `replace(/u/g, by)`. -/
def replaceUnit (u : UInt16) (text s : JsString) : JsString :=
  s.flatMap fun v => if v = u then text else [v]

def escapeHtml (value : JsString) : JsString :=
  replaceUnit 34 (js "&quot;") (replaceUnit 62 (js "&gt;") (replaceUnit 60 (js "&lt;")
    (replaceUnit 38 (js "&amp;") value)))

/-- Strings as they are, other values as JSON text. -/
def renderMetadata (v : JsVal) : JsString :=
  match v with
  | .str s => s
  | v => (text (ScriptValue.orElse v .null)).flatMap units

def formatMetadataSummary (metadata : List (JsString × JsVal)) : JsString :=
  if metadata.isEmpty then js "No additional metadata"
  else [10].intercalate (metadata.map fun p => p.1++js ": "++renderMetadata p.2)

/-- `replace(/[\r\n\0]+/g, ' ')`. -/
def foldBreaks : JsString → JsString
  | [] => []
  | [u] => if SmtpTransport.lineBreaks.contains u then [32] else [u]
  | u::v::us =>
      if !SmtpTransport.lineBreaks.contains u then u::foldBreaks (v::us)
      else if SmtpTransport.lineBreaks.contains v then foldBreaks (v::us)
      else 32::foldBreaks (v::us)

structure Event where
  trigger : JsString
  subject : JsString
  metadata : List (JsString × JsVal)
  createdAt : JsString

def htmlHead : JsString :=
  js "<!DOCTYPE html>\n<html><body>\n"++
    js "<table border=\"1\" cellpadding=\"6\" cellspacing=\"0\">\n"

def htmlBody (event : Event) : JsString :=
  htmlHead++js "<tr><th>Trigger</th><td>"++escapeHtml event.trigger++js "</td></tr>\n"++
    js "<tr><th>Subject</th><td>"++escapeHtml event.subject++js "</td></tr>\n"++
    js "<tr><th>Metadata</th><td><pre>"++escapeHtml (formatMetadataSummary event.metadata)++
    js "</pre></td></tr>\n"++js "<tr><th>Timestamp</th><td>"++escapeHtml event.createdAt++
    js "</td></tr>\n</table>\n</body></html>"

/-- `smtpFrom` is the environment's address, if one is set. -/
def buildEmailPayload (smtpFrom : Option JsString) (event : Event) (destination : JsString) :
    SmtpTransport.Envelope where
  sender := match smtpFrom with
    | none => js "noreply@astranull.local"
    | some address => if trim address = [] then js "noreply@astranull.local" else trim address
  recipient := destination
  subject := js "[AstraNull] "++foldBreaks event.subject
  htmlBody := htmlBody event

/-- What the client writes after `DATA`. -/
def messageBytes (P : SmtpTransport.Platform) (options : SmtpTransport.Options)
    (envelope : SmtpTransport.Envelope) : List ℕ :=
  bytes (SmtpTransport.Command.text P options envelope .message++[13,10])

def headerLines (envelope : SmtpTransport.Envelope) : List JsString :=
  [js "From: "++envelope.sender,js "To: "++envelope.recipient,js "Subject: "++envelope.subject,
    js "MIME-Version: 1.0",js "Content-Type: text/html; charset=utf-8"]

/-- The server reads the five header lines and the body, and nothing is left for it to read as a
command; the end mark stands at the very end only. -/
def Framed (envelope : SmtpTransport.Envelope) (written : List ℕ) : Prop :=
  readMail written = some ⟨(headerLines envelope).map bytes,bytes envelope.htmlBody++crlf,[]⟩ ∧
    ∀ before after,written = before++[13,10,46,13,10]++after → after = []

/-- No text of the event has a line break with a point behind it. -/
def Unbroken (event : Event) : Prop :=
  ∀ s ∈ [event.trigger,event.subject,formatMetadataSummary event.metadata,event.createdAt],
    ¬ breakPointUnits <:+: s

instance (event : Event) : Decidable (Unbroken event) := List.decidableBAll _ _

theorem written_replaceUnit {u : UInt16} {text : JsString} (hu : u ∉ breakPointUnits)
    (htext : ∀ v ∈ text,v ∉ breakPointUnits) (hne : text ≠ []) (s : JsString) :
    Written breakPointUnits id s (replaceUnit u text s) := by
  induction s with
  | nil => exact .nil
  | cons v s ih =>
      rw [replaceUnit,List.flatMap_cons]
      by_cases hv : v = u
      · rw [if_pos hv]
        refine @Written.other _ _ _ _ [v] _ _ _ (by simp) (fun w hw => ?_) (fun w hw => ?_) hne ih
        · rwa [List.mem_singleton.mp hw,hv]
        · rw [List.map_id]
          exact htext w hw
      · rw [if_neg hv]
        exact .kept v ih

theorem breakPoint_replaceUnit {u : UInt16} {text : JsString} (hu : u ∉ breakPointUnits)
    (htext : text.all fun v => v ∉ breakPointUnits) (hne : text ≠ []) (s : JsString) :
    breakPointUnits <:+: replaceUnit u text s ↔ breakPointUnits <:+: s := by
  have hother : ∀ v ∈ text,v ∉ breakPointUnits := by simpa using htext
  have h := infix_written Function.injective_id (by decide)
    (written_replaceUnit hu hother hne s)
  rwa [List.map_id] at h

theorem breakPoint_escapeHtml (s : JsString) :
    breakPointUnits <:+: escapeHtml s ↔ breakPointUnits <:+: s := by
  rw [escapeHtml,breakPoint_replaceUnit,breakPoint_replaceUnit,breakPoint_replaceUnit,
    breakPoint_replaceUnit]
  all_goals decide

theorem not_breakPoint_of_no_return {s : JsString} (h : 13 ∉ s) : ¬ breakPointUnits <:+: s :=
  fun hs => h (hs.subset (by decide))

/-- A piece of the template that starts with a bracket. -/
def opens (s : JsString) : Prop := s.head? = some 60 ∧ 13 ∉ s

instance (s : JsString) : Decidable (opens s) := instDecidableAnd

theorem opens_htmlHead : opens htmlHead := by decide

theorem breakPoint_append_opens {m : JsString} (hm : opens m) (l : JsString) :
    breakPointUnits <:+: l++m ↔ breakPointUnits <:+: l := by
  cases m with
  | nil => exact absurd hm.1 (by simp)
  | cons c m =>
      obtain rfl : c = 60 := by simpa using hm.1
      have hno := not_breakPoint_of_no_return hm.2
      rw [infix_append_cons_iff (by decide) (by decide)]
      exact or_iff_left fun h => hno (h.trans (List.suffix_cons 60 m).isInfix)

/-- A text in the template between two brackets. -/
theorem breakPoint_cell {l m : JsString} (hl : opens l) (hlast : l.getLast? = some 62)
    (hm : opens m) (front s : JsString) : breakPointUnits <:+: front++l++s++m ↔
      breakPointUnits <:+: front ∨ breakPointUnits <:+: s := by
  rw [breakPoint_append_opens hm]
  obtain ⟨l,rfl⟩ : ∃ l',l = l'++[62] := by
    rw [List.getLast?_eq_some_iff] at hlast
    exact hlast
  have hfront := breakPoint_append_opens hl front
  rw [← List.append_assoc] at hfront ⊢
  rw [infix_append_cons_iff (by decide) (by decide)] at hfront
  have hempty : ¬ breakPointUnits <:+: [] := by decide
  rw [or_iff_left hempty] at hfront
  rw [List.append_assoc (front++l),List.singleton_append,
    infix_append_cons_iff (by decide) (by decide),hfront]

theorem breakPoint_htmlBody (event : Event) :
    breakPointUnits <:+: htmlBody event ↔ ¬ Unbroken event := by
  rw [htmlBody,breakPoint_cell,breakPoint_cell,breakPoint_cell,breakPoint_cell]
  · have hfirst := not_breakPoint_of_no_return opens_htmlHead.2
    simp only [breakPoint_escapeHtml,hfirst,false_or,Unbroken,List.forall_mem_cons,
      List.not_mem_nil,not_and_or,not_not]
    simp [or_assoc]
  all_goals decide

theorem breakPoint_line {line rest : JsString} (hline : 13 ∉ line) (hrest : rest.head? ≠ some 46) :
    breakPointUnits <:+: line++[13,10]++rest ↔ breakPointUnits <:+: rest := by
  induction line with
  | nil =>
      have hpoint : ¬ [46] <+: rest := by
        cases rest with
        | nil => simp
        | cons c rest => simpa [eq_comm] using hrest
      rw [List.nil_append,List.cons_append,List.cons_append,List.nil_append,List.infix_cons_iff,
        List.infix_cons_iff,breakPointUnits]
      simp [List.cons_prefix_cons,hpoint]
  | cons c line ih =>
      obtain ⟨hc,hline⟩ := not_or.mp (mt List.mem_cons.mpr hline)
      rw [List.cons_append,List.cons_append,List.infix_cons_iff,ih hline]
      refine or_iff_right fun hp => ?_
      exact hc (List.cons_prefix_cons.mp hp).1

theorem breakPoint_lines {lines : List JsString} {rest : JsString}
    (hlines : ∀ line ∈ lines,13 ∉ line ∧ line ≠ [] ∧ line.head? ≠ some 46)
    (hrest : rest.head? ≠ some 46) :
    breakPointUnits <:+: lines.flatMap (·++[13,10])++rest ↔ breakPointUnits <:+: rest := by
  induction lines with
  | nil => rfl
  | cons line lines ih =>
      have hothers := fun l hl => hlines l (List.mem_cons_of_mem line hl)
      rw [List.flatMap_cons,List.append_assoc,breakPoint_line (hlines line List.mem_cons_self).1,
        ih hothers]
      cases lines with
      | nil => exact hrest
      | cons next lines =>
          obtain ⟨c,next,rfl⟩ := List.exists_cons_of_ne_nil (hothers next List.mem_cons_self).2.1
          exact (hothers _ List.mem_cons_self).2.2

theorem bytes_break (s : JsString) : bytes (13::10::s) = 13::10::bytes s := by
  have h13 : isHigh 13 → ∀ v ∈ (10::s).head?,¬ isLow v := fun h => absurd h (by decide)
  have h10 : isHigh 10 → ∀ v ∈ s.head?,¬ isLow v := fun h => absurd h (by decide)
  rw [bytes_cons h13,bytes_cons h10]
  rfl

theorem bytes_line (line s : JsString) : bytes (line++[13,10]++s) = bytes line++crlf++bytes s := by
  have h13 : ∀ v ∈ (13::10::s).head?,¬ isLow v := by
    intro v hv
    obtain rfl := Option.some.inj hv
    decide
  rw [List.append_assoc,List.append_assoc]
  exact (bytes_append line h13).trans (by rw [bytes_break]; rfl)

theorem bytes_lines (lines : List JsString) (s : JsString) :
    bytes (lines.flatMap (·++[13,10])++s) = (lines.map bytes).flatMap (·++crlf)++bytes s := by
  induction lines with
  | nil => rfl
  | cons line lines ih =>
      rw [List.flatMap_cons,List.append_assoc,bytes_line,ih,List.map_cons,List.flatMap_cons,
        List.append_assoc,List.append_assoc]
      simp only [List.append_assoc]

section Framing
variable {envelope : SmtpTransport.Envelope}

theorem headerLines_plain (h : SmtpTransport.smtpEnvelopeIsSafe envelope = true) :
    ∀ line ∈ headerLines envelope,13 ∉ line ∧ line ≠ [] ∧ line.head? ≠ some 46 := by
  have hplain : ∀ s : JsString,(s.all fun u => !SmtpTransport.lineBreaks.contains u) = true →
      13 ∉ s := by
    intro s hs hmem
    exact absurd (List.all_eq_true.mp hs 13 hmem) (by decide)
  simp only [SmtpTransport.smtpEnvelopeIsSafe,Bool.and_eq_true] at h
  obtain ⟨⟨⟨⟨hs,_⟩,_⟩,⟨hr,_⟩,_⟩,hsub⟩ := h
  have hjoin : ∀ (l s : JsString),13 ∉ l → l.head?.any (· ≠ 46) → 13 ∉ s →
      13 ∉ l++s ∧ l++s ≠ [] ∧ (l++s).head? ≠ some 46 := by
    intro l s hl hhead hs
    cases l with
    | nil => exact absurd hhead (by simp)
    | cons c l =>
        refine ⟨fun hm => (List.mem_append.mp hm).elim hl hs,by simp,?_⟩
        simpa using hhead
  simp only [headerLines,List.forall_mem_cons]
  refine ⟨hjoin _ _ ?_ ?_ (hplain _ hs),hjoin _ _ ?_ ?_ (hplain _ hr),
    hjoin _ _ ?_ ?_ (hplain _ hsub),?_,?_,by simp⟩
  all_goals decide

/-- The data of the message, up to the end mark. -/
def dataText (envelope : SmtpTransport.Envelope) : JsString :=
  (headerLines envelope).flatMap (·++[13,10])++([13,10]++envelope.htmlBody)

theorem bytes_dataText : bytes (dataText envelope) =
    ((headerLines envelope).map bytes).flatMap (·++crlf)++crlf++bytes envelope.htmlBody := by
  rw [dataText,bytes_lines,List.append_assoc]
  exact congrArg _ (bytes_break envelope.htmlBody)

theorem messageBytes_eq (P : SmtpTransport.Platform) (options : SmtpTransport.Options) :
    messageBytes P options envelope = bytes (dataText envelope)++[13,10,46,13,10] := by
  have htext : SmtpTransport.Command.text P options envelope .message++[13,10] =
      dataText envelope++[13,10]++[46,13,10] := by
    simp only [SmtpTransport.Command.text,dataText,headerLines,List.intercalate,
      List.intersperse,List.flatten_cons,List.flatten_nil,List.flatMap_cons,List.flatMap_nil,
      List.append_assoc,List.cons_append,List.nil_append]
    rfl
  rw [messageBytes,htext,bytes_line,List.append_assoc]
  rfl

/-- Without a break and a point in the data the end mark is at the end only. -/
theorem mark_at_end {t before after : List ℕ} (ht : ¬ breakPoint <:+: t)
    (h : t++[13,10,46,13,10] = before++[13,10,46,13,10]++after) : after = [] := by
  rw [List.append_assoc] at h
  rcases List.append_eq_append_iff.mp h with ⟨m,hb,hm⟩ | ⟨m,hb,hm⟩
  · have hlen := congrArg List.length hm
    simp only [List.length_append,List.length_cons,List.length_nil] at hlen
    exact List.eq_nil_of_length_eq_zero (by omega)
  · match m,hm with
    | [],hm => simpa using hm
    | [x],hm => simp at hm
    | [x,y],hm => simp at hm
    | x::y::z::m,hm =>
        obtain ⟨rfl,rfl,rfl,_⟩ : 13 = x ∧ 10 = y ∧ 46 = z ∧ _ = _ := by simpa using hm
        exact absurd ⟨before,m,by rw [hb]; simp [breakPoint]⟩ ht

theorem head_dataText : (bytes (dataText envelope)).head? ≠ some 46 := by
  intro h
  have hpoint : ([46] : JsString).map UInt16.toNat <+: bytes (dataText envelope) := by
    cases hb : bytes (dataText envelope) with
    | nil => simp [hb] at h
    | cons c bs =>
        obtain rfl : c = 46 := by simpa [hb] using h
        exact List.cons_prefix_cons.mpr ⟨rfl,List.nil_prefix⟩
  rw [prefix_written (fun _ _ => UInt16.toNat_inj.mp) (written_bytes _)
    (by simp [breakPointUnits])] at hpoint
  have hfirst : js "From: " = 70::js "rom: " := by decide
  rw [dataText,headerLines,hfirst] at hpoint
  exact absurd (List.cons_prefix_cons.mp hpoint).1 (by decide)

/-- The server reads back what was meant exactly when the data has no break and point. -/
theorem framed_iff_data (P : SmtpTransport.Platform) (options : SmtpTransport.Options)
    (h : SmtpTransport.smtpEnvelopeIsSafe envelope = true) :
    Framed envelope (messageBytes P options envelope) ↔
      ¬ breakPoint <:+: bytes (dataText envelope) := by
  rw [messageBytes_eq]
  constructor
  · rintro ⟨hread,_⟩
    obtain ⟨⟨m,r⟩,hreceive,hmail⟩ := Option.map_eq_some_iff.mp hread
    obtain ⟨hheader,hbody,rfl⟩ := Mail.mk.inj hmail
    have hjoin := @readHeader_join [] m (by rw [hbody]; simp [crlf])
    rw [hheader,hbody,← List.append_assoc,← bytes_dataText,List.nil_append] at hjoin
    have hlen := (receive_spec hreceive).2 (by rw [hjoin]; simp [crlf])
    exact fun hbad => hlen.1 (hjoin ▸ hbad.trans (List.prefix_append _ _).isInfix)
  · intro hno
    refine ⟨?_,fun before after hw => mark_at_end hno hw⟩
    have hlines : ∀ line ∈ (headerLines envelope).map bytes,line ≠ [] ∧ 13 ∉ line := by
      intro line hline
      obtain ⟨s,hs,rfl⟩ := List.mem_map.mp hline
      obtain ⟨hreturn,hne,_⟩ := headerLines_plain h s hs
      have hmem := mem_written (fun _ _ => UInt16.toNat_inj.mp) (written_bytes s)
        (by simp [breakPointUnits] : (13 : UInt16) ∈ breakPointUnits)
      exact ⟨written_ne_nil (written_bytes s) hne,mt hmem.mp hreturn⟩
    rw [readMail,receive_text _ hno fun _ => head_dataText,Option.map_some,bytes_dataText,
      List.append_assoc,readHeader_lines _ _ hlines]

end Framing

theorem head_htmlBody (event : Event) : (htmlBody event).head? ≠ some 46 := by
  have hhead : (htmlBody event).head? = some 60 := by
    simp only [htmlBody,List.append_assoc]
    rw [List.head?_append,opens_htmlHead.1]
    rfl
  rw [hhead]
  decide

theorem breakPoint_dataText {smtpFrom : Option JsString} {event : Event} {destination : JsString}
    (h : SmtpTransport.smtpEnvelopeIsSafe (buildEmailPayload smtpFrom event destination) = true) :
    breakPoint <:+: bytes (dataText (buildEmailPayload smtpFrom event destination)) ↔
      ¬ Unbroken event := by
  rw [breakPoint_bytes,dataText,breakPoint_lines (headerLines_plain h) (by simp)]
  have hempty := @breakPoint_line [] (htmlBody event) (by simp) (head_htmlBody event)
  exact hempty.trans (breakPoint_htmlBody event)

theorem foldBreaks_plain (s : JsString) :
    ∀ u ∈ foldBreaks s,SmtpTransport.lineBreaks.contains u = false := by
  fun_induction foldBreaks s with
  | case1 => simp
  | case2 u hu => simp [SmtpTransport.lineBreaks]
  | case3 u hu => simpa using hu
  | case4 u v us hu ih => simpa using ⟨by simpa using hu,by simpa using ih⟩
  | case5 u v us hu hv ih => exact ih
  | case6 u v us hu hv ih =>
      intro w hw
      rcases List.mem_cons.mp hw with rfl | hw
      · decide
      · exact ih w hw

/-- Folding leaves no break in the subject, so only the addresses can be refused. -/
theorem safe_any_subject (smtpFrom : Option JsString) (event : Event) (destination : JsString) :
    SmtpTransport.smtpEnvelopeIsSafe (buildEmailPayload smtpFrom event destination) =
      SmtpTransport.smtpEnvelopeIsSafe
        { buildEmailPayload smtpFrom event destination with subject := [] } := by
  have hlead : ((js "[AstraNull] ").all fun u => !SmtpTransport.lineBreaks.contains u) = true := by
    decide
  have hsubject : ((js "[AstraNull] "++foldBreaks event.subject).all fun u =>
      !SmtpTransport.lineBreaks.contains u) = true := by
    rw [List.all_append,hlead,Bool.true_and,List.all_eq_true]
    exact fun u hu => by rw [foldBreaks_plain event.subject u hu]; rfl
  simp only [SmtpTransport.smtpEnvelopeIsSafe,buildEmailPayload,hsubject,List.all_nil]

/-- The message is framed as intended exactly when no text of the event has a line break with a
point behind it. -/
theorem framed_iff_unbroken (P : SmtpTransport.Platform) (options : SmtpTransport.Options)
    (smtpFrom : Option JsString) (event : Event) (destination : JsString)
    (h : SmtpTransport.smtpEnvelopeIsSafe (buildEmailPayload smtpFrom event destination) = true) :
    Framed (buildEmailPayload smtpFrom event destination)
        (messageBytes P options (buildEmailPayload smtpFrom event destination)) ↔
      Unbroken event :=
  (framed_iff_data P options h).trans ((not_congr (breakPoint_dataText h)).trans not_not)

def plainPlatform : SmtpTransport.Platform where
  decode bs := bs.map fun b => UInt16.ofNat b.toNat
  toUpperCase s := s.map fun u => if 97 ≤ u.toNat ∧ u.toNat ≤ 122 then u-32 else u
  base64 s := s

def relayOptions : SmtpTransport.Options := ⟨js "smtp.example.test",false,[],[]⟩

def noteEvent (note : JsString) : Event where
  trigger := js "finding.opened"
  subject := js "Finding opened"
  metadata := [(js "note",.str note)]
  createdAt := js "2026-01-05T10:00:00.000Z"

theorem two_line_note_framed :
    Unbroken (noteEvent (js "first line\r\nsecond line.")) ∧
      Framed (buildEmailPayload none (noteEvent (js "first line\r\nsecond line."))
        (js "ops@example.test")) (messageBytes plainPlatform relayOptions
          (buildEmailPayload none (noteEvent (js "first line\r\nsecond line."))
            (js "ops@example.test"))) :=
  ⟨by decide,(framed_iff_unbroken plainPlatform relayOptions none _ _
    (by decide)).mpr (by decide)⟩

/-- A note with a single point on a line ends the message, and what follows is read as
commands. -/
theorem note_ends_message :
    ¬ ∀ (P : SmtpTransport.Platform) (options : SmtpTransport.Options)
        (smtpFrom : Option JsString) (event : Event) (destination : JsString),
        SmtpTransport.smtpEnvelopeIsSafe (buildEmailPayload smtpFrom event destination) = true →
        Framed (buildEmailPayload smtpFrom event destination)
          (messageBytes P options (buildEmailPayload smtpFrom event destination)) := by
  intro hall
  have hsafe : SmtpTransport.smtpEnvelopeIsSafe (buildEmailPayload none
      (noteEvent (js "done\r\n.\r\nRSET")) (js "ops@example.test")) = true := by decide
  have hframed := (framed_iff_data plainPlatform relayOptions hsafe).mp
    (hall plainPlatform relayOptions none _ _ hsafe)
  have hbroken : ¬ Unbroken (noteEvent (js "done\r\n.\r\nRSET")) := by decide
  exact hframed ((breakPoint_dataText hsafe).mpr hbroken)

end AstraNull.MailFraming

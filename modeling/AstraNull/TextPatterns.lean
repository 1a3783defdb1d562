import Mathlib

/-!
# Patterns over texts

A pattern is a sequence of pieces, each a run of elements of one class with a least length, exact
or open. The matcher takes the longest run first and goes back from there. It finds a word of the
pattern at the front of a text exactly when there is one, so that replacing all matches leaves
none, as long as what is put in their place keeps apart from the words.
-/
namespace AstraNull.TextPatterns

variable {α : Type}

structure Piece (α : Type) where
  accepts : α → Bool
  least : ℕ
  more : Bool

/-- The words of a piece. -/
def Piece.Takes (p : Piece α) (w : List α) : Prop :=
  (∀ a ∈ w,p.accepts a = true) ∧ p.least ≤ w.length ∧ (p.more = false → w.length = p.least)

/-- The words of a pattern. -/
def Matches : List (Piece α) → List α → Prop
  | [],w => w = []
  | p::ps,w => ∃ x y,w = x++y ∧ p.Takes x ∧ Matches ps y

/-- The lengths to try, the longest first. -/
def Piece.lengths (p : Piece α) (s : List α) : List ℕ :=
  let longest := (s.takeWhile p.accepts).length
  if longest < p.least then []
  else if p.more then (List.range (longest+1-p.least)).reverse.map (p.least+·)
  else [p.least]

/-- The length of the match at the front of a text. -/
def matchLength : List (Piece α) → List α → Option ℕ
  | [],_ => some 0
  | p::ps,s => (p.lengths s).findSome? fun k => (matchLength ps (s.drop k)).map (k+·)

theorem mem_lengths {p : Piece α} {s : List α} {k : ℕ} :
    k ∈ p.lengths s ↔ k ≤ s.length ∧ p.Takes (s.take k) := by
  have hall : ∀ n,(∀ a ∈ s.take n,p.accepts a = true) ↔
      min n s.length ≤ (s.takeWhile p.accepts).length := by
    intro n
    constructor
    · intro h
      have hstart : s.take n <+: s.takeWhile p.accepts := by
        rw [← List.take_append_drop n s,List.takeWhile_append_of_pos h]
        simp
      simpa using hstart.length_le
    · intro h a ha
      have hle : (s.take n).length ≤ (s.takeWhile p.accepts).length := by simpa using h
      have hstart : s.take n <+: s.takeWhile p.accepts :=
        List.prefix_of_prefix_length_le (List.take_prefix n s) (List.takeWhile_prefix _) hle
      exact List.mem_takeWhile_imp (hstart.subset ha)
  have hlongest : (s.takeWhile p.accepts).length ≤ s.length :=
    (List.takeWhile_prefix _).length_le
  rw [Piece.lengths,Piece.Takes,hall,List.length_take]
  split_ifs with hshort hmore
  · simp only [List.not_mem_nil,false_iff]
    omega
  · simp only [List.mem_map,List.mem_reverse,List.mem_range,hmore]
    constructor
    · rintro ⟨i,hi,rfl⟩
      refine ⟨by omega,by omega,by omega,fun h => absurd h (by simp)⟩
    · rintro ⟨hk,hmin,hleast,-⟩
      exact ⟨k-p.least,by omega,by omega⟩
  · simp only [List.mem_singleton,hmore]
    constructor
    · rintro rfl
      refine ⟨by omega,by omega,by omega,fun _ => by omega⟩
    · rintro ⟨hk,-,-,hexact⟩
      have := hexact (by simp)
      omega

theorem matchLength_sound {ps : List (Piece α)} {s : List α} {n : ℕ}
    (h : matchLength ps s = some n) : n ≤ s.length ∧ Matches ps (s.take n) := by
  induction ps generalizing s n with
  | nil =>
      rw [matchLength] at h
      cases h
      exact ⟨Nat.zero_le _,rfl⟩
  | cons p ps ih =>
      rw [matchLength] at h
      obtain ⟨k,hk,hrest⟩ := List.exists_of_findSome?_eq_some h
      obtain ⟨m,hm,rfl⟩ := Option.map_eq_some_iff.mp hrest
      obtain ⟨hlength,htakes⟩ := mem_lengths.mp hk
      obtain ⟨hm',hmatches⟩ := ih hm
      rw [List.length_drop] at hm'
      refine ⟨by omega,s.take k,(s.drop k).take m,?_,htakes,hmatches⟩
      rw [List.take_add]

theorem matchLength_complete {ps : List (Piece α)} {s w : List α} (h : Matches ps w)
    (hs : w <+: s) : (matchLength ps s).isSome = true := by
  induction ps generalizing s w with
  | nil => rfl
  | cons p ps ih =>
      obtain ⟨x,y,rfl,htakes,hrest⟩ := h
      obtain ⟨z,rfl⟩ := hs
      rw [matchLength,List.findSome?_isSome_iff]
      have hk : x.length ∈ p.lengths (x++y++z) := by
        rw [mem_lengths,List.append_assoc,List.take_left]
        exact ⟨by simp,htakes⟩
      refine ⟨x.length,hk,?_⟩
      rw [Option.isSome_map,List.append_assoc,List.drop_left]
      exact ih hrest (List.prefix_append y z)

/-- No word of the pattern stands in the text. -/
def Free (ps : List (Piece α)) (s : List α) : Prop := ∀ w,Matches ps w → ¬ w <:+: s

theorem free_iff_tails {ps : List (Piece α)} {s : List α} :
    Free ps s ↔ ∀ t ∈ s.tails,matchLength ps t = none := by
  constructor
  · intro h t ht
    by_contra hmatch
    obtain ⟨n,hn⟩ := Option.ne_none_iff_exists'.mp hmatch
    have hword := (matchLength_sound hn).2
    exact h _ hword ((List.take_prefix n t).isInfix.trans ((List.mem_tails _ _).mp ht).isInfix)
  · intro h w hw hpart
    obtain ⟨a,b,rfl⟩ := hpart
    have hsuffix : w++b ∈ (a++w++b).tails := by
      rw [List.mem_tails,List.append_assoc]
      exact List.suffix_append a _
    have := matchLength_complete hw (List.prefix_append w b)
    rw [h _ hsuffix] at this
    cases this

instance (ps : List (Piece α)) (s : List α) : Decidable (Free ps s) :=
  decidable_of_iff _ free_iff_tails.symm

/-- Every match, from left to right, makes way for the replacement. Patterns with an empty word
are not replaced. -/
def replaceAll (ps : List (Piece α)) (replacement : List α) : List α → List α
  | [] => []
  | a::s =>
      match matchLength ps (a::s) with
      | some (n+1) => replacement++replaceAll ps replacement (s.drop n)
      | _ => a::replaceAll ps replacement s
termination_by s => s.length
decreasing_by
  · simp only [List.length_drop,List.length_cons]
    omega
  · simp

theorem replaceAll_of_free {ps : List (Piece α)} (replacement : List α) {s : List α}
    (h : Free ps s) : replaceAll ps replacement s = s := by
  induction s with
  | nil => rw [replaceAll]
  | cons a s ih =>
      have hnone : matchLength ps (a::s) = none :=
        free_iff_tails.mp h (a::s) ((List.mem_tails _ _).mpr (List.suffix_refl _))
      have hrest : Free ps s :=
        fun w hw hpart => h w hw (hpart.trans (List.suffix_cons a s).isInfix)
      rw [replaceAll,hnone]
      dsimp only
      rw [ih hrest]

section
variable {ps : List (Piece α)} {mark stop : α} {label : List α}

/-- Behind the replacement, which begins with a mark, a word starts as it did before. -/
theorem prefix_replaceAll {w s : List α} (hw : mark ∉ w)
    (h : w <+: replaceAll ps (mark::label) s) : w <+: s := by
  induction s generalizing w with
  | nil =>
      rw [replaceAll] at h
      exact h
  | cons a s ih =>
      cases w with
      | nil => exact List.nil_prefix
      | cons c w =>
          rw [replaceAll] at h
          split at h
          · rw [List.cons_append,List.cons_prefix_cons] at h
            exact absurd (h.1 ▸ List.mem_cons_self) hw
          · rw [List.cons_prefix_cons] at h ⊢
            exact ⟨h.1,ih (fun hmem => hw (List.mem_cons_of_mem c hmem)) h.2⟩

/-- A word without the two marks lies in one part. -/
theorem infix_of_marked {w rest : List α} (hmark : mark ∉ w) (hstop : stop ∉ w) (hne : w ≠ [])
    (h : w <:+: mark::(label++stop::rest)) : w <:+: label ∨ w <:+: rest := by
  have hafter : ∀ {c : α} {l : List α},c ∉ w → w <:+: c::l → w <:+: l := by
    intro c l hc hpart
    rcases List.infix_cons_iff.mp hpart with hstart | hpart
    · obtain ⟨d,w',rfl⟩ := List.exists_cons_of_ne_nil hne
      rw [List.cons_prefix_cons] at hstart
      exact absurd (hstart.1 ▸ List.mem_cons_self) hc
    · exact hpart
  have hbody := hafter hmark h
  clear h
  induction label with
  | nil => exact .inr (hafter hstop hbody)
  | cons c label ih =>
      rw [List.cons_append,List.infix_cons_iff] at hbody
      rcases hbody with hstart | hpart
      · left
        have hmarked : (c::label)++[stop] <+: c::(label++stop::rest) := ⟨rest,by simp⟩
        rcases List.prefix_or_prefix_of_prefix hstart hmarked with hfront | hfront
        · rcases List.prefix_concat_iff.mp hfront with rfl | hfront
          · exact absurd (by simp) hstop
          · exact hfront.isInfix
        · exact absurd (hfront.subset (by simp)) hstop
      · exact (ih hpart).imp_left fun hin => hin.trans (List.suffix_cons c label).isInfix

/-- What stands in the result, apart from the marks, stands in the label or stood in the text; and
a word of the pattern stands in the label only. -/
theorem infix_replaceAll (hempty : ¬ Matches ps []) {w s : List α} (hmark : mark ∉ w)
    (hstop : stop ∉ w) (hne : w ≠ [])
    (h : w <:+: replaceAll ps (mark::(label++[stop])) s) :
    w <:+: label ∨ (w <:+: s ∧ ¬ Matches ps w) := by
  induction hlength : s.length using Nat.strong_induction_on generalizing s with
  | _ n ih =>
      subst hlength
      cases s with
      | nil =>
          rw [replaceAll,List.infix_nil] at h
          exact absurd h hne
      | cons a s =>
          have hfull := h
          rw [replaceAll] at h
          split at h
          · rename_i n hmatch
            rw [List.cons_append,List.append_assoc,List.singleton_append] at h
            rcases infix_of_marked hmark hstop hne h with hlabel | hrest
            · exact .inl hlabel
            · have hsuffix : s.drop n <:+ a::s :=
                (List.drop_suffix n s).trans (List.suffix_cons a s)
              refine (ih (s.drop n).length (by simp only [List.length_drop,List.length_cons]; omega)
                hrest rfl).imp_right ?_
              exact fun hin => ⟨hin.1.trans hsuffix.isInfix,hin.2⟩
          · rename_i hmatch
            rcases List.infix_cons_iff.mp h with hstart | hrest
            · have hfront : w <+: a::s := by
                apply prefix_replaceAll hmark
                rw [replaceAll]
                split
                · rename_i n hsome
                  exact absurd hsome (hmatch n)
                · exact hstart
              refine .inr ⟨hfront.isInfix,?_⟩
              intro hword
              obtain ⟨k,hk⟩ := Option.isSome_iff_exists.mp (matchLength_complete hword hfront)
              cases k with
              | zero => exact hempty (matchLength_sound hk).2
              | succ k => exact hmatch k hk
            · refine (ih s.length (by simp) hrest rfl).imp_right ?_
              exact fun hin => ⟨hin.1.trans (List.suffix_cons a s).isInfix,hin.2⟩

/-- The pattern has no empty word, none with a mark and none in the label. -/
structure Apart (mark stop : α) (label : List α) (ps : List (Piece α)) : Prop where
  word : ∀ w,Matches ps w → w ≠ [] ∧ mark ∉ w ∧ stop ∉ w
  label : Free ps label

theorem Apart.free_self (h : Apart mark stop label ps) (s : List α) :
    Free ps (replaceAll ps (mark::(label++[stop])) s) := by
  intro w hw hpart
  have hword := h.word w hw
  have hempty : ¬ Matches ps [] := fun hnil => (h.word [] hnil).1 rfl
  rcases infix_replaceAll hempty hword.2.1 hword.2.2 hword.1 hpart with hlabel | hrest
  · exact h.label w hw hlabel
  · exact hrest.2 hw

theorem Apart.free_other {qs : List (Piece α)} (h : Apart mark stop label ps)
    (hq : Apart mark stop label qs) {s : List α} (hs : Free qs s) :
    Free qs (replaceAll ps (mark::(label++[stop])) s) := by
  intro w hw hpart
  have hword := hq.word w hw
  have hempty : ¬ Matches ps [] := fun hnil => (h.word [] hnil).1 rfl
  rcases infix_replaceAll hempty hword.2.1 hword.2.2 hword.1 hpart with hlabel | hrest
  · exact hq.label w hw hlabel
  · exact hs w hw hrest.1

/-- One pattern after the other. -/
def replaceEach (patterns : List (List (Piece α))) (replacement s : List α) : List α :=
  patterns.foldl (fun out ps => replaceAll ps replacement out) s

/-- Nothing that one of the patterns would replace is left, in any order. -/
theorem free_replaceEach {patterns : List (List (Piece α))}
    (h : ∀ ps ∈ patterns,Apart mark stop label ps) (s : List α) :
    ∀ ps ∈ patterns,Free ps (replaceEach patterns (mark::(label++[stop])) s) := by
  have hrun : ∀ (later earlier : List (List (Piece α))) (out : List α),
      (∀ ps ∈ later,Apart mark stop label ps) →
      (∀ ps ∈ earlier,Apart mark stop label ps ∧ Free ps out) →
      ∀ ps ∈ earlier++later,Free ps (replaceEach later (mark::(label++[stop])) out) := by
    intro later
    induction later with
    | nil =>
        intro earlier out _ hearlier ps hps
        rw [List.append_nil] at hps
        exact (hearlier ps hps).2
    | cons q later ih =>
        intro earlier out hlater hearlier ps hps
        rw [List.forall_mem_cons] at hlater
        refine ih (earlier++[q]) _ hlater.2 ?_ ps (by simpa using hps)
        intro r hr
        rcases List.mem_append.mp hr with hr | hr
        · exact ⟨(hearlier r hr).1,hlater.1.free_other (hearlier r hr).1 (hearlier r hr).2⟩
        · rw [List.mem_singleton.mp hr]
          exact ⟨hlater.1,hlater.1.free_self out⟩
  exact hrun patterns [] s h (by simp)

theorem replaceEach_of_free {patterns : List (List (Piece α))} (replacement : List α) {s : List α}
    (h : ∀ ps ∈ patterns,Free ps s) : replaceEach patterns replacement s = s := by
  induction patterns with
  | nil => rfl
  | cons ps patterns ih =>
      rw [List.forall_mem_cons] at h
      rw [replaceEach,List.foldl_cons,replaceAll_of_free replacement h.1]
      exact ih h.2

/-- Pieces that accept no mark make words without it. -/
theorem notMem_of_matches {a : α} (h : ∀ p ∈ ps,p.accepts a = false) {w : List α}
    (hw : Matches ps w) : a ∉ w := by
  induction ps generalizing w with
  | nil =>
      rw [Matches] at hw
      simp [hw]
  | cons p ps ih =>
      rw [List.forall_mem_cons] at h
      obtain ⟨x,y,rfl,htakes,hrest⟩ := hw
      rw [List.mem_append,not_or]
      refine ⟨?_,ih h.2 hrest⟩
      intro hmem
      exact absurd (htakes.1 a hmem) (by simp [h.1])

theorem ne_nil_of_matches (h : ∃ p ∈ ps,0 < p.least) {w : List α} (hw : Matches ps w) :
    w ≠ [] := by
  rintro rfl
  induction ps with
  | nil =>
      obtain ⟨p,hp,-⟩ := h
      cases hp
  | cons q ps ih =>
      obtain ⟨x,y,hxy,htakes,hrest⟩ := hw
      obtain ⟨rfl,rfl⟩ := List.append_eq_nil_iff.mp hxy.symm
      obtain ⟨p,hp,hleast⟩ := h
      rcases List.mem_cons.mp hp with rfl | hp
      · have := htakes.2.1
        simp only [List.length_nil] at this
        omega
      · exact ih ⟨p,hp,hleast⟩ hrest

end

end AstraNull.TextPatterns

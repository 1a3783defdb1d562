import Mathlib

/-!
# Runs of a labelled step relation

A run records its events in the order in which they happened. The rules here turn
facts about one step into facts about whole histories: an invariant of history and
state, an event that silences another one for the rest of the run, and an event that
happens at most once.
-/
namespace AstraNull.Runs

section
variable {σ ε : Type*}

/-- A run from a state, with its history, oldest event first. -/
inductive Run (Step : σ → ε → σ → Prop) (s : σ) : List ε → σ → Prop
  | start : Run Step s [] s
  | step {h : List ε} {t u : σ} {e : ε} :
      Run Step s h t → Step t e u → Run Step s (h++[e]) u

variable {Step : σ → ε → σ → Prop} {s t u : σ}

/-- What holds at the start and is kept by every step holds after every run. -/
theorem Run.invariant {I : List ε → σ → Prop} (hstart : I [] s)
    (hstep : ∀ h t e u,I h t → Step t e u → I (h++[e]) u) {h : List ε} (hr : Run Step s h t) :
    I h t := by
  induction hr with
  | start => exact hstart
  | step hr hs ih => exact hstep _ _ _ _ ih hs

theorem Run.cons {h : List ε} {e : ε} (hs : Step s e t) (hr : Run Step t h u) :
    Run Step s (e::h) u := by
  induction hr with
  | start => exact .step (h := []) .start hs
  | step _ hstep ih => exact .step ih hstep

theorem Run.append {h k : List ε} (hr : Run Step s h t) (hk : Run Step t k u) :
    Run Step s (h++k) u := by
  induction hk with
  | start =>
      rw [List.append_nil]
      exact hr
  | step _ hs ih =>
      rw [← List.append_assoc]
      exact .step ih hs

/-- A history that is cut in two belongs to two runs. -/
theorem Run.split {h k : List ε} (hr : Run Step s (h++k) u) :
    ∃ t,Run Step s h t ∧ Run Step t k u := by
  induction k using List.reverseRecOn generalizing u with
  | nil =>
      rw [List.append_nil] at hr
      exact ⟨u,hr,.start⟩
  | append_singleton k e ih =>
      rw [← List.append_assoc] at hr
      generalize hw : h++k++[e] = w at hr
      cases hr with
      | start => simp at hw
      | step hr hs =>
          obtain ⟨rfl,he⟩ := List.append_inj' hw rfl
          cases List.singleton_inj.mp he
          obtain ⟨t,hr,hk⟩ := ih hr
          exact ⟨t,hr,.step hk hs⟩

theorem Run.head {e : ε} {k : List ε} (hr : Run Step s (e::k) u) :
    ∃ t,Step s e t ∧ Run Step t k u := by
  obtain ⟨t,he,hk⟩ := Run.split (h := [e]) hr
  generalize hw : [e] = w at he
  cases he with
  | start => cases hw
  | step hr hs =>
      have hw' : []++[e] = _++[_] := hw
      obtain ⟨rfl,he⟩ := List.append_inj' hw' rfl
      cases List.singleton_inj.mp he
      generalize hn : ([] : List ε) = n at hr
      cases hr with
      | start => exact ⟨t,hs,hk⟩
      | step _ _ => simp at hn

variable {ι : Type*}

/-- The events and the last state of a step function on a list of inputs. -/
def follow (f : σ → ι → σ × ε) : σ → List ι → List ε × σ
  | s,[] => ([],s)
  | s,i::is => ((f s i).2::(follow f (f s i).1 is).1,(follow f (f s i).1 is).2)

/-- Every input is taken in a state in which it may be. -/
def Follows (f : σ → ι → σ × ε) (allowed : σ → ι → Prop) : σ → List ι → Prop
  | _,[] => True
  | s,i::is => allowed s i ∧ Follows f allowed (f s i).1 is

theorem run_follow {f : σ → ι → σ × ε} {allowed : σ → ι → Prop}
    (hstep : ∀ s i,allowed s i → Step s (f s i).2 (f s i).1) {s : σ} {is : List ι}
    (h : Follows f allowed s is) : Run Step s (follow f s is).1 (follow f s is).2 := by
  induction is generalizing s with
  | nil => exact .start
  | cons i is ih => exact .cons (hstep s i h.1) (ih h.2)

/-- Every step keeps the property of states. -/
def Preserved (Step : σ → ε → σ → Prop) (I : σ → Prop) : Prop :=
  ∀ t e u,I t → Step t e u → I u

theorem Preserved.run {I : σ → Prop} (hI : Preserved Step I) (hs : I s) {h : List ε}
    (hr : Run Step s h t) : I t :=
  hr.invariant (I := fun _ t => I t) hs fun _ => hI

/-- From a silent state on, no step emits the event, in states with the invariant. -/
structure Silences (Step : σ → ε → σ → Prop) (I : σ → Prop) (P : ε → Prop) (B : σ → Prop) :
    Prop where
  kept : ∀ t e u,I t → B t → Step t e u → B u
  quiet : ∀ t e u,I t → B t → Step t e u → ¬ P e

variable {P Q : ε → Prop} {I B : σ → Prop}

theorem Silences.run (hI : Preserved Step I) (hB : Silences Step I P B) (hi : I s) (hs : B s)
    {h : List ε} (hr : Run Step s h t) : (I t ∧ B t) ∧ ∀ e ∈ h,¬ P e := by
  induction hr with
  | start => exact ⟨⟨hi,hs⟩,by simp⟩
  | step hr hstep ih =>
      obtain ⟨⟨hi,hb⟩,hq⟩ := ih
      constructor
      · exact ⟨hI _ _ _ hi hstep,hB.kept _ _ _ hi hb hstep⟩
      · intro e he
        rcases List.mem_append.mp he with he | he
        · exact hq e he
        · cases List.mem_singleton.mp he
          exact hB.quiet _ _ _ hi hb hstep

/-- An event that leads to a silent state is followed by none of the silenced ones. -/
theorem Silences.never_after (hI : Preserved Step I) (hB : Silences Step I P B)
    (hQ : ∀ t e u,I t → Step t e u → Q e → B u) (hi : I s) {h k : List ε} {e : ε} (he : Q e)
    (hr : Run Step s (h++e::k) u) : ∀ e ∈ k,¬ P e := by
  obtain ⟨t,hh,hr⟩ := hr.split
  obtain ⟨v,hs,hr⟩ := hr.head
  have ht : I t := hI.run hi hh
  exact (hB.run hI (hI _ _ _ ht hs) (hQ _ _ _ ht hs he) hr).2

/-- An event that silences itself happens at most once. -/
theorem Silences.at_most_once [DecidablePred P] (hI : Preserved Step I)
    (hB : Silences Step I P B) (hP : ∀ t e u,I t → Step t e u → P e → B u) (hi : I s)
    {h : List ε} (hr : Run Step s h u) : (h.filter fun e => P e).length ≤ 1 := by
  have hinv : (h.filter fun e => P e).length ≤ 1 ∧
      ((h.filter fun e => P e) = [] ∨ B u) ∧ I u := by
    refine hr.invariant (I := fun h t => (h.filter fun e => P e).length ≤ 1 ∧
      ((h.filter fun e => P e) = [] ∨ B t) ∧ I t) ⟨by simp,Or.inl rfl,hi⟩ ?_
    rintro h t e v ⟨hle,hor,ht⟩ hs
    rw [List.filter_append]
    by_cases he : P e
    · have hnil : h.filter (fun e => P e) = [] := by
        rcases hor with hnil | hb
        · exact hnil
        · exact absurd he (hB.quiet _ _ _ ht hb hs)
      exact ⟨by simp [hnil,he],Or.inr (hP _ _ _ ht hs he),hI _ _ _ ht hs⟩
    · have hsame : [e].filter (fun e => P e) = [] := by simp [he]
      rw [hsame,List.append_nil]
      exact ⟨hle,hor.imp_right fun hb => hB.kept _ _ _ ht hb hs,hI _ _ _ ht hs⟩
  exact hinv.1

end

end AstraNull.Runs

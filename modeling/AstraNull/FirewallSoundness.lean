import Mathlib
import AstraNull.FirewallChange

/-!
# What a firewall classification says about the samples

The states of the two sides are read back as statements about the tested samples, so that a
reported gap and a met expectation say which samples there were. The evidence of a side does not
depend on the order of its records, and it is kept by the stored encoding.
-/
namespace AstraNull.FirewallSoundness
open JsonText ScriptValue FirewallObservations FirewallChange

def sampleClass (obs : Observation) : Option ObservationClass := classOf obs.observationClass

/-- The aggregate of a side. -/
def aggregateOf (observations : List Observation) : Aggregate :=
  aggregateFirewallSamples (sideClasses observations)

theorem tested_classes (observations : List Observation) :
    (sideClasses observations).filter (· ≠ .notTested) =
      (testedObservations observations).filterMap sampleClass := by
  induction observations with
  | nil => rfl
  | cons obs observations ih =>
      have hside : sideClasses (obs::observations) =
          (sampleClass (currentObservation obs)).toList++sideClasses observations := by
        cases h : classOf (currentObservation obs).observationClass <;>
          simp [sideClasses,currentObservations,sampleClass,h]
      rw [hside,List.filter_append,ih]
      cases h : classOf (currentObservation obs).observationClass with
      | none => simp [testedObservations,currentObservations,sampleClass,isTested,h]
      | some c =>
          by_cases hc : c = .notTested <;>
            simp [testedObservations,currentObservations,sampleClass,isTested,h,hc]

/-- Every tested record has a class. -/
theorem tested_class {observations : List Observation} {obs : Observation}
    (h : obs ∈ testedObservations observations) :
    ∃ c,sampleClass obs = some c ∧ c ≠ .notTested := by
  have ht : isTested obs = true := (List.mem_filter.mp h).2
  unfold isTested at ht
  cases hc : classOf obs.observationClass with
  | none => simp [hc] at ht
  | some c => exact ⟨c,hc,by simpa [hc] using ht⟩

theorem length_filterMap_class {observations : List Observation}
    (h : ∀ obs ∈ observations,∃ c,sampleClass obs = some c ∧ c ≠ .notTested) :
    (observations.filterMap sampleClass).length = observations.length := by
  induction observations with
  | nil => rfl
  | cons obs observations ih =>
      obtain ⟨c,hc,_⟩ := h obs List.mem_cons_self
      rw [List.filterMap_cons_some hc,List.length_cons,List.length_cons,
        ih fun o ho => h o (List.mem_cons_of_mem _ ho)]

theorem mem_sortedClasses {c : ObservationClass} : c ∈ sortedClasses ↔ c ≠ .notTested := by
  cases c <;> decide

section Aggregate
variable {observations : List Observation}

theorem aggregate_empty (h : testedObservations observations = []) :
    aggregateOf observations = ⟨.notTested,0,[]⟩ := by
  simp only [aggregateOf,aggregateFirewallSamples,tested_classes,h,List.filterMap_nil,if_true]

theorem aggregate_tested (h : testedObservations observations ≠ []) :
    aggregateOf observations =
      let classes := sortedClasses.filter
        (· ∈ (testedObservations observations).filterMap sampleClass)
      ⟨observedOf classes,(testedObservations observations).length,classes⟩ := by
  have hlen := length_filterMap_class fun obs h => @tested_class observations obs h
  have hne : (testedObservations observations).filterMap sampleClass ≠ [] := by
    intro hnil
    rw [hnil] at hlen
    exact h (List.eq_nil_of_length_eq_zero hlen.symm)
  simp only [aggregateOf,aggregateFirewallSamples,tested_classes,if_neg hne,hlen]

theorem aggregate_samples :
    (aggregateOf observations).samples = (testedObservations observations).length := by
  by_cases h : testedObservations observations = []
  · rw [aggregate_empty h,h]
    rfl
  · rw [aggregate_tested h]

theorem mem_classes {c : ObservationClass} :
    c ∈ (aggregateOf observations).classes ↔
      ∃ obs ∈ testedObservations observations,sampleClass obs = some c := by
  by_cases h : testedObservations observations = []
  · simp [aggregate_empty h,h]
  · simp only [aggregate_tested h,List.mem_filter,mem_sortedClasses,decide_eq_true_eq,
      List.mem_filterMap]
    constructor
    · exact fun h => h.2
    · rintro ⟨obs,hobs,hc⟩
      obtain ⟨d,hd,hne⟩ := tested_class hobs
      rw [hc] at hd
      cases hd
      exact ⟨hne,obs,hobs,hc⟩

theorem observedOf_uniform {classes : List ObservationClass} {c : ObservationClass}
    (h : observedOf classes = .uniform c) : classes = [c] := by
  unfold observedOf at h
  split at h <;> simp_all

theorem aggregate_uniform {c : ObservationClass}
    (h : (aggregateOf observations).observation = .uniform c) :
    ∀ obs ∈ testedObservations observations,sampleClass obs = some c := by
  intro obs hobs
  have hne : testedObservations observations ≠ [] := List.ne_nil_of_mem hobs
  obtain ⟨d,hd,_⟩ := tested_class hobs
  have hmem : d ∈ (aggregateOf observations).classes := mem_classes.mpr ⟨obs,hobs,hd⟩
  rw [aggregate_tested hne] at h hmem
  dsimp only at h hmem
  rw [observedOf_uniform h,List.mem_singleton] at hmem
  rw [hd,hmem]

end Aggregate

/-- A record that reached the service or its port. -/
def Reachable (obs : Observation) : Prop := isReachable (sampleClass obs) = true

/-- Only a deny expectation looks at the samples again. -/
theorem observed_allow (a : Aggregate) :
    firewallObservedSideState .allow a = firewallSideState .allow a := by
  have hdeny : Expected.allow ≠ .deny := by decide
  rw [firewallObservedSideState,if_neg (fun h => hdeny h.1),if_pos (Or.inl hdeny)]

section States
variable {observations : List Observation}

theorem deny_violated (h : firewallObservedSideState .deny (aggregateOf observations) = .violated) :
    ∃ obs ∈ testedObservations observations,Reachable obs := by
  have hany : ((aggregateOf observations).classes.any fun c => isReachable (some c)) = true := by
    unfold firewallObservedSideState firewallSideState at h
    cases ho : (aggregateOf observations).observation <;> simp only [ho] at h <;>
      split_ifs at h <;> simp_all
  obtain ⟨c,hc,hr⟩ := List.any_eq_true.mp hany
  obtain ⟨obs,hobs,hcls⟩ := mem_classes.mp hc
  exact ⟨obs,hobs,by rw [Reachable,hcls]; exact hr⟩

/-- A side that satisfies a deny expectation, or is silent, was sampled twice and never
reached. -/
theorem deny_quiet {a : Aggregate}
    (h : firewallObservedSideState .deny a = .satisfied ∨
      firewallObservedSideState .deny a = .notObserved) :
    2 ≤ a.samples ∧ (a.classes.any fun c => isReachable (some c)) = false := by
  by_cases hr : (a.classes.any fun c => isReachable (some c)) = true
  · exfalso
    cases ho : a.observation <;>
      simp [firewallObservedSideState,firewallSideState,ho,hr] at h
  · refine ⟨?_,by simpa using hr⟩
    by_contra hs
    cases ho : a.observation with
    | notTested =>
        simp [firewallObservedSideState,firewallSideState,ho] at h
    | _ =>
        simp only [firewallObservedSideState,firewallSideState,ho,minSamplesForUnavailability,
          if_neg hr,hs,and_false,if_false] at h
        split_ifs at h <;> simp_all

theorem deny_not_reachable
    (h : firewallObservedSideState .deny (aggregateOf observations) = .satisfied ∨
      firewallObservedSideState .deny (aggregateOf observations) = .notObserved) :
    2 ≤ (testedObservations observations).length ∧
      ∀ obs ∈ testedObservations observations,¬ Reachable obs := by
  obtain ⟨hsamples,hclasses⟩ := deny_quiet h
  refine ⟨aggregate_samples ▸ hsamples,?_⟩
  intro obs hobs hr
  obtain ⟨c,hc,_⟩ := tested_class hobs
  have hmem : c ∈ (aggregateOf observations).classes := mem_classes.mpr ⟨obs,hobs,hc⟩
  rw [Reachable,hc] at hr
  exact List.any_eq_false.mp hclasses c hmem hr

theorem allow_satisfied
    (h : firewallObservedSideState .allow (aggregateOf observations) = .satisfied) :
    ∀ obs ∈ testedObservations observations,sampleClass obs = some .serviceResponseObserved := by
  apply aggregate_uniform
  rw [observed_allow,firewallSideState] at h
  split at h
  · cases h
  · dsimp only at h
    split_ifs at h with hservice hdenied hquiet hsamples
    exact hservice

theorem allow_not_reachable
    (h : firewallObservedSideState .allow (aggregateOf observations) = .violated ∨
      firewallObservedSideState .allow (aggregateOf observations) = .notObserved) :
    ∀ obs ∈ testedObservations observations,¬ Reachable obs := by
  have huniform : ∃ c,(aggregateOf observations).observation = .uniform c ∧
      isReachable (some c) = false := by
    cases ho : (aggregateOf observations).observation with
    | notTested => simp [firewallObservedSideState,firewallSideState,ho] at h
    | mixed => simp [firewallObservedSideState,firewallSideState,ho] at h
    | uniform c =>
        refine ⟨c,rfl,?_⟩
        cases c <;> simp [firewallObservedSideState,firewallSideState,ho,isReachable] at h ⊢
  obtain ⟨c,hc,hr⟩ := huniform
  intro obs hobs
  rw [Reachable,aggregate_uniform hc obs hobs,hr]
  exact Bool.false_ne_true

end States

section Judge
variable {expected : Expected} {udp : Bool} {e : Evidence}

/-- The gap between the states of the two sides. -/
def gapBetween : Expected → SideState → SideState → Option GapKind
  | .allow,.satisfied,.violated => some .requiredServiceNewlyUnavailable
  | .allow,.satisfied,.notObserved => some .requiredServiceNewlyUnavailable
  | .allow,.satisfied,.notTested => some .requiredServiceNewlyUnavailable
  | .deny,.satisfied,.violated => some .forbiddenServiceNewlyReachable
  | .deny,.notObserved,.violated => some .forbiddenServiceNewlyReachable
  | _,_,_ => none

theorem judge_gapKind : (judge expected udp e).gapKind =
    gapBetween expected (firewallObservedSideState expected e.pre)
      (firewallObservedSideState expected e.post) := by
  unfold judge
  generalize firewallObservedSideState expected e.pre = pre
  generalize firewallObservedSideState expected e.post = post
  cases expected <;> cases pre <;> cases post <;> rfl

theorem judge_forbidden (h : (judge expected udp e).gapKind = some .forbiddenServiceNewlyReachable) :
    expected = .deny ∧ firewallObservedSideState .deny e.post = .violated ∧
      (firewallObservedSideState .deny e.pre = .satisfied ∨
        firewallObservedSideState .deny e.pre = .notObserved) := by
  rw [judge_gapKind] at h
  unfold gapBetween at h
  split at h
  any_goals cases h
  · next hpre hpost => exact ⟨rfl,hpost,Or.inl hpre⟩
  · next hpre hpost => exact ⟨rfl,hpost,Or.inr hpre⟩

theorem judge_required (h : (judge expected udp e).gapKind = some .requiredServiceNewlyUnavailable)
    (htested : e.post.observation ≠ .notTested) :
    expected = .allow ∧ firewallObservedSideState .allow e.pre = .satisfied ∧
      (firewallObservedSideState .allow e.post = .violated ∨
        firewallObservedSideState .allow e.post = .notObserved) := by
  have hpost : firewallObservedSideState .allow e.post ≠ .notTested := by
    rw [observed_allow,firewallSideState]
    split
    · next ho => exact absurd ho htested
    · dsimp only
      split_ifs <;> decide
  rw [judge_gapKind] at h
  unfold gapBetween at h
  split at h
  any_goals cases h
  · next hpre hviolated => exact ⟨rfl,hpre,Or.inl hviolated⟩
  · next hpre hquiet => exact ⟨rfl,hpre,Or.inr hquiet⟩
  · next hpre hnot => exact absurd hnot hpost

theorem judge_met (h : (judge .deny udp e).expectationMet = some true) :
    firewallObservedSideState .deny e.post = .satisfied ∨
      firewallObservedSideState .deny e.post = .notObserved := by
  unfold judge at h
  generalize firewallObservedSideState _ e.pre = pre at h ⊢
  generalize firewallObservedSideState _ e.post = post at h ⊢
  cases pre <;> cases post <;> simp at h ⊢

end Judge

/-- A gap or a met expectation comes from comparable, faultless evidence. -/
theorem conclude_judged {expectation : Expectation} {compatibility : Option Compatibility}
    {e : Evidence} {fault path : Bool} {gap : GapKind} {met : Bool}
    (h : (conclude expectation compatibility e fault path).gapKind = some gap ∨
      (conclude expectation compatibility e fault path).expectationMet = some met) :
    ∃ expected,expectedOf expectation.expected = some expected ∧
      e.post.observation ≠ .notTested ∧ (∃ c,compatibility = some c ∧ c.comparable = true) ∧
      fault = false ∧
      conclude expectation compatibility e fault path =
        judge expected (is expectation.protocol "udp") e := by
  unfold conclude at h ⊢
  cases hx : expectedOf expectation.expected with
  | none => simp [hx] at h
  | some expected =>
      simp only [hx] at h ⊢
      by_cases htested : e.post.observation = .notTested
      · simp [htested] at h
      · rw [if_neg htested] at h ⊢
        cases hf : compatibilityFailureStatus (compatibility.getD ⟨false,["evidence_missing"]⟩) with
        | some failure => simp [hf] at h
        | none =>
            simp only [hf] at h ⊢
            cases fault with
            | true => simp at h
            | false =>
                refine ⟨expected,rfl,htested,?_,rfl,by simp⟩
                cases compatibility with
                | none => simp [compatibilityFailureStatus] at hf
                | some c =>
                    refine ⟨c,rfl,?_⟩
                    by_contra hc
                    simp only [compatibilityFailureStatus,Option.getD_some,if_neg hc] at hf
                    split_ifs at hf

/-- The part of a tested record the evidence is made of. -/
structure Sketch where
  cls : Option ObservationClass
  basis : Option Basis
  perspective : Option JsString
deriving DecidableEq

def sketch (obs : Observation) : Sketch :=
  ⟨sampleClass obs,basisOf obs.denialBasis,perspectiveId obs.sourcePerspective⟩

def sketches (observations : List Observation) : List Sketch :=
  (testedObservations observations).map sketch

theorem singleReason_perm {l l' : List Reason} (h : l.Perm l') : singleReason l = singleReason l' := by
  match l,l',h with
  | [],l',h => rw [List.nil_perm.mp h]
  | [r],l',h => rw [List.singleton_perm.mp h]
  | _::_::_,l',h =>
      match l',h.length_eq with
      | _::_::_,_ => rfl

section Evidence
variable {bs bs' cs cs' : List Observation}

theorem aggregateOf_congr (h : (sketches bs).Perm (sketches bs')) :
    aggregateOf bs = aggregateOf bs' := by
  have hlen : (testedObservations bs).length = (testedObservations bs').length := by
    simpa [sketches] using h.length_eq
  have hmem : ∀ c,c ∈ (testedObservations bs).filterMap sampleClass ↔
      c ∈ (testedObservations bs').filterMap sampleClass := by
    intro c
    have hc := (h.filterMap Sketch.cls).mem_iff (a := c)
    rw [sketches,sketches,List.filterMap_map,List.filterMap_map] at hc
    exact hc
  by_cases hne : testedObservations bs = []
  · have hne' : testedObservations bs' = [] := List.eq_nil_of_length_eq_zero (by rw [← hlen,hne]; rfl)
    rw [aggregate_empty hne,aggregate_empty hne']
  · have hne' : testedObservations bs' ≠ [] := by
      intro hnil
      exact hne (List.eq_nil_of_length_eq_zero (by rw [hlen,hnil]; rfl))
    simp only [aggregate_tested hne,aggregate_tested hne',hlen,hmem]

theorem all_congr {f : Sketch → Bool} (h : (sketches bs).Perm (sketches bs')) :
    (testedObservations bs).all (f ∘ sketch) = (testedObservations bs').all (f ∘ sketch) := by
  have := h.all_eq (f := f)
  simpa only [sketches,List.all_map] using this

theorem denialBasis_congr (h : (sketches bs).Perm (sketches bs')) :
    firewallDenialBasis bs = firewallDenialBasis bs' := by
  have hlen : (testedObservations bs).length = (testedObservations bs').length := by
    simpa [sketches] using h.length_eq
  have hplaces := (h.filterMap Sketch.perspective).dedup.length_eq
  have hall : (testedObservations bs).all (fun obs =>
        classOf obs.observationClass = some .explicitDenialObserved ∧
          ((basisOf obs.denialBasis).bind denialReason).isSome) =
      (testedObservations bs').all fun obs =>
        classOf obs.observationClass = some .explicitDenialObserved ∧
          ((basisOf obs.denialBasis).bind denialReason).isSome :=
    @all_congr bs bs' (fun s => s.cls = some .explicitDenialObserved ∧
      (s.basis.bind denialReason).isSome) h
  have hbases := (h.filterMap fun s => s.basis.bind denialReason).dedup
  simp only [sketches,List.filterMap_map,Function.comp_def,sketch] at hplaces hbases
  simp only [firewallDenialBasis,hlen,hplaces,hall,singleReason_perm hbases]

theorem tested_nil_congr (h : (sketches bs).Perm (sketches bs')) :
    testedObservations bs = [] ↔ testedObservations bs' = [] := by
  have hlen : (testedObservations bs).length = (testedObservations bs').length := by
    simpa [sketches] using h.length_eq
  rw [← List.length_eq_zero_iff,← List.length_eq_zero_iff,hlen]

theorem allRefused_congr (h : (sketches bs).Perm (sketches bs')) :
    allRefused bs = allRefused bs' := by
  have hall : (testedObservations bs).all (fun obs =>
        classOf obs.observationClass = some .transportError ∧
          basisOf obs.denialBasis = some .connectionRefused) =
      (testedObservations bs').all fun obs =>
        classOf obs.observationClass = some .transportError ∧
          basisOf obs.denialBasis = some .connectionRefused :=
    @all_congr bs bs' (fun s => s.cls = some .transportError ∧ s.basis = some .connectionRefused) h
  simp only [allRefused,ne_eq,tested_nil_congr h,hall]

/-- The evidence depends on the tested records of each side as seen, in any order. -/
theorem evidence_congr (hb : (sketches bs).Perm (sketches bs'))
    (hc : (sketches cs).Perm (sketches cs')) : evidence bs cs = evidence bs' cs' := by
  have hclosed : ((testedObservations cs).any fun obs =>
        basisOf obs.denialBasis = some .portUnreachable) =
      (testedObservations cs').any fun obs => basisOf obs.denialBasis = some .portUnreachable := by
    have hany := hc.any_eq (f := fun s => decide (s.basis = some .portUnreachable))
    rwa [sketches,sketches,List.any_map,List.any_map] at hany
  have hreached : ((testedObservations bs).all fun obs =>
        isReachable (classOf obs.observationClass)) =
      (testedObservations bs').all fun obs => isReachable (classOf obs.observationClass) :=
    @all_congr bs bs' (fun s => isReachable s.cls) hb
  have hpre : aggregateFirewallSamples (sideClasses bs) =
      aggregateFirewallSamples (sideClasses bs') := aggregateOf_congr hb
  have hpost : aggregateFirewallSamples (sideClasses cs) =
      aggregateFirewallSamples (sideClasses cs') := aggregateOf_congr hc
  simp only [evidence,evidenceOf,hpre,hpost,denialBasis_congr hc,hclosed,allRefused_congr hc,
    hreached,ne_eq,tested_nil_congr hb]

end Evidence

/-- The part of a record the check for errors of the probe reads. -/
structure Seen where
  failed : Bool
  reject : Bool
  immediate : Bool
  perspective : Option JsString
  family : JsVal
  reachable : Bool

def seen (obs : Observation) : Seen :=
  ⟨isTested obs && hasLocalError obs,isReject obs,isImmediate obs,
    perspectiveId obs.sourcePerspective,orElse obs.addressFamily .null,
    isReachable (classOf obs.observationClass)⟩

def Seen.proves (s o : Seen) : Bool :=
  o.perspective = s.perspective ∧ strictEq o.family s.family ∧ o.reachable

/-- The perspective and family of a record. -/
def Seen.key (s : Seen) : Option JsString × JsVal := (s.perspective,s.family)

/-- A record that is an error of the probe, or a rejection nothing else proves. -/
def Faulty (others : List Seen) (s : Seen) : Prop :=
  s.failed = true ∨ s.reject = true ∧ (s.immediate = true ∨ ∀ o ∈ others,s.proves o = false)

def SomeFaulty (all : List Seen) : Prop :=
  ∃ before s after,all = before++s::after ∧ Faulty (before++after) s

def seenRecords (observations : List Observation) : List Seen :=
  (currentObservations observations).map seen

theorem unproven_iff (others : List Observation) (obs : Observation) :
    Unproven others obs ↔ (seen obs).reject = true ∧
      ((seen obs).immediate = true ∨ ∀ o ∈ others.map seen,(seen obs).proves o = false) := by
  have hprove : ∀ o,(seen obs).proves (seen o) = provesPath obs o := fun o => rfl
  simp only [Unproven,List.any_eq_false,List.forall_mem_map,hprove,Bool.not_eq_true]
  rfl

theorem mem_current_of_tested {observations : List Observation} {obs : Observation}
    (h : obs ∈ testedObservations observations) :
    obs ∈ currentObservations observations ∧ isTested obs = true :=
  List.mem_filter.mp h

theorem localFault_iff (bs cs : List Observation) :
    LocalFault bs cs ↔ SomeFaulty (seenRecords bs++seenRecords cs) := by
  rw [seenRecords,seenRecords,← List.map_append]
  constructor
  · rintro (⟨obs,hobs,herror⟩ | ⟨before,obs,after,hall,hobs⟩)
    · have hmem : obs ∈ currentObservations bs++currentObservations cs ∧ isTested obs = true := by
        rw [← testedObservations_append] at hobs
        simpa [currentObservations] using mem_current_of_tested hobs
      obtain ⟨before,after,hall⟩ := List.append_of_mem hmem.1
      refine ⟨before.map seen,seen obs,after.map seen,by simp [hall],.inl ?_⟩
      simp [seen,hmem.2,herror]
    · refine ⟨before.map seen,seen obs,after.map seen,by simp [hall],.inr ?_⟩
      rw [← List.map_append]
      exact (unproven_iff _ _).mp hobs
  · rintro ⟨before,s,after,hall,hs⟩
    obtain ⟨before',rest,hsplit,rfl,hrest⟩ := List.map_eq_append_iff.mp hall
    obtain ⟨obs,after',rfl,rfl,rfl⟩ := List.map_eq_cons_iff.mp hrest
    rcases hs with hs | hs
    · simp only [seen,Bool.and_eq_true] at hs
      refine .inl ⟨obs,?_,hs.2⟩
      have hmem : obs ∈ currentObservations bs++currentObservations cs := by simp [hsplit]
      rcases List.mem_append.mp hmem with h | h
      · exact List.mem_append_left _ (List.mem_filter.mpr ⟨h,hs.1⟩)
      · exact List.mem_append_right _ (List.mem_filter.mpr ⟨h,hs.1⟩)
    · rw [← List.map_append] at hs
      exact .inr ⟨before',obs,after',hsplit,(unproven_iff _ _).mpr hs⟩

theorem Faulty.congr {others others' : List Seen} {s : Seen} (h : Faulty others s)
    (hp : others.Perm others') : Faulty others' s := by
  rcases h with h | ⟨hr,h | h⟩
  · exact .inl h
  · exact .inr ⟨hr,.inl h⟩
  · exact .inr ⟨hr,.inr fun o ho => h o (hp.mem_iff.mpr ho)⟩

/-- Whether a record is faulty does not depend on the order of the others. -/
theorem SomeFaulty.perm {all all' : List Seen} (h : SomeFaulty all) (hp : all.Perm all') :
    SomeFaulty all' := by
  obtain ⟨before,s,after,rfl,hs⟩ := h
  have hmem : s ∈ all' := hp.mem_iff.mp (by simp)
  obtain ⟨before',after',rfl⟩ := List.append_of_mem hmem
  refine ⟨before',s,after',rfl,hs.congr ?_⟩
  have hcons : (s::(before++after)).Perm (s::(before'++after')) :=
    (List.perm_middle.symm.trans hp).trans List.perm_middle
  exact hcons.cons_inv

theorem localFault_congr {bs bs' cs cs' : List Observation}
    (h : (seenRecords bs++seenRecords cs).Perm (seenRecords bs'++seenRecords cs')) :
    LocalFault bs cs ↔ LocalFault bs' cs' := by
  rw [localFault_iff,localFault_iff]
  exact ⟨fun hf => hf.perm h,fun hf => hf.perm h.symm⟩

theorem testedObservations_perm {bs bs' : List Observation} (h : bs.Perm bs') :
    (testedObservations bs).Perm (testedObservations bs') := (h.map _).filter _

theorem pathFault_perm {bs bs' cs cs' : List Observation} (hb : bs.Perm bs') (hc : cs.Perm cs')
    (h : PathFault bs cs) : PathFault bs' cs' := by
  rcases h with ⟨obs,hobs,hr⟩ | h
  · have hp := (testedObservations_perm hb).append (testedObservations_perm hc)
    exact .inl ⟨obs,hp.mem_iff.mp hobs,hr⟩
  · obtain ⟨before,obs,after,hall,hobs⟩ := h
    have hp : (currentObservations bs++currentObservations cs).Perm
        (currentObservations bs'++currentObservations cs') := (hb.map _).append (hc.map _)
    have hmem : obs ∈ currentObservations bs'++currentObservations cs' :=
      hp.mem_iff.mp (by simp [hall])
    obtain ⟨before',after',hall'⟩ := List.append_of_mem hmem
    refine .inr ⟨before',obs,after',hall',?_⟩
    rw [hall,hall'] at hp
    have hothers : (before++after).Perm (before'++after') :=
      ((List.perm_middle.symm.trans hp).trans List.perm_middle).cons_inv
    exact ⟨hobs.1,hobs.2.imp id fun h => by rw [← hothers.any_eq,h]⟩

/-- The classification is the same in every order of the records of each side. -/
theorem classify_perm (expectation : Expectation) {bs bs' cs cs' : List Observation}
    (compatibility : Option Compatibility) (hb : bs.Perm bs') (hc : cs.Perm cs') :
    classifyFirewallChangeItem expectation bs cs compatibility =
      classifyFirewallChangeItem expectation bs' cs' compatibility := by
  have hevidence : evidence bs cs = evidence bs' cs' :=
    evidence_congr ((testedObservations_perm hb).map _) ((testedObservations_perm hc).map _)
  have hfault : LocalFault bs cs ↔ LocalFault bs' cs' :=
    localFault_congr (((hb.map _).map _).append ((hc.map _).map _))
  have hpath : PathFault bs cs ↔ PathFault bs' cs' :=
    ⟨pathFault_perm hb hc,pathFault_perm hb.symm hc.symm⟩
  rw [classify_eq,classify_eq,hevidence,decide_eq_decide.mpr hfault,decide_eq_decide.mpr hpath]

/-- A reported gap and a met expectation say which samples there were, and nothing depends on
the order of the samples. -/
theorem firewall_change_sound (expectation : Expectation) (bs cs : List Observation)
    (compatibility : Option Compatibility) :
    ((classifyFirewallChangeItem expectation bs cs compatibility).gapKind =
        some .forbiddenServiceNewlyReachable →
      (∃ c,compatibility = some c ∧ c.comparable = true) ∧
        (∃ obs ∈ testedObservations cs,Reachable obs) ∧
        2 ≤ (testedObservations bs).length ∧ (∀ obs ∈ testedObservations bs,¬ Reachable obs) ∧
        (∀ obs ∈ testedObservations bs++testedObservations cs,hasLocalError obs = false) ∧
        ¬ LocalFault bs cs) ∧
    ((classifyFirewallChangeItem expectation bs cs compatibility).gapKind =
        some .requiredServiceNewlyUnavailable →
      (∃ c,compatibility = some c ∧ c.comparable = true) ∧
        (∀ obs ∈ testedObservations bs,sampleClass obs = some .serviceResponseObserved) ∧
        ∀ obs ∈ testedObservations cs,¬ Reachable obs) ∧
    (expectedOf expectation.expected = some .deny →
      (classifyFirewallChangeItem expectation bs cs compatibility).expectationMet = some true →
      2 ≤ (testedObservations cs).length ∧ ∀ obs ∈ testedObservations cs,¬ Reachable obs) ∧
    ∀ bs' cs',bs.Perm bs' → cs.Perm cs' →
      classifyFirewallChangeItem expectation bs cs compatibility =
        classifyFirewallChangeItem expectation bs' cs' compatibility := by
  refine ⟨?_,?_,?_,?_⟩
  · intro h
    rw [classify_eq] at h
    obtain ⟨expected,_,_,hcomparable,hfault,hjudge⟩ := @conclude_judged _ _ _ _ _ _ true (.inl h)
    rw [hjudge] at h
    obtain ⟨rfl,hpost,hpre⟩ := judge_forbidden h
    have hno : ¬ LocalFault bs cs := by simpa using hfault
    obtain ⟨hcount,hquiet⟩ := deny_not_reachable hpre
    refine ⟨hcomparable,deny_violated hpost,hcount,hquiet,?_,hno⟩
    intro obs hobs
    by_contra herror
    exact hno (.inl ⟨obs,hobs,by simpa using herror⟩)
  · intro h
    rw [classify_eq] at h
    obtain ⟨expected,_,htested,hcomparable,_,hjudge⟩ := @conclude_judged _ _ _ _ _ _ true (.inl h)
    rw [hjudge] at h
    obtain ⟨rfl,hpre,hpost⟩ := judge_required h htested
    exact ⟨hcomparable,allow_satisfied hpre,allow_not_reachable hpost⟩
  · intro hdeny h
    rw [classify_eq] at h
    obtain ⟨expected,hexpected,_,_,_,hjudge⟩ :=
      @conclude_judged _ _ _ _ _ .forbiddenServiceNewlyReachable _ (.inr h)
    rw [hdeny] at hexpected
    cases hexpected
    rw [hjudge] at h
    exact deny_not_reachable (judge_met h)
  · intro bs' cs' hb hc
    exact classify_perm expectation compatibility hb hc

/-- A sample of a class from one perspective. -/
def sampled (c : ObservationClass) : Observation :=
  { observationClass := className c,sourcePerspective := .str (js "external") }

def answered : List Observation :=
  [sampled .serviceResponseObserved,sampled .serviceResponseObserved]

def unanswered : List Observation := [sampled .noResponse,sampled .noResponse]

/-- Either gap is reported between the two sides, in one direction each. -/
theorem both_gaps_reported :
    (classifyFirewallChangeItem { expected := .str (js "deny") } unanswered answered
        (some ⟨true,[]⟩)).gapKind = some .forbiddenServiceNewlyReachable ∧
      (∃ obs ∈ testedObservations answered,Reachable obs) ∧
      2 ≤ (testedObservations unanswered).length ∧
    (classifyFirewallChangeItem { expected := .str (js "allow") } answered unanswered
        (some ⟨true,[]⟩)).gapKind = some .requiredServiceNewlyUnavailable ∧
      (∀ obs ∈ testedObservations answered,sampleClass obs = some .serviceResponseObserved) ∧
      ∀ obs ∈ testedObservations unanswered,¬ Reachable obs := by
  obtain ⟨hforbidden,-⟩ := firewall_change_sound { expected := .str (js "deny") } unanswered answered
    (some ⟨true,[]⟩)
  obtain ⟨-,hrequired,-⟩ := firewall_change_sound { expected := .str (js "allow") } answered
    unanswered (some ⟨true,[]⟩)
  have hgap : (classifyFirewallChangeItem { expected := .str (js "deny") } unanswered answered
      (some ⟨true,[]⟩)).gapKind = some .forbiddenServiceNewlyReachable := by decide
  have hgap' : (classifyFirewallChangeItem { expected := .str (js "allow") } answered unanswered
      (some ⟨true,[]⟩)).gapKind = some .requiredServiceNewlyUnavailable := by decide
  obtain ⟨-,hreached,hcount,-⟩ := hforbidden hgap
  obtain ⟨-,hserved,hquiet⟩ := hrequired hgap'
  exact ⟨hgap,hreached,hcount,hgap',hserved,hquiet⟩

section Stored

theorem is_orElse_null (v : JsVal) (literal : String) :
    is (orElse v .null) literal = is v literal := by
  cases v <;> rfl

theorem classOf_orElse_null (v : JsVal) : classOf (orElse v .null) = classOf v := by
  simp only [classOf,is_orElse_null]

theorem basisOf_unlessNullish (v : JsVal) : basisOf (unlessNullish v) = basisOf v := by
  cases v <;> rfl

theorem perspectiveId_orElse_null (v : JsVal) : perspectiveId (orElse v .null) = perspectiveId v := by
  cases v <;> rfl

theorem current_stored (obs : Observation) :
    currentObservation (stored obs) = stored (currentObservation obs) := by
  have hclass : ∀ c,orElse (className c) .null = className c := fun c => rfl
  have hbasis : ∀ b,unlessNullish (basisName b) = basisName b := fun b => rfl
  by_cases hold : is obs.observationClass "rejected_icmp" = true
  · simp [currentObservation,stored,is_orElse_null,hold,hclass,hbasis]
  · by_cases hport : basisOf obs.denialBasis = some .portUnreachable ∧
        classOf obs.observationClass = some .explicitDenialObserved
    · simp [currentObservation,stored,is_orElse_null,classOf_orElse_null,basisOf_unlessNullish,hold,
        hport,hclass]
    · simp [currentObservation,stored,is_orElse_null,classOf_orElse_null,basisOf_unlessNullish,hold,
        hport]

theorem isTested_stored (obs : Observation) : isTested (stored obs) = isTested obs := by
  simp only [isTested,stored,classOf_orElse_null]

theorem sketch_stored (obs : Observation) : sketch (stored obs) = sketch obs := by
  simp only [sketch,sampleClass,stored,classOf_orElse_null,basisOf_unlessNullish,
    perspectiveId_orElse_null]

theorem isImmediate_stored (obs : Observation) : isImmediate (stored obs) = isImmediate obs := by
  have helapsed : ∀ v : JsVal,(nullish (unlessNullish v) = true ∨
      Numeric.lt (toNumber (unlessNullish v)) (natNumber rejectIcmpMinElapsedMs) = true) ↔
      (nullish v = true ∨ Numeric.lt (toNumber v) (natNumber rejectIcmpMinElapsedMs) = true) := by
    intro v
    cases v <;> simp [unlessNullish,nullish]
  simp only [isImmediate,stored,helapsed]

theorem isTrue_stored (obs : Observation) : isTrue (stored obs).localError = isTrue obs.localError := by
  simp only [stored]
  cases obs.localError with
  | bool b => cases b <;> rfl
  | _ => rfl

theorem seen_stored (obs : Observation) : seen (stored obs) = seen obs := by
  have hfamily : orElse (stored obs).addressFamily .null = orElse obs.addressFamily .null := by
    simp only [stored]
    cases obs.addressFamily <;> rfl
  have hbasis : basisOf (stored obs).denialBasis = basisOf obs.denialBasis :=
    basisOf_unlessNullish _
  have hclass : classOf (stored obs).observationClass = classOf obs.observationClass :=
    classOf_orElse_null _
  have hreject : is (stored obs).observationClass "rejected_icmp" =
      is obs.observationClass "rejected_icmp" := is_orElse_null _ _
  have hplace : perspectiveId (stored obs).sourcePerspective =
      perspectiveId obs.sourcePerspective := perspectiveId_orElse_null _
  simp only [seen,isTested_stored,isImmediate_stored,hasLocalError,isReject,isTrue_stored,hbasis,
    hclass,hreject,hplace,hfamily]

theorem sketches_stored (observations : List Observation) :
    sketches (observations.map stored) = sketches observations := by
  simp only [sketches,testedObservations,currentObservations]
  have hcurrent : (observations.map stored).map currentObservation =
      (observations.map currentObservation).map stored := by
    simp [current_stored]
  rw [hcurrent,List.filter_map,List.map_map]
  simp only [Function.comp_def,isTested_stored,sketch_stored]

theorem seenRecords_stored (observations : List Observation) :
    seenRecords (observations.map stored) = seenRecords observations := by
  simp [seenRecords,currentObservations,current_stored,seen_stored]

end Stored

/-- The parts of a result a comparison is reported by. -/
def outcome (r : ItemResult) :
    Status × Option GapKind × Option Bool × Option SideState × Option SideState :=
  (r.status,r.gapKind,r.expectationMet,r.preState,r.postState)

theorem outcome_conclude (expectation : Expectation) (compatibility : Option Compatibility)
    (e : Evidence) (fault path path' : Bool) :
    outcome (conclude expectation compatibility e fault path) =
      outcome (conclude expectation compatibility e fault path') := by
  unfold conclude
  cases expectedOf expectation.expected with
  | none => rfl
  | some expected =>
      dsimp only
      split
      · rfl
      · cases compatibilityFailureStatus (compatibility.getD ⟨false,["evidence_missing"]⟩) with
        | some failure => rfl
        | none => cases fault <;> rfl

theorem outcome_congr (expectation : Expectation) (compatibility : Option Compatibility)
    {bs bs' cs cs' : List Observation} (he : evidence bs cs = evidence bs' cs')
    (hf : LocalFault bs cs ↔ LocalFault bs' cs') :
    outcome (classifyFirewallChangeItem expectation bs cs compatibility) =
      outcome (classifyFirewallChangeItem expectation bs' cs' compatibility) := by
  rw [classify_eq,classify_eq,he,decide_eq_decide.mpr hf]
  exact outcome_conclude _ _ _ _ _ _

theorem outcome_stored (expectation : Expectation) (compatibility : Option Compatibility)
    (observations other : List Observation) :
    outcome (classifyFirewallChangeItem expectation (observations.map stored) other
        compatibility) =
      outcome (classifyFirewallChangeItem expectation observations other compatibility) ∧
    outcome (classifyFirewallChangeItem expectation other (observations.map stored)
        compatibility) =
      outcome (classifyFirewallChangeItem expectation other observations compatibility) := by
  have hs : (sketches (observations.map stored)).Perm (sketches observations) :=
    .of_eq (sketches_stored observations)
  refine ⟨outcome_congr _ _ (evidence_congr hs (.refl _)) ?_,
    outcome_congr _ _ (evidence_congr (.refl _) hs) ?_⟩
  · exact localFault_congr (by rw [seenRecords_stored])
  · exact localFault_congr (by rw [seenRecords_stored])

/-- Storing observations and reading them back, also through a text, keeps their digest and
every classification they take part in. -/
theorem stored_observations_equivalent (sha256 : ByteArray → List UInt8)
    (observations : List Observation) (h : ∀ obs ∈ observations,obs.Json) :
    ∃ copy,(stringify (encodeFirewallObservations observations)).bind parse = some copy ∧
      ∀ decoded ∈ [decodeFirewallObservations (encodeFirewallObservations observations),
          decodeFirewallObservations copy],
        firewallObservationsDigest sha256 decoded =
          firewallObservationsDigest sha256 observations ∧
        ∀ expectation other compatibility,
          outcome (classifyFirewallChangeItem expectation decoded other compatibility) =
            outcome (classifyFirewallChangeItem expectation observations other compatibility) ∧
          outcome (classifyFirewallChangeItem expectation other decoded compatibility) =
            outcome (classifyFirewallChangeItem expectation other observations compatibility) := by
  refine ⟨_,encode_round_trip h,?_⟩
  intro decoded hdecoded
  have hd : decoded = observations.map stored := by
    simpa [decode_encode] using hdecoded
  subst hd
  exact ⟨digest_stored sha256 observations,fun expectation other compatibility =>
    outcome_stored expectation compatibility observations other⟩

/-- A rejection whose path a service response proves. -/
def sampleRejection : Observation :=
  { evidenceId := .str (js "ev_1"), observationClass := className .explicitDenialObserved,
    denialBasis := basisName .rejectedIcmp, sourcePerspective := .str (js "external"),
    elapsedMs := .num ((NumberText.Number.ofDecimal false 40).getD .zero), localError := .bool false }

theorem sampleRejection_stored :
    ∃ copy,(stringify (encodeFirewallObservations [sampleRejection])).bind parse = some copy ∧
      ∀ decoded ∈ [decodeFirewallObservations (encodeFirewallObservations [sampleRejection]),
          decodeFirewallObservations copy],
        firewallObservationsDigest (fun bytes => bytes.data.toList) decoded =
          firewallObservationsDigest (fun bytes => bytes.data.toList) [sampleRejection] ∧
        ∀ expectation other compatibility,
          outcome (classifyFirewallChangeItem expectation decoded other compatibility) =
            outcome (classifyFirewallChangeItem expectation [sampleRejection] other
              compatibility) ∧
          outcome (classifyFirewallChangeItem expectation other decoded compatibility) =
            outcome (classifyFirewallChangeItem expectation other [sampleRejection]
              compatibility) := by
  refine stored_observations_equivalent _ _ ?_
  intro obs hobs v hv
  rw [List.mem_singleton] at hobs
  subst hobs
  simp only [sampleRejection,Observation.fields,className,basisName,List.mem_cons,List.not_mem_nil,
    or_false] at hv
  rcases hv with rfl | rfl | rfl | rfl | rfl | rfl | rfl | rfl | rfl | rfl | rfl | rfl | rfl | rfl
  all_goals first
    | exact .inl rfl
    | exact .inr (.str _)
    | exact .inr (.num _)
    | exact .inr (.bool _)

end AstraNull.FirewallSoundness

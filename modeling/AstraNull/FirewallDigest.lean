import Mathlib
import AstraNull.FirewallSoundness

/-!
# What the digest of observations determines

The digest covers the class, the perspective and the denial basis of every observation, so two
lists with one digest give the same evidence. It does not cover the elapsed time, the address
family and the local error, which the check for errors of the probe reads. Two lists with one
digest are interchangeable exactly when this check cannot tell them apart against any other side.
-/
namespace AstraNull.FirewallDigest
open JsonText CanonicalJson ScriptValue FirewallObservations FirewallChange FirewallSoundness

/-- What the digest keeps of an observation for the classifier. -/
structure Covered where
  old : Bool
  cls : Option ObservationClass
  basis : Option Basis
  perspective : Option JsString

def covered (obs : Observation) : Covered :=
  ⟨is obs.observationClass "rejected_icmp",classOf obs.observationClass,basisOf obs.denialBasis,
    perspectiveId obs.sourcePerspective⟩

theorem is_canonical (v : JsVal) (literal : String) : is (canonical v) literal = is v literal := by
  cases v <;> rfl

theorem classOf_canonical (v : JsVal) : classOf (canonical v) = classOf v := by
  simp only [classOf,is_canonical]

theorem basisOf_canonical (v : JsVal) : basisOf (canonical v) = basisOf v := by
  simp only [basisOf,is_canonical]

theorem perspectiveId_canonical {v : JsVal} (h : WellFormed v) :
    perspectiveId (canonical v) = perspectiveId v := by
  have hid : field (canonical v) "id" = canonical (field v "id") := get_canonical h _
  cases v with
  | obj kvs =>
      have hobj : canonical (.obj kvs) = .obj (sortMembers (canonicalMembers kvs)) := by
        rw [canonical]
      rw [hobj] at hid ⊢
      simp only [perspectiveId,hid]
      cases field (.obj kvs) "id" <;> rfl
  | arr vs => rfl
  | _ => rfl

theorem basisOf_falsy {v : JsVal} (h : truthy v ≠ true) : basisOf v = none := by
  cases v with
  | str s =>
      have hs : s = [] := by simpa [truthy] using h
      subst hs
      decide
  | _ => rfl

section Digest
variable {sha256 : ByteArray → List UInt8}

theorem digestRecord_names (obs : Observation) : ((digestRecord obs).map Prod.fst).Nodup := by
  unfold digestRecord
  split <;> simp only [List.map_append,List.map_cons,List.map_nil] <;> decide

theorem digestRecord_json {obs : Observation} (h : obs.Json) : IsJson (.obj (digestRecord obs)) := by
  have hnull : ∀ v ∈ obs.fields,IsJson (orElse v .null) := fun v hv =>
    orElse_null_json (h v (List.mem_cons_of_mem _ hv))
  refine .obj (digestRecord_names obs) ?_
  intro p hp
  rcases List.mem_append.mp hp with hp | hp
  · simp only [List.mem_cons,List.not_mem_nil,or_false] at hp
    rcases hp with rfl | rfl | rfl | rfl | rfl | rfl | rfl <;>
      exact hnull _ (by simp [Observation.fields])
  · split at hp
    next ht =>
      rw [List.mem_singleton] at hp
      subst hp
      rcases h obs.denialBasis (by simp [Observation.fields]) with hu | hj
      · rw [hu] at ht
        cases ht
      · exact hj
    · exact absurd hp List.not_mem_nil

theorem digestPayload_json {observations : List Observation} (h : ∀ obs ∈ observations,obs.Json) :
    IsJson (digestPayload observations) := by
  refine .obj (show [js "classifier_version",js "observations"].Nodup by decide) ?_
  intro p hp
  simp only [List.mem_cons,List.not_mem_nil,or_false] at hp
  rcases hp with rfl | rfl
  · exact .str _
  · refine .arr ?_
    intro v hv
    obtain ⟨obs,hobs,rfl⟩ := List.mem_map.mp hv
    exact digestRecord_json (h obs hobs)

/-- Equal digests cover equal records up to the order of members. -/
theorem canonical_of_digest (hsha : Function.Injective sha256) {as bs : List Observation}
    (ha : ∀ obs ∈ as,obs.Json) (hb : ∀ obs ∈ bs,obs.Json)
    (h : firewallObservationsDigest sha256 as = firewallObservationsDigest sha256 bs) :
    canonical (digestPayload as) = canonical (digestPayload bs) := by
  have hja := digestPayload_json ha
  have hjb := digestPayload_json hb
  have hbytes := hsha (ProbeJobSigning.hex_injective h)
  have htext := String.ofList_injective (String.toByteArray_inj.mp hbytes)
  rw [CanonicalEncoders.Audit.stableStringify_eq,CanonicalEncoders.Audit.stableStringify_eq] at htext
  have hclean := text_injective (wellFormed_canonical hja.wellFormed)
    (wellFormed_canonical hjb.wellFormed) htext
  rwa [clean_canonical hja.wellFormed,clean_canonical hjb.wellFormed,clean_of_isJson hja,
    clean_of_isJson hjb] at hclean

theorem covered_of_canonical {a b : Observation} (ha : a.Json) (hb : b.Json)
    (h : canonical (.obj (digestRecord a)) = canonical (.obj (digestRecord b))) :
    covered a = covered b := by
  have hwa := (digestRecord_json ha).wellFormed
  have hwb := (digestRecord_json hb).wellFormed
  have hget : ∀ k,canonical ((JsVal.obj (digestRecord a)).get k) =
      canonical ((JsVal.obj (digestRecord b)).get k) := by
    intro k
    rw [← get_canonical hwa,← get_canonical hwb,h]
  have hread : ∀ (obs : Observation) {k v},(k,v) ∈ digestRecord obs →
      (JsVal.obj (digestRecord obs)).get k = v :=
    fun obs k v hv => get_of_mem (digestRecord_names obs) hv
  have hclass := hget (js "observation_class")
  rw [hread a (v := orElse a.observationClass .null) (by simp [digestRecord]),
    hread b (v := orElse b.observationClass .null) (by simp [digestRecord])] at hclass
  have hplace := hget (js "source_perspective")
  rw [hread a (v := orElse a.sourcePerspective .null) (by simp [digestRecord]),
    hread b (v := orElse b.sourcePerspective .null) (by simp [digestRecord])] at hplace
  have hbasisOf : ∀ obs : Observation,
      basisOf ((JsVal.obj (digestRecord obs)).get (js "denial_basis")) =
        basisOf obs.denialBasis := by
    intro obs
    by_cases ht : truthy obs.denialBasis = true
    · rw [hread obs (v := obs.denialBasis) (by simp [digestRecord,ht])]
    · have hnone : js "denial_basis" ∉ (digestRecord obs).map Prod.fst := by
        simp only [digestRecord,if_neg ht,List.append_nil,List.map_cons,List.map_nil]
        decide
      rw [get_of_not_mem hnone,basisOf_falsy ht]
      rfl
  have hwf : ∀ {obs : Observation},obs.Json → WellFormed (orElse obs.sourcePerspective .null) :=
    fun h => (orElse_null_json (h _ (by simp [Observation.fields]))).wellFormed
  have h1 : is a.observationClass "rejected_icmp" = is b.observationClass "rejected_icmp" := by
    rw [← is_orElse_null,← is_canonical,hclass,is_canonical,is_orElse_null]
  have h2 : classOf a.observationClass = classOf b.observationClass := by
    rw [← classOf_orElse_null,← classOf_canonical,hclass,classOf_canonical,classOf_orElse_null]
  have h3 : basisOf a.denialBasis = basisOf b.denialBasis := by
    rw [← hbasisOf,← basisOf_canonical,hget,basisOf_canonical,hbasisOf]
  have h4 : perspectiveId a.sourcePerspective = perspectiveId b.sourcePerspective := by
    rw [← perspectiveId_orElse_null,← perspectiveId_canonical (hwf ha),hplace,
      perspectiveId_canonical (hwf hb),perspectiveId_orElse_null]
  simp only [covered,h1,h2,h3,h4]

/-- Lists with one digest agree on everything the digest covers, record by record. -/
theorem covered_of_digest (hsha : Function.Injective sha256) {as bs : List Observation}
    (ha : ∀ obs ∈ as,obs.Json) (hb : ∀ obs ∈ bs,obs.Json)
    (h : firewallObservationsDigest sha256 as = firewallObservationsDigest sha256 bs) :
    as.map covered = bs.map covered := by
  have hcan := canonical_of_digest hsha ha hb h
  have hlist := congrArg (fun v => v.get (js "observations")) hcan
  have hget : ∀ {os : List Observation},(∀ obs ∈ os,obs.Json) →
      (canonical (digestPayload os)).get (js "observations") =
        .arr (os.map fun obs => canonical (.obj (digestRecord obs))) := by
    intro os hos
    have hnodup : [js "classifier_version",js "observations"].Nodup := by decide
    have hvalue : (digestPayload os).get (js "observations") =
        .arr (os.map fun obs => .obj (digestRecord obs)) := by
      unfold digestPayload
      refine get_of_mem ?_ (List.mem_cons_of_mem _ List.mem_cons_self)
      exact hnodup
    rw [get_canonical (digestPayload_json hos).wellFormed,hvalue,canonical,canonicalElements_eq,
      List.map_map]
    rfl
  rw [hget ha,hget hb] at hlist
  have hmaps : as.map (fun obs => canonical (.obj (digestRecord obs))) =
      bs.map fun obs => canonical (.obj (digestRecord obs)) := JsVal.arr.inj hlist
  clear hlist hcan h hget
  induction as generalizing bs with
  | nil =>
      cases bs with
      | nil => rfl
      | cons b bs => simp at hmaps
  | cons a as ih =>
      cases bs with
      | nil => simp at hmaps
      | cons b bs =>
          obtain ⟨hhead,htail⟩ := List.cons_eq_cons.mp (by simpa only [List.map_cons] using hmaps)
          rw [List.map_cons,List.map_cons,
            covered_of_canonical (ha a List.mem_cons_self) (hb b List.mem_cons_self) hhead,
            ih (fun o ho => ha o (List.mem_cons_of_mem _ ho))
              (fun o ho => hb o (List.mem_cons_of_mem _ ho)) htail]

end Digest

/-- Records with the same covered part are read again alike. -/
theorem covered_current {a b : Observation} (h : covered a = covered b) :
    sketch (currentObservation a) = sketch (currentObservation b) := by
  simp only [covered,Covered.mk.injEq] at h
  obtain ⟨hold,hclass,hbasis,hplace⟩ := h
  by_cases h1 : is b.observationClass "rejected_icmp" = true
  · simp [sketch,sampleClass,currentObservation,hold,h1,hplace]
  · by_cases h2 : basisOf b.denialBasis = some .portUnreachable ∧
        classOf b.observationClass = some .explicitDenialObserved
    · simp [sketch,sampleClass,currentObservation,hold,h1,hbasis,hclass,h2,hplace]
    · simp [sketch,sampleClass,currentObservation,hold,h1,hbasis,hclass,h2,hplace]

theorem isTested_sketch {a b : Observation} (h : sketch a = sketch b) : isTested a = isTested b := by
  have hclass : classOf a.observationClass = classOf b.observationClass := congrArg Sketch.cls h
  rw [isTested,isTested,hclass]

theorem sketches_congr {as bs : List Observation} (h : as.map covered = bs.map covered) :
    sketches as = sketches bs := by
  induction as generalizing bs with
  | nil =>
      cases bs with
      | nil => rfl
      | cons b bs => simp at h
  | cons a as ih =>
      cases bs with
      | nil => simp at h
      | cons b bs =>
          obtain ⟨hhead,htail⟩ := List.cons_eq_cons.mp (by simpa only [List.map_cons] using h)
          have hs := covered_current hhead
          have hrest : ((as.map currentObservation).filter isTested).map sketch =
              ((bs.map currentObservation).filter isTested).map sketch := ih htail
          simp only [sketches,testedObservations,currentObservations,List.map_cons,
            List.filter_cons,isTested_sketch hs]
          split
          · rw [List.map_cons,List.map_cons,hs,hrest]
          · exact hrest

/-- A family that equals itself: an object does not equal any other record's. -/
def Plain (family : JsVal) : Prop := strictEq family family = true

theorem proves_iff {s o : Seen} :
    s.proves o = true ↔ Plain s.family ∧ o.reachable = true ∧ o.key = s.key := by
  simp only [Seen.proves,decide_eq_true_eq,Seen.key,Prod.mk.injEq,Plain]
  constructor
  · rintro ⟨hp,hf,hr⟩
    have heq := ScriptObject.eq_of_strictEq hf
    exact ⟨by rw [heq] at hf; exact hf,hr,hp,heq⟩
  · rintro ⟨hplain,hr,hp,hf⟩
    exact ⟨hp,by rw [hf]; exact hplain,hr⟩

/-- A record is at fault whatever the other side holds. -/
def Marred (all : List Seen) : Prop :=
  ∃ s ∈ all,s.failed = true ∨ s.reject = true ∧ (s.immediate = true ∨ ¬ Plain s.family)

/-- The keys of the rejections no other record of the list proves. -/
def unprovenKeys (all : List Seen) : Set (Option JsString × JsVal) :=
  {k | ∃ before s after,all = before++s::after ∧ s.reject = true ∧ s.key = k ∧
    ∀ o ∈ before++after,s.proves o = false}

/-- The keys from which the service was reached. -/
def reachedKeys (all : List Seen) : Set (Option JsString × JsVal) :=
  {k | Plain k.2 ∧ ∃ o ∈ all,o.reachable = true ∧ o.key = k}

theorem not_proves_iff {s : Seen} {all : List Seen} (hplain : Plain s.family) :
    (∀ o ∈ all,s.proves o = false) ↔ s.key ∉ reachedKeys all := by
  constructor
  · rintro h ⟨_,o,ho,hr,hk⟩
    have := proves_iff.mpr ⟨hplain,hr,hk⟩
    rw [h o ho] at this
    cases this
  · intro h o ho
    by_contra hp
    obtain ⟨_,hr,hk⟩ := proves_iff.mp (Bool.not_eq_false _ ▸ hp)
    exact h ⟨hplain,o,ho,hr,hk⟩

theorem someFaulty_left {as bs : List Seen}
    (h : Marred as ∨ ∃ k ∈ unprovenKeys as,k ∉ reachedKeys bs) : SomeFaulty (as++bs) := by
  rcases h with ⟨s,hs,hm⟩ | ⟨k,⟨before,s,after,rfl,hr,rfl,hno⟩,hk⟩
  · obtain ⟨before,after,rfl⟩ := List.append_of_mem hs
    refine ⟨before,s,after++bs,by simp,?_⟩
    rcases hm with hf | ⟨hr,hi | hp⟩
    · exact .inl hf
    · exact .inr ⟨hr,.inl hi⟩
    · refine .inr ⟨hr,.inr fun o _ => ?_⟩
      by_contra hc
      exact hp (proves_iff.mp (by simpa using hc)).1
  · refine ⟨before,s,after++bs,by simp,.inr ⟨hr,.inr ?_⟩⟩
    intro o ho
    rw [← List.append_assoc] at ho
    rcases List.mem_append.mp ho with ho | ho
    · exact hno o ho
    · by_contra hc
      obtain ⟨hplain,hreach,hkey⟩ := proves_iff.mp (by simpa using hc)
      exact hk ⟨hplain,o,ho,hreach,hkey⟩

theorem Faulty.of_side {others before after bs : List Seen} {s : Seen} (h : Faulty others s)
    (hown : ∀ o ∈ before++after,o ∈ others) (hother : ∀ o ∈ bs,o ∈ others) :
    Marred (before++s::after) ∨ ∃ k ∈ unprovenKeys (before++s::after),k ∉ reachedKeys bs := by
  have hmem : s ∈ before++s::after := by simp
  rcases h with hf | ⟨hr,hi | hno⟩
  · exact .inl ⟨s,hmem,.inl hf⟩
  · exact .inl ⟨s,hmem,.inr ⟨hr,.inl hi⟩⟩
  · by_cases hplain : Plain s.family
    · refine .inr ⟨s.key,⟨before,s,after,rfl,hr,rfl,fun o ho => hno o (hown o ho)⟩,?_⟩
      exact (not_proves_iff hplain).mp fun o ho => hno o (hother o ho)
    · exact .inl ⟨s,hmem,.inr ⟨hr,.inr hplain⟩⟩

/-- A side is at fault by itself, or one side has a rejection that neither side proves. -/
theorem someFaulty_append (as bs : List Seen) :
    SomeFaulty (as++bs) ↔ (Marred as ∨ ∃ k ∈ unprovenKeys as,k ∉ reachedKeys bs) ∨
      (Marred bs ∨ ∃ k ∈ unprovenKeys bs,k ∉ reachedKeys as) := by
  constructor
  · rintro ⟨before,s,after,hall,hs⟩
    rcases List.append_eq_append_iff.mp hall with ⟨own,rfl,rfl⟩ | ⟨rest,rfl,hrest⟩
    · refine .inr (Faulty.of_side hs ?_ ?_)
      · intro o ho
        simp only [List.mem_append] at ho ⊢
        tauto
      · intro o ho
        simp [ho]
    · cases rest with
      | nil =>
          obtain rfl : bs = s::after := by simpa using hrest.symm
          refine .inr (@Faulty.of_side _ [] after _ s hs ?_ ?_)
          · intro o ho
            exact List.mem_append_right _ ho
          · intro o ho
            exact List.mem_append_left _ (by simpa using ho)
      | cons x rest =>
          obtain ⟨rfl,rfl⟩ : s = x ∧ after = rest++bs := by simpa using hrest
          refine .inl (Faulty.of_side hs ?_ ?_)
          · intro o ho
            simp only [List.mem_append] at ho ⊢
            tauto
          · intro o ho
            simp [ho]
  · rintro (h | h)
    · exact someFaulty_left h
    · exact (someFaulty_left h).perm List.perm_append_comm

/-- Two lists the check for errors of the probe cannot tell apart. -/
def Interchangeable (as bs : List Observation) : Prop :=
  Marred (seenRecords as) ∧ Marred (seenRecords bs) ∨
    ¬ Marred (seenRecords as) ∧ ¬ Marred (seenRecords bs) ∧
      unprovenKeys (seenRecords as) = unprovenKeys (seenRecords bs) ∧
      reachedKeys (seenRecords as) = reachedKeys (seenRecords bs)

theorem Interchangeable.localFault {as bs : List Observation} (h : Interchangeable as bs)
    (other : List Observation) : LocalFault as other ↔ LocalFault bs other := by
  rw [localFault_iff,localFault_iff,someFaulty_append,someFaulty_append]
  rcases h with ⟨ha,hb⟩ | ⟨ha,hb,hu,hr⟩
  · exact ⟨fun _ => .inl (.inl hb),fun _ => .inl (.inl ha)⟩
  · rw [hu,hr]
    simp only [ha,hb,false_or]

theorem localFault_comm (as bs : List Observation) : LocalFault as bs ↔ LocalFault bs as := by
  rw [localFault_iff,localFault_iff]
  exact ⟨fun h => h.perm List.perm_append_comm,fun h => h.perm List.perm_append_comm⟩

/-- A service response from the perspective and family of another record. -/
def answer (obs : Observation) : Observation :=
  { observationClass := className .serviceResponseObserved
    sourcePerspective := obs.sourcePerspective
    addressFamily := obs.addressFamily }

def fortyMs : JsVal := .num ((NumberText.Number.ofDecimal false (40 : ℕ)).getD .zero)

/-- A response that is also recorded as a rejection. -/
def echo (obs : Observation) : Observation :=
  { answer obs with denialBasis := basisName .rejectedIcmp, elapsedMs := fortyMs }

theorem fortyMs_late :
    Numeric.lt (toNumber fortyMs) (natNumber rejectIcmpMinElapsedMs) = false := by
  obtain ⟨x,hx,hforty⟩ := @NumberText.Number.exists_natural 40 (by norm_num) (by norm_num)
  obtain ⟨y,hy,hfive⟩ := @NumberText.Number.exists_natural 5 (by norm_num) (by norm_num)
  rw [fortyMs,hforty,rejectIcmpMinElapsedMs,natNumber,ofNonneg,hfive]
  simp only [Option.getD_some,toNumber,Numeric.lt,rational,Bool.false_eq_true,if_false,hx,hy]
  norm_num

theorem current_answer (obs : Observation) : currentObservation (answer obs) = answer obs := by
  simp [currentObservation,answer,is_className]

theorem current_echo (obs : Observation) : currentObservation (echo obs) = echo obs := by
  simp [currentObservation,echo,answer,is_className]

theorem seen_answer (obs : Observation) :
    seen (answer obs) = ⟨false,false,true,(seen obs).perspective,(seen obs).family,true⟩ := by
  have hbasis : basisOf .undefined = none := by decide
  simp [seen,answer,hasLocalError,isReject,isImmediate,is_className,isReachable,
    ScriptValue.isTrue,nullish,
    hbasis]

theorem seen_echo (obs : Observation) :
    seen (echo obs) = ⟨false,true,false,(seen obs).perspective,(seen obs).family,true⟩ := by
  have hnull : nullish fortyMs = false := rfl
  simp [seen,echo,answer,hasLocalError,isReject,isImmediate,isReachable,
    ScriptValue.isTrue,hnull,fortyMs_late]

theorem answer_json {obs : Observation} (h : obs.Json) : (answer obs).Json := by
  have hp := h obs.sourcePerspective (by simp [Observation.fields])
  have hf := h obs.addressFamily (by simp [Observation.fields])
  intro v hv
  simp only [answer,Observation.fields,List.mem_cons,List.not_mem_nil,or_false] at hv
  rcases hv with rfl | rfl | rfl | rfl | rfl | rfl | rfl | rfl | rfl | rfl | rfl | rfl | rfl | rfl
  all_goals first
    | exact .inl rfl
    | exact .inr (.str _)
    | exact hp
    | exact hf

theorem echo_json {obs : Observation} (h : obs.Json) : (echo obs).Json := by
  have hp := h obs.sourcePerspective (by simp [Observation.fields])
  have hf := h obs.addressFamily (by simp [Observation.fields])
  intro v hv
  simp only [echo,answer,Observation.fields,List.mem_cons,List.not_mem_nil,or_false] at hv
  rcases hv with rfl | rfl | rfl | rfl | rfl | rfl | rfl | rfl | rfl | rfl | rfl | rfl | rfl | rfl
  all_goals first
    | exact .inl rfl
    | exact .inr (.str _)
    | exact .inr (.num _)
    | exact hp
    | exact hf

theorem current_json {obs : Observation} (h : obs.Json) : (currentObservation obs).Json := by
  have hfields : ∀ v ∈ (currentObservation obs).reason::(currentObservation obs).fields,
      v ∈ obs.reason::obs.fields ∨ ∃ s,v = .str s := by
    intro v hv
    unfold currentObservation at hv
    split at hv
    · simp only [Observation.fields,List.mem_cons,List.not_mem_nil,or_false] at hv ⊢
      rcases hv with rfl | rfl | rfl | rfl | rfl | rfl | rfl | rfl | rfl | rfl | rfl | rfl | rfl | rfl
      all_goals first
        | exact .inr ⟨_,rfl⟩
        | simp
    · split at hv
      · simp only [Observation.fields,List.mem_cons,List.not_mem_nil,or_false] at hv ⊢
        rcases hv with rfl | rfl | rfl | rfl | rfl | rfl | rfl | rfl | rfl | rfl | rfl | rfl | rfl | rfl
        all_goals first
          | exact .inr ⟨_,rfl⟩
          | simp
      · exact .inl hv
  intro v hv
  rcases hfields v hv with hv | ⟨s,rfl⟩
  · exact h v hv
  · exact .inr (.str s)

/-- A side of responses only. -/
def Answers (other : List Observation) : Prop :=
  other ≠ [] ∧ ∀ obs ∈ other,(∃ o,obs = answer o ∨ obs = echo o) ∧ obs.Json

def allowExpectation : Expectation := { expected := .str (js "allow") }

def comparableEvidence : Option Compatibility := some ⟨true,[]⟩

theorem tested_answers {other : List Observation} (h : Answers other) :
    testedObservations other = other := by
  have hcurrent : currentObservations other = other := by
    rw [currentObservations]
    refine (List.map_congr_left ?_).trans (List.map_id _)
    intro obs hobs
    obtain ⟨o,rfl | rfl⟩ := (h.2 obs hobs).1
    · exact current_answer o
    · exact current_echo o
  rw [testedObservations,hcurrent,List.filter_eq_self]
  intro obs hobs
  obtain ⟨o,rfl | rfl⟩ := (h.2 obs hobs).1 <;> simp [isTested,answer,echo]

theorem answers_uniform {other : List Observation} (h : Answers other) :
    (aggregateOf other).observation = .uniform .serviceResponseObserved := by
  have hclass : ∀ obs ∈ other,sampleClass obs = some .serviceResponseObserved := by
    intro obs hobs
    obtain ⟨o,rfl | rfl⟩ := (h.2 obs hobs).1 <;> simp [sampleClass,answer,echo]
  have hne : testedObservations other ≠ [] := by
    rw [tested_answers h]
    exact h.1
  obtain ⟨first,hfirst⟩ := List.exists_mem_of_ne_nil other h.1
  have hclasses : sortedClasses.filter (· ∈ (testedObservations other).filterMap sampleClass) =
      [.serviceResponseObserved] := by
    have hmem : ∀ c,c ∈ (testedObservations other).filterMap sampleClass ↔
        c = .serviceResponseObserved := by
      intro c
      rw [tested_answers h,List.mem_filterMap]
      constructor
      · rintro ⟨obs,hobs,hc⟩
        rw [hclass obs hobs] at hc
        exact (Option.some.inj hc).symm
      · rintro rfl
        exact ⟨first,hfirst,hclass first hfirst⟩
    simp only [hmem]
    decide
  rw [aggregate_tested hne]
  dsimp only
  rw [hclasses]
  rfl

theorem judge_satisfied {udp : Bool} {e : Evidence}
    (h : e.post.observation = .uniform .serviceResponseObserved) :
    (judge .allow udp e).expectationMet = some true := by
  have hstate : firewallObservedSideState .allow e.post = .satisfied := by
    simp [firewallObservedSideState,firewallSideState,h]
  unfold judge
  simp only [hstate,if_true]
  split_ifs <;> rfl

/-- Against responses an allow expectation is met unless the probe is at fault. -/
theorem met_iff (observations : List Observation) {other : List Observation} (h : Answers other) :
    (classifyFirewallChangeItem allowExpectation observations other
        comparableEvidence).expectationMet = some true ↔ ¬ LocalFault observations other := by
  have hpost : (evidence observations other).post.observation =
      .uniform .serviceResponseObserved := answers_uniform h
  have hexpected : expectedOf allowExpectation.expected = some .allow := by decide
  have hfailure : compatibilityFailureStatus
      (comparableEvidence.getD ⟨false,["evidence_missing"]⟩) = none := rfl
  rw [classify_eq,conclude,hexpected]
  simp only [hpost,reduceCtorEq,if_false,hfailure]
  by_cases hf : LocalFault observations other
  · simp [hf]
  · simp [hf,judge_satisfied hpost]

/-- The verdict a digest should determine. -/
def verdict (r : ItemResult) : Status × Option GapKind × Option Bool :=
  (r.status,r.gapKind,r.expectationMet)

/-- The lists can stand for each other on either side. -/
def SameVerdicts (as bs : List Observation) : Prop :=
  ∀ expectation other compatibility,(∀ obs ∈ other,obs.Json) →
    verdict (classifyFirewallChangeItem expectation as other compatibility) =
      verdict (classifyFirewallChangeItem expectation bs other compatibility) ∧
    verdict (classifyFirewallChangeItem expectation other as compatibility) =
      verdict (classifyFirewallChangeItem expectation other bs compatibility)

theorem SameVerdicts.symm {as bs : List Observation} (h : SameVerdicts as bs) :
    SameVerdicts bs as :=
  fun e o c ho => ⟨(h e o c ho).1.symm,(h e o c ho).2.symm⟩

theorem SameVerdicts.localFault {as bs : List Observation} (h : SameVerdicts as bs)
    {other : List Observation} (ho : Answers other) :
    LocalFault as other ↔ LocalFault bs other := by
  have hv := (h allowExpectation other comparableEvidence fun obs hobs => (ho.2 obs hobs).2).1
  have hmet := congrArg (fun v : Status × Option GapKind × Option Bool => v.2.2) hv
  simp only [verdict] at hmet
  rw [← not_iff_not,← met_iff as ho,← met_iff bs ho,hmet]

theorem faultless {as bs : List Observation} (ha : ¬ Marred (seenRecords as))
    (hb : ¬ Marred (seenRecords bs))
    (hab : unprovenKeys (seenRecords as) ⊆ reachedKeys (seenRecords bs))
    (hba : unprovenKeys (seenRecords bs) ⊆ reachedKeys (seenRecords as)) : ¬ LocalFault as bs := by
  rw [localFault_iff,someFaulty_append]
  rintro ((h | ⟨k,hk,hn⟩) | (h | ⟨k,hk,hn⟩))
  · exact ha h
  · exact hn (hab hk)
  · exact hb h
  · exact hn (hba hk)

section Sides
variable (xs : List Observation) (y : Observation)

theorem seenRecords_answers : seenRecords (xs.map answer) =
    xs.map fun o => ⟨false,false,true,(seen o).perspective,(seen o).family,true⟩ := by
  simp [seenRecords,currentObservations,current_answer,seen_answer]

theorem seenRecords_echo : seenRecords (xs.map answer++[echo y]) =
    (xs.map fun o => ⟨false,false,true,(seen o).perspective,(seen o).family,true⟩)++
      [⟨false,true,false,(seen y).perspective,(seen y).family,true⟩] := by
  rw [← seenRecords_answers]
  simp [seenRecords,currentObservations,current_echo,seen_echo]

theorem answers_not_marred : ¬ Marred (seenRecords (xs.map answer)) := by
  rw [seenRecords_answers]
  rintro ⟨s,hs,h⟩
  obtain ⟨o,_,rfl⟩ := List.mem_map.mp hs
  simp at h

theorem answers_unproven : unprovenKeys (seenRecords (xs.map answer)) = ∅ := by
  rw [seenRecords_answers]
  refine Set.eq_empty_of_forall_notMem ?_
  rintro k ⟨before,s,after,hall,hr,_,_⟩
  have hs : s ∈ before++s::after := by simp
  rw [← hall] at hs
  obtain ⟨o,_,rfl⟩ := List.mem_map.mp hs
  cases hr

theorem answers_reached {k : Option JsString × JsVal} :
    k ∈ reachedKeys (seenRecords (xs.map answer)) ↔ Plain k.2 ∧ ∃ o ∈ xs,(seen o).key = k := by
  rw [seenRecords_answers]
  constructor
  · rintro ⟨hplain,s,hs,_,hk⟩
    obtain ⟨o,ho,rfl⟩ := List.mem_map.mp hs
    exact ⟨hplain,o,ho,hk⟩
  · rintro ⟨hplain,o,ho,hk⟩
    exact ⟨hplain,_,List.mem_map.mpr ⟨o,ho,rfl⟩,rfl,hk⟩

theorem echo_not_marred (hplain : Plain (seen y).family) :
    ¬ Marred (seenRecords (xs.map answer++[echo y])) := by
  rw [seenRecords_echo]
  rintro ⟨s,hs,h⟩
  rcases List.mem_append.mp hs with hs | hs
  · obtain ⟨o,_,rfl⟩ := List.mem_map.mp hs
    simp at h
  · rw [List.mem_singleton] at hs
    subst hs
    simp [hplain] at h

theorem echo_unproven : unprovenKeys (seenRecords (xs.map answer++[echo y])) ⊆ {(seen y).key} := by
  rw [seenRecords_echo]
  rintro k ⟨before,s,after,hall,hr,hk,_⟩
  have hs : s ∈ before++s::after := by simp
  rw [← hall] at hs
  rcases List.mem_append.mp hs with hs | hs
  · obtain ⟨o,_,rfl⟩ := List.mem_map.mp hs
    cases hr
  · rw [List.mem_singleton] at hs
    subst hs
    exact hk.symm

theorem echo_unproven_self (hx : ∀ o ∈ xs,(seen o).key ≠ (seen y).key) :
    (seen y).key ∈ unprovenKeys (seenRecords (xs.map answer++[echo y])) := by
  rw [seenRecords_echo]
  refine ⟨_,_,[],rfl,rfl,rfl,?_⟩
  intro s hs
  rw [List.append_nil] at hs
  obtain ⟨o,ho,rfl⟩ := List.mem_map.mp hs
  by_contra hp
  have hproves := proves_iff.mp (eq_true_of_ne_false hp)
  exact hx o ho hproves.2.2

theorem echo_reached {k : Option JsString × JsVal} (hplain : Plain k.2)
    (hk : (seen y).key = k ∨ ∃ o ∈ xs,(seen o).key = k) :
    k ∈ reachedKeys (seenRecords (xs.map answer++[echo y])) := by
  rw [seenRecords_echo]
  rcases hk with hk | ⟨o,ho,hk⟩
  · exact ⟨hplain,_,List.mem_append_right _ List.mem_cons_self,rfl,hk⟩
  · exact ⟨hplain,_,List.mem_append_left _ (List.mem_map.mpr ⟨o,ho,rfl⟩),rfl,hk⟩

end Sides

theorem key_of_unproven {as : List Observation} (h : ¬ Marred (seenRecords as))
    {k : Option JsString × JsVal} (hk : k ∈ unprovenKeys (seenRecords as)) :
    Plain k.2 ∧ ∃ o ∈ currentObservations as,(seen o).key = k := by
  obtain ⟨before,s,after,hall,hr,rfl,_⟩ := hk
  have hs : s ∈ seenRecords as := by simp [hall]
  obtain ⟨o,ho,rfl⟩ := List.mem_map.mp hs
  refine ⟨?_,o,ho,rfl⟩
  by_contra hplain
  exact h ⟨_,hs,.inr ⟨hr,.inr hplain⟩⟩

theorem currentObservations_json {as : List Observation} (h : ∀ obs ∈ as,obs.Json) :
    ∀ obs ∈ currentObservations as,obs.Json := by
  intro obs hobs
  obtain ⟨o,ho,rfl⟩ := List.mem_map.mp hobs
  exact current_json (h o ho)

/-- A record with a family of its own. -/
def stranger (family : String) : Observation := { addressFamily := .str (js family) }

theorem stranger_json (family : String) : (stranger family).Json := by
  intro v hv
  simp only [stranger,Observation.fields,List.mem_cons,List.not_mem_nil,or_false] at hv
  rcases hv with rfl | rfl | rfl | rfl | rfl | rfl | rfl | rfl | rfl | rfl | rfl | rfl | rfl | rfl
  all_goals first
    | exact .inl rfl
    | exact .inr (.str _)

theorem exists_stranger (k : Option JsString × JsVal) :
    ∃ z : Observation,z.Json ∧ (seen z).key ≠ k := by
  by_cases h : (seen (stranger "a")).key = k
  · refine ⟨stranger "b",stranger_json _,?_⟩
    rw [← h]
    intro heq
    have hfamily := congrArg Prod.snd heq
    exact absurd (JsVal.str.inj hfamily) (by decide)
  · exact ⟨stranger "a",stranger_json _,h⟩

section Necessary
variable {as bs : List Observation}

open Classical in
/-- Responses from every perspective and family of a list but one, and from elsewhere. -/
theorem exists_answers (hjson : ∀ obs ∈ as,obs.Json) (k : Option JsString × JsVal) :
    ∃ xs : List Observation,Answers (xs.map answer) ∧ (∀ o ∈ xs,(seen o).key ≠ k) ∧
      (∀ obs ∈ xs,obs.Json) ∧ ∀ o ∈ currentObservations as,(seen o).key ≠ k → o ∈ xs := by
  obtain ⟨z,hz,hzk⟩ := exists_stranger k
  have hxs : ∀ obs ∈ (currentObservations as).filter (fun o => (seen o).key ≠ k)++[z],
      obs.Json := by
    intro obs hobs
    rcases List.mem_append.mp hobs with h | h
    · exact currentObservations_json hjson obs (List.mem_of_mem_filter h)
    · rw [List.mem_singleton] at h
      exact h ▸ hz
  refine ⟨(currentObservations as).filter (fun o => (seen o).key ≠ k)++[z],⟨by simp,?_⟩,?_,hxs,?_⟩
  · intro obs hobs
    obtain ⟨o,ho,rfl⟩ := List.mem_map.mp hobs
    exact ⟨⟨o,.inl rfl⟩,answer_json (hxs o ho)⟩
  · intro o ho
    rcases List.mem_append.mp ho with h | h
    · simpa using (List.mem_filter.mp h).2
    · rw [List.mem_singleton] at h
      exact h ▸ hzk
  · intro o ho hk
    exact List.mem_append_left _ (List.mem_filter.mpr ⟨ho,by simpa using hk⟩)

theorem SameVerdicts.marred (h : SameVerdicts as bs) (hjson : ∀ obs ∈ as,obs.Json)
    (hb : Marred (seenRecords bs)) : Marred (seenRecords as) := by
  by_contra ha
  obtain ⟨xs,hanswers,_,_,hall⟩ := exists_answers hjson (none,.obj [])
  have hno : ¬ LocalFault as (xs.map answer) := by
    refine faultless ha (answers_not_marred xs) ?_ (by simp [answers_unproven])
    intro k hk
    obtain ⟨hplain,o,ho,hkey⟩ := key_of_unproven ha hk
    refine (answers_reached xs).mpr ⟨hplain,o,hall o ho ?_,hkey⟩
    rw [hkey]
    rintro rfl
    cases hplain
  refine hno ((h.localFault hanswers).mpr ?_)
  rw [localFault_iff,someFaulty_append]
  exact .inl (.inl hb)

theorem SameVerdicts.unproven (h : SameVerdicts as bs) (hjson : ∀ obs ∈ as,obs.Json)
    (ha : ¬ Marred (seenRecords as)) :
    unprovenKeys (seenRecords bs) ⊆ unprovenKeys (seenRecords as) := by
  intro k hk
  by_contra hnew
  obtain ⟨xs,hanswers,hother,_,hall⟩ := exists_answers hjson k
  have hno : ¬ LocalFault as (xs.map answer) := by
    refine faultless ha (answers_not_marred xs) ?_ (by simp [answers_unproven])
    intro k' hk'
    obtain ⟨hplain,o,ho,hkey⟩ := key_of_unproven ha hk'
    refine (answers_reached xs).mpr ⟨hplain,o,hall o ho ?_,hkey⟩
    rw [hkey]
    rintro rfl
    exact hnew hk'
  refine hno ((h.localFault hanswers).mpr ?_)
  rw [localFault_iff,someFaulty_append]
  refine .inl (.inr ⟨k,hk,?_⟩)
  rw [answers_reached]
  rintro ⟨_,o,ho,hkey⟩
  exact hother o ho hkey

theorem SameVerdicts.reached (h : SameVerdicts as bs) (hjson : ∀ obs ∈ bs,obs.Json)
    (hb : ¬ Marred (seenRecords bs)) :
    reachedKeys (seenRecords bs) ⊆ reachedKeys (seenRecords as) := by
  intro k hk
  by_contra hnew
  obtain ⟨hplain,s,hs,hr,hkey⟩ := hk
  obtain ⟨y,hy,rfl⟩ := List.mem_map.mp hs
  obtain ⟨xs,hanswers,hother,hxs,hall⟩ := exists_answers hjson k
  have hside : Answers (xs.map answer++[echo y]) := by
    refine ⟨by simp,?_⟩
    intro obs hobs
    rcases List.mem_append.mp hobs with hobs | hobs
    · exact hanswers.2 obs hobs
    · rw [List.mem_singleton] at hobs
      subst hobs
      exact ⟨⟨y,.inr rfl⟩,echo_json (currentObservations_json hjson y hy)⟩
  have hno : ¬ LocalFault bs (xs.map answer++[echo y]) := by
    refine faultless hb (echo_not_marred xs y (by rw [← hkey] at hplain; exact hplain)) ?_ ?_
    · intro k' hk'
      obtain ⟨hplain',o,ho,hkey'⟩ := key_of_unproven hb hk'
      refine echo_reached xs y hplain' ?_
      by_cases hsame : k' = k
      · exact .inl (hkey.trans hsame.symm)
      · exact .inr ⟨o,hall o ho (by rwa [hkey']),hkey'⟩
    · intro k' hk'
      obtain rfl : k' = (seen y).key := echo_unproven xs y hk'
      exact ⟨by rw [hkey]; exact hplain,seen y,hs,hr,rfl⟩
  refine hno ((h.localFault hside).mp ?_)
  rw [localFault_iff,someFaulty_append]
  refine .inr (.inr ⟨(seen y).key,echo_unproven_self xs y ?_,?_⟩)
  · rw [hkey]
    exact hother
  · rw [hkey]
    exact hnew

/-- Lists that can stand for each other cannot be told apart by the check. -/
theorem SameVerdicts.interchangeable (h : SameVerdicts as bs) (ha : ∀ obs ∈ as,obs.Json)
    (hb : ∀ obs ∈ bs,obs.Json) : Interchangeable as bs := by
  by_cases hm : Marred (seenRecords as)
  · exact .inl ⟨hm,h.symm.marred hb hm⟩
  · have hm' : ¬ Marred (seenRecords bs) := fun hm' => hm (h.marred ha hm')
    exact .inr ⟨hm,hm',
      Set.Subset.antisymm (h.symm.unproven hb hm') (h.unproven ha hm),
      Set.Subset.antisymm (h.symm.reached ha hm) (h.reached hb hm')⟩

end Necessary

theorem Interchangeable.sameVerdicts {as bs : List Observation} (h : Interchangeable as bs)
    (hcovered : as.map covered = bs.map covered) : SameVerdicts as bs := by
  have hs : (sketches as).Perm (sketches bs) := .of_eq (sketches_congr hcovered)
  intro expectation other compatibility _
  have hpre := outcome_congr expectation compatibility (evidence_congr hs (.refl (sketches other)))
    (h.localFault other)
  have hpost := outcome_congr expectation compatibility (evidence_congr (.refl (sketches other)) hs)
    ((localFault_comm other as).trans ((h.localFault other).trans (localFault_comm bs other)))
  simp only [outcome,Prod.mk.injEq] at hpre hpost
  simp only [verdict,Prod.mk.injEq]
  exact ⟨⟨hpre.1,hpre.2.1,hpre.2.2.1⟩,hpost.1,hpost.2.1,hpost.2.2.1⟩

/-- Two lists with one digest give the same verdicts exactly when the check for errors of the
probe cannot tell them apart. -/
theorem digest_determines_verdict_iff (sha256 : ByteArray → List UInt8)
    (hsha : Function.Injective sha256) (as bs : List Observation) (ha : ∀ obs ∈ as,obs.Json)
    (hb : ∀ obs ∈ bs,obs.Json)
    (hdigest : firewallObservationsDigest sha256 as = firewallObservationsDigest sha256 bs) :
    SameVerdicts as bs ↔ Interchangeable as bs :=
  ⟨fun h => h.interchangeable ha hb,fun h => h.sameVerdicts (covered_of_digest hsha ha hb hdigest)⟩

/-- A failed connection with or without the mark of a local error. -/
def failedProbe (localError elapsedMs : JsVal) : Observation :=
  { observationClass := className .transportError, sourcePerspective := .str (js "external"),
    localError, elapsedMs }

theorem failedProbe_json {localError elapsedMs : JsVal} (hl : localError = .undefined ∨ IsJson localError)
    (he : elapsedMs = .undefined ∨ IsJson elapsedMs) : (failedProbe localError elapsedMs).Json := by
  intro v hv
  simp only [failedProbe,Observation.fields,List.mem_cons,List.not_mem_nil,or_false] at hv
  rcases hv with rfl | rfl | rfl | rfl | rfl | rfl | rfl | rfl | rfl | rfl | rfl | rfl | rfl | rfl
  all_goals first
    | exact .inl rfl
    | exact .inr (.str _)
    | exact hl
    | exact he

/-- Nothing is wrong with such a record and nothing is reached, however long it took. -/
theorem seen_failedProbe (elapsedMs : JsVal) :
    ¬ Marred (seenRecords [failedProbe .undefined elapsedMs]) ∧
      unprovenKeys (seenRecords [failedProbe .undefined elapsedMs]) = ∅ ∧
      reachedKeys (seenRecords [failedProbe .undefined elapsedMs]) = ∅ := by
  have hquiet : ∀ s ∈ seenRecords [failedProbe .undefined elapsedMs],
      s.failed = false ∧ s.reject = false ∧ s.reachable = false := by
    intro s hs
    rw [seenRecords,currentObservations,List.map_singleton,List.map_singleton,
      List.mem_singleton] at hs
    subst hs
    exact ⟨rfl,rfl,rfl⟩
  refine ⟨?_,?_,?_⟩
  · rintro ⟨s,hs,hfailed | ⟨hreject,-⟩⟩
    · rw [(hquiet s hs).1] at hfailed
      cases hfailed
    · rw [(hquiet s hs).2.1] at hreject
      cases hreject
  · refine Set.eq_empty_of_forall_notMem fun k hk => ?_
    obtain ⟨before,s,after,hall,hreject,-⟩ := hk
    rw [(hquiet s (by simp [hall])).2.1] at hreject
    cases hreject
  · refine Set.eq_empty_of_forall_notMem fun k hk => ?_
    obtain ⟨-,o,ho,hreached,-⟩ := hk
    rw [(hquiet o ho).2.2] at hreached
    cases hreached

theorem elapsed_time_not_covered :
    Interchangeable [failedProbe .undefined .undefined] [failedProbe .undefined fortyMs] ∧
      SameVerdicts [failedProbe .undefined .undefined] [failedProbe .undefined fortyMs] := by
  have hrecord : digestRecord (failedProbe .undefined .undefined) =
      digestRecord (failedProbe .undefined fortyMs) := rfl
  have hsame : Interchangeable [failedProbe .undefined .undefined]
      [failedProbe .undefined fortyMs] := by
    obtain ⟨hfirst,hkeys,hreached⟩ := seen_failedProbe .undefined
    obtain ⟨hsecond,hkeys',hreached'⟩ := seen_failedProbe fortyMs
    exact .inr ⟨hfirst,hsecond,hkeys.trans hkeys'.symm,hreached.trans hreached'.symm⟩
  refine ⟨hsame,(digest_determines_verdict_iff (fun bytes => bytes.data.toList) ?_ _ _ ?_ ?_
    ?_).mpr hsame⟩
  · intro a b h
    exact ByteArray.ext (Array.toList_inj.mp h)
  · intro obs hobs
    rw [List.mem_singleton] at hobs
    exact hobs ▸ failedProbe_json (.inl rfl) (.inl rfl)
  · intro obs hobs
    rw [List.mem_singleton] at hobs
    exact hobs ▸ failedProbe_json (.inl rfl) (.inr (.num _))
  · simp only [firewallObservationsDigest,digestPayload,List.map_cons,List.map_nil,hrecord]

/-- A stored baseline with the marks of a local error removed keeps its digest, and a change it
was no evidence for is then reported as an improvement. -/
theorem local_error_not_covered :
    (∀ sha256,firewallObservationsDigest sha256
        [failedProbe (.bool true) .undefined,failedProbe (.bool true) .undefined] =
      firewallObservationsDigest sha256
        [failedProbe .undefined .undefined,failedProbe .undefined .undefined]) ∧
    verdict (classifyFirewallChangeItem allowExpectation
        [failedProbe (.bool true) .undefined,failedProbe (.bool true) .undefined]
        [answer (failedProbe .undefined .undefined)] comparableEvidence) =
      (.inconclusive,none,none) ∧
    verdict (classifyFirewallChangeItem allowExpectation
        [failedProbe .undefined .undefined,failedProbe .undefined .undefined]
        [answer (failedProbe .undefined .undefined)] comparableEvidence) =
      (.improvement,none,some true) := by
  refine ⟨fun _ => rfl,?_,?_⟩
  · decide
  · decide

end AstraNull.FirewallDigest

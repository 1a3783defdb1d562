import Mathlib
import AstraNull.FirewallObservations

/-!
# Classification of a firewall change

`classifyFirewallChangeItem` with everything it calls. Two sides of observations are read again
under the current classes, checked for errors of the probe itself, aggregated, and compared with
the expected behaviour.

The check for probe errors is a loop that writes into the observations it later looks at, so its
result seems to depend on their order. It does not: the first observation it changes is judged
on the records as given, and one change already settles the outcome. `LocalFault` states the
condition apart from the loop; what the claims need is then proved from it.
-/
namespace AstraNull.FirewallChange
open JsonText ScriptValue FirewallObservations

/-- Stored rows of an older classifier under the current classes. -/
def currentObservation (obs : Observation) : Observation :=
  if is obs.observationClass "rejected_icmp" then
    { obs with
      observationClass := className .explicitDenialObserved
      denialBasis := basisName .rejectedIcmp }
  else if basisOf obs.denialBasis = some .portUnreachable ∧
      classOf obs.observationClass = some .explicitDenialObserved then
    { obs with observationClass := className .transportError }
  else obs

def currentObservations (observations : List Observation) : List Observation :=
  observations.map currentObservation

def sideClasses (observations : List Observation) : List ObservationClass :=
  (currentObservations observations).filterMap fun obs => classOf obs.observationClass

def isTested (obs : Observation) : Bool :=
  match classOf obs.observationClass with
  | none => false
  | some c => c ≠ .notTested

def testedObservations (observations : List Observation) : List Observation :=
  (currentObservations observations).filter isTested

/-- Registered perspective id from a string or an `id`/`label` stamp. -/
def perspectiveId (value : JsVal) : Option JsString :=
  match value with
  | .str s => if ScriptText.trim s ≠ [] then some (ScriptText.trim s) else none
  | v =>
      match field v "id" with
      | .str s => if ScriptText.trim s ≠ [] then some (ScriptText.trim s) else none
      | _ => none

def isReachable (c : Option ObservationClass) : Bool :=
  c = some .serviceResponseObserved ∨ c = some .reachableTransportOnly

/-- The `observation` of an aggregate: one class, several, or none that was tested. -/
inductive Observed
  | notTested
  | uniform (c : ObservationClass)
  | mixed
deriving DecidableEq

structure Aggregate where
  observation : Observed
  samples : ℕ
  classes : List ObservationClass
deriving DecidableEq

/-- The tested classes in the alphabetical order of their names. -/
def sortedClasses : List ObservationClass :=
  [.explicitDenialObserved,.noResponse,.reachableTransportOnly,.serviceResponseObserved,
    .transportError,.udpSilence]

def observedOf : List ObservationClass → Observed
  | [c] => .uniform c
  | _ => .mixed

/-- An aggregate of nothing has no `classes`; every reader then sees none. -/
def aggregateFirewallSamples (samples : List ObservationClass) : Aggregate :=
  let tested := samples.filter (· ≠ .notTested)
  if tested = [] then ⟨.notTested,0,[]⟩
  else
    let distinct := sortedClasses.filter (· ∈ tested)
    ⟨observedOf distinct,tested.length,distinct⟩

inductive Expected
  | allow
  | deny
deriving DecidableEq

inductive SideState
  | satisfied
  | violated
  | notObserved
  | unverified
  | notTested
deriving DecidableEq

def minSamplesForUnavailability : ℕ := 2

def firewallSideState (expected : Expected) (aggregate : Aggregate) : SideState :=
  match aggregate.observation with
  | .notTested => .notTested
  | observation =>
      match expected with
      | .allow =>
          if observation = .uniform .serviceResponseObserved then .satisfied
          else if observation = .uniform .explicitDenialObserved then .violated
          else if observation = .uniform .noResponse ∨ observation = .uniform .transportError ∨
              observation = .uniform .udpSilence then
            if minSamplesForUnavailability ≤ aggregate.samples then .notObserved else .unverified
          else .unverified
      | .deny =>
          if aggregate.classes.any fun c => isReachable (some c) then .violated
          else if observation = .uniform .explicitDenialObserved then
            if minSamplesForUnavailability ≤ aggregate.samples then .satisfied else .unverified
          else .unverified

/-- Repeated silent drops under a deny expectation are not an observation of the service. -/
def firewallObservedSideState (expected : Expected) (aggregate : Aggregate) : SideState :=
  let state := firewallSideState expected aggregate
  if expected = .deny ∧ state = .satisfied ∧ aggregate.samples < minSamplesForUnavailability then
    .unverified
  else if expected ≠ .deny ∨ state ≠ .unverified then state
  else if (aggregate.classes ≠ [] ∧
      aggregate.classes.all fun c => c = .noResponse ∨ c = .udpSilence) ∧
      minSamplesForUnavailability ≤ aggregate.samples then .notObserved
  else state

inductive Reason
  | expectationMissing
  | baselineNotTested
  | observationUnverified
  | serviceResponseRequired
  | controlSpecificDenialRequired
  | udpSilenceAmbiguous
  | singleSampleNotUnavailability
  | mixedSamples
  | statesDifferWithoutGap
  | baselineDenialNotControlSpecific
  | denialNotControlSpecific
  | denialEvidenceNoLongerObserved
  | postChangeNotSampled
  | icmpAdminProhibited
  | rejectedIcmp
  | consistentWithNewDenyRule
  | udpReplyAfterSilence
  | rstAfterChange
  | rstWithoutOpenBaseline
  | closedPortNotControlSpecific
  | localProbeError
  | pathNotProven
deriving DecidableEq

inductive Status
  | matched
  | regression
  | improvement
  | inconclusive
  | notTested
  | stale
  | notComparable
deriving DecidableEq

inductive GapKind
  | requiredServiceNewlyUnavailable
  | forbiddenServiceNewlyReachable
deriving DecidableEq

structure ItemResult where
  status : Status
  gapKind : Option GapKind := none
  expectationMet : Option Bool := none
  preState : Option SideState := none
  postState : Option SideState := none
  reasons : List Reason := []
  compatibilityReasons : List String := []
  limitations : List String
  localError : Bool := false
deriving DecidableEq

def requiredLimitations : List String :=
  ["external_only","sampled_public_ingress_only","rule_table_equivalence_not_established",
    "routing_nat_egress_east_west_not_established","not_capacity_assurance",
    "appliance_traversal_not_established","transport_reachability_not_enforcement"]

structure Compatibility where
  comparable : Bool
  reasons : List String

def compatibilityFailureStatus (compatibility : Compatibility) : Option Status :=
  if compatibility.comparable then none
  else if compatibility.reasons.all fun r => r = "baseline_stale" ∨ r = "candidate_stale" then
    some .stale
  else some .notComparable

structure Expectation where
  expected : JsVal := .undefined
  protocol : JsVal := .undefined

def expectedOf (v : JsVal) : Option Expected :=
  if is v "allow" then some .allow else if is v "deny" then some .deny else none

def unverifiedReasons (expected : Expected) (aggregate : Aggregate) : List Reason :=
  let classes := aggregate.classes
  (if aggregate.observation = .mixed then [.mixedSamples] else [])++
  (if .udpSilence ∈ classes then [.udpSilenceAmbiguous] else [])++
  (if expected = .allow ∧ .reachableTransportOnly ∈ classes then [.serviceResponseRequired]
    else [])++
  (if expected = .allow ∧ aggregate.samples < minSamplesForUnavailability ∧ classes ≠ [] ∧
      classes.all (fun c => c = .noResponse ∨ c = .transportError ∨ c = .udpSilence) then
    [.singleSampleNotUnavailability] else [])++
  if expected = .deny ∧ classes ≠ [] ∧ !classes.any (fun c => isReachable (some c)) then
    [.controlSpecificDenialRequired] else []

/-- Every tested observation of a side is a refused connection. -/
def allRefused (observations : List Observation) : Bool :=
  let tested := testedObservations observations
  tested ≠ [] ∧ tested.all fun obs =>
    classOf obs.observationClass = some .transportError ∧
      basisOf obs.denialBasis = some .connectionRefused

/-- `FIREWALL_DENIAL_BASES`, as reasons. -/
def denialReason : Basis → Option Reason
  | .icmpAdminProhibited => some .icmpAdminProhibited
  | .rejectedIcmp => some .rejectedIcmp
  | _ => none

/-- The only basis that occurs, or the weaker of the two. -/
def singleReason : List Reason → Reason
  | [basis] => basis
  | _ => .rejectedIcmp

def firewallDenialBasis (candidateObservations : List Observation) : Option Reason :=
  let post := testedObservations candidateObservations
  if post.length < minSamplesForUnavailability then none
  else if 1 < (post.filterMap fun obs => perspectiveId obs.sourcePerspective).dedup.length then
    none
  else if !post.all (fun obs => classOf obs.observationClass = some .explicitDenialObserved ∧
      ((basisOf obs.denialBasis).bind denialReason).isSome) then none
  else
    some (singleReason
      (post.filterMap fun obs => (basisOf obs.denialBasis).bind denialReason).dedup)

def rejectIcmpMinElapsedMs : ℕ := 5

def isReject (obs : Observation) : Bool :=
  basisOf obs.denialBasis = some .rejectedIcmp ∨ is obs.observationClass "rejected_icmp"

/-- Too early for an answer from the path. -/
def isImmediate (obs : Observation) : Bool :=
  nullish obs.elapsedMs ∨ Numeric.lt (toNumber obs.elapsedMs) (natNumber rejectIcmpMinElapsedMs)

/-- Another observation that reached the service from the same perspective and family. -/
def provesPath (obs other : Observation) : Bool :=
  perspectiveId other.sourcePerspective = perspectiveId obs.sourcePerspective ∧
    strictEq (orElse other.addressFamily .null) (orElse obs.addressFamily .null) ∧
    isReachable (classOf other.observationClass)

def asLocalError (obs : Observation) : Observation :=
  { obs with
    localError := .bool true
    reason := .str (js "path_not_proven")
    denialBasis := basisName .localProbeError
    observationClass := className .transportError }

/-- One round of the loop, with the other records as they are by then. -/
def settle (others : List Observation) (obs : Observation) : Observation :=
  if isReject obs ∧ (isImmediate obs ∨ !others.any (provesPath obs)) then asLocalError obs else obs

/-- The loop over all records: those before the current one are as it left them. -/
def settleAll : List Observation → List Observation → List Observation
  | done,[] => done
  | done,obs::rest => settleAll (done++[settle (done++rest) obs]) rest

def hasLocalError (obs : Observation) : Bool :=
  basisOf obs.denialBasis = some .localProbeError ∨ isTrue obs.localError

/-- What the last stage reads of the two sides. -/
structure Evidence where
  pre : Aggregate
  post : Aggregate
  basis : Option Reason
  closedPort : Bool
  refused : List Reason

/-- The stage after the checks. -/
def judge (expected : Expected) (udp : Bool) (e : Evidence) : ItemResult :=
  let preState := firewallObservedSideState expected e.pre
  let postState := firewallObservedSideState expected e.post
  let limitations := requiredLimitations++
    if .udpSilence ∈ e.pre.classes++e.post.classes then ["udp_silence_ambiguous"] else []
  let met :=
    if postState = .satisfied then some true
    else if postState = .violated ∨ expected = .allow ∧ postState = .notObserved then some false
    else if expected = .deny ∧ postState = .notObserved ∧ preState = .violated then some true
    else none
  let base : ItemResult :=
    { status := .inconclusive, expectationMet := met, preState := some preState,
      postState := some postState, limitations }
  let resolved := fun (status : Status) (gapKind : Option GapKind) (reasons : List Reason) =>
    { base with status, gapKind, reasons := (reasons++e.basis.toList).eraseDups }
  let closedPortReasons : List Reason :=
    if e.closedPort then [.closedPortNotControlSpecific] else []
  let unresolved := fun (reasons : List Reason) =>
    { base with reasons := (reasons++closedPortReasons).eraseDups }
  if preState = .notTested then unresolved [.baselineNotTested]
  else if preState = .unverified ∨ postState = .unverified then
    unresolved ([.observationUnverified]++
      (if preState = .unverified then unverifiedReasons expected e.pre else [])++
      (if postState = .unverified then unverifiedReasons expected e.post else [])++e.refused)
  else match expected with
    | .allow =>
        if preState = postState then resolved .matched none []
        else if preState = .satisfied then
          resolved .regression (some .requiredServiceNewlyUnavailable) []
        else if postState = .satisfied then resolved .improvement none []
        else unresolved [.statesDifferWithoutGap]
    | .deny =>
        if postState = .violated then
          if preState = .violated then resolved .matched none []
          else resolved .regression (some .forbiddenServiceNewlyReachable)
            (if preState = .notObserved then
              .baselineDenialNotControlSpecific::if udp then [.udpReplyAfterSilence] else []
            else [])
        else if postState = .satisfied then
          if preState = .satisfied then resolved .matched none []
          else resolved .improvement none []
        else if postState = .notObserved ∧ preState = .violated then
          resolved .improvement none [.consistentWithNewDenyRule]
        else if preState = .satisfied then
          unresolved ([.denialEvidenceNoLongerObserved,.controlSpecificDenialRequired]++e.refused)
        else unresolved ([.denialNotControlSpecific,.controlSpecificDenialRequired]++e.refused)

/-- What is read of the sides after the loop, and of the lists as they were given. -/
def evidenceOf (baselines candidates : List Observation) (post : Aggregate)
    (baselineObservations candidateObservations : List Observation) : Evidence :=
  let basis := firewallDenialBasis candidates
  let preTested := testedObservations baselineObservations
  { pre := aggregateFirewallSamples (sideClasses baselines)
    post
    basis
    closedPort := (testedObservations candidates).any fun obs =>
      basisOf obs.denialBasis = some .portUnreachable
    refused :=
      if basis.isNone ∧ allRefused candidateObservations then
        if preTested ≠ [] ∧ preTested.all fun obs => isReachable (classOf obs.observationClass) then
          [.rstAfterChange]
        else [.rstWithoutOpenBaseline]
      else [] }

def classifyFirewallChangeItem (expectation : Expectation)
    (baselineObservations candidateObservations : List Observation)
    (compatibility : Option Compatibility) : ItemResult :=
  match expectedOf expectation.expected with
  | none =>
      { status := .notComparable, reasons := [.expectationMissing],
        compatibilityReasons := ["expectation_mismatch"], limitations := requiredLimitations }
  | some expected =>
      let baselines := currentObservations baselineObservations
      let candidates := currentObservations candidateObservations
      let post := aggregateFirewallSamples (sideClasses candidates)
      if post.observation = .notTested then
        { status := .notTested, reasons := [.postChangeNotSampled],
          limitations := requiredLimitations }
      else
        match compatibilityFailureStatus (compatibility.getD ⟨false,["evidence_missing"]⟩) with
        | some failure =>
            { status := failure, limitations := requiredLimitations,
              compatibilityReasons := (compatibility.map (·.reasons)).getD ["evidence_missing"] }
        | none =>
            let count := baselines.length
            let settled := settleAll [] (baselines++candidates)
            let baselines := settled.take count
            let candidates := settled.drop count
            let allTested := testedObservations baselines++testedObservations candidates
            if allTested.any hasLocalError then
              { status := .inconclusive, limitations := requiredLimitations, localError := true,
                reasons :=
                  (if allTested.any fun obs => is obs.reason "path_not_proven" then [.pathNotProven]
                    else [])++[.localProbeError,.observationUnverified] }
            else
              judge expected (is expectation.protocol "udp")
                (evidenceOf baselines candidates post baselineObservations candidateObservations)

/-- A rejection that came too early or that no other record proves to come from the path. -/
def Unproven (others : List Observation) (obs : Observation) : Prop :=
  isReject obs = true ∧ (isImmediate obs = true ∨ others.any (provesPath obs) = false)

/-- Some record of the list satisfies a condition that looks at the other records. -/
def SomeAmong (p : List Observation → Observation → Prop) (all : List Observation) : Prop :=
  ∃ before obs after,all = before++obs::after ∧ p (before++after) obs

theorem settle_of_unproven {others : List Observation} {obs : Observation}
    (h : Unproven others obs) : settle others obs = asLocalError obs := by
  refine if_pos ⟨h.1,?_⟩
  rcases h.2 with h | h
  · exact .inl h
  · exact .inr (by simp [h])

theorem settle_of_proven {others : List Observation} {obs : Observation}
    (h : ¬ Unproven others obs) : settle others obs = obs := by
  refine if_neg ?_
  rintro ⟨hr,hi | hp⟩
  · exact h ⟨hr,.inl hi⟩
  · exact h ⟨hr,.inr (by simpa using hp)⟩

theorem mem_settleAll {done rest : List Observation} {obs : Observation} (h : obs ∈ done) :
    obs ∈ settleAll done rest := by
  induction rest generalizing done with
  | nil => exact h
  | cons x xs ih => exact ih (List.mem_append_left _ h)

/-- The first record the loop changes is judged on the records as given. -/
theorem settleAll_unproven {done rest before after : List Observation} {obs : Observation}
    (hrest : rest = before++obs::after) (h : Unproven (done++(before++after)) obs) :
    ∃ o,asLocalError o ∈ settleAll done rest := by
  induction rest generalizing done before with
  | nil => simp at hrest
  | cons x xs ih =>
      by_cases hx : Unproven (done++xs) x
      · rw [settleAll,settle_of_unproven hx]
        exact ⟨x,mem_settleAll (by simp)⟩
      · rw [settleAll,settle_of_proven hx]
        cases before with
        | nil =>
            obtain ⟨rfl,rfl⟩ : x = obs ∧ xs = after := by simpa using hrest
            exact absurd (by simpa using h) hx
        | cons y before =>
            obtain ⟨rfl,hxs⟩ : x = y ∧ xs = before++obs::after := by simpa using hrest
            exact ih hxs (by simpa using h)

theorem settleAll_proven {done rest : List Observation}
    (h : ∀ before obs after,rest = before++obs::after → ¬ Unproven (done++(before++after)) obs) :
    settleAll done rest = done++rest := by
  induction rest generalizing done with
  | nil => simp [settleAll]
  | cons x xs ih =>
      have hx : ¬ Unproven (done++xs) x := h [] x xs rfl
      rw [settleAll,settle_of_proven hx,ih]
      · simp
      · intro before obs after hxs
        have := h (x::before) obs after (by simp [hxs])
        simpa using this

theorem is_className (c : ObservationClass) : is (className c) "rejected_icmp" = false := by
  cases c <;> decide

theorem current_idem (obs : Observation) :
    currentObservation (currentObservation obs) = currentObservation obs := by
  by_cases hold : is obs.observationClass "rejected_icmp" = true
  · simp [currentObservation,hold,is_className]
  · by_cases hport : basisOf obs.denialBasis = some .portUnreachable ∧
        classOf obs.observationClass = some .explicitDenialObserved
    · simp [currentObservation,hold,hport,is_className]
    · simp [currentObservation,hold,hport]

theorem current_asLocalError (obs : Observation) :
    currentObservation (asLocalError obs) = asLocalError obs := by
  simp [currentObservation,asLocalError,is_className]

theorem currentObservations_idem (observations : List Observation) :
    currentObservations (currentObservations observations) = currentObservations observations := by
  simp [currentObservations,current_idem]

@[simp] theorem sideClasses_current (observations : List Observation) :
    sideClasses (currentObservations observations) = sideClasses observations := by
  rw [sideClasses,currentObservations_idem,sideClasses]

@[simp] theorem testedObservations_current (observations : List Observation) :
    testedObservations (currentObservations observations) = testedObservations observations := by
  rw [testedObservations,currentObservations_idem,testedObservations]

theorem testedObservations_append (as bs : List Observation) :
    testedObservations (as++bs) = testedObservations as++testedObservations bs := by
  simp [testedObservations,currentObservations]

theorem firewallDenialBasis_current (observations : List Observation) :
    firewallDenialBasis (currentObservations observations) = firewallDenialBasis observations := by
  simp only [firewallDenialBasis,testedObservations_current]

/-- A tested record is an error of the probe, or a rejection is not proven. -/
def LocalFault (baselineObservations candidateObservations : List Observation) : Prop :=
  (∃ obs ∈ testedObservations baselineObservations++testedObservations candidateObservations,
    hasLocalError obs = true) ∨
  SomeAmong Unproven
    (currentObservations baselineObservations++currentObservations candidateObservations)

/-- A rejection is not proven, or a tested record says so of itself. -/
def PathFault (baselineObservations candidateObservations : List Observation) : Prop :=
  (∃ obs ∈ testedObservations baselineObservations++testedObservations candidateObservations,
    is obs.reason "path_not_proven" = true) ∨
  SomeAmong Unproven
    (currentObservations baselineObservations++currentObservations candidateObservations)

/-- The evidence of two sides whose records the loop leaves as they are. -/
def evidence (baselineObservations candidateObservations : List Observation) : Evidence :=
  evidenceOf baselineObservations candidateObservations
    (aggregateFirewallSamples (sideClasses candidateObservations)) baselineObservations
    candidateObservations

/-- The tested records after the loop. -/
def settledTested (baselineObservations candidateObservations : List Observation) :
    List Observation :=
  testedObservations (settleAll []
    (currentObservations baselineObservations++currentObservations candidateObservations))

theorem settledTested_unproven {bs cs : List Observation}
    (h : SomeAmong Unproven (currentObservations bs++currentObservations cs)) :
    ∃ o,asLocalError o ∈ settledTested bs cs := by
  obtain ⟨before,obs,after,hall,hobs⟩ := h
  obtain ⟨o,ho⟩ := @settleAll_unproven [] _ before after obs hall (by simpa using hobs)
  refine ⟨o,List.mem_filter.mpr ⟨List.mem_map.mpr ⟨_,ho,current_asLocalError o⟩,?_⟩⟩
  simp [isTested,asLocalError]

theorem settled_proven {bs cs : List Observation}
    (h : ¬ SomeAmong Unproven (currentObservations bs++currentObservations cs)) :
    settleAll [] (currentObservations bs++currentObservations cs) =
      currentObservations bs++currentObservations cs := by
  refine (settleAll_proven ?_).trans (List.nil_append _)
  intro before obs after hall hobs
  exact h ⟨before,obs,after,hall,by simpa using hobs⟩

theorem settledTested_proven {bs cs : List Observation}
    (h : ¬ SomeAmong Unproven (currentObservations bs++currentObservations cs)) :
    settledTested bs cs = testedObservations bs++testedObservations cs := by
  rw [settledTested,settled_proven h,testedObservations_append,testedObservations_current,
    testedObservations_current]

theorem localError_iff (bs cs : List Observation) :
    (settledTested bs cs).any hasLocalError = true ↔ LocalFault bs cs := by
  by_cases h : SomeAmong Unproven (currentObservations bs++currentObservations cs)
  · obtain ⟨o,ho⟩ := settledTested_unproven h
    have hany : (settledTested bs cs).any hasLocalError = true :=
      List.any_eq_true.mpr ⟨_,ho,by simp [hasLocalError,asLocalError]⟩
    exact ⟨fun _ => .inr h,fun _ => hany⟩
  · rw [settledTested_proven h,List.any_eq_true]
    exact ⟨.inl,fun hf => hf.resolve_right h⟩

theorem pathNotProven_iff (bs cs : List Observation) :
    (settledTested bs cs).any (fun obs => is obs.reason "path_not_proven") = true ↔
      PathFault bs cs := by
  by_cases h : SomeAmong Unproven (currentObservations bs++currentObservations cs)
  · obtain ⟨o,ho⟩ := settledTested_unproven h
    have hany : (settledTested bs cs).any (fun obs => is obs.reason "path_not_proven") = true :=
      List.any_eq_true.mpr ⟨_,ho,by simp [asLocalError,is]⟩
    exact ⟨fun _ => .inr h,fun _ => hany⟩
  · rw [settledTested_proven h,List.any_eq_true]
    exact ⟨.inl,fun hf => hf.resolve_right h⟩

/-- The classification from the evidence of the sides and whether the probe is at fault. -/
def conclude (expectation : Expectation) (compatibility : Option Compatibility) (e : Evidence)
    (fault path : Bool) : ItemResult :=
  match expectedOf expectation.expected with
  | none =>
      { status := .notComparable, reasons := [.expectationMissing],
        compatibilityReasons := ["expectation_mismatch"], limitations := requiredLimitations }
  | some expected =>
      if e.post.observation = .notTested then
        { status := .notTested, reasons := [.postChangeNotSampled],
          limitations := requiredLimitations }
      else
        match compatibilityFailureStatus (compatibility.getD ⟨false,["evidence_missing"]⟩) with
        | some failure =>
            { status := failure, limitations := requiredLimitations,
              compatibilityReasons := (compatibility.map (·.reasons)).getD ["evidence_missing"] }
        | none =>
            if fault then
              { status := .inconclusive, limitations := requiredLimitations, localError := true,
                reasons := (if path then [.pathNotProven] else [])++
                  [.localProbeError,.observationUnverified] }
            else judge expected (is expectation.protocol "udp") e

theorem evidenceOf_current (bs cs : List Observation) :
    evidenceOf (currentObservations bs) (currentObservations cs)
      (aggregateFirewallSamples (sideClasses (currentObservations cs))) bs cs = evidence bs cs := by
  simp only [evidenceOf,evidence,sideClasses_current,testedObservations_current,
    firewallDenialBasis_current]

open Classical in
/-- The classifier sees the two sides only through their evidence and the two faults. -/
theorem classify_eq (expectation : Expectation) (bs cs : List Observation)
    (compatibility : Option Compatibility) :
    classifyFirewallChangeItem expectation bs cs compatibility =
      conclude expectation compatibility (evidence bs cs) (decide (LocalFault bs cs))
        (decide (PathFault bs cs)) := by
  have hall : ∀ settled : List Observation,
      testedObservations (settled.take (currentObservations bs).length)++
        testedObservations (settled.drop (currentObservations bs).length) =
      testedObservations settled := by
    intro settled
    rw [← testedObservations_append,List.take_append_drop]
  have hlocal : (settledTested bs cs).any hasLocalError = decide (LocalFault bs cs) := by
    rw [Bool.eq_iff_iff,localError_iff,decide_eq_true_iff]
  have hpath : (settledTested bs cs).any (fun obs => is obs.reason "path_not_proven") =
      decide (PathFault bs cs) := by
    rw [Bool.eq_iff_iff,pathNotProven_iff,decide_eq_true_iff]
  have hpost : (evidence bs cs).post = aggregateFirewallSamples (sideClasses cs) := rfl
  unfold classifyFirewallChangeItem conclude
  cases expectedOf expectation.expected with
  | none => rfl
  | some expected =>
      dsimp only
      rw [hpost,sideClasses_current]
      split
      · rfl
      · cases compatibilityFailureStatus (compatibility.getD ⟨false,["evidence_missing"]⟩) with
        | some failure => rfl
        | none =>
            dsimp only
            rw [hall,← settledTested,hlocal,hpath]
            by_cases hfault : LocalFault bs cs
            · simp only [hfault,decide_true,if_true]
            · have hproven := settled_proven fun h => hfault (.inr h)
              simp only [hfault,decide_false,Bool.false_eq_true,if_false]
              rw [hproven,List.take_left,List.drop_left,← sideClasses_current cs,
                evidenceOf_current]

end AstraNull.FirewallChange

import Mathlib
import AstraNull.ScriptObject

/-!
# Fixes verified by a retest

`planFixVerifiedFromRetest` of `findingLifecycle.mjs` on arbitrary records. For a check that
only observes violations, up to seven metadata objects are merged before seven conditions are
tested, so a later object hides what an earlier one recorded under the same name.

A missing result of a step is an exception of the source. Lower case, the order of texts and
the digest of the deny rules are parameters.
-/
namespace AstraNull.RetestEvidence
open JsonText ScriptText ScriptValue ScriptObject

structure DenyRule where
  protocol : JsString
  port : Numeric
  addressFamily : JsString

structure Platform where
  toLowerCase : JsString → JsString
  localeCompare : JsString → JsString → Ordering
  /-- The hex digest of the JSON text of the rules. -/
  digest : List DenyRule → JsString

/-- How a call ends without a verified fix. -/
inductive Refusal where
  | threw
  | unchanged (reason : String)
deriving DecidableEq

/-- Return the reason when the condition holds; an exception when it cannot be evaluated. -/
def refuse (reason : String) : Option Bool → Except Refusal Unit
  | none => .error .threw
  | some true => .error (.unchanged reason)
  | some false => .ok ()

/-- `xs.every(f)`. -/
def everyOf (f : JsVal → Option Bool) : List JsVal → Option Bool
  | [] => some true
  | x::xs => do if ← f x then everyOf f xs else some false

/-- `xs.some(f)`. -/
def someOf (f : JsVal → Option Bool) : List JsVal → Option Bool
  | [] => some false
  | x::xs => do if ← f x then some true else someOf f xs

/-- `a || b`. -/
def orOf (a b : Option Bool) : Option Bool := do if ← a then some true else b

def startsWith (s : JsString) (start : String) : Bool := (js start).isPrefixOf s

def contains (s : JsString) (part : String) : Bool := s.tails.any fun t => startsWith t part

/-- The first value that is not nullish, else undefined. -/
def firstOf (vs : List JsVal) : JsVal := vs.foldr orElse .undefined

section Plan
variable (P : Platform)

/-- `String(v ?? '').trim().toLowerCase()`. -/
def normalized (v : JsVal) : JsString := P.toLowerCase (trim (toStr (orElse v (.str []))))

def ruleBefore (a b : DenyRule) : Bool :=
  match P.localeCompare a.protocol b.protocol with
  | .lt => true
  | .gt => false
  | .eq =>
      if a.port.lt b.port then true
      else if b.port.lt a.port then false
      else P.localeCompare a.addressFamily b.addressFamily ≠ .gt

def policyOf (declarations : JsVal) : List JsVal := elements (field declarations "network_policy")

def denyRules (declarations : JsVal) : List DenyRule :=
  (((policyOf declarations).filter fun r =>
    truthy r && is (field r "action") "deny" && !nullish (field r "port")).map fun r =>
      (⟨P.toLowerCase (toStr (orElse (field r "protocol") (.str (js "tcp")))),
        toNumber (field r "port"),
        P.toLowerCase (toStr (orElse (field r "address_family") (.str (js "any"))))⟩ :
          DenyRule)).mergeSort (ruleBefore P)

def computeDenyRulesDigest (declarations : JsVal) : Option JsString :=
  if !truthy declarations then none
  else if (denyRules P declarations).isEmpty then none
  else some (P.digest (denyRules P declarations))

/-- The first text that is not blank, trimmed. -/
def stampText : List JsVal → Option JsString
  | [] => none
  | .str s::vs => if trim s ≠ [] then some (trim s) else stampText vs
  | _::vs => stampText vs

def violationOnlyKinds : List String :=
  ["tcp_connect","udp_probe","port_scan_bounded","reflection_service_probe",
    "connection_limit_probe","host_sni_bypass"]

def isViolationOnlyCheck (checkId probeKind : JsVal) : Bool :=
  let id := toStr (orElse checkId (.str []))
  startsWith id "nfw." || startsWith id "reflect." ||
    oneOf (.str (toStr (orElse probeKind (.str [])))) violationOnlyKinds

def perspectiveId (value : JsVal) : Option JsString :=
  match value with
  | .str s => if trim s ≠ [] then some (trim s) else none
  | v => match field v "id" with
    | .str s => if trim s ≠ [] then some (trim s) else none
    | _ => none

def findingPerspective (finding : JsVal) : Option JsString :=
  perspectiveId (firstOf [field finding "source_perspective",
    field (field finding "metadata") "source_perspective",
    field (field finding "protection_validation") "source_perspective",
    field (field finding "failed_expectation") "source_perspective"])

def retestPerspective (run verdict : JsVal) : Option JsString :=
  perspectiveId (firstOf [field verdict "source_perspective",field run "source_perspective",
    field (field verdict "placement_confidence") "source_perspective",
    field (field run "probe_metadata") "source_perspective",
    field (field verdict "metadata") "source_perspective",
    field (field verdict "metadata_json") "source_perspective"])

/-- The metadata objects that are merged, in order. -/
def consulted (verdict run : JsVal) : List JsVal :=
  [field verdict "metadata",field verdict "metadata_json",field verdict "placement_confidence",
    field run "probe_metadata",field (field run "probe_external_result") "metadata",
    field run "summary_json",field run "summary"].filter isObject

def combinedMetadata (verdict run : JsVal) : JsVal := merged (consulted verdict run)

/-- The objects that may say a retest is incomplete. -/
def completenessSources (verdict run : JsVal) : List JsVal :=
  ([field verdict "metadata",field verdict "metadata_json",field run "probe_metadata",
    field run "summary_json",field run "summary"]++
      elements (field run "readiness_result_metadata")).filter isObject

def passingVerdicts : List String :=
  ["protected","pass","passed","success","ok","allowed_as_expected","edge_protected"]

def retestIncomplete (verdict run : JsVal) : Bool :=
  let value := .str (normalized P (field verdict "verdict"))
  !oneOf value passingVerdicts ||
    (completenessSources verdict run).any fun entry =>
      isFalse (field entry "complete") || isFalse (field entry "comparison_complete") ||
        isTrue (field entry "observation_only") || isFalse (field entry "planned_legs_complete") ||
        isFalse (field entry "evidence_complete") || isFalse (field entry "capture_complete")

def recordedCheckVersion (row : JsVal) : Option JsString :=
  stampText [field row "check_version",field row "check_definition_version",
    field (field row "protection_validation") "check_version",
    field (field row "provenance_json") "check_version"]

def recordedGradingVersion (row : JsVal) : Option JsString :=
  stampText [field row "grading_version",
    field (field row "protection_validation") "grading_version",
    field (field row "provenance_json") "grading_version",
    field (field row "metadata") "grading_version",
    field (field row "metadata_json") "grading_version",
    field (field row "probe_metadata") "grading_version"]

def hasEarlierPathProof (finding : JsVal) (perspective : JsString) (addressFamily : JsVal) : Bool :=
  isTrue (field finding "path_proven") ||
    [field finding "proven_paths",
      field (field finding "protection_validation") "proven_paths",
      field (field finding "metadata") "proven_paths"].any fun paths =>
        (elements paths).any fun p =>
          (!truthy (field p "perspective") || perspective.isEmpty ||
            toStr (field p "perspective") = perspective) &&
          (!truthy (field p "address_family") || nullish addressFamily ||
            (toStr addressFamily).isEmpty || toStr (field p "address_family") = toStr addressFamily)

/-- Condition 1: the retest ran to its end. -/
def completeRetest (verdict run : JsVal) : Except Refusal Unit := do
  refuse "retest_incomplete"
    (some (oneOf (.str (normalized P (field run "status"))) ["error","cancelled","canceled"]))
  let value := .str (normalized P (field verdict "verdict"))
  refuse "retest_incomplete" (some (!truthy value || oneOf value ["error","skipped"]))
  refuse "partial_or_inconclusive" (some ((completenessSources verdict run).any fun entry =>
    isFalse (field entry "complete") || isFalse (field entry "planned_legs_complete") ||
      isFalse (field entry "evidence_complete") || isFalse (field entry "capture_complete")))

/-- Condition 2: the perspective of the finding. -/
def samePerspective (finding verdict run : JsVal) : Except Refusal JsString :=
  match findingPerspective finding,retestPerspective run verdict with
  | some fp,some rp => if fp = rp then .ok fp else .error (.unchanged "perspective_mismatch")
  | _,_ => .error (.unchanged "perspective_mismatch")

def portRows (metadata : JsVal) : List JsVal := elements (field metadata "port_results")

def agreeing (v : JsVal) : Bool := oneOf v ["agree","agreed"]

def rowAgrees (row : JsVal) : Option Bool := do
  let agreement ← read row "sample_agreement"
  some (agreeing agreement && (!isArray (field row "samples") ||
    2 ≤ (elements (field row "samples")).length))

def portResultsAgree (metadata : JsVal) : Option Bool :=
  if (portRows metadata).isEmpty then some false else everyOf rowAgrees (portRows metadata)

def topAgree (metadata : JsVal) : Bool :=
  agreeing (field metadata "sample_agreement") &&
    if isArray (field metadata "samples") then 2 ≤ (elements (field metadata "samples")).length
    else (natNumber 2).le (toNumber (orElse (field metadata "samples_count")
      (field metadata "sample_count")))

/-- Condition 3: two agreeing samples. -/
def agreeingSamples (metadata : JsVal) : Except Refusal Unit :=
  refuse "samples_disagree_or_insufficient"
    ((portResultsAgree metadata).map fun rows => !topAgree metadata && !rows)

def observedVerdicts : List String := ["exposed","unprotected","gap","fail","failed"]

/-- Condition 4: no violation found. -/
def noViolation (verdict metadata : JsVal) : Except Refusal Unit := do
  refuse "violation_observed"
    (some (oneOf (.str (normalized P (field verdict "verdict"))) observedVerdicts))
  refuse "violation_observed" (some (isTrue (field verdict "createsFinding") ||
    isTrue (field verdict "creates_finding") || isTrue (field metadata "creates_finding")))
  refuse "violation_observed" (orOf (some (isTrue (field metadata "violation")))
    (someOf (fun row => (read row "result").map fun r => is r "violated") (portRows metadata)))

/-- Condition 5: no port is left unprobed. -/
def nothingUnprobed (metadata : JsVal) : Except Refusal Unit :=
  refuse "unprobed_deny_ports_present" (some (!(elements (orElse
    (field metadata "unprobed_deny_ports") (field metadata "unprobed_ports"))).isEmpty))

def rowSamples (row : JsVal) : Option (List JsVal) := do
  let samples ← read row "samples"
  some (if (elements samples).isEmpty then [row]
    else (elements samples).map fun s => merged [row,s])

def allSamples (metadata : JsVal) : Option (List JsVal) := do
  let rows ← (portRows metadata).mapM rowSamples
  let samples := elements (field metadata "samples")++rows.flatten
  some (if samples.isEmpty then [metadata] else samples)

def flagged (name : String) (metadata : JsVal) (samples : List JsVal) : Option Bool :=
  let holds := fun s => (read s name).map isTrue
  orOf (someOf holds samples)
    (orOf (some (isTrue (field metadata name))) (someOf holds (portRows metadata)))

def rejectIcmpMinElapsedMs : ℕ := 5

/-- An allowed outcome of a sample, or a rejection on a path proved earlier. -/
def attributed (finding metadata : JsVal) (perspective : JsString) (sample : JsVal)
    (outcome : JsVal) (allowed : List String) : Bool :=
  oneOf outcome allowed || is outcome "rejected_icmp" &&
    let elapsed := orElse (field sample "elapsed_ms") (field metadata "elapsed_ms")
    !nullish elapsed && (natNumber rejectIcmpMinElapsedMs).le (toNumber elapsed) &&
      hasEarlierPathProof finding perspective
        (orElse (field sample "address_family") (field metadata "address_family"))

def namesUdp (checkId : JsVal) : Option Bool :=
  match checkId with
  | .str s => some (contains s "udp")
  | .arr vs => some (vs.any (is · "udp"))
  | _ => none

/-- The recorded protocol, else the one the name of the check suggests. -/
def protocolText (checkId declared : JsVal) : Option JsString :=
  if nullish declared then (namesUdp checkId).map fun udp => js (if udp then "udp" else "tcp")
  else some (toStr declared)

def sampleAttributed (finding checkId metadata : JsVal) (perspective : JsString) (sample : JsVal) :
    Option Bool := do
  let own ← read sample "protocol"
  let declared := orElse own (field metadata "protocol")
  let named ← protocolText checkId declared
  some (if P.toLowerCase named = js "udp" then
      attributed finding metadata perspective sample
        (orElse (field sample "udp_outcome") (field sample "outcome")) ["silent"]
    else attributed finding metadata perspective sample
      (orElse (field sample "tcp_outcome") (field sample "outcome")) ["timeout","refused_rst"])

/-- Condition 6: every sample is a non-violation of the target itself. -/
def targetAttributed (finding checkId metadata : JsVal) (perspective : JsString) :
    Except Refusal Unit :=
  match allSamples metadata with
  | none => .error .threw
  | some samples => do
      refuse "local_probe_error" (flagged "local_error" metadata samples)
      refuse "peer_is_cdn" (flagged "peer_is_cdn" metadata samples)
      refuse "path_not_proven" ((everyOf
        (sampleAttributed P finding checkId metadata perspective) samples).map (!·))

def ruleDenies (port rule : JsVal) : Option Bool := do
  let action ← read rule "action"
  some (is action "deny" && (toNumber (field rule "port")).same (toNumber port))

def declarationCheck (checkId : JsVal) : Option Bool :=
  match checkId with
  | .str s => some (startsWith s "nfw.declared_deny_" || startsWith s "l3.")
  | _ => none

/-- Condition 7: the deny rules are those of the finding. -/
def sameDeclarations (finding verdict run declarations checkId : JsVal) : Except Refusal Unit :=
  let active := firstOf [declarations,field verdict "declarations",field run "declarations",
    field (field run "probe_metadata") "declarations"]
  let recorded := orElse (field finding "declaration_digest")
    (field (field finding "protection_validation") "declaration_digest")
  let digest := computeDenyRulesDigest P active
  if truthy recorded then do
    refuse "declaration_changed" (some (!truthy active))
    refuse "declaration_changed" (some (!(digest.any fun d => strictEq (.str d) recorded)))
    let ports := elements (orElse (field finding "declared_deny_ports") (field finding "ports"))
    refuse "declaration_changed"
      ((everyOf (fun port => someOf (ruleDenies port) (policyOf active)) ports).map (!·))
  else if nullish active then .ok ()
  else
    refuse "declaration_changed"
      ((declarationCheck checkId).map fun declared => declared && digest.all fun d => d.isEmpty)

def violationNotReproduced (finding verdict run declarations checkId : JsVal) :
    Except Refusal Unit := do
  completeRetest P verdict run
  let perspective ← samePerspective finding verdict run
  let metadata := combinedMetadata verdict run
  agreeingSamples metadata
  noViolation P verdict metadata
  nothingUnprobed metadata
  targetAttributed P finding checkId metadata perspective
  sameDeclarations P finding verdict run declarations checkId

structure FixVerified where
  verificationBasis : String
  findingId : JsVal
  closedAt : JsVal
  verifyingRunId : JsVal
  lastVerdictId : JsVal

/-- Both are there and differ. -/
def differ (a b : Option JsString) : Bool :=
  match a,b with
  | some a,some b => a ≠ b
  | _,_ => false

def checkIdOf (finding run verdict : JsVal) : JsVal :=
  firstOf [field finding "check_id",field run "check_id",field verdict "check_id"]

def probeKindOf (run verdict : JsVal) : JsVal :=
  orElse (field (field run "probe_profile") "kind") (field (field verdict "probe_profile") "kind")

/-- The finding is open and the retest is one of its check, target and group. -/
def sameScope (finding run verdict : JsVal) : Except Refusal Unit := do
  let status := P.toLowerCase (trim (toStr (firstOf [field finding "status",field finding "state",
    .str []])))
  refuse "not_open" (some (!oneOf (.str status) ["open","in_progress"]))
  refuse "missing_input" (some (!truthy finding || !truthy run || !truthy verdict))
  refuse "check_mismatch" (some (!strictEq (field finding "check_id") (field run "check_id") &&
    !strictEq (field finding "check_id") (field verdict "check_id")))
  let targetId := orElse (field run "target_id") (field verdict "target_id")
  refuse "target_mismatch" (some (truthy (field finding "target_id") && truthy targetId &&
    !strictEq (field finding "target_id") targetId))
  refuse "scope_mismatch" (some (truthy (field finding "target_group_id") &&
    truthy (field run "target_group_id") &&
    !strictEq (field finding "target_group_id") (field run "target_group_id")))

def sameVersions (finding run verdict : JsVal) : Except Refusal Unit := do
  refuse "check_definition_version_mismatch" (some (differ (recordedCheckVersion finding)
    ((recordedCheckVersion run).or (recordedCheckVersion verdict))))
  refuse "grading_version_mismatch" (some (differ (recordedGradingVersion finding)
    ((recordedGradingVersion verdict).or (recordedGradingVersion run))))

def planFixVerifiedFromRetest (finding run verdict declarations closedAt : JsVal) :
    Except Refusal FixVerified := do
  sameScope P finding run verdict
  let checkId := checkIdOf finding run verdict
  let violationOnly := isViolationOnlyCheck checkId (probeKindOf run verdict)
  if violationOnly then violationNotReproduced P finding verdict run declarations checkId
  else refuse "partial_or_inconclusive" (some (retestIncomplete P verdict run))
  sameVersions finding run verdict
  .ok
    { verificationBasis := if violationOnly then "violation_not_reproduced" else "passing_retest"
      findingId := orElse (field finding "id") .null
      closedAt := closedAt
      verifyingRunId := orElse (field run "id") .null
      lastVerdictId := firstOf [field verdict "id",field finding "last_verdict_id",.null] }

variable {P}

theorem bind_ok {α β : Type} {x : Except Refusal α} {g : α → Except Refusal β} {r : β} :
    (x >>= g) = .ok r ↔ ∃ a,x = .ok a ∧ g a = .ok r := by
  cases x with
  | error e => simp [bind,Except.bind]
  | ok a => simp [bind,Except.bind]

theorem refuse_ok {reason : String} {condition : Option Bool} :
    refuse reason condition = .ok () ↔ condition = some false := by
  rcases condition with _ | _ | _ <;> simp [refuse]

theorem orOf_false {a b : Option Bool} : orOf a b = some false ↔ a = some false ∧ b = some false := by
  rcases a with _ | _ | _ <;> simp [orOf]

theorem someOf_false {f : JsVal → Option Bool} {xs : List JsVal} :
    someOf f xs = some false ↔ ∀ x ∈ xs,f x = some false := by
  induction xs with
  | nil => simp [someOf]
  | cons x xs ih =>
      rw [someOf,List.forall_mem_cons,← ih]
      rcases f x with _ | _ | _ <;> simp

/-- Condition 4, read back. -/
theorem noViolation_ok {verdict metadata : JsVal} (h : noViolation P verdict metadata = .ok ()) :
    oneOf (.str (normalized P (field verdict "verdict"))) observedVerdicts = false ∧
      isTrue (field metadata "violation") = false ∧
      ∀ row ∈ portRows metadata,is (field row "result") "violated" = false := by
  unfold noViolation at h
  obtain ⟨_,hverdict,h⟩ := bind_ok.mp h
  obtain ⟨_,_,hrows⟩ := bind_ok.mp h
  obtain ⟨hviolation,hrows⟩ := orOf_false.mp (refuse_ok.mp hrows)
  refine ⟨Option.some.inj (refuse_ok.mp hverdict),Option.some.inj hviolation,fun row hrow => ?_⟩
  have hread := someOf_false.mp hrows row hrow
  unfold ScriptValue.read at hread
  split_ifs at hread with hnull
  · cases hread
  · exact Option.some.inj hread

theorem accepted_noViolation {finding run verdict declarations closedAt : JsVal} {f : FixVerified}
    (hkind : isViolationOnlyCheck (checkIdOf finding run verdict) (probeKindOf run verdict) = true)
    (h : planFixVerifiedFromRetest P finding run verdict declarations closedAt = .ok f) :
    noViolation P verdict (combinedMetadata verdict run) = .ok () := by
  unfold planFixVerifiedFromRetest at h
  obtain ⟨_,_,h⟩ := bind_ok.mp h
  rw [if_pos hkind] at h
  obtain ⟨_,h,_⟩ := bind_ok.mp h
  unfold violationNotReproduced at h
  obtain ⟨_,_,h⟩ := bind_ok.mp h
  obtain ⟨_,_,h⟩ := bind_ok.mp h
  obtain ⟨_,_,h⟩ := bind_ok.mp h
  obtain ⟨_,h,_⟩ := bind_ok.mp h
  exact h

variable (P)

def failingVerdicts : List String :=
  ["exposed","edge_exposed","unprotected","gap","fail","failed","bypassable","penetrated"]

/-- The failing verdicts that condition 4 does not list. -/
def unlistedVerdicts : List String := ["edge_exposed","bypassable","penetrated"]

def Disagrees (agreement : JsVal) : Prop := is agreement "disagree" = true

instance (agreement : JsVal) : Decidable (Disagrees agreement) :=
  inferInstanceAs (Decidable (_ = true))

def Sampled (row : JsVal) : Prop := 2 ≤ (elements (field row "samples")).length

/-- A list of port rows with a violated, a disagreeing or an undersampled row. -/
def FaultyRows (portResults : JsVal) : Prop :=
  ∃ row ∈ elements portResults,is (field row "result") "violated" = true ∨
    Disagrees (field row "sample_agreement") ∨ ¬ Sampled row

/-- The verdict does not fail, and no object that was consulted records a violation, a
disagreement or a port with less than two samples. -/
structure SoundRetest (verdict run : JsVal) : Prop where
  passing : oneOf (.str (normalized P (field verdict "verdict"))) failingVerdicts = false
  violation : ∀ o ∈ consulted verdict run,¬ isTrue (field o "violation") = true
  agreement : ∀ o ∈ consulted verdict run,¬ Disagrees (field o "sample_agreement")
  rows : ∀ o ∈ consulted verdict run,¬ FaultyRows (field o "port_results")

/-- The verdict is none of those that are not listed, no later object hides a fault of an
earlier one, and the merged metadata has neither a disagreement nor a port with less than two
samples. -/
structure PlainRetest (verdict run : JsVal) : Prop where
  listed : oneOf (.str (normalized P (field verdict "verdict"))) unlistedVerdicts = false
  violation : ¬ Shadowed (isTrue · = true) "violation" (consulted verdict run)
  agreement : ¬ Shadowed Disagrees "sample_agreement" (consulted verdict run)
  rows : ¬ Shadowed FaultyRows "port_results" (consulted verdict run)
  merged : ¬ Disagrees (field (combinedMetadata verdict run) "sample_agreement")
  mergedRows : ∀ row ∈ portRows (combinedMetadata verdict run),
    ¬ Disagrees (field row "sample_agreement") ∧ Sampled row

variable {P}

theorem oneOf_failing (v : JsVal) :
    oneOf v failingVerdicts = (oneOf v observedVerdicts || oneOf v unlistedVerdicts) := by
  simp only [oneOf,failingVerdicts,observedVerdicts,unlistedVerdicts,List.any_cons,List.any_nil,
    Bool.or_false]
  ac_rfl

theorem soundRetest_iff {verdict run : JsVal}
    (h : noViolation P verdict (combinedMetadata verdict run) = .ok ()) :
    SoundRetest P verdict run ↔ PlainRetest P verdict run := by
  obtain ⟨hobserved,hviolation,hrows⟩ := noViolation_ok h
  have hmerged : ¬ FaultyRows (field (combinedMetadata verdict run) "port_results") ↔
      ∀ row ∈ portRows (combinedMetadata verdict run),
        ¬ Disagrees (field row "sample_agreement") ∧ Sampled row := by
    constructor
    · intro hnot row hrow
      exact ⟨fun hd => hnot ⟨row,hrow,.inr (.inl hd)⟩,
        not_not.mp fun hs => hnot ⟨row,hrow,.inr (.inr hs)⟩⟩
    · rintro hall ⟨row,hrow,hv | hd | hs⟩
      · rw [hrows row hrow] at hv
        cases hv
      · exact (hall row hrow).1 hd
      · exact hs (hall row hrow).2
  have hv := @sources_sound_iff (isTrue · = true) (by simp [ScriptValue.isTrue]) "violation"
    (consulted verdict run)
  have ha := @sources_sound_iff Disagrees (by simp [Disagrees,is]) "sample_agreement"
    (consulted verdict run)
  have hr := @sources_sound_iff FaultyRows (by simp [FaultyRows,elements]) "port_results"
    (consulted verdict run)
  constructor
  · intro hs
    refine ⟨?_,(hv.mp hs.violation).2,(ha.mp hs.agreement).2,(hr.mp hs.rows).2,
      (ha.mp hs.agreement).1,hmerged.mp (hr.mp hs.rows).1⟩
    have hverdict := hs.passing
    rw [oneOf_failing,Bool.or_eq_false_iff] at hverdict
    exact hverdict.2
  · intro hp
    refine ⟨?_,hv.mpr ⟨?_,hp.violation⟩,ha.mpr ⟨hp.merged,hp.agreement⟩,
      hr.mpr ⟨hmerged.mpr hp.mergedRows,hp.rows⟩⟩
    · rw [oneOf_failing,hobserved,hp.listed,Bool.or_false]
    · exact ne_true_of_eq_false hviolation

end Plan

/-- Among the retests of a check that only observes violations, those whose fix is taken as
verified are sound exactly when they are plain. -/
theorem violation_only_fix_verified_iff (P : Platform)
    (finding run verdict declarations closedAt : JsVal) :
    (isViolationOnlyCheck (checkIdOf finding run verdict) (probeKindOf run verdict) = true →
      (∃ f,planFixVerifiedFromRetest P finding run verdict declarations closedAt = .ok f) →
        SoundRetest P verdict run) ↔
    (isViolationOnlyCheck (checkIdOf finding run verdict) (probeKindOf run verdict) = true →
      (∃ f,planFixVerifiedFromRetest P finding run verdict declarations closedAt = .ok f) →
        PlainRetest P verdict run) := by
  refine forall_congr' fun hkind => forall_congr' fun haccepted => ?_
  obtain ⟨f,hf⟩ := haccepted
  exact soundRetest_iff (accepted_noViolation hkind hf)

section Example

def text (s : String) : JsVal := .str (js s)

/-- A platform for lower case texts. -/
def lowerPlatform : Platform := ⟨id,fun _ _ => .eq,fun _ => []⟩

def openFinding : JsVal :=
  .obj [(js "status",text "open"),(js "check_id",text "nfw.declared_deny_tcp.safe"),
    (js "source_perspective",text "eu-1")]

def silentSample : JsVal := .obj [(js "tcp_outcome",text "timeout")]

/-- Two silent samples, with what the metadata says of a violation. -/
def silentMetadata (violation : Bool) : JsVal :=
  .obj [(js "violation",.bool violation),(js "sample_agreement",text "agree"),
    (js "samples",.arr [silentSample,silentSample])]

def silentRun : JsVal :=
  .obj [(js "check_id",text "nfw.declared_deny_tcp.safe"),(js "status",text "verdicted"),
    (js "probe_metadata",silentMetadata false)]

def retestVerdict (metadata : JsVal) : JsVal :=
  .obj [(js "verdict",text "inconclusive"),(js "source_perspective",text "eu-1"),
    (js "metadata",metadata)]

def isAccepted (r : Except Refusal FixVerified) : Bool :=
  match r with
  | .ok _ => true
  | .error _ => false

theorem exists_of_isAccepted {r : Except Refusal FixVerified} (h : isAccepted r = true) :
    ∃ f,r = .ok f := by
  cases r with
  | ok f => exact ⟨f,rfl⟩
  | error e => cases h

/-- Only the metadata of the run is there, and it is plain. -/
theorem plain_retest_sound : SoundRetest lowerPlatform (retestVerdict .null) silentRun := by
  have hsources : consulted (retestVerdict .null) silentRun = [silentMetadata false] := rfl
  refine (violation_only_fix_verified_iff lowerPlatform openFinding silentRun (retestVerdict .null)
    .null .null).mpr (fun _ _ => ?_) (by decide +kernel)
    (exists_of_isAccepted (by decide +kernel))
  refine ⟨by decide,?_,?_,?_,by decide,?_⟩
  · rw [hsources]
    exact not_shadowed_singleton
  · rw [hsources]
    exact not_shadowed_singleton
  · rw [hsources]
    exact not_shadowed_singleton
  · have hnone : portRows (combinedMetadata (retestVerdict .null) silentRun) = [] := rfl
    simp [hnone]

/-- The violation recorded with the verdict is hidden by the metadata of the run. -/
theorem hidden_violation_verified :
    ¬ ∀ (P : Platform) (finding run verdict declarations closedAt : JsVal),
      isViolationOnlyCheck (checkIdOf finding run verdict) (probeKindOf run verdict) = true →
      (∃ f,planFixVerifiedFromRetest P finding run verdict declarations closedAt = .ok f) →
        SoundRetest P verdict run := by
  intro hall
  have hsound := hall lowerPlatform openFinding silentRun (retestVerdict (silentMetadata true))
    .null .null (by decide +kernel) (exists_of_isAccepted (by decide +kernel))
  exact hsound.violation (silentMetadata true) (List.mem_filter.mpr ⟨.head _,rfl⟩) rfl

end Example

end AstraNull.RetestEvidence

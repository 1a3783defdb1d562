import Mathlib
import AstraNull.CorrelationSafety
import AstraNull.ScriptObject

/-!
# Ports and their verdicts

Which (port, family) pairs a bounded port scan reports as violated denies, against what
the metadata records, and how the verdict of a probe over several ports follows from the
verdicts of its rows.
-/
namespace AstraNull.PortVerdicts
open NumberText JsonText ScriptText ScriptValue Correlation CorrelationSafety
open ScriptObject (put members field_put_self field_put_other remove_put_self)

/-- The violated denies in the order they are found. -/
def portScanLeaks (metadata declarations : JsVal) : Option (List Leak) := do
  let open4 ← openPortsOf metadata .ipv4
  let leaks4 ← familyLeaks declarations .ipv4 open4.zipIdx
  let open6 ← openPortsOf metadata .ipv6
  let leaks6 ← familyLeaks declarations .ipv6 open6.zipIdx
  if !truthy (field metadata "families") && isArray (field metadata "open_ports") then
    extraLeaks declarations (addressFamilyName (field metadata "address_family")) (leaks4++leaks6)
      (elements (field metadata "open_ports")).zipIdx
  else some (leaks4++leaks6)

/-- The text names every leak with its family. -/
def reportLeaks (metadata : JsVal) (leaks : List Leak) : Option Outcome :=
  let position := (leaks.findIdx? fun row => isHighSeverityPort (toNumber row.port)).getD 0
  match leaks[position]? with
  | none => none
  | some primary =>
      let others := leaks.eraseIdx position
      let oneFamily := leaks.all fun row => row.family = primary.family
      let parity := is (field metadata "parity") "mismatch" && oneFamily &&
        bothFamiliesSampled metadata (toNumber primary.port)
      let parityText := if parity then
        js " IPv6 parity mismatch: "++primary.family.text++js " is the leaking family." else []
      let othersText := if others.isEmpty then []
        else js " Also violated: "++join ", " (others.map fun row =>
          js "tcp/"++toStr row.port++js " ("++row.family.text++js ")")++js "."
      some (nfwExposed (toNumber primary.port) (toStr primary.port) .tcp primary.family
        metadata (parityText++othersText))

theorem correlatePortScan_eq (metadata declarations : JsVal) :
    correlatePortScan metadata declarations =
      (portScanLeaks metadata declarations).map (reportLeaks metadata) := by
  have hreport : ∀ leaks : Option (List Leak),
      leaks.bind (fun leaks => some (reportLeaks metadata leaks)) =
        leaks.map (reportLeaks metadata) := by
    intro leaks
    cases leaks <;> rfl
  unfold correlatePortScan portScanLeaks
  simp only [Option.bind_eq_bind]
  cases openPortsOf metadata .ipv4 with
  | none => rfl
  | some open4 =>
      simp only [Option.bind_some]
      cases familyLeaks declarations .ipv4 open4.zipIdx with
      | none => rfl
      | some leaks4 =>
          simp only [Option.bind_some]
          cases openPortsOf metadata .ipv6 with
          | none => rfl
          | some open6 =>
              simp only [Option.bind_some]
              cases familyLeaks declarations .ipv6 open6.zipIdx with
              | none => rfl
              | some leaks6 =>
                  simp only [Option.bind_some]
                  rw [← hreport]
                  by_cases hsecond : (!truthy (field metadata "families") &&
                      isArray (field metadata "open_ports")) = true
                  · rw [if_pos hsecond,if_pos hsecond]
                    congr 1
                    funext leaks
                    unfold reportLeaks
                    simp only
                    split <;> simp_all
                  · rw [if_neg hsecond,if_neg hsecond]
                    unfold reportLeaks
                    simp only [Option.bind_some]
                    split <;> simp_all

/-- The scan is read at all: its samples agree and the peer is no edge of a CDN. -/
def Usable (metadata : JsVal) : Prop :=
  samplesDisagree metadata .null = false ∧ peerIsCdn metadata .null = false

theorem nfwViolation_portScan {metadata : JsVal} (husable : Usable metadata)
    (declarations : JsVal) :
    correlateNfwViolation (say "port_scan_bounded") metadata declarations =
      (portScanLeaks metadata declarations).map (reportLeaks metadata) := by
  have hlimit : is (say "port_scan_bounded") "connection_limit_probe" = false := by decide
  have hkind : is (say "port_scan_bounded") "port_scan_bounded" = true := by decide
  rw [correlateNfwViolation,hlimit,husable.1,husable.2,hkind,← correlatePortScan_eq]
  rfl

/-- A violated deny of this port and family is among the leaks the verdict names. -/
def Reported (metadata declarations port : JsVal) (family : Family) : Prop :=
  Usable metadata ∧ ∃ leaks,portScanLeaks metadata declarations = some leaks ∧
    ∃ leak ∈ leaks,leak.port = port ∧ leak.family = family

def NoBuckets (metadata : JsVal) : Prop := ∀ family,familyBucket metadata family = .null

/-- The port is open in the bucket of the family or, when there is no bucket at all, at the
top level of metadata of that family. -/
def Recorded (metadata port : JsVal) (family : Family) : Prop :=
  port ∈ elements (field (familyBucket metadata family) "open_ports") ∨
    (NoBuckets metadata ∧ port ∈ elements (field metadata "open_ports") ∧
      addressFamilyName (field metadata "address_family") = family)

/-- The family has no list of its own and the first pass takes the ports of the top level. -/
def TakesTopLevel (metadata : JsVal) (family : Family) : Prop :=
  isArray (field (familyBucket metadata family) "open_ports") = false ∧
    (family = .ipv4 ∨ truthy (field metadata "families") = false)

theorem mem_familyLeaks {declarations : JsVal} {family : Family} {ports : List (JsVal × ℕ)}
    {leaks : List Leak} (h : familyLeaks declarations family ports = some leaks) {leak : Leak} :
    leak ∈ leaks ↔ leak.family = family ∧ (leak.port,leak.slot) ∈ ports ∧
      declaredDeny declarations .tcp (toNumber leak.port) family = some true := by
  induction ports generalizing leaks with
  | nil =>
      cases h
      simp
  | cons entry ports ih =>
      obtain ⟨port,slot⟩ := entry
      simp only [familyLeaks,Option.bind_eq_bind,Option.bind_eq_some_iff] at h
      obtain ⟨denied,hdenied,rest,hrest,h⟩ := h
      have hih := ih hrest
      cases denied with
      | true =>
          cases h
          simp only [if_true,List.mem_cons,hih,Prod.mk.injEq]
          constructor
          · rintro (rfl | ⟨hf,hmem,hd⟩)
            · exact ⟨rfl,Or.inl ⟨rfl,rfl⟩,hdenied⟩
            · exact ⟨hf,Or.inr hmem,hd⟩
          · rintro ⟨hf,⟨hp,hs⟩ | hmem,hd⟩
            · left
              cases leak
              simp_all
            · exact Or.inr ⟨hf,hmem,hd⟩
      | false =>
          cases h
          simp only [Bool.false_eq_true,if_false,List.mem_cons,hih,Prod.mk.injEq]
          constructor
          · rintro ⟨hf,hmem,hd⟩
            exact ⟨hf,Or.inr hmem,hd⟩
          · rintro ⟨hf,⟨hp,hs⟩ | hmem,hd⟩
            · rw [hp,hdenied] at hd
              cases hd
            · exact ⟨hf,hmem,hd⟩

/-- The second pass keeps the leaks and adds ports of its list under its family. -/
theorem extraLeaks_spec {declarations : JsVal} {family : Family} {ports : List (JsVal × ℕ)}
    {leaks out : List Leak} (h : extraLeaks declarations family leaks ports = some out) :
    (∀ leak ∈ leaks,leak ∈ out) ∧
      ∀ leak ∈ out,leak ∈ leaks ∨ (leak.family = family ∧ (leak.port,leak.slot) ∈ ports) := by
  induction ports generalizing leaks with
  | nil =>
      cases h
      exact ⟨fun _ hl => hl,fun _ hl => Or.inl hl⟩
  | cons entry ports ih =>
      obtain ⟨port,slot⟩ := entry
      simp only [extraLeaks,Option.bind_eq_bind,Option.bind_eq_some_iff] at h
      obtain ⟨denied,_,h⟩ := h
      obtain ⟨hkeep,hfrom⟩ := ih h
      split_ifs at hkeep hfrom
      · refine ⟨fun leak hl => hkeep leak (List.mem_append_left _ hl),fun leak hl => ?_⟩
        rcases hfrom leak hl with hl | ⟨hf,hmem⟩
        · rcases List.mem_append.mp hl with hl | hl
          · exact Or.inl hl
          · cases List.mem_singleton.mp hl
            exact Or.inr ⟨rfl,by simp⟩
        · exact Or.inr ⟨hf,List.mem_cons_of_mem _ hmem⟩
      · refine ⟨hkeep,fun leak hl => ?_⟩
        rcases hfrom leak hl with hl | ⟨hf,hmem⟩
        · exact Or.inl hl
        · exact Or.inr ⟨hf,List.mem_cons_of_mem _ hmem⟩

/-- Where the ports of a family come from. -/
theorem openPortsOf_cases {metadata : JsVal} {family : Family} {ports : List JsVal}
    (h : openPortsOf metadata family = some ports) :
    (ports = elements (field (familyBucket metadata family) "open_ports") ∧
        ¬ TakesTopLevel metadata family) ∨
      (ports = elements (field metadata "open_ports") ∧ TakesTopLevel metadata family) ∨
      (ports = [] ∧ ¬ TakesTopLevel metadata family) := by
  unfold openPortsOf at h
  simp only at h
  split_ifs at h with hown htop
  · exact Or.inl ⟨(Option.some.inj h).symm,fun ht => by simp [ht.1] at hown⟩
  · refine Or.inr (Or.inl ⟨?_,by simpa using hown,by simpa using htop⟩)
    obtain ⟨v,hv,rfl⟩ := Option.map_eq_some_iff.mp h
    unfold ScriptValue.read at hv
    split_ifs at hv
    rw [← Option.some.inj hv]
  · exact Or.inr (Or.inr ⟨(Option.some.inj h).symm,fun ht => htop (by simpa using ht.2)⟩)

/-- Every leak is open in the bucket of its family, or was taken from the top level. -/
theorem familyLeaks_source {metadata declarations : JsVal} {family : Family}
    {ports : List JsVal} {leaks : List Leak} (hports : openPortsOf metadata family = some ports)
    (hleaks : familyLeaks declarations family ports.zipIdx = some leaks) :
    ∀ leak ∈ leaks,leak.family = family ∧
      (leak.port ∈ elements (field (familyBucket metadata family) "open_ports") ∨
        (TakesTopLevel metadata family ∧ leak.port ∈ elements (field metadata "open_ports") ∧
          declaredDeny declarations .tcp (toNumber leak.port) family = some true)) := by
  intro leak hleak
  obtain ⟨hf,hmem,hd⟩ := (mem_familyLeaks hleaks).mp hleak
  have hport : leak.port ∈ ports := List.fst_mem_of_mem_zipIdx hmem
  rcases openPortsOf_cases hports with ⟨rfl,_⟩ | ⟨rfl,ht⟩ | ⟨rfl,_⟩
  · exact ⟨hf,Or.inl hport⟩
  · exact ⟨hf,Or.inr ⟨ht,hport,hd⟩⟩
  · cases hport

/-- A denied port of the top level is a leak of each family that takes the top level. -/
theorem topLevel_leaks {metadata declarations : JsVal} {family : Family}
    {ports : List JsVal} {leaks : List Leak} (hports : openPortsOf metadata family = some ports)
    (hleaks : familyLeaks declarations family ports.zipIdx = some leaks)
    (htop : TakesTopLevel metadata family) {port : JsVal}
    (hport : port ∈ elements (field metadata "open_ports"))
    (hdeny : declaredDeny declarations .tcp (toNumber port) family = some true) :
    ∃ leak ∈ leaks,leak.port = port ∧ leak.family = family := by
  rcases openPortsOf_cases hports with ⟨_,hno⟩ | ⟨rfl,_⟩ | ⟨_,hno⟩
  · exact absurd htop hno
  · obtain ⟨slot,hslot,rfl⟩ := List.mem_iff_getElem.mp hport
    refine ⟨⟨slot,_,family⟩,(mem_familyLeaks hleaks).mpr ⟨rfl,?_,hdeny⟩,rfl,rfl⟩
    exact List.mk_mem_zipIdx_iff_getElem?.mpr (List.getElem?_eq_getElem hslot)
  · exact absurd htop hno

theorem noBuckets_of_families {metadata : JsVal} (h : truthy (field metadata "families") = false) :
    NoBuckets metadata := by
  intro family
  unfold familyBucket
  cases hf : field metadata "families" with
  | arr vs => simp [hf,truthy] at h
  | obj kvs => simp [hf,truthy] at h
  | _ => simp [isObject]

theorem portScanLeaks_parts {metadata declarations : JsVal} {leaks : List Leak}
    (h : portScanLeaks metadata declarations = some leaks) :
    ∃ open4 leaks4 open6 leaks6,openPortsOf metadata .ipv4 = some open4 ∧
      familyLeaks declarations .ipv4 open4.zipIdx = some leaks4 ∧
      openPortsOf metadata .ipv6 = some open6 ∧
      familyLeaks declarations .ipv6 open6.zipIdx = some leaks6 ∧
      (∀ leak ∈ leaks4++leaks6,leak ∈ leaks) ∧
      ∀ leak ∈ leaks,leak ∈ leaks4++leaks6 ∨ Recorded metadata leak.port leak.family := by
  simp only [portScanLeaks,Option.bind_eq_bind,Option.bind_eq_some_iff] at h
  obtain ⟨open4,h1,leaks4,h2,open6,h3,leaks6,h4,h⟩ := h
  refine ⟨open4,leaks4,open6,leaks6,h1,h2,h3,h4,?_⟩
  split_ifs at h with hsecond
  · obtain ⟨hkeep,hfrom⟩ := extraLeaks_spec h
    refine ⟨hkeep,fun leak hl => (hfrom leak hl).imp_right fun ⟨hf,hmem⟩ => ?_⟩
    have hfam : truthy (field metadata "families") = false := by simp_all
    exact Or.inr ⟨noBuckets_of_families hfam,List.fst_mem_of_mem_zipIdx hmem,hf.symm⟩
  · cases h
    exact ⟨fun _ hl => hl,fun _ hl => Or.inl hl⟩

/-- The families that take the top level do so for their own ports, or for none that is
denied. -/
def Attributable (metadata declarations : JsVal) : Prop :=
  ∀ family,TakesTopLevel metadata family →
    (NoBuckets metadata ∧ addressFamilyName (field metadata "address_family") = family) ∨
      ∀ port ∈ elements (field metadata "open_ports"),
        declaredDeny declarations .tcp (toNumber port) family ≠ some true

theorem attributable_recorded {metadata declarations : JsVal}
    (hattr : Attributable metadata declarations) {port : JsVal} {family : Family}
    (hreport : Reported metadata declarations port family) : Recorded metadata port family := by
  obtain ⟨_,leaks,hleaks,leak,hleak,rfl,rfl⟩ := hreport
  obtain ⟨open4,leaks4,open6,leaks6,h1,h2,h3,h4,_,hfrom⟩ := portScanLeaks_parts hleaks
  have hsource : ∀ (f : Family),leak.family = f ∧
      (leak.port ∈ elements (field (familyBucket metadata f) "open_ports") ∨
        (TakesTopLevel metadata f ∧ leak.port ∈ elements (field metadata "open_ports") ∧
          declaredDeny declarations .tcp (toNumber leak.port) f = some true)) →
      Recorded metadata leak.port leak.family := by
    rintro f ⟨hf,hbucket | ⟨htop,hport,hdeny⟩⟩
    · exact Or.inl (hf ▸ hbucket)
    · rcases hattr f htop with ⟨hno,hfam⟩ | hnone
      · exact Or.inr ⟨hno,hport,hfam.trans hf.symm⟩
      · exact absurd hdeny (hnone _ hport)
  rcases hfrom leak hleak with hleak | hrec
  · rcases List.mem_append.mp hleak with hleak | hleak
    · exact hsource _ (familyLeaks_source h1 h2 leak hleak)
    · exact hsource _ (familyLeaks_source h3 h4 leak hleak)
  · exact hrec

/-- A scan that returns reports only recorded pairs if and only if it is not read at all,
or no family takes denied ports of the top level that are not its own. -/
theorem port_scan_attribution_iff {metadata declarations : JsVal} {result : Option Outcome}
    (h : correlateNfwViolation (say "port_scan_bounded") metadata declarations = some result) :
    (∀ port family,Reported metadata declarations port family → Recorded metadata port family) ↔
      (Usable metadata → Attributable metadata declarations) := by
  constructor
  · intro hrecorded husable family htop
    by_contra hbad
    rw [not_or,not_forall] at hbad
    obtain ⟨hown,port,hport⟩ := hbad
    rw [Classical.not_imp,not_not] at hport
    obtain ⟨hport,hdeny⟩ := hport
    rw [nfwViolation_portScan husable] at h
    obtain ⟨leaks,hleaks,_⟩ := Option.map_eq_some_iff.mp h
    obtain ⟨open4,leaks4,open6,leaks6,h1,h2,h3,h4,hkeep,_⟩ := portScanLeaks_parts hleaks
    have hleak : ∃ leak ∈ leaks4++leaks6,leak.port = port ∧ leak.family = family := by
      cases family with
      | ipv4 =>
          obtain ⟨leak,hmem,hl⟩ := topLevel_leaks h1 h2 htop hport hdeny
          exact ⟨leak,List.mem_append_left _ hmem,hl⟩
      | ipv6 =>
          obtain ⟨leak,hmem,hl⟩ := topLevel_leaks h3 h4 htop hport hdeny
          exact ⟨leak,List.mem_append_right _ hmem,hl⟩
    obtain ⟨leak,hmem,hl⟩ := hleak
    have hrec := hrecorded port family ⟨husable,leaks,hleaks,leak,hkeep leak hmem,hl⟩
    rcases hrec with hbucket | ⟨hno,_,hfam⟩
    · have hnone : elements (field (familyBucket metadata family) "open_ports") = [] := by
        have harr := htop.1
        revert harr
        cases field (familyBucket metadata family) "open_ports" <;> simp [isArray,elements]
      rw [hnone] at hbucket
      cases hbucket
    · exact hown ⟨hno,hfam⟩
  · intro hattr port family hreport
    exact attributable_recorded (hattr hreport.1) hreport

/-- An open port of a scan over IPv4 without buckets. -/
def ipv4Scan : JsVal :=
  .obj [(js "open_ports",.arr [.num sshPort]),(js "address_family",say "ipv4")]

def denySsh (family : Family) : JsVal :=
  .obj [(js "network_policy",.arr [.obj [(js "protocol",say "tcp"),(js "port",.num sshPort),
    (js "address_family",say family.name),(js "action",say "deny")]])]

theorem ipv4Scan_leaks (family : Family) :
    portScanLeaks ipv4Scan (denySsh family) = some [⟨0,.num sshPort,family⟩] := by
  cases family <;> rfl

theorem ipv4Scan_usable : Usable ipv4Scan := ⟨by decide,by decide⟩

theorem ipv4_deny_attributed : Usable ipv4Scan ∧
    ∀ port family,Reported ipv4Scan (denySsh .ipv4) port family →
      Recorded ipv4Scan port family := by
  refine ⟨ipv4Scan_usable,?_⟩
  have hresult := nfwViolation_portScan ipv4Scan_usable (denySsh .ipv4)
  rw [ipv4Scan_leaks .ipv4] at hresult
  refine (port_scan_attribution_iff hresult).mpr fun _ family _ => ?_
  cases family with
  | ipv4 => exact Or.inl ⟨noBuckets_of_families (by decide),by decide⟩
  | ipv6 =>
      refine Or.inr fun port hport => ?_
      have hssh : port = .num sshPort := by simpa [ipv4Scan,field,elements,JsVal.get] using hport
      subst hssh
      decide

/-- A deny for IPv6 is reported as violated by a scan over IPv4 alone. -/
theorem ipv6_deny_blamed_on_ipv4 : ¬ ∀ metadata declarations port family,
    Reported metadata declarations port family → Recorded metadata port family := by
  intro hall
  have hreported : Reported ipv4Scan (denySsh .ipv6) (.num sshPort) .ipv6 :=
    ⟨ipv4Scan_usable,_,ipv4Scan_leaks .ipv6,_,List.mem_singleton_self _,rfl,rfl⟩
  rcases hall _ _ _ _ hreported with hbucket | ⟨_,_,hfamily⟩
  · have hempty : elements (field (familyBucket ipv4Scan .ipv6) "open_ports") = [] := by rfl
    rw [hempty] at hbucket
    cases hbucket
  · exact absurd hfamily (by decide)

/-- What the callers act on. -/
def grade (o : Outcome) : Verdict × Option Severity := (o.verdict,o.severity)

def portKinds : List String := ["tcp_connect","udp_probe"]

/-- The verdict on the metadata of the probe as a whole, its rows aside. Nothing when a
required input is missing, when the evidence has a gap or when no declared deny of its own
port is violated. -/
def topLevelViolation (input : Input) : Option (Option Outcome) :=
  if requiredInputMissing input.probeMetadata then some none
  else do
    let gap ← correlateEvidenceGap input.probeKind input.probeMetadata
    if gap.isSome then some none
    else correlateNfwViolation input.probeKind input.probeMetadata input.declarations

def gradeOf : Option Outcome → Verdict × Option Severity
  | some v => grade v
  | none => (.inconclusive,none)

theorem port_kind {kind : JsVal} (h : oneOf kind portKinds = true) :
    oneOf kind nfwProbeKinds = true ∧ is kind "connection_limit_probe" = false ∧
      is kind "port_scan_bounded" = false ∧
      oneOf kind ["waf_evasion_marker_probe","waf_inspection_limit_probe"] = false ∧
      is kind "metadata_marker" = false ∧ is kind "waf_fingerprint_observation" = false := by
  obtain ⟨s,hmem,rfl⟩ := oneOf_iff.mp h
  revert s
  decide +kernel

section Aggregation
variable {env : Surroundings} {input : Input}

theorem reasoned_grade {kind result : JsVal} {kvs : List (JsString × JsVal)}
    (hkind : oneOf kind portKinds = true) :
    (reasonedVerdict env kind result (.obj kvs)).map grade = some (.inconclusive,none) := by
  obtain ⟨hn,_,_,hcompare,_,_⟩ := port_kind hkind
  obtain ⟨_,_,hhost⟩ := nfw_kind hn
  have hreason : ∃ r,inconclusiveReason env kind result (.obj kvs) = some r := by
    have hread : ScriptValue.read (.obj kvs) "error_class" =
        some (field (.obj kvs) "error_class") := rfl
    have hnull : ∀ text,is .null text = false := fun _ => rfl
    simp only [inconclusiveReason,hhost,hcompare,hread,hnull,Bool.false_eq_true,if_false,
      Bool.false_and,Option.bind_eq_bind,Option.bind_some]
    split_ifs <;> exact ⟨_,rfl⟩
  obtain ⟨r,hr⟩ := hreason
  rw [reasonedVerdict,hr]
  rfl

theorem gap_grade {kind metadata : JsVal} {v : Outcome} (hkind : oneOf kind portKinds = true)
    (h : correlateEvidenceGap kind metadata = some (some v)) : grade v = (.inconclusive,none) := by
  obtain ⟨_,_,hhost⟩ := nfw_kind (port_kind hkind).1
  simp only [correlateEvidenceGap,hhost,Bool.false_eq_true,if_false,Option.some.injEq] at h
  split at h
  · split_ifs at h
    all_goals
      cases Option.some.inj h
      rfl
  · split_ifs at h
    cases Option.some.inj h
    rfl

/-- The verdict on one port before the inferred gaps. -/
theorem single_grade (hkind : oneOf input.probeKind portKinds = true)
    (hallow : is input.checkId "nfw.perspective_allowlist.safe" = false)
    {kvs : List (JsString × JsVal)} (hobj : input.probeMetadata = .obj kvs) :
    (correlateSingleExternalVerdict env input).map grade =
      (topLevelViolation input).map gradeOf := by
  obtain ⟨hn,_,_,_,hmarker,hfinger⟩ := port_kind hkind
  obtain ⟨hs,hobs,hhost⟩ := nfw_kind hn
  have hnormal : input.normalized = input := by
    unfold Input.normalized
    rw [hobj]
  unfold correlateSingleExternalVerdict topLevelViolation
  simp only [hnormal]
  by_cases hmissing : requiredInputMissing input.probeMetadata = true
  · rw [if_pos hmissing,if_pos hmissing,hobj,reasoned_grade hkind]
    rfl
  · rw [if_neg hmissing,if_neg hmissing]
    simp only [Option.bind_eq_bind]
    cases hgap : correlateEvidenceGap input.probeKind input.probeMetadata with
    | none => rfl
    | some gap =>
        cases gap with
        | some v =>
            simp only [Option.bind_some,Option.map_some,Option.isSome_some,if_true,
              gap_grade hkind hgap]
            rfl
        | none =>
            simp only [Option.bind_some,controlVerdict,hs,hn,hhost,hallow,Bool.false_eq_true,
              if_false,if_true,Option.bind_eq_bind,Option.isSome_none]
            cases correlateNfwViolation input.probeKind input.probeMetadata
              input.declarations with
            | none => rfl
            | some nfw =>
                cases nfw with
                | some v => rfl
                | none =>
                    simp only [Option.bind_some,specialized_generic hs,genericVerdict,if_pos hobs,
                      correlateObservationOnlyVerdict,hmarker,hfinger]
                    rfl

/-- On these kinds a gap is inferred for one check only. -/
theorem inferredControlGap_none {checkId kind metadata : JsVal}
    (hkind : oneOf kind portKinds = true)
    (hredis : is checkId "reflect.redis_direct_exposure.safe" = false) :
    inferredControlGap checkId kind metadata = none := by
  have hother : ∀ t ∈ ["port_scan_bounded","tls_audit","dns_failover_posture",
      "cors_posture_probe","grpc_reflection_probe","tls_session","http2_settings"],
      is kind t = false := by
    obtain ⟨s,hmem,rfl⟩ := oneOf_iff.mp hkind
    revert s
    decide +kernel
  simp only [List.mem_cons,List.not_mem_nil,or_false,forall_eq_or_imp,forall_eq] at hother
  obtain ⟨h1,h2,h3,h4,h5,h6,h7⟩ := hother
  simp only [inferredControlGap,h1,h2,h3,h4,h5,h6,h7,hredis,Bool.and_false,Bool.false_and,
    Bool.false_eq_true,if_false]

theorem overlay_same (hkind : oneOf input.probeKind portKinds = true)
    (hredis : is input.checkId "reflect.redis_direct_exposure.safe" = false)
    (hatt : Attested input) (r : Outcome) : withInferredMissingControl env input r = some r := by
  obtain ⟨_,_,hhost⟩ := nfw_kind (port_kind hkind).1
  have hinferred : correlateInferredMissingControl env input = some none := by
    have hfailure : correlateProbeFailure env input.externalResult input.probeKind
        input.probeMetadata = some none := by
      simp [correlateProbeFailure,hatt.2]
    obtain ⟨gap,hgap⟩ : ∃ gap,correlateEvidenceGap input.probeKind input.probeMetadata =
        some gap := by
      simp [correlateEvidenceGap,hhost]
    simp only [correlateInferredMissingControl,hfailure,inferredControlGap_none hkind hredis,
      hgap,Option.bind_eq_bind,Option.bind_some]
    split_ifs <;> rfl
  unfold withInferredMissingControl
  rw [hinferred]
  split_ifs <;> rfl

/-- The grade of a verdict over several ports. -/
def portsGrade (ports : List PortResult) (top : Option (Option Outcome)) :
    Option (Verdict × Option Severity) :=
  if (ports.filter (·.violated)).isEmpty then top.map gradeOf
  else some (.exposed,some (if (ports.filter (·.violated)).any fun row =>
    row.severity = some .high then .high else .medium))

/-- The rows the verdict carries. -/
def returnedRows (o : Outcome) : List PortResult := (o.metadata.bind (·.portResults)).getD []

/-- What an attested probe over several ports returns: its rows, and a grade that follows
from the rows or, when none is violated, from the metadata as a whole. -/
theorem external_grade (hkind : oneOf input.probeKind portKinds = true) (hatt : Attested input)
    (hallow : is input.checkId "nfw.perspective_allowlist.safe" = false)
    (hredis : is input.checkId "reflect.redis_direct_exposure.safe" = false)
    {kvs : List (JsString × JsVal)} (hobj : input.probeMetadata = .obj kvs) :
    (correlateExternalOnlyVerdict env input).map grade =
      (nfwPortResults input.probeKind input.probeMetadata input.declarations).bind fun ports =>
        portsGrade (ports.getD []) (topLevelViolation input) := by
  have hsingle : (correlateSingleExternalVerdict env input).map grade =
      (topLevelViolation input).map gradeOf := single_grade hkind hallow hobj
  have hguard : (oneOf input.probeKind nfwProbeKinds &&
      (!input.probeIoObserved || oneOf input.externalResult failedResults)) = false := by
    rw [hatt.1,hatt.2]
    exact Bool.and_false _
  unfold correlateExternalOnlyVerdict
  rw [hguard]
  simp only [Bool.false_eq_true,if_false,Option.bind_eq_bind,overlay_same hkind hredis hatt]
  cases nfwPortResults input.probeKind input.probeMetadata input.declarations with
  | none => rfl
  | some ports =>
      cases ports with
      | none =>
          simp only [Option.bind_some,Option.bind_fun_some,portsGrade,Option.getD_none,hsingle]
          rfl
      | some ports =>
          simp only [Option.bind_some,portsGrade,Option.getD_some]
          by_cases hempty : (ports.filter (·.violated)).isEmpty = true
          · rw [if_pos hempty,if_pos hempty,← hsingle]
            cases correlateSingleExternalVerdict env input <;> rfl
          · rw [if_neg hempty,if_neg hempty]
            rfl

/-- A violated deny is an exposure without rows. -/
theorem nfwViolation_plain {kind metadata declarations : JsVal} {v : Outcome}
    (hkind : oneOf kind portKinds = true)
    (h : correlateNfwViolation kind metadata declarations = some (some v)) :
    v.verdict = .exposed ∧ returnedRows v = [] := by
  obtain ⟨_,hlimit,hscan,_,_,_⟩ := port_kind hkind
  have hverdict : ∀ (protocol : Protocol) (port : Numeric) (violating : List Family),
      violatedFamiliesVerdict kind metadata protocol port violating = some v →
        v.verdict = .exposed ∧ returnedRows v = [] := by
    intro protocol port violating hv
    unfold violatedFamiliesVerdict at hv
    split at hv
    · cases Option.some.inj hv
      exact ⟨rfl,rfl⟩
    · split_ifs at hv
      cases Option.some.inj hv
      exact ⟨rfl,rfl⟩
  simp only [correlateNfwViolation,hlimit,hscan,Bool.false_eq_true,if_false] at h
  split_ifs at h
  · cases h
  · simp only [correlateSinglePort,Option.bind_eq_bind,Option.bind_eq_some_iff] at h
    obtain ⟨violating,_,h⟩ := h
    by_cases hf : truthy (field metadata "families") = true
    · rw [if_pos hf] at h
      exact hverdict _ _ _ (Option.some.inj h)
    · rw [if_neg hf] at h
      obtain ⟨value,_,h⟩ := Option.bind_eq_some_iff.mp h
      obtain ⟨violates,_,h⟩ := Option.bind_eq_some_iff.mp h
      exact hverdict _ _ _ (Option.some.inj h)

theorem single_rows (hkind : oneOf input.probeKind portKinds = true)
    (hallow : is input.checkId "nfw.perspective_allowlist.safe" = false) {o : Outcome}
    (h : correlateSingleExternalVerdict env input = some o) : returnedRows o = [] := by
  obtain ⟨hn,_,_,_,hmarker,hfinger⟩ := port_kind hkind
  obtain ⟨hs,hobs,hhost⟩ := nfw_kind hn
  have hcheck : input.normalized.checkId = input.checkId := by
    unfold Input.normalized
    split <;> rfl
  unfold correlateSingleExternalVerdict at h
  simp only [normalized_kind] at h
  split_ifs at h
  · simp only [reasonedVerdict,Option.bind_eq_bind,Option.bind_eq_some_iff] at h
    obtain ⟨r,_,h⟩ := h
    cases Option.some.inj h
    rfl
  · obtain ⟨gap,hgap,h⟩ := Option.bind_eq_some_iff.mp h
    cases gap with
    | some v =>
        cases Option.some.inj h
        simp only [correlateEvidenceGap,hhost,Bool.false_eq_true,if_false,
          Option.some.injEq] at hgap
        split at hgap
        · split_ifs at hgap
          all_goals
            cases Option.some.inj hgap
            rfl
        · split_ifs at hgap
          cases Option.some.inj hgap
          rfl
    | none =>
        simp only [controlVerdict,normalized_kind,hs,hn,hhost,hcheck,hallow,Bool.false_eq_true,
          if_false,if_true,Option.bind_eq_bind,Option.bind_some,Option.bind_eq_some_iff] at h
        obtain ⟨nfw,hnfw,h⟩ := h
        cases nfw with
        | some v =>
            cases Option.some.inj h
            exact (nfwViolation_plain hkind hnfw).2
        | none =>
            have hs' : oneOf input.normalized.probeKind semanticKinds = false := by
              rw [normalized_kind]
              exact hs
            simp only [specialized_generic hs',genericVerdict,normalized_kind,if_pos hobs,
              correlateObservationOnlyVerdict,hmarker,hfinger] at h
            cases Option.some.inj h
            rfl

theorem external_rows (hkind : oneOf input.probeKind portKinds = true) (hatt : Attested input)
    (hallow : is input.checkId "nfw.perspective_allowlist.safe" = false)
    (hredis : is input.checkId "reflect.redis_direct_exposure.safe" = false) {o : Outcome}
    (h : correlateExternalOnlyVerdict env input = some o) :
    nfwPortResults input.probeKind input.probeMetadata input.declarations = some none ∧
        returnedRows o = [] ∨
      nfwPortResults input.probeKind input.probeMetadata input.declarations =
        some (some (returnedRows o)) := by
  have hguard : (oneOf input.probeKind nfwProbeKinds &&
      (!input.probeIoObserved || oneOf input.externalResult failedResults)) = false := by
    rw [hatt.1,hatt.2]
    exact Bool.and_false _
  unfold correlateExternalOnlyVerdict at h
  rw [hguard] at h
  simp only [Bool.false_eq_true,if_false,Option.bind_eq_bind,overlay_same hkind hredis hatt] at h
  obtain ⟨ports,hports,h⟩ := Option.bind_eq_some_iff.mp h
  cases ports with
  | none =>
      obtain ⟨single,hsingle,h⟩ := Option.bind_eq_some_iff.mp h
      cases Option.some.inj h
      exact Or.inl ⟨hports,single_rows hkind hallow hsingle⟩
  | some ports =>
      right
      rw [hports]
      simp only at h
      split_ifs at h
      · obtain ⟨single,_,h⟩ := Option.bind_eq_some_iff.mp h
        cases Option.some.inj h
        rfl
      · cases Option.some.inj h
        rfl

end Aggregation

/-- Objects that differ at most in their rows. -/
structure SameTopLevel (m m' : JsVal) : Prop where
  fields : ∀ name,js name ≠ js "port_results" → field m' name = field m name
  left : nullish m = false
  right : nullish m' = false

section TopLevel
variable {m m' : JsVal} (hsame : SameTopLevel m m')
include hsame

theorem SameTopLevel.read (name : String) (h : js name ≠ js "port_results") :
    ScriptValue.read m' name = ScriptValue.read m name := by
  simp only [ScriptValue.read,hsame.left,hsame.right,hsame.fields name h]

theorem SameTopLevel.familyBucket (key : Family) :
    Correlation.familyBucket m' key = Correlation.familyBucket m key := by
  simp only [Correlation.familyBucket,hsame.fields "families" (by decide)]

theorem SameTopLevel.samplesDisagree (row : JsVal) :
    Correlation.samplesDisagree m' row = Correlation.samplesDisagree m row := by
  simp only [Correlation.samplesDisagree,hsame.fields "families" (by decide),
    hsame.fields "sample_agreement" (by decide)]

theorem SameTopLevel.peerIsCdn (row : JsVal) :
    Correlation.peerIsCdn m' row = Correlation.peerIsCdn m row := by
  simp only [Correlation.peerIsCdn,hsame.fields "peer_is_cdn" (by decide)]

theorem SameTopLevel.violatingFamilies (declarations : JsVal) (protocol : Protocol)
    (port : Numeric) (topRow : JsVal) (keys : List Family) :
    Correlation.violatingFamilies m' declarations protocol port topRow keys =
      Correlation.violatingFamilies m declarations protocol port topRow keys := by
  induction keys with
  | nil => rfl
  | cons key keys ih =>
      simp only [Correlation.violatingFamilies,hsame.familyBucket,
        hsame.fields "families" (by decide),hsame.read "address_family" (by decide),
        hsame.samplesDisagree,hsame.peerIsCdn,ih]

theorem SameTopLevel.violatedFamiliesVerdict {kind : JsVal}
    (hkind : oneOf kind portKinds = true) (protocol : Protocol) (port : Numeric)
    (violating : List Family) :
    Correlation.violatedFamiliesVerdict kind m' protocol port violating =
      Correlation.violatedFamiliesVerdict kind m protocol port violating := by
  have hreflect : is kind "reflection_service_probe" = false := by
    obtain ⟨s,hmem,rfl⟩ := oneOf_iff.mp hkind
    revert s
    decide +kernel
  cases violating with
  | nil => simp [Correlation.violatedFamiliesVerdict,hreflect]
  | cons leaking others =>
      simp only [Correlation.violatedFamiliesVerdict,nfwExposed,perspectiveLabel,
        hsame.fields "parity" (by decide),hsame.fields "source_perspective" (by decide)]

theorem SameTopLevel.nfwViolation {kind : JsVal} (hkind : oneOf kind portKinds = true)
    (declarations : JsVal) :
    correlateNfwViolation kind m' declarations = correlateNfwViolation kind m declarations := by
  obtain ⟨_,hlimit,hscan,_,_,_⟩ := port_kind hkind
  simp only [correlateNfwViolation,correlateSinglePort,hlimit,hscan,hsame.samplesDisagree,
    hsame.peerIsCdn,hsame.violatingFamilies,hsame.violatedFamiliesVerdict hkind,
    hsame.fields "protocol" (by decide),hsame.fields "port" (by decide),
    hsame.fields "target_port" (by decide),hsame.fields "tcp_outcome" (by decide),
    hsame.fields "udp_outcome" (by decide),hsame.fields "sample_agreement" (by decide),
    hsame.fields "peer_is_cdn" (by decide),hsame.fields "families" (by decide),
    hsame.read "address_family" (by decide),Bool.false_eq_true,if_false]

end TopLevel

/-- The input with other rows. -/
def withRows (input : Input) (rows : List JsVal) : Input :=
  { input with probeMetadata := put input.probeMetadata "port_results" (.arr rows) }

theorem sameTopLevel_put {m : JsVal} (h : nullish m = false) (x : JsVal) :
    SameTopLevel m (put m "port_results" x) where
  fields _ hname := field_put_other hname
  left := h
  right := rfl

theorem topLevelViolation_withRows {input : Input} (hkind : oneOf input.probeKind portKinds = true)
    (hobj : nullish input.probeMetadata = false) (rows : List JsVal) :
    topLevelViolation (withRows input rows) = topLevelViolation input := by
  obtain ⟨_,_,hhost⟩ := nfw_kind (port_kind hkind).1
  have hsame := sameTopLevel_put hobj (.arr rows)
  simp only [topLevelViolation,withRows,requiredInputMissing,correlateEvidenceGap,hhost,
    hsame.fields "inconclusive_reason" (by decide),hsame.fields "error_class" (by decide),
    hsame.fields "matched_vendor" (by decide),hsame.nfwViolation hkind,Bool.false_eq_true,if_false]

/-- A row is graded without the list it stands in. -/
theorem singlePortMetadata_withRows {kvs : List (JsString × JsVal)} (x row : JsVal) :
    singlePortMetadata (put (.obj kvs) "port_results" x) row =
      singlePortMetadata (.obj kvs) row := by
  have hfilter : (setMember kvs (js "port_results") x).filter (fun p => p.1 ≠ js "port_results") =
      kvs.filter fun p => p.1 ≠ js "port_results" :=
    JsVal.obj.inj (remove_put_self (.obj kvs) "port_results" x)
  simp only [singlePortMetadata,put,members,hfilter]

theorem mapM_perm {α β : Type} (f : α → Option β) {xs ys : List α} (h : xs.Perm ys)
    {us : List β} (hxs : xs.mapM f = some us) : ∃ vs,ys.mapM f = some vs ∧ us.Perm vs := by
  induction h generalizing us with
  | nil => exact ⟨us,hxs,.refl _⟩
  | cons x _ ih =>
      simp only [List.mapM_cons,Option.bind_eq_bind,Option.bind_eq_some_iff] at hxs
      obtain ⟨u,hu,us',hus,hout⟩ := hxs
      obtain ⟨vs,hvs,hperm⟩ := ih hus
      cases Option.some.inj hout
      exact ⟨u::vs,by simp [hu,hvs],hperm.cons u⟩
  | swap x y l =>
      simp only [List.mapM_cons,Option.bind_eq_bind,Option.bind_eq_some_iff] at hxs
      obtain ⟨u,hu,_,⟨v,hv,us',hus,hout⟩,hall⟩ := hxs
      cases Option.some.inj hout
      cases Option.some.inj hall
      exact ⟨v::u::us',by simp [hu,hv,hus],.swap _ _ _⟩
  | trans _ _ ih1 ih2 =>
      obtain ⟨vs,hvs,h1⟩ := ih1 hxs
      obtain ⟨ws,hws,h2⟩ := ih2 hvs
      exact ⟨ws,hws,h1.trans h2⟩

theorem portsGrade_perm {ports ports' : List PortResult} (h : ports.Perm ports')
    (top : Option (Option Outcome)) : portsGrade ports top = portsGrade ports' top := by
  have hfilter := h.filter (·.violated)
  have hany : (ports.filter (·.violated)).any (fun row => row.severity = some .high) =
      (ports'.filter (·.violated)).any fun row => row.severity = some .high := by
    rw [Bool.eq_iff_iff]
    simp only [List.any_eq_true,hfilter.mem_iff]
  simp only [portsGrade,hfilter.isEmpty_eq,hany]

theorem nfwPortResults_rows {kind metadata declarations : JsVal} {rows : List JsVal}
    (hkind : oneOf kind portKinds = true)
    (hrows : field metadata "port_results" = .arr rows) :
    nfwPortResults kind metadata declarations =
      if (rows.filter isObject).isEmpty then some none
      else ((rows.filter isObject).mapM (portResult kind metadata declarations)).map some := by
  have hkind' : oneOf kind ["tcp_connect","udp_probe"] = true := hkind
  simp only [nfwPortResults,hkind',hrows,elements]
  rfl

/-- Permuted rows get the same grade. -/
theorem grade_withRows {env : Surroundings} {input : Input}
    (hkind : oneOf input.probeKind portKinds = true) (hatt : Attested input)
    (hallow : is input.checkId "nfw.perspective_allowlist.safe" = false)
    (hredis : is input.checkId "reflect.redis_direct_exposure.safe" = false)
    {kvs : List (JsString × JsVal)} (hobj : input.probeMetadata = .obj kvs)
    {rows rows' : List JsVal} (hrows : field input.probeMetadata "port_results" = .arr rows)
    (hperm : rows'.Perm rows) :
    (correlateExternalOnlyVerdict env (withRows input rows')).map grade =
      (correlateExternalOnlyVerdict env input).map grade := by
  have hfilter := hperm.filter isObject
  have hother := @external_grade env (withRows input rows') hkind hatt hallow hredis _ rfl
  have hrow : portResult input.probeKind (withRows input rows').probeMetadata input.declarations =
      portResult input.probeKind input.probeMetadata input.declarations := by
    funext row
    simp only [portResult,withRows,hobj,singlePortMetadata_withRows]
  rw [topLevelViolation_withRows hkind (by rw [hobj]; rfl)] at hother
  rw [hother,external_grade hkind hatt hallow hredis hobj,nfwPortResults_rows hkind hrows]
  change (nfwPortResults input.probeKind (withRows input rows').probeMetadata
    input.declarations).bind _ = _
  have hrows' : field (withRows input rows').probeMetadata "port_results" = .arr rows' :=
    field_put_self _ _ _
  rw [nfwPortResults_rows hkind hrows',hrow,hfilter.isEmpty_eq]
  split_ifs
  · rfl
  · cases hmap : (rows'.filter isObject).mapM
        (portResult input.probeKind input.probeMetadata input.declarations) with
    | some ports =>
        obtain ⟨ports',hmap',hports⟩ := mapM_perm _ hfilter hmap
        rw [hmap']
        exact portsGrade_perm hports _
    | none =>
        cases hmap' : (rows.filter isObject).mapM
            (portResult input.probeKind input.probeMetadata input.declarations) with
        | none => rfl
        | some ports =>
            obtain ⟨_,hback,_⟩ := mapM_perm _ hfilter.symm hmap'
            rw [hmap] at hback
            cases hback

theorem portsGrade_exposed {ports : List PortResult} {top : Option (Option Outcome)}
    {g : Verdict × Option Severity} (htop : ∀ v,top = some (some v) → v.verdict = .exposed)
    (h : portsGrade ports top = some g) :
    (g.1 = .exposed ↔ (∃ row ∈ ports,row.violated = true) ∨
        (∀ row ∈ ports,row.violated = false) ∧ ∃ v,top = some (some v)) ∧
      (g.2 = some .high ↔
        (∃ row ∈ ports,row.violated = true ∧ row.severity = some .high) ∨
          (∀ row ∈ ports,row.violated = false) ∧
            ∃ v,top = some (some v) ∧ v.severity = some .high) := by
  unfold portsGrade at h
  by_cases hempty : (ports.filter (·.violated)).isEmpty = true
  · rw [if_pos hempty] at h
    have hnone : ∀ row ∈ ports,row.violated = false := by
      simpa using hempty
    obtain ⟨v,rfl,rfl⟩ := Option.map_eq_some_iff.mp h
    have hno : ¬ ∃ row ∈ ports,row.violated = true := by
      rintro ⟨row,hrow,hv⟩
      rw [hnone row hrow] at hv
      cases hv
    have hnoHigh : ¬ ∃ row ∈ ports,row.violated = true ∧ row.severity = some .high := by
      rintro ⟨row,hrow,hv,_⟩
      exact hno ⟨row,hrow,hv⟩
    simp only [hno,hnoHigh,false_or]
    cases v with
    | none => simp [gradeOf]
    | some v => simp [gradeOf,grade,htop v rfl,eq_true hnone]
  · rw [if_neg hempty] at h
    cases Option.some.inj h
    have hsome : ∃ row ∈ ports,row.violated = true := by
      simpa using hempty
    have hnot : ¬ ∀ row ∈ ports,row.violated = false := by
      intro hnone
      obtain ⟨row,hrow,hv⟩ := hsome
      rw [hnone row hrow] at hv
      cases hv
    refine ⟨by simp [hsome],?_⟩
    simp only [hnot,false_and,or_false,Option.some.injEq]
    split_ifs with hhigh
    · refine iff_of_true rfl ?_
      simpa [and_assoc] using hhigh
    · refine iff_of_false nofun ?_
      simpa using hhigh

/-- The verdict of an attested probe over several ports is an exposure exactly when one of
the rows it carries is violated, or none is and the metadata as a whole shows a violated
deny. The severity follows in the same way, and the order of the rows does not matter. -/
theorem multi_port_aggregation (env : Surroundings) (input : Input)
    (hkind : oneOf input.probeKind portKinds = true) (hatt : Attested input)
    (hallow : is input.checkId "nfw.perspective_allowlist.safe" = false)
    (hredis : is input.checkId "reflect.redis_direct_exposure.safe" = false)
    (rows : List JsVal) (hrows : field input.probeMetadata "port_results" = .arr rows) :
    (∀ o,correlateExternalOnlyVerdict env input = some o →
      (o.verdict = .exposed ↔ (∃ row ∈ returnedRows o,row.violated = true) ∨
        (∀ row ∈ returnedRows o,row.violated = false) ∧
          ∃ v,topLevelViolation input = some (some v)) ∧
      (o.severity = some .high ↔
        (∃ row ∈ returnedRows o,row.violated = true ∧ row.severity = some .high) ∨
          (∀ row ∈ returnedRows o,row.violated = false) ∧
            ∃ v,topLevelViolation input = some (some v) ∧ v.severity = some .high)) ∧
    ∀ rows',rows'.Perm rows →
      (correlateExternalOnlyVerdict env (withRows input rows')).map grade =
        (correlateExternalOnlyVerdict env input).map grade := by
  obtain ⟨kvs,hobj⟩ : ∃ kvs,input.probeMetadata = .obj kvs := by
    cases hm : input.probeMetadata with
    | obj kvs => exact ⟨kvs,rfl⟩
    | _ =>
        rw [hm] at hrows
        cases hrows
  refine ⟨fun o ho => ?_,fun rows' hperm => grade_withRows hkind hatt hallow hredis hobj hrows hperm⟩
  have hgrade := @external_grade env input hkind hatt hallow hredis _ hobj
  rw [ho] at hgrade
  have htop : ∀ v,topLevelViolation input = some (some v) → v.verdict = .exposed := by
    intro v hv
    unfold topLevelViolation at hv
    split_ifs at hv
    · cases hv
    · obtain ⟨gap,_,hv⟩ := Option.bind_eq_some_iff.mp hv
      split_ifs at hv
      · cases hv
      · exact (nfwViolation_plain hkind hv).1
  rcases external_rows hkind hatt hallow hredis ho with ⟨hports,hreturned⟩ | hports
  · rw [hports] at hgrade
    rw [hreturned]
    exact portsGrade_exposed htop hgrade.symm
  · rw [hports] at hgrade
    exact portsGrade_exposed htop hgrade.symm

/-- The number 23. -/
def telnetPort : Number :=
  .nonzero false ⟨23*2^48,1026,by decide,by decide,Magnitude.sixteen_shift_lt,by decide⟩

def portRow (port : Number) (outcome : String) : JsVal :=
  .obj [(js "port",.num port),(js "tcp_outcome",say outcome)]

/-- A handshake on the port the probe names, and the given rows. -/
def handshakeProbe (rows : List JsVal) : Input :=
  { deniedHandshakeProbe with probeMetadata := .obj [(js "port",.num sshPort),
    (js "tcp_outcome",say "handshake"),(js "port_results",.arr rows)] }

theorem violated_row_exposed :
    ∃ o,correlateExternalOnlyVerdict noPerspectives
      (handshakeProbe [portRow telnetPort "closed",portRow sshPort "handshake"]) = some o ∧
        o.verdict = .exposed := by
  have hrows : (correlateExternalOnlyVerdict noPerspectives
      (handshakeProbe [portRow telnetPort "closed",portRow sshPort "handshake"])).map
        (fun o => (returnedRows o).any (·.violated)) = some true := by decide +kernel
  obtain ⟨o,ho,hany⟩ := Option.map_eq_some_iff.mp hrows
  obtain ⟨row,hrow,hv⟩ := List.any_eq_true.mp hany
  have hspec := multi_port_aggregation noPerspectives
    (handshakeProbe [portRow telnetPort "closed",portRow sshPort "handshake"]) (by decide)
    ⟨rfl,by decide⟩ (by decide) (by decide) _ rfl
  exact ⟨o,ho,(hspec.1 o ho).1.mpr (Or.inl ⟨row,hrow,hv⟩)⟩

/-- No row is violated, and the handshake of the metadata as a whole still exposes. -/
theorem exposed_without_violated_row : ¬ ∀ (env : Surroundings) (input : Input) (rows : List JsVal),
    oneOf input.probeKind portKinds = true → Attested input →
    is input.checkId "nfw.perspective_allowlist.safe" = false →
    is input.checkId "reflect.redis_direct_exposure.safe" = false →
    field input.probeMetadata "port_results" = .arr rows → rows ≠ [] →
    ∀ o,correlateExternalOnlyVerdict env input = some o →
      (o.verdict = .exposed ↔ ∃ row ∈ returnedRows o,row.violated = true) := by
  intro hall
  have hclosed : (correlateExternalOnlyVerdict noPerspectives
      (handshakeProbe [portRow telnetPort "closed"])).map
        (fun o => (o.verdict,(returnedRows o).any (·.violated))) = some (.exposed,false) := by
    decide +kernel
  obtain ⟨o,ho,hpair⟩ := Option.map_eq_some_iff.mp hclosed
  obtain ⟨hverdict,hnone⟩ := Prod.mk.inj hpair
  obtain ⟨row,hrow,hv⟩ := (hall noPerspectives (handshakeProbe [portRow telnetPort "closed"]) _
    (by decide) ⟨rfl,by decide⟩ (by decide) (by decide) rfl (by simp) o ho).mp hverdict
  rw [List.any_eq_true.mpr ⟨row,hrow,hv⟩] at hnone
  cases hnone

end AstraNull.PortVerdicts

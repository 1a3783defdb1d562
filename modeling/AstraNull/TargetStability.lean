import Mathlib
import AstraNull.JsonText
import AstraNull.ScriptText
import AstraNull.ScriptValue
import AstraNull.TextPieces
import AstraNull.AddressText
import AstraNull.CymruNames
import AstraNull.TargetMetadata
import AstraNull.TargetInput

/-!
# Normal forms stay

With what the platform documents of addresses, names and URLs, a value is refused or has a normal
form, and the normal form is its own. The exception is an IPv6 address with a zone: the address
test takes it and the URL class does not.
-/
namespace AstraNull.TargetStability
open JsonText ScriptText ScriptValue TargetMetadata TargetInput
open AddressText (decimalNumber)
open CymruNames (asciiUnits)

/-- A unit of an IPv6 address in its normal form. -/
def isAddressUnit (u : UInt16) : Bool :=
  isDigitUnit u || (97 ≤ u.toNat && u.toNat ≤ 102) || u = 58

/-- An IPv6 address in its normal form: the host that it makes is spelled like it. -/
structure Address6 (P : Platform) (c : JsString) : Prop where
  version : P.isIP c = 6
  units : ∀ u ∈ c,isAddressUnit u = true
  host : ∃ url,P.newUrl (bracketed c) = some url ∧ P.hostname url = js "["++c++js "]"

/-- A host name in its normal form. -/
structure Named (P : Platform) (a : JsString) : Prop where
  ascii : P.domainToASCII a = a
  length : a.length ≤ 253
  labels : ∀ label ∈ a.splitOn 46,label.length ≤ 63 ∧ isLabel label = true

/-- The hosts that normalisation ends in. -/
inductive Settled (P : Platform) (a : JsString) : Prop
  | v4 (h : P.isIP a = 4)
  | v6 (h : Address6 P a)
  | named (h : Named P a) (hno : P.isIP a = 0)

def Special (P : Platform) (url : P.Url) : Prop :=
  P.protocol url = js "http:" ∨ P.protocol url = js "https:"

structure Documented (P : Platform) : Prop where
  lower_plain : KeepsPlain P.toLowerCase
  version : ∀ s,P.isIP s = 0 ∨ P.isIP s = 4 ∨ P.isIP s = 6
  version_four : ∀ s,P.isIP s = 4 → s ≠ [] ∧ ∀ u ∈ s,isDigitUnit u = true ∨ u = 46
  version_six : ∀ s,P.isIP s = 6 → 58 ∈ s
  ascii_lower : ∀ s,P.toLowerCase (P.domainToASCII s) = P.domainToASCII s
  ascii_again : ∀ s,P.domainToASCII (P.domainToASCII s) = P.domainToASCII s
  /-- A URL takes every IPv6 address, in its normal form, but no zone. -/
  host_six : ∀ s,P.isIP s = 6 → 37 ∉ s → ∃ url c,P.newUrl (bracketed s) = some url ∧
    P.hostname url = js "["++c++js "]" ∧ Address6 P c
  host_zone : ∀ s,P.isIP s = 6 → 37 ∈ s → P.newUrl (bracketed s) = none
  host_percent : ∀ s url,P.newUrl s = some url → Special P url → 37 ∉ P.hostname url
  /-- A host in its normal form is taken as it is. -/
  set_host : ∀ url host,Special P url → Settled P host →
    P.hostname (P.setHostname url (withBrackets P host)) = withBrackets P host ∧
      P.protocol (P.setHostname url (withBrackets P host)) = P.protocol url ∧
      P.username (P.setHostname url (withBrackets P host)) = P.username url ∧
      P.password (P.setHostname url (withBrackets P host)) = P.password url
  set_same : ∀ url,Special P url → P.setHostname url (P.hostname url) = url
  clear_host : ∀ url,P.hostname (P.clearHash url) = P.hostname url ∧
    P.protocol (P.clearHash url) = P.protocol url ∧
    P.username (P.clearHash url) = P.username url ∧ P.password (P.clearHash url) = P.password url
  clear_again : ∀ url,P.clearHash (P.clearHash url) = P.clearHash url
  /-- What is written is read back. -/
  parse_href : ∀ url,Special P url → P.newUrl (P.href (P.clearHash url)) = some (P.clearHash url)
  href_start : ∀ url,Special P url → ∃ rest,P.href url = P.protocol url++js "//"++rest
  href_solid : ∀ url,Special P url → ∀ u ∈ P.href url,isWhiteSpace u.toNat = false

/-- Units that neither a blank nor a mark of an address equals. -/
def isNameUnit (u : UInt16) : Bool := isTagStart u || u = 45 || u = 46

theorem isNameUnit_spec {u : UInt16} (h : isNameUnit u = true) :
    isWhiteSpace u.toNat = false ∧ isAddressMark u = false ∧ u ≠ 58 ∧ u ≠ 91 ∧ u ≠ 93 := by
  have htoNat : (isNameUnit u = true) → ((97 ≤ u.toNat ∧ u.toNat ≤ 122) ∨
      (48 ≤ u.toNat ∧ u.toNat ≤ 57) ∨ u.toNat = 45 ∨ u.toNat = 46) := by
    simp only [isNameUnit,isTagStart,Bool.or_eq_true,Bool.and_eq_true,decide_eq_true_eq]
    rintro ((h | h) | h)
    · tauto
    · simp [h]
    · simp [h]
  have hne : ∀ n : UInt16,n.toNat ≠ u.toNat → u ≠ n := fun n hn hu => hn (by rw [hu])
  have hrange := htoNat h
  refine ⟨?_,?_,hne 58 ?_,hne 91 ?_,hne 93 ?_⟩
  · simp only [isWhiteSpace,Bool.or_eq_false_iff,Bool.and_eq_false_iff,decide_eq_false_iff_not]
    omega
  · simp only [isAddressMark,Bool.or_eq_false_iff,decide_eq_false_iff_not]
    exact ⟨⟨⟨⟨⟨hne 58 (by simp; omega),hne 47 (by simp; omega)⟩,hne 64 (by simp; omega)⟩,
      hne 92 (by simp; omega)⟩,hne 63 (by simp; omega)⟩,hne 35 (by simp; omega)⟩
  · simp
    omega
  · simp
    omega
  · simp
    omega

theorem Named.units {P : Platform} {a : JsString} (h : Named P a) :
    ∀ u ∈ a,isNameUnit u = true := by
  intro u hu
  by_cases hdot : u = 46
  · simp [isNameUnit,hdot]
  · obtain ⟨label,hlabel,hmem⟩ := TextPieces.exists_mem_splitOn hu hdot
    have hvalid := (h.labels label hlabel).2
    simp only [isLabel,Bool.and_eq_true,List.all_eq_true] at hvalid
    have := hvalid.1.1 u hmem
    simp only [isNameUnit,this,Bool.true_or]

theorem Named.noDot {P : Platform} {a : JsString} (h : Named P a) :
    a.rdropWhile (· = 46) = a := by
  rw [List.rdropWhile_eq_self_iff]
  intro hne hlast
  have hsplit : a = a.dropLast++[46] := by
    rw [← of_decide_eq_true hlast,List.dropLast_append_getLast]
  have hempty : ([] : JsString) ∈ a.splitOn 46 := by
    rw [hsplit,List.splitOn_append_cons_self]
    simp
  have := (h.labels [] hempty).2
  simp [isLabel] at this

theorem Named.ne_nil {P : Platform} {a : JsString} (h : Named P a) : a ≠ [] := by
  rintro rfl
  have := (h.labels [] (by simp)).2
  simp [isLabel] at this

section
variable {P : Platform} (D : Documented P)
include D

theorem named_of_normalizeFqdn {input a : JsString} (h : normalizeFqdn P input = .ok a) :
    Named P a := by
  rw [normalizeFqdn] at h
  dsimp only at h
  split_ifs at h with hraw hlength hlabels
  cases h
  rw [D.ascii_lower] at hlength hlabels ⊢
  rw [not_or,not_lt] at hlength
  simp only [List.any_eq_true,not_exists,not_and,Bool.or_eq_true,decide_eq_true_eq,
    Bool.not_eq_true',not_or,not_lt,Bool.not_eq_false] at hlabels
  exact ⟨D.ascii_again _,hlength.2,hlabels⟩

theorem normalizeFqdn_named {a : JsString} (h : Named P a) : normalizeFqdn P a = .ok a := by
  have hunits := h.units
  have htrim : trim a = a := trim_of_solid fun u hu => (isNameUnit_spec (hunits u hu)).1
  have hascii : P.toLowerCase (P.domainToASCII a) = a := by rw [D.ascii_lower,h.ascii]
  have hmarks : ¬ (a = [] ∨ a.any isAddressMark = true) := by
    rw [not_or,Bool.not_eq_true,List.any_eq_false]
    exact ⟨h.ne_nil,fun u hu => by simp [(isNameUnit_spec (hunits u hu)).2.1]⟩
  have hlength : ¬ (a = [] ∨ 253 < a.length) := by
    rw [not_or,not_lt]
    exact ⟨h.ne_nil,h.length⟩
  have hlabels : ¬ ((a.splitOn 46).any fun label => 63 < label.length || !isLabel label) =
      true := by
    simp only [List.any_eq_true,not_exists,not_and,Bool.or_eq_true,decide_eq_true_eq,
      Bool.not_eq_true',not_or,not_lt,Bool.not_eq_false]
    exact h.labels
  rw [normalizeFqdn]
  dsimp only
  rw [htrim,h.noDot,if_neg hmarks,hascii,if_neg hlength,if_neg hlabels]

theorem four_units {a : JsString} (h : P.isIP a = 4) : ∀ u ∈ a,isNameUnit u = true := by
  intro u hu
  rcases (D.version_four a h).2 u hu with hdigit | rfl
  · simp only [isDigitUnit] at hdigit
    simp [isNameUnit,isTagStart,hdigit]
  · rfl

theorem trim_four {a : JsString} (h : P.isIP a = 4) : trim a = a :=
  trim_of_solid fun u hu => (isNameUnit_spec (four_units D h u hu)).1

omit D in
theorem isAddressUnit_spec {u : UInt16} (h : isAddressUnit u = true) :
    isWhiteSpace u.toNat = false ∧ u ≠ 37 ∧ u ≠ 93 ∧ u.toNat < 128 ∧
      ¬ (65 ≤ u.toNat ∧ u.toNat ≤ 90) := by
  have hrange : (48 ≤ u.toNat ∧ u.toNat ≤ 57) ∨ (97 ≤ u.toNat ∧ u.toNat ≤ 102) ∨
      u.toNat = 58 := by
    simp only [isAddressUnit,isDigitUnit,Bool.or_eq_true,Bool.and_eq_true,
      decide_eq_true_eq] at h
    rcases h with (h | h) | rfl
    · exact .inl h
    · exact .inr (.inl h)
    · exact .inr (.inr rfl)
  have hne : ∀ n : UInt16,n.toNat ≠ u.toNat → u ≠ n := fun n hn hu => hn (by rw [hu])
  refine ⟨?_,hne 37 ?_,hne 93 ?_,by omega,by omega⟩
  · simp only [isWhiteSpace,Bool.or_eq_false_iff,Bool.and_eq_false_iff,decide_eq_false_iff_not]
    omega
  · simp
    omega
  · simp
    omega

omit D in
theorem Address6.trim {c : JsString} (h : Address6 P c) : ScriptText.trim c = c :=
  trim_of_solid fun u hu => (isAddressUnit_spec (h.units u hu)).1

omit D in
theorem withoutEnds_brackets (c : JsString) : withoutEnds (js "["++c++js "]") = c := by
  have hopen : js "[" = [91] := by decide
  have hclose : js "]" = [93] := by decide
  rw [hopen,hclose,withoutEnds,List.append_assoc,List.singleton_append,List.tail_cons,
    List.dropLast_concat]

theorem Address6.lower {c : JsString} (h : Address6 P c) : P.toLowerCase c = c :=
  D.lower_plain c fun u hu => (isAddressUnit_spec (h.units u hu)).2.2.2

theorem Address6.ne_nil {c : JsString} (h : Address6 P c) : c ≠ [] :=
  List.ne_nil_of_mem (D.version_six c h.version)

theorem normalizeIp_settled {a : JsString} (h : P.isIP a = 4 ∨ Address6 P a) :
    normalizeIp P a = .ok a := by
  rw [normalizeIp]
  rcases h with h | h
  · rw [trim_four D h,if_neg (not_or.mpr ⟨(D.version_four a h).1,by omega⟩),if_pos h]
  · obtain ⟨url,hurl,hhost⟩ := h.host
    rw [h.trim,if_neg (not_or.mpr ⟨h.ne_nil D,by rw [h.version]; decide⟩),
      if_neg (by rw [h.version]; decide),hurl]
    dsimp only
    rw [hhost,withoutEnds_brackets,h.lower D]

/-- The results of `normalizeIp`; an exception that is no refusal comes from a zone. -/
theorem normalizeIp_cases (input : JsString) :
    (P.isIP (trim input) = 6 ∧ 37 ∈ trim input ∧ normalizeIp P input = .error .typeError) ∨
    ¬ (P.isIP (trim input) = 6 ∧ 37 ∈ trim input) ∧
      ((∃ message,normalizeIp P input = .error (validationError "value" message)) ∨
        ∃ a,normalizeIp P input = .ok a ∧ (P.isIP a = 4 ∨ Address6 P a)) := by
  rw [normalizeIp]
  rcases D.version (trim input) with h | h | h
  · refine .inr ⟨by omega,.inl ⟨_,if_pos (.inr h)⟩⟩
  · have hne := (D.version_four _ h).1
    refine .inr ⟨by omega,.inr ⟨trim input,?_,.inl h⟩⟩
    rw [if_neg (not_or.mpr ⟨hne,by omega⟩),if_pos h]
  · have hne : trim input ≠ [] := List.ne_nil_of_mem (D.version_six _ h)
    rw [if_neg (not_or.mpr ⟨hne,by omega⟩),if_neg (by omega)]
    by_cases hzone : 37 ∈ trim input
    · left
      rw [D.host_zone _ h hzone]
      exact ⟨h,hzone,rfl⟩
    · obtain ⟨url,c,hurl,hhost,hc⟩ := D.host_six _ h hzone
      refine .inr ⟨fun hboth => hzone hboth.2,.inr ⟨c,?_,.inr hc⟩⟩
      rw [hurl]
      dsimp only
      rw [hhost,withoutEnds_brackets,hc.lower D]

omit D in
theorem normalizeFqdn_refused {input : JsString} {e : Failure}
    (h : normalizeFqdn P input = .error e) : ∃ message,e = validationError "value" message := by
  rw [normalizeFqdn] at h
  dsimp only at h
  split_ifs at h
  · cases h
    exact ⟨_,rfl⟩
  · cases h
    exact ⟨_,rfl⟩
  · cases h
    exact ⟨_,rfl⟩

theorem settled_of_named {a : JsString} (h : Named P a) : Settled P a := by
  rcases D.version a with hversion | hversion | hversion
  · exact .named h hversion
  · exact .v4 hversion
  · have hcolon := D.version_six a hversion
    exact absurd rfl (isNameUnit_spec (h.units 58 hcolon)).2.2.1

/-- The host of an address with a zone. -/
def Zoned (P : Platform) (host : JsString) : Prop :=
  P.isIP host ≠ 0 ∧ P.isIP (trim host) = 6 ∧ 37 ∈ trim host

theorem normalizeHost_cases (host : JsString) :
    (Zoned P host ∧ normalizeHost P host = .error .typeError) ∨
    ¬ Zoned P host ∧ ((∃ message,normalizeHost P host = .error (validationError "value" message)) ∨
      ∃ a,normalizeHost P host = .ok a ∧ Settled P a) := by
  rw [normalizeHost]
  by_cases hip : P.isIP host ≠ 0
  · rw [if_pos hip]
    rcases normalizeIp_cases D host with h | ⟨hzone,hrefused | ⟨a,ha,hsettled⟩⟩
    · exact .inl ⟨⟨hip,h.1,h.2.1⟩,h.2.2⟩
    · exact .inr ⟨fun hz => hzone hz.2,.inl hrefused⟩
    · refine .inr ⟨fun hz => hzone hz.2,.inr ⟨a,ha,?_⟩⟩
      rcases hsettled with h | h
      · exact .v4 h
      · exact .v6 h
  · rw [if_neg hip]
    refine .inr ⟨fun hz => hip hz.1,?_⟩
    cases hresult : normalizeFqdn P host with
    | error e =>
        obtain ⟨message,rfl⟩ := normalizeFqdn_refused hresult
        exact .inl ⟨message,rfl⟩
    | ok a => exact .inr ⟨a,rfl,settled_of_named D (named_of_normalizeFqdn D hresult)⟩

theorem normalizeHost_settled {a : JsString} (h : Settled P a) : normalizeHost P a = .ok a := by
  rw [normalizeHost]
  cases h with
  | v4 h => rw [if_pos (by omega),normalizeIp_settled D (.inl h)]
  | v6 h => rw [if_pos (by rw [h.version]; decide),normalizeIp_settled D (.inr h)]
  | named h hno => rw [if_neg (not_not.mpr hno),normalizeFqdn_named D h]

/-- A host with its brackets, by its kind. -/
theorem withBrackets_cases {a : JsString} (h : Settled P a) :
    (Address6 P a ∧ withBrackets P a = js "["++a++js "]") ∨
      (∀ u ∈ a,isNameUnit u = true) ∧ a ≠ [] ∧ withBrackets P a = a := by
  cases h with
  | v4 h => exact .inr ⟨four_units D h,(D.version_four a h).1,if_neg (by omega)⟩
  | v6 h => exact .inl ⟨h,if_pos h.version⟩
  | named h hno => exact .inr ⟨h.units,h.ne_nil,if_neg (by omega)⟩

theorem unbracketed_withBrackets {a : JsString} (h : Settled P a) :
    unbracketed (withBrackets P a) = a := by
  rcases withBrackets_cases D h with ⟨-,heq⟩ | ⟨hunits,hne,heq⟩
  · have hopen : js "[" = [91] := by decide
    have hclose : js "]" = [93] := by decide
    rw [heq,unbracketed,if_pos ⟨by rw [hopen]; rfl,by rw [hclose,List.getLast?_concat]⟩,
      withoutEnds_brackets]
  · rw [heq,unbracketed,if_neg]
    rintro ⟨hhead,-⟩
    have hmem : (91 : UInt16) ∈ a := List.mem_of_head? hhead
    exact absurd rfl (isNameUnit_spec (hunits 91 hmem)).2.2.2.1

omit D in
theorem mem_of_mem_trim {s : JsString} {u : UInt16} (h : u ∈ trim s) : u ∈ s := by
  rw [trim,trimBy,List.mem_reverse] at h
  have hinner := (List.dropWhile_sublist _).subset h
  rw [List.mem_reverse] at hinner
  exact (List.dropWhile_sublist _).subset hinner

omit D in
theorem mem_of_mem_unbracketed {s : JsString} {u : UInt16} (h : u ∈ unbracketed s) : u ∈ s := by
  rw [unbracketed] at h
  split_ifs at h
  · exact List.mem_of_mem_tail (List.mem_of_mem_dropLast h)
  · exact h

/-- The URLs that normalisation ends in. -/
structure Written (P : Platform) (value : JsString) (url : P.Url) (host : JsString) : Prop where
  special : Special P url
  username : P.username url = []
  password : P.password url = []
  hostname : P.hostname url = withBrackets P host
  settled : Settled P host
  cleared : P.clearHash url = url
  href : P.href url = value

theorem normalizeUrl_written {value host : JsString} {url : P.Url} (h : Written P value url host) :
    normalizeUrl P value = .ok value := by
  have hread : P.newUrl value = some url := by
    have := D.parse_href url h.special
    rwa [h.cleared,h.href] at this
  have hsolid : ∀ u ∈ value,isWhiteSpace u.toNat = false := h.href ▸ D.href_solid url h.special
  have hmeets : ¬ ((P.protocol url ≠ js "http:" ∧ P.protocol url ≠ js "https:") ∨
      P.username url ≠ [] ∨ P.password url ≠ []) := by
    rw [not_or,not_or,not_and_or,not_not,not_not,not_not,not_not]
    exact ⟨h.special,h.username,h.password⟩
  rw [normalizeUrl,trim_of_solid hsolid,hread]
  dsimp only
  rw [if_neg hmeets,h.hostname,unbracketed_withBrackets D h.settled,
    normalizeHost_settled D h.settled]
  change Except.ok _ = _
  rw [← h.hostname,D.set_same url h.special,h.cleared,h.href]

theorem normalizeUrl_cases (input : JsString) :
    (∃ message,normalizeUrl P input = .error (validationError "value" message)) ∨
      ∃ value url host,normalizeUrl P input = .ok value ∧ Written P value url host := by
  rw [normalizeUrl]
  cases hparsed : P.newUrl (trim input) with
  | none => exact .inl ⟨_,rfl⟩
  | some parsed =>
      dsimp only
      split_ifs with hbad
      · exact .inl ⟨_,rfl⟩
      · rw [not_or,not_or,not_and_or,not_not,not_not,not_not,not_not] at hbad
        obtain ⟨hspecial,husername,hpassword⟩ := hbad
        rcases normalizeHost_cases D (unbracketed (P.hostname parsed)) with
          ⟨hzoned,-⟩ | ⟨-,⟨message,hrefused⟩ | ⟨host,hhost,hsettled⟩⟩
        · have hpercent := mem_of_mem_unbracketed (mem_of_mem_trim hzoned.2.2)
          exact absurd hpercent (D.host_percent _ parsed hparsed hspecial)
        · left
          rw [hrefused]
          exact ⟨message,rfl⟩
        · right
          obtain ⟨hname,hprotocol,huser,hpass⟩ := D.set_host parsed host hspecial hsettled
          obtain ⟨hname',hprotocol',huser',hpass'⟩ :=
            D.clear_host (P.setHostname parsed (withBrackets P host))
          rw [hhost]
          refine ⟨_,P.clearHash (P.setHostname parsed (withBrackets P host)),host,rfl,?_⟩
          exact ⟨by rw [Special,hprotocol',hprotocol]; exact hspecial,
            by rw [huser',huser,husername],by rw [hpass',hpass,hpassword],
            by rw [hname',hname],hsettled,D.clear_again _,rfl⟩

theorem startsHttp_written {value host : JsString} {url : P.Url} (h : Written P value url host) :
    startsHttp value = true := by
  obtain ⟨rest,hrest⟩ := D.href_start url h.special
  rw [← h.href,hrest,startsHttp]
  rcases h.special with hprotocol | hprotocol
  · rw [hprotocol]
    simp [js]
  · rw [hprotocol]
    simp [js]

omit D in
theorem digits_port (port : ℕ) :
    isDigits (asciiUnits (Nat.toDigits 10 port)) = true ∧
      ∀ u ∈ asciiUnits (Nat.toDigits 10 port),isWhiteSpace u.toNat = false ∧ u ≠ 58 := by
  have hunit : ∀ u ∈ asciiUnits (Nat.toDigits 10 port),isDigitUnit u = true := by
    intro u hu
    obtain ⟨c,hc,rfl⟩ := List.mem_map.mp hu
    have hdigit := CymruNames.digit_ascii (IpText.octet_digits port c hc)
    have htoNat : (UInt16.ofNat c.toNat).toNat = c.toNat :=
      UInt16.toNat_ofNat_of_lt' (by change _ < 65536; omega)
    simp only [isDigitUnit,htoNat,Bool.and_eq_true,decide_eq_true_eq]
    exact hdigit
  constructor
  · simp only [isDigits,Bool.and_eq_true,decide_eq_true_eq,List.all_eq_true]
    refine ⟨?_,hunit⟩
    intro hnil
    exact Nat.toDigits_ne_nil (List.map_eq_nil_iff.mp hnil)
  · intro u hu
    have hname : isNameUnit u = true := by
      have := hunit u hu
      simp only [isDigitUnit] at this
      simp [isNameUnit,isTagStart,this]
    exact ⟨(isNameUnit_spec hname).1,(isNameUnit_spec hname).2.2.1⟩

omit D in
theorem takeWhile_until {sep : UInt16} {x rest : JsString} (h : sep ∉ x) :
    (x++sep::rest).takeWhile (· ≠ sep) = x ∧ (x++sep::rest).dropWhile (· ≠ sep) = sep::rest := by
  have hall : ∀ u ∈ x,decide (u ≠ sep) = true := by
    intro u hu
    simpa using fun heq : u = sep => h (heq ▸ hu)
  constructor
  · rw [List.takeWhile_append_of_pos hall]
    simp
  · rw [List.dropWhile_append_of_pos hall]
    simp

/-- A written host and port is read as these. -/
theorem tcpMatch_written {host port : JsString} (h : Settled P host)
    (hport : isDigits port = true) :
    tcpMatch (withBrackets P host++js ":"++port) = some (host,port) := by
  have hcolon : js ":" = [58] := by decide
  have hopen : js "[" = [91] := by decide
  have hclose : js "]" = [93] := by decide
  rw [hcolon,tcpMatch]
  rcases withBrackets_cases D h with ⟨hsix,heq⟩ | ⟨hunits,hne,heq⟩
  · have hfree : (93 : UInt16) ∉ host := fun hmem =>
      absurd rfl (isAddressUnit_spec (hsix.units 93 hmem)).2.2.1
    obtain ⟨htake,hdrop⟩ := @takeWhile_until 93 host (58::port) hfree
    have hraw : withBrackets P host++[58]++port = 91::(host++93::58::port) := by
      rw [heq,hopen,hclose]
      simp
    rw [hraw,bracketMatch]
    rw [htake,hdrop]
    simp [hport,hsix.ne_nil D]
  · have hfree : (58 : UInt16) ∉ host := fun hmem =>
      absurd rfl (isNameUnit_spec (hunits 58 hmem)).2.2.1
    obtain ⟨htake,hdrop⟩ := @takeWhile_until 58 host port hfree
    have hraw : withBrackets P host++[58]++port = host++58::port := by
      rw [heq]
      simp
    have hplain : plainMatch (host++58::port) = some (host,port) := by
      rw [plainMatch]
      rw [htake,hdrop]
      simp [hport,hne]
    have hnone : bracketMatch (host++58::port) = none := by
      cases host with
      | nil => exact absurd rfl hne
      | cons u host =>
          have hu := (isNameUnit_spec (hunits u List.mem_cons_self)).2.2.2.1
          rw [List.cons_append,bracketMatch]
          split
          · simp [hu]
          · rfl
    rw [hraw,hnone,hplain]
    rfl

/-- The values of the kind with a port that normalisation ends in. -/
structure Ported (P : Platform) (value host : JsString) (port : ℕ) : Prop where
  settled : Settled P host
  range : ¬ (port < 1 ∨ 65535 < port)
  text : value = withBrackets P host++js ":"++asciiUnits (Nat.toDigits 10 port)

omit D in
theorem solid_mark {u : UInt16} (h : u ∈ js "[" ∨ u ∈ js "]" ∨ u ∈ js ":") :
    isWhiteSpace u.toNat = false := by
  have hopen : js "[" = [91] := by decide
  have hclose : js "]" = [93] := by decide
  have hcolon : js ":" = [58] := by decide
  rw [hopen,hclose,hcolon,List.mem_singleton,List.mem_singleton,List.mem_singleton] at h
  rcases h with rfl | rfl | rfl <;> decide

theorem withBrackets_solid {a : JsString} (h : Settled P a) :
    ∀ u ∈ withBrackets P a,isWhiteSpace u.toNat = false := by
  rcases withBrackets_cases D h with ⟨hsix,heq⟩ | ⟨hunits,-,heq⟩
  · rw [heq]
    intro u hu
    simp only [List.mem_append] at hu
    rcases hu with (hu | hu) | hu
    · exact solid_mark (.inl hu)
    · exact (isAddressUnit_spec (hsix.units u hu)).1
    · exact solid_mark (.inr (.inl hu))
  · rw [heq]
    exact fun u hu => (isNameUnit_spec (hunits u hu)).1

theorem normalizeTcp_ported {value host : JsString} {port : ℕ} (h : Ported P value host port) :
    normalizeTcp P value = .ok value := by
  have hdigits := digits_port port
  have hsolid : ∀ u ∈ value,isWhiteSpace u.toNat = false := by
    rw [h.text]
    intro u hu
    simp only [List.mem_append] at hu
    rcases hu with (hu | hu) | hu
    · exact withBrackets_solid D h.settled u hu
    · exact solid_mark (.inr (.inr hu))
    · exact (hdigits.2 u hu).1
  rw [normalizeTcp,trim_of_solid hsolid,h.text,tcpMatch_written D h.settled hdigits.1]
  dsimp only
  rw [normalizeHost_settled D h.settled,CymruNames.decimalNumber_digits]
  simp only [bind,Except.bind]
  rw [if_neg h.range]
  rfl

/-- A host with a zone, before a port. -/
def ZonedPort (P : Platform) (input : JsString) : Prop :=
  ∃ parts,tcpMatch (trim input) = some parts ∧ Zoned P parts.1

theorem normalizeTcp_cases (input : JsString) :
    (ZonedPort P input ∧ normalizeTcp P input = .error .typeError) ∨
    ¬ ZonedPort P input ∧
      ((∃ message,normalizeTcp P input = .error (validationError "value" message)) ∨
        ∃ value host port,normalizeTcp P input = .ok value ∧ Ported P value host port) := by
  rw [normalizeTcp]
  cases hmatch : tcpMatch (trim input) with
  | none =>
      refine .inr ⟨?_,.inl ⟨_,rfl⟩⟩
      rintro ⟨parts,hparts,-⟩
      rw [hmatch] at hparts
      cases hparts
  | some parts =>
      obtain ⟨matched,digits⟩ := parts
      have hiff : ZonedPort P input ↔ Zoned P matched := by
        rw [ZonedPort,hmatch]
        simp
      dsimp only
      rw [hiff]
      rcases normalizeHost_cases D matched with
        ⟨hzoned,heq⟩ | ⟨hzoned,⟨message,heq⟩ | ⟨host,heq,hsettled⟩⟩
      · exact .inl ⟨hzoned,by rw [heq]; rfl⟩
      · exact .inr ⟨hzoned,.inl ⟨message,by rw [heq]; rfl⟩⟩
      · refine .inr ⟨hzoned,?_⟩
        rw [heq]
        simp only [bind,Except.bind]
        by_cases hrange : decimalNumber digits < 1 ∨ 65535 < decimalNumber digits
        · rw [if_pos hrange]
          exact .inl ⟨_,rfl⟩
        · rw [if_neg hrange]
          exact .inr ⟨_,host,decimalNumber digits,rfl,hsettled,hrange,rfl⟩

omit D in
theorem startsHttp_named {a : JsString} (h : Named P a) : startsHttp a = false := by
  have hcolon : ∀ start : JsString,58 ∈ start → ¬ start.isPrefixOf
      (a.map fun u => if 65 ≤ u.toNat ∧ u.toNat ≤ 90 then u+32 else u) = true := by
    intro start hstart hmatch
    have hmem := (List.isPrefixOf_iff_prefix.mp hmatch).subset hstart
    obtain ⟨u,hu,heq⟩ := List.mem_map.mp hmem
    have hname := h.units u hu
    split_ifs at heq with hupper
    · simp only [isNameUnit,isTagStart,Bool.or_eq_true,Bool.and_eq_true,decide_eq_true_eq] at hname
      rcases hname with (hname | rfl) | rfl
      · omega
      · revert hupper
        decide
      · revert hupper
        decide
    · exact (isNameUnit_spec hname).2.2.1 heq
  rw [startsHttp,Bool.or_eq_false_iff]
  exact ⟨Bool.eq_false_iff.mpr (hcolon _ (by decide)),Bool.eq_false_iff.mpr (hcolon _ (by decide))⟩

/-- An address with a zone, for the kinds that take one. -/
def ZonedValue (P : Platform) : Kind → JsString → Prop
  | .ip,value => P.isIP (trim value) = 6 ∧ 37 ∈ trim value
  | .tcp,value => ZonedPort P value
  | _,_ => False

/-- A value is refused, or has a normal form that stays; a zone alone raises something else. -/
theorem normalizeByKind_cases (kind : Kind) (value : JsString) :
    (ZonedValue P kind value ∧ normalizeByKind P kind value = .error .typeError) ∨
    ¬ ZonedValue P kind value ∧
      ((∃ message,normalizeByKind P kind value = .error (validationError "value" message)) ∨
        ∃ a,normalizeByKind P kind value = .ok a ∧ normalizeByKind P kind a = .ok a) := by
  have hname : ∀ text,(∃ message,normalizeFqdn P text = .error (validationError "value" message)) ∨
      ∃ a,normalizeFqdn P text = .ok a ∧ Named P a := by
    intro text
    cases hresult : normalizeFqdn P text with
    | error e =>
        obtain ⟨message,rfl⟩ := normalizeFqdn_refused hresult
        exact .inl ⟨message,rfl⟩
    | ok a => exact .inr ⟨a,rfl,named_of_normalizeFqdn D hresult⟩
  cases kind with
  | fqdn =>
      refine .inr ⟨id,(hname value).imp_right ?_⟩
      rintro ⟨a,ha,hnamed⟩
      exact ⟨a,ha,normalizeFqdn_named D hnamed⟩
  | dnsZone =>
      refine .inr ⟨id,(hname value).imp_right ?_⟩
      rintro ⟨a,ha,hnamed⟩
      exact ⟨a,ha,normalizeFqdn_named D hnamed⟩
  | ip =>
      rcases normalizeIp_cases D value with h | ⟨hzone,hrefused | ⟨a,ha,hsettled⟩⟩
      · exact .inl ⟨⟨h.1,h.2.1⟩,h.2.2⟩
      · exact .inr ⟨hzone,.inl hrefused⟩
      · exact .inr ⟨hzone,.inr ⟨a,ha,normalizeIp_settled D hsettled⟩⟩
  | url =>
      refine .inr ⟨id,(normalizeUrl_cases D value).imp_right ?_⟩
      rintro ⟨a,url,host,ha,hwritten⟩
      exact ⟨a,ha,normalizeUrl_written D hwritten⟩
  | tcp =>
      rcases normalizeTcp_cases D value with h | ⟨hzone,hrefused | ⟨a,host,port,ha,hported⟩⟩
      · exact .inl h
      · exact .inr ⟨hzone,.inl hrefused⟩
      · exact .inr ⟨hzone,.inr ⟨a,ha,normalizeTcp_ported D hported⟩⟩
  | canary =>
      refine .inr ⟨id,?_⟩
      rw [normalizeByKind]
      split_ifs
      · refine (normalizeUrl_cases D (trim value)).imp_right ?_
        rintro ⟨a,url,host,ha,hwritten⟩
        refine ⟨a,ha,?_⟩
        have htrim : trim a = a :=
          trim_of_solid (hwritten.href ▸ D.href_solid url hwritten.special)
        rw [normalizeByKind,htrim]
        rw [if_pos (startsHttp_written D hwritten),normalizeUrl_written D hwritten]
      · refine (hname (trim value)).imp_right ?_
        rintro ⟨a,ha,hnamed⟩
        refine ⟨a,ha,?_⟩
        have htrim : trim a = a :=
          trim_of_solid fun u hu => (isNameUnit_spec (hnamed.units u hu)).1
        rw [normalizeByKind,htrim]
        rw [startsHttp_named hnamed,if_neg Bool.false_ne_true,normalizeFqdn_named D hnamed]

theorem normalizeTargetKind_text (kind : Kind) :
    normalizeTargetKind P (.str kind.text) = .ok kind := by
  have hlower : P.toLowerCase kind.text = kind.text := by
    apply D.lower_plain
    have hall : kind.text.all (fun u => u.toNat < 128 && !(65 ≤ u.toNat && u.toNat ≤ 90)) =
        true := by
      cases kind <;> rfl
    rw [List.all_eq_true] at hall
    intro u hu
    have := hall u hu
    simp only [Bool.and_eq_true,Bool.not_eq_true',Bool.and_eq_false_iff,decide_eq_true_eq,
      decide_eq_false_iff_not] at this
    exact ⟨this.1,by omega⟩
  have htrim : trim kind.text = kind.text := by cases kind <;> decide
  have htext : textOf (.str kind.text) = kind.text := rfl
  rw [normalizeTargetKind,htext,htrim,hlower]
  cases kind <;> rfl

theorem normalizeTargetValue_text (kind : Kind) (value : JsVal) :
    normalizeTargetValue P (.str kind.text) value = normalizeByKind P kind (textOf value) := by
  rw [normalizeTargetValue,normalizeTargetKind_text D]
  rfl

/-- A target with this kind and value keeps both, and has the key that they make. -/
def Stays (P : Platform) (t : Normalized) (again later : JsVal) : Prop :=
  (∃ t',normalizeTargetInput P again later = .ok t' ∧ t'.kind = t.kind ∧ t'.value = t.value) ∧
    targetDedupeKey P again = .ok (t.kind.text++[0]++t.value)

theorem stays {t : Normalized} {again later : JsVal}
    (hfixed : normalizeByKind P t.kind t.value = .ok t.value)
    (hkind : field (sourceOf again) "kind" = .str t.kind.text)
    (hvalue : field (sourceOf again) "value" = .str t.value)
    (htags : ∃ tags,tagsOf P again later = .ok tags) : Stays P t again later := by
  have hkindOf : ∀ record,kindOf again record = .str t.kind.text := by
    intro record
    rw [kindOf,hkind]
    rfl
  have hvalueOf : ∀ record,valueOf again record = .str t.value := by
    intro record
    rw [valueOf,hvalue]
    rfl
  have hresult : ∀ record tags,tagsOf P again record = .ok tags →
      ∃ t',normalizeTargetInput P again record = .ok t' ∧ t'.kind = t.kind ∧
        t'.value = t.value := by
    intro record tags hok
    refine ⟨_,normalizeTargetInput_ok ?_ ?_ hok,rfl,rfl⟩
    · rw [hkindOf,normalizeTargetKind_text D]
    · rw [hvalueOf,normalizeTargetValue_text D]
      exact hfixed
  have hnull : ∃ tags,tagsOf P again .null = .ok tags := by
    obtain ⟨tags,hok⟩ := htags
    rw [tagsOf] at hok ⊢
    split_ifs at hok ⊢
    · exact ⟨_,rfl⟩
    · exact ⟨tags,hok⟩
  obtain ⟨tags,hok⟩ := htags
  obtain ⟨nulls,hoknull⟩ := hnull
  obtain ⟨t',ht',hkind',hvalue'⟩ := hresult .null nulls hoknull
  refine ⟨hresult later tags hok,?_⟩
  rw [targetDedupeKey,ht',← hkind',← hvalue']
  rfl

/-- Without a current record the tags of a result are accepted again. -/
theorem tagsOf_asTarget {input : JsVal} {t : Normalized}
    (h : normalizeTargetInput P input .null = .ok t) :
    ∃ tags,tagsOf P t.asTarget .null = .ok tags := by
  have htags := (normalizeTargetInput_parts h).2.2.1
  have hfield : field (sourceOf t.asTarget) "tags" = .arr (t.tags.map .str) := rfl
  have hagain : normalizeTargetTags P.toLowerCase (.arr (t.tags.map .str)) = .ok t.tags := by
    rw [tagsOf] at htags
    split_ifs at htags
    · have hempty : t.tags = [] := (Except.ok.inj htags).symm
      rw [hempty]
      rfl
    · exact normalizeTargetTags_again D.lower_plain htags
  refine ⟨t.tags,?_⟩
  rw [tagsOf,hfield]
  exact hagain

omit D in
theorem normalizeTargetKind_refused {input : JsVal} :
    normalizeTargetKind P input ≠ .error .typeError := by
  intro h
  rw [normalizeTargetKind] at h
  split at h <;> cases h

omit D in
theorem tagsOf_refused {input current : JsVal} : tagsOf P input current ≠ .error .typeError := by
  intro h
  rw [tagsOf] at h
  split_ifs at h
  exact normalizeTargetTags_refused h

/-- Normalisation is total and its results stay as they are, except for an IPv6 address with a
zone, which raises an exception of the URL class. -/
theorem target_input_total_iff (input current : JsVal) (kind value : JsString)
    (hkind : kindOf input current = .str kind) (hvalue : valueOf input current = .str value) :
    (normalizeTargetInput P input current ≠ .error .typeError ∧
      ∀ t,normalizeTargetInput P input current = .ok t →
        (∀ again later,field (sourceOf again) "kind" = .str t.kind.text →
          field (sourceOf again) "value" = .str t.value →
          (∃ tags,tagsOf P again later = .ok tags) → Stays P t again later) ∧
        (current = .null → Stays P t t.asTarget .null)) ↔
      ∀ k,normalizeTargetKind P (.str kind) = .ok k → ¬ ZonedValue P k value := by
  constructor
  · rintro ⟨htotal,-⟩ k hk hzoned
    rcases normalizeByKind_cases D k value with ⟨-,herror⟩ | ⟨hnot,-⟩
    · apply htotal
      rw [normalizeTargetInput,hkind,hk,hvalue]
      simp only [bind,Except.bind]
      rw [normalizeTargetValue_text D]
      have htext : textOf (.str value) = value := rfl
      rw [htext,herror]
    · exact hnot hzoned
  · intro hzone
    refine ⟨?_,?_⟩
    · intro herror
      rw [normalizeTargetInput,hkind,hvalue] at herror
      simp only [bind,Except.bind] at herror
      cases hk : normalizeTargetKind P (.str kind) with
      | error e =>
          rw [hk] at herror
          cases herror
          exact normalizeTargetKind_refused hk
      | ok k =>
          rw [hk] at herror
          simp only at herror
          rw [normalizeTargetValue_text D] at herror
          have htext : textOf (.str value) = value := rfl
          rw [htext] at herror
          rcases normalizeByKind_cases D k value with
            ⟨hzoned,-⟩ | ⟨-,⟨message,hrefused⟩ | ⟨a,ha,-⟩⟩
          · exact hzone k hk hzoned
          · rw [hrefused] at herror
            cases herror
          · rw [ha] at herror
            simp only at herror
            cases htags : tagsOf P input current with
            | error e =>
                rw [htags] at herror
                cases herror
                exact tagsOf_refused htags
            | ok tags =>
                rw [htags] at herror
                cases herror
    · intro t ht
      obtain ⟨hk,hv,-⟩ := normalizeTargetInput_parts ht
      rw [hkind] at hk
      rw [hvalue,normalizeTargetValue_text D] at hv
      have hfixed : normalizeByKind P t.kind t.value = .ok t.value := by
        rcases normalizeByKind_cases D t.kind value with
          ⟨-,herror⟩ | ⟨-,⟨message,herror⟩ | ⟨a,ha,hagain⟩⟩
        · have := hv.symm.trans herror
          cases this
        · have := hv.symm.trans herror
          cases this
        · have := Except.ok.inj (ha.symm.trans hv)
          rwa [this] at hagain
      refine ⟨fun again later => stays D hfixed,?_⟩
      rintro rfl
      exact stays D hfixed rfl rfl (tagsOf_asTarget D ht)

end

/-- Names and one IPv6 address. -/
def smallHost (host : JsString) : Bool :=
  host = js "[::1]" || (host ≠ [] && host.all isNameUnit)

def smallBody (text : JsString) : JsString := (text.drop 7).dropLast

def smallAscii (s : JsString) : JsString := if s.all isNameUnit then s else []

abbrev SmallUrl : Type := { host : JsString // smallHost host = true }

def smallParse (text : JsString) : Option SmallUrl :=
  if h : smallHost (smallBody text) = true ∧ text = js "http://"++smallBody text++js "/" then
    some ⟨smallBody text,h.1⟩
  else none

def smallHref (url : SmallUrl) : JsString := js "http://"++url.1++js "/"

def smallSet (url : SmallUrl) (host : JsString) : SmallUrl :=
  if h : smallHost host = true then ⟨host,h⟩ else url

def smallLower (s : JsString) : JsString :=
  s.map fun u => if 65 ≤ u.toNat ∧ u.toNat ≤ 90 then u+32 else u

def smallIsIP (s : JsString) : ℕ := if s = js "::1" ∨ s = js "fe80::1%eth0" then 6 else 0

/-- The platform on URLs without a path; of IPv6 it knows one address and one with a zone. -/
def small : Platform where
  toLowerCase := smallLower
  isIP := smallIsIP
  domainToASCII := smallAscii
  Url := SmallUrl
  newUrl := smallParse
  protocol := fun _ => js "http:"
  username := fun _ => []
  password := fun _ => []
  hostname := fun url => url.1
  setHostname := smallSet
  clearHash := id
  href := smallHref

theorem smallIsIP_cases (s : JsString) : smallIsIP s = 0 ∨
    smallIsIP s = 6 ∧ (s = js "::1" ∨ s = js "fe80::1%eth0") := by
  rw [smallIsIP]
  split_ifs with h
  · exact .inr ⟨rfl,h⟩
  · exact .inl rfl

theorem smallIsIP_six {s : JsString} (h : smallIsIP s = 6) :
    s = js "::1" ∨ s = js "fe80::1%eth0" := by
  rcases smallIsIP_cases s with hzero | hsix
  · omega
  · exact hsix.2

theorem smallParse_href (url : SmallUrl) : smallParse (smallHref url) = some url := by
  have hbody : smallBody (smallHref url) = url.1 := by
    have hslash : js "/" = [47] := by decide
    have hlength : (js "http://").length = 7 := by decide
    rw [smallBody,smallHref,List.append_assoc,List.drop_append_of_le_length (by omega),← hlength,
      List.drop_length,List.nil_append,hslash,List.dropLast_concat]
  rw [smallParse,dif_pos ⟨hbody ▸ url.2,by rw [hbody]; rfl⟩]
  exact congrArg some (Subtype.ext hbody)

theorem smallSet_host (url : SmallUrl) {host : JsString} (h : smallHost host = true) :
    smallSet url host = ⟨host,h⟩ := dif_pos h

theorem smallLower_plain : KeepsPlain smallLower := by
  intro s h
  refine (List.map_congr_left fun u hu => ?_).trans (List.map_id s)
  exact if_neg (h u hu).2

theorem smallLower_ascii (s : JsString) : smallLower (smallAscii s) = smallAscii s := by
  apply smallLower_plain
  intro u hu
  rw [smallAscii] at hu
  split_ifs at hu with hall
  · have hname := List.all_eq_true.mp hall u hu
    simp only [isNameUnit,isTagStart,Bool.or_eq_true,Bool.and_eq_true,decide_eq_true_eq] at hname
    rcases hname with (hname | rfl) | rfl
    · omega
    · decide
    · decide
  · simp at hu

theorem smallHost_units {host : JsString} (h : smallHost host = true) : ∀ u ∈ host,
    isNameUnit u = true ∨ u = 91 ∨ u = 58 ∨ u = 93 := by
  simp only [smallHost,Bool.or_eq_true,Bool.and_eq_true,decide_eq_true_eq,List.all_eq_true] at h
  rcases h with rfl | h
  · simp [js,isNameUnit,isTagStart]
  · exact fun u hu => .inl (h.2 u hu)

theorem small_address : Address6 small (js "::1") := by
  refine ⟨by decide,by simp [js,isAddressUnit,isDigitUnit],⟨js "[::1]",by decide⟩,?_,by decide⟩
  exact smallParse_href ⟨js "[::1]",by decide⟩

theorem smallHost_settled {host : JsString} (h : Settled small host) :
    smallHost (withBrackets small host) = true := by
  cases h with
  | v4 h =>
      rcases smallIsIP_cases host with hzero | hsix
      · exact absurd (h.symm.trans hzero) (by decide)
      · exact absurd (h.symm.trans hsix.1) (by decide)
  | v6 h =>
      rcases smallIsIP_six h.version with rfl | rfl
      · decide
      · exact absurd (h.units 37 (by simp [js])) (by decide)
  | named h hno =>
      have hplain : withBrackets small host = host := if_neg (by rw [hno]; decide)
      rw [hplain,smallHost]
      simp only [Bool.or_eq_true,Bool.and_eq_true,decide_eq_true_eq,List.all_eq_true]
      exact .inr ⟨h.ne_nil,h.units⟩

theorem small_documented : Documented small where
  lower_plain := smallLower_plain
  version := fun s => (smallIsIP_cases s).imp_right fun h => .inr h.1
  version_four := by
    intro s h
    rcases smallIsIP_cases s with hzero | hsix
    · exact absurd (h.symm.trans hzero) (by decide)
    · exact absurd (h.symm.trans hsix.1) (by decide)
  version_six := by
    intro s h
    rcases smallIsIP_six h with rfl | rfl
    · simp [js]
    · simp [js]
  ascii_lower := smallLower_ascii
  ascii_again := by
    intro s
    change smallAscii (smallAscii s) = smallAscii s
    rw [smallAscii,smallAscii]
    split_ifs <;> simp_all
  host_six := by
    intro s h hzone
    rcases smallIsIP_six h with rfl | rfl
    · obtain ⟨url,hurl,hhost⟩ := small_address.host
      exact ⟨url,js "::1",hurl,hhost,small_address⟩
    · exact absurd (by simp [js]) hzone
  host_zone := by
    intro s h hzone
    rcases smallIsIP_six h with rfl | rfl
    · exact absurd hzone (by simp [js])
    · have hnone : smallParse (bracketed (js "fe80::1%eth0")) = none := by decide
      exact hnone
  host_percent := by
    intro s url _ _ hpercent
    rcases smallHost_units url.2 37 hpercent with h | h | h | h
    · exact absurd h (by decide)
    · exact absurd h (by decide)
    · exact absurd h (by decide)
    · exact absurd h (by decide)
  set_host := by
    intro url host _ hsettled
    refine ⟨?_,rfl,rfl,rfl⟩
    exact congrArg Subtype.val (smallSet_host url (smallHost_settled hsettled))
  set_same := by
    intro url _
    exact smallSet_host url url.2
  clear_host := fun _ => ⟨rfl,rfl,rfl,rfl⟩
  clear_again := fun _ => rfl
  parse_href := fun url _ => smallParse_href url
  href_start := fun url _ => ⟨url.1++js "/",by
    change js "http://"++url.1++js "/" = _
    simp [js,small]⟩
  href_solid := by
    intro url _ u hu
    change u ∈ js "http://"++url.1++js "/" at hu
    simp only [List.mem_append] at hu
    rcases hu with (hu | hu) | hu
    · simp [js] at hu
      rcases hu with rfl | rfl | rfl | rfl | rfl <;> decide
    · rcases smallHost_units url.2 u hu with h | rfl | rfl | rfl
      · exact (isNameUnit_spec h).1
      · decide
      · decide
      · decide
    · simp [js] at hu
      rw [hu]
      decide

/-- A request with a kind and a value. -/
def request (kind value : String) : JsVal :=
  .obj [(js "kind",.str (js kind)),(js "value",.str (js value))]

theorem loopback_stays :
    normalizeTargetInput small (request "ip" "::1") .null ≠ .error .typeError ∧
      ∀ t,normalizeTargetInput small (request "ip" "::1") .null = .ok t →
        (∀ again later,field (sourceOf again) "kind" = .str t.kind.text →
          field (sourceOf again) "value" = .str t.value →
          (∃ tags,tagsOf small again later = .ok tags) → Stays small t again later) ∧
        (JsVal.null = .null → Stays small t t.asTarget .null) := by
  refine (target_input_total_iff small_documented (request "ip" "::1") .null (js "ip") (js "::1")
    rfl rfl).mpr ?_
  intro k hk hzoned
  have hip : k = .ip := by
    have : normalizeTargetKind small (.str (js "ip")) = .ok .ip := by rfl
    exact (Except.ok.inj (this.symm.trans hk)).symm
  rw [hip] at hzoned
  exact absurd hzoned.2 (by decide)

/-- An address with a zone raises an exception that no caller expects. -/
theorem zone_raises : Documented small ∧
    normalizeTargetInput small (request "ip" "fe80::1%eth0") .null = .error .typeError :=
  ⟨small_documented,rfl⟩

end AstraNull.TargetStability

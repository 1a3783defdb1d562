import Mathlib
import AstraNull.JsonText
import AstraNull.ScriptText
import AstraNull.ScriptValue
import AstraNull.ScriptObject
import AstraNull.CheckedObjects
import AstraNull.ProbeProfile
import AstraNull.TargetMetadata
import AstraNull.TargetInput
import AstraNull.TargetStability
import AstraNull.ControlDeclarations
import AstraNull.DeclarationStability

/-!
# The declared network policy

No two rules of a normalised policy agree in protocol, port and address family. A query therefore
finds one exact rule at most and one rule for any family at most, in whatever order they stand.
-/
namespace AstraNull.DeclaredPolicy
open JsonText ScriptText ScriptValue ScriptObject CheckedObjects ControlDeclarations
open DeclarationStability
open ProbeProfile (numeral integerIn integerIn_numeral)
open TargetMetadata (KeepsPlain trim_of_solid)
open TargetInput (Platform textOf)

section
variable {α : Type} {p : α → Bool} {l m : List α}

theorem find_unique {a : α} (ha : a ∈ l) (hp : p a = true) (hone : ∀ b ∈ l,p b = true → b = a) :
    l.find? p = some a := by
  cases h : l.find? p with
  | none => exact absurd hp (List.find?_eq_none.mp h a ha)
  | some b => rw [hone b (List.mem_of_find?_eq_some h) (List.find?_some h)]

theorem find_perm (h : l.Perm m) (hone : ∀ a ∈ l,∀ b ∈ l,p a = true → p b = true → a = b) :
    m.find? p = l.find? p := by
  cases hl : l.find? p with
  | none =>
      rw [List.find?_eq_none] at hl ⊢
      exact fun b hb => hl b (h.mem_iff.mpr hb)
  | some a =>
      have ha := List.mem_of_find?_eq_some hl
      have hp := List.find?_some hl
      exact find_unique (h.mem_iff.mp ha) hp fun b hb hpb =>
        hone b (h.mem_iff.mpr hb) a ha hpb hp

end

/-- The rule is for this protocol, port and address family. -/
def covers (proto : JsString) (port : Numeric) (family : JsString) (rule : JsVal) : Bool :=
  strictEq (field rule "protocol") (.str proto) && sameNumber (field rule "port") port &&
    strictEq (field rule "address_family") (.str family)

theorem is_eq_strictEq (v : JsVal) (literal : String) :
    is v literal = strictEq v (.str (js literal)) := by
  cases v <;> rfl

theorem nullish_of_family {rule : JsVal} {family : JsString}
    (h : strictEq (field rule "address_family") (.str family) = true) : nullish rule = false := by
  cases rule with
  | undefined => cases h
  | null => cases h
  | _ => rfl

/-- The exact rule; else what was found before, or the first rule for any family. -/
theorem scanRules_eq (proto : JsString) (port : Numeric) (family : JsString) (anyMatch : JsVal)
    (rules : List JsVal) : scanRules proto port family anyMatch rules =
      ((rules.find? (covers proto port family)).or (if nullish anyMatch then
        rules.find? (covers proto port (js "any")) else none)).getD anyMatch := by
  induction rules generalizing anyMatch with
  | nil => simp [scanRules]
  | cons rule rules ih =>
      rw [scanRules,is_eq_strictEq]
      cases hhit : strictEq (field rule "protocol") (.str proto) &&
          sameNumber (field rule "port") port with
      | false =>
          have hmiss : ∀ f,covers proto port f rule = false := by
            intro f
            rw [covers,hhit,Bool.false_and]
          rw [if_pos (by rw [← Bool.not_and,hhit]; rfl),ih,
            List.find?_cons_of_neg (by simp [hmiss]),List.find?_cons_of_neg (by simp [hmiss])]
      | true =>
          have hcovers : ∀ f,covers proto port f rule =
              strictEq (field rule "address_family") (.str f) := by
            intro f
            rw [covers,hhit,Bool.true_and]
          rw [Bool.and_eq_true] at hhit
          rw [if_neg (by simp [hhit.1,hhit.2])]
          cases hexact : strictEq (field rule "address_family") (.str family) with
          | true =>
              rw [if_pos rfl,List.find?_cons_of_pos (by rw [hcovers,hexact])]
              rfl
          | false =>
              rw [if_neg Bool.false_ne_true,List.find?_cons_of_neg (by simp [hcovers,hexact])]
              cases hany : strictEq (field rule "address_family") (.str (js "any")) with
              | false =>
                  rw [Bool.false_and,if_neg Bool.false_ne_true,ih,
                    List.find?_cons_of_neg (by simp [hcovers,hany])]
              | true =>
                  rw [List.find?_cons_of_pos (by rw [hcovers,hany]),Bool.true_and,ih,ih,
                    nullish_of_family hany]
                  cases nullish anyMatch <;> cases rules.find? (covers proto port family) <;> rfl

section
variable {C : Context}

/-- The members of a checked rule. -/
theorem rule_ok {path : JsString} {raw v : JsVal} (h : (networkRules C).item path raw = .ok v) :
    ∃ kvs,checkMembers dotted path raw (ruleMembers C) = .ok kvs ∧
      ruleKey (.obj kvs) = ruleKey v := by
  obtain ⟨all,hall,rfl⟩ := checkObject_ok h
  obtain ⟨kvs,back,hkvs,-,rfl⟩ := checkMembers_append hall
  refine ⟨kvs,hkvs,?_⟩
  rcases checkMembers_cases hkvs with ⟨hskip,-⟩ | ⟨-,protocol,rest,-,hport,rfl⟩
  · cases hskip
  rcases checkMembers_cases hport with ⟨hskip,-⟩ | ⟨-,port,rest,-,haction,rfl⟩
  · cases hskip
  rcases checkMembers_cases haction with ⟨hskip,-⟩ | ⟨-,action,rest,-,hfamily,rfl⟩
  · cases hskip
  rcases checkMembers_cases hfamily with ⟨hskip,-⟩ | ⟨-,family,rest,-,hrest,rfl⟩
  · cases hskip
  cases hrest
  rw [ruleKey,ruleKey,field_front (by simp),field_front (by simp),field_front (by simp)]

/-- A checked rule has the key of what it says. -/
theorem ruleKey_of_key (hC : Documented C) {path path' : JsString} {raw v : JsVal} {k : JsString}
    (h : (networkRules C).item path raw = .ok v) (hk : (networkRules C).key path' v = .ok k) :
    ruleKey v = k := by
  obtain ⟨kvs,hkvs,hkey⟩ := rule_ok (stable_rule hC path path' raw v h)
  change (checkObject networkRuleKeys (ruleMembers C) path' v).map ruleKey = .ok k at hk
  cases hu : checkObject networkRuleKeys (ruleMembers C) path' v with
  | error e =>
      rw [hu] at hk
      cases hk
  | ok u =>
      rw [hu] at hk
      cases hk
      obtain ⟨kvs',hkvs',rfl⟩ := checkObject_ok hu
      cases hkvs.symm.trans hkvs'
      exact hkey.symm

theorem distinct_rules (hC : Documented C) {path : JsString} {raw : JsVal} {rules : List JsVal}
    (h : normalizeNetworkPolicy C path raw = .ok (.arr rules)) : (rules.map ruleKey).Nodup := by
  obtain ⟨raws,vs,-,-,hvs,heq⟩ := checkArray_ok h
  cases heq
  obtain ⟨keys,hkeys,hnodup⟩ := keys_checkList (stable_networkRules hC) hvs List.nodup_nil path
  have hall : rules.map ruleKey = keys := by
    apply List.map_injective_iff.mpr (fun _ _ h => Except.ok.inj h : Function.Injective
      (Except.ok : JsString → Except Refusal JsString))
    rw [List.map_map,← hkeys]
    apply List.map_congr_left
    intro v hv
    obtain ⟨path',raw,hitem⟩ := mem_checkList hvs v hv
    have hmem : (networkRules C).key path v ∈ keys.map Except.ok := by
      rw [← hkeys]
      exact List.mem_map.mpr ⟨v,hv,rfl⟩
    obtain ⟨k,-,hk⟩ := List.mem_map.mp hmem
    rw [Function.comp_apply,ruleKey_of_key hC hitem hk.symm,hk]
  rw [hall]
  exact hnodup

theorem num_of_sameNumber {v : JsVal} {n : Numeric} (h : sameNumber v n = true) :
    ∃ m,v = .num m ∧ n = .finite m := by
  cases v with
  | num m =>
      refine ⟨m,rfl,?_⟩
      simpa [sameNumber,Numeric.same,eq_comm] using h
  | _ => cases h

theorem covers_unique {rules : List JsVal} (h : (rules.map ruleKey).Nodup) (proto : JsString)
    (port : Numeric) (family : JsString) : ∀ a ∈ rules,∀ b ∈ rules,
      covers proto port family a = true → covers proto port family b = true → a = b := by
  intro a ha b hb hca hcb
  simp only [covers,Bool.and_eq_true] at hca hcb
  obtain ⟨m,hma,rfl⟩ := num_of_sameNumber hca.1.2
  obtain ⟨n,hnb,hmn⟩ := num_of_sameNumber hcb.1.2
  cases hmn
  refine List.inj_on_of_nodup_map h ha hb ?_
  rw [ruleKey,ruleKey,eq_of_strictEq hca.1.1,eq_of_strictEq hcb.1.1,eq_of_strictEq hca.2,
    eq_of_strictEq hcb.2,hma,hnb]

def Query.family (C : Context) (q : Query) : JsString :=
  C.P.toLowerCase (toStr (orElse q.addressFamily (.str (js "any"))))

/-- The rule is for the protocol, the port and the address family that are asked for. -/
def Query.exact (C : Context) (q : Query) (rule : JsVal) : Bool :=
  covers (C.P.toLowerCase (textOf q.protocol)) (toNumber q.port) (Query.family C q) rule

theorem declaredNetworkPolicyFor_eq {declarations : JsVal} {rules : List JsVal}
    (h : field declarations "network_policy" = .arr rules) (q : Query) :
    declaredNetworkPolicyFor C declarations q =
      ((rules.find? (Query.exact C q)).or (rules.find? (covers (C.P.toLowerCase (textOf q.protocol))
        (toNumber q.port) (js "any")))).getD .null := by
  rw [declaredNetworkPolicyFor,h]
  exact scanRules_eq _ _ _ .null rules

/-- Any order of the rules gives the same answers, and an exact rule is the answer. -/
def OrderFree (C : Context) (declarations : JsVal) : Prop :=
  ∀ (rules other : List JsVal) (q : Query),field declarations "network_policy" = .arr rules →
    rules.Perm other →
    declaredNetworkPolicyFor C (put declarations "network_policy" (.arr other)) q =
        declaredNetworkPolicyFor C declarations q ∧
      ∀ rule ∈ other,Query.exact C q rule = true →
        declaredNetworkPolicyFor C (put declarations "network_policy" (.arr other)) q = rule

theorem orderFree_of_distinct {declarations : JsVal}
    (h : ∀ rules,field declarations "network_policy" = .arr rules → (rules.map ruleKey).Nodup) :
    OrderFree C declarations := by
  intro rules other q hrules hperm
  have hone := covers_unique (h rules hrules) (C.P.toLowerCase (textOf q.protocol))
    (toNumber q.port)
  have hsame : other.find? (Query.exact C q) = rules.find? (Query.exact C q) :=
    find_perm hperm (hone (Query.family C q))
  rw [declaredNetworkPolicyFor_eq (field_put_self _ _ _),declaredNetworkPolicyFor_eq hrules,
    find_perm hperm (hone (js "any")),hsame]
  refine ⟨rfl,fun rule hrule hexact => ?_⟩
  have hfound : rules.find? (Query.exact C q) = some rule :=
    find_unique (hperm.mem_iff.mpr hrule) hexact fun b hb hpb =>
      hone (Query.family C q) b hb rule (hperm.mem_iff.mpr hrule) hpb hexact
  rw [hfound]
  rfl

theorem orderFree_of_normalized (hC : Documented C) {target input out : JsVal}
    (h : normalizeControlDeclarations C target input = .ok out) : OrderFree C out := by
  refine orderFree_of_distinct fun rules hrules => ?_
  obtain ⟨kvs,hkvs,rfl⟩ := normalizeControlDeclarations_ok h
  rcases checkMembers_cases hkvs with ⟨-,hrest⟩ | ⟨-,v,rest,hv,-,rfl⟩
  · have habsent : js "network_policy" ∉ ((js "version",numeral 1)::kvs).map Prod.fst := by
      intro hmem
      rcases List.mem_cons.mp hmem with hname | hname
      · exact absurd hname (by decide)
      · exact absurd ((names_checkMembers hrest).subset hname) (by simp; decide)
    rw [field_of_absent habsent] at hrules
    cases hrules
  · have hfield := @field_of_first [(js "version",numeral 1)] rest "network_policy" v (by decide)
    have hrules : v = .arr rules := hfield.symm.trans hrules
    rw [hrules] at hv
    exact distinct_rules hC hv

theorem declarations_canonical_iff (hC : Documented C) {target input out : JsVal}
    (h : normalizeControlDeclarations C target input = .ok out) :
    normalizeControlDeclarations C target out = .ok out ∧ OrderFree C out ↔ ShortSink C input := by
  constructor
  · rintro ⟨hagain,-⟩
    exact shortSink_of_again hC h hagain
  · intro hshort
    exact ⟨normalize_again hC h hshort,orderFree_of_normalized hC h⟩

end

def isPathUnit (u : UInt16) : Bool := isAlphanumeric u.toNat || u = 37

/-- A quotation mark is written in three units. -/
def encoded (u : UInt16) : JsString := if u = 34 then js "%22" else [u]

abbrev PathUrl : Type := { path : JsString // path.all isPathUnit = true }

theorem all_encoded {s : JsString} (h : s.all (fun u => isPathUnit u || u = 34) = true) :
    (s.flatMap encoded).all isPathUnit = true := by
  rw [List.all_flatMap,List.all_eq_true]
  intro u hu
  have hunit := List.all_eq_true.mp h u hu
  by_cases hquote : u = 34
  · rw [encoded,if_pos hquote]
    decide
  · simp only [hquote,decide_false,Bool.or_false] at hunit
    rw [encoded,if_neg hquote,List.all_cons,hunit]
    rfl

theorem flatMap_encoded {s : JsString} (h : s.all isPathUnit = true) : s.flatMap encoded = s := by
  induction s with
  | nil => rfl
  | cons u s ih =>
      rw [List.all_cons,Bool.and_eq_true] at h
      have hquote : u ≠ 34 := by
        rintro rfl
        exact absurd h.1 (by decide)
      rw [List.flatMap_cons,ih h.2,encoded,if_neg hquote]
      rfl

def hostOrigin : JsString := js "https://a/"

def parseOnHost (text : JsString) : Option PathUrl :=
  if h : hostOrigin.isPrefixOf text = true ∧
      (text.drop 10).all (fun u => isPathUnit u || u = 34) = true then
    some ⟨(text.drop 10).flatMap encoded,all_encoded h.2⟩
  else none

theorem parseOnHost_append {path : JsString}
    (h : path.all (fun u => isPathUnit u || u = 34) = true) :
    parseOnHost (hostOrigin++path) = some ⟨path.flatMap encoded,all_encoded h⟩ := by
  have hdrop : (hostOrigin++path).drop 10 = path := by
    have hlength : hostOrigin.length = 10 := by decide
    rw [← hlength,List.drop_left]
  have hstart : hostOrigin.isPrefixOf (hostOrigin++path) = true :=
    List.isPrefixOf_iff_prefix.mpr (List.prefix_append _ _)
  simp only [parseOnHost,hdrop]
  rw [dif_pos ⟨hstart,h⟩]

def capital (s : JsString) : JsString :=
  s.map fun u => if 97 ≤ u.toNat ∧ u.toNat ≤ 122 then u-32 else u

/-- URLs of one host with letters, digits, `%` and quotation marks in the path. -/
def oneHost : Context where
  P :=
    { toLowerCase := TargetStability.smallLower
      isIP := fun _ => 0
      domainToASCII := id
      Url := PathUrl
      newUrl := parseOnHost
      protocol := fun _ => js "https:"
      username := fun _ => []
      password := fun _ => []
      hostname := fun _ => js "a"
      setHostname := fun url _ => url
      clearHash := id
      href := fun url => hostOrigin++url.1 }
  toUpperCase := capital
  knownIds := []

theorem isPathUnit_spec {u : UInt16} (h : isPathUnit u = true) :
    isWhiteSpace u.toNat = false := by
  have hrange : 37 ≤ u.toNat ∧ u.toNat < 128 := by
    simp only [isPathUnit,isAlphanumeric,Bool.or_eq_true,Bool.and_eq_true,decide_eq_true_eq] at h
    rcases h with h | rfl
    · omega
    · decide
  simp only [isWhiteSpace,Bool.or_eq_false_iff,Bool.and_eq_false_iff,decide_eq_false_iff_not]
  omega

theorem solid_origin : ∀ u ∈ hostOrigin,isWhiteSpace u.toNat = false := by
  have hall : (hostOrigin.all fun u => !isWhiteSpace u.toNat) = true := by decide
  intro u hu
  simpa using List.all_eq_true.mp hall u hu

theorem oneHost_documented : Documented oneHost where
  lower_plain := TargetStability.smallLower_plain
  lower_small := by
    intro s u hu
    obtain ⟨v,-,rfl⟩ := List.mem_map.mp hu
    split_ifs with hcapital
    · rw [UInt16.toNat_add]
      have : (32 : UInt16).toNat = 32 := rfl
      omega
    · exact hcapital
  lower_length := fun s _ => (List.length_map _).le
  upper_plain := by
    intro s h
    refine (List.map_congr_left fun u hu => ?_).trans (List.map_id s)
    exact if_neg (h u hu).2
  clear_host := fun _ => ⟨rfl,rfl,rfl,rfl⟩
  clear_again := fun _ => rfl
  parse_href := by
    intro url _
    have hall : url.1.all (fun u => isPathUnit u || u = 34) = true := by
      refine List.all_eq_true.mpr fun u hu => ?_
      rw [List.all_eq_true.mp url.2 u hu]
      rfl
    refine (parseOnHost_append hall).trans ?_
    exact congrArg some (Subtype.ext (flatMap_encoded url.2))
  href_solid := by
    intro url _ u hu
    rcases List.mem_append.mp hu with hu | hu
    · exact solid_origin u hu
    · exact isPathUnit_spec (List.all_eq_true.mp url.2 u hu)
  parse_empty := by
    have hnone : parseOnHost [] = none := by decide
    exact hnone

def hostTarget : JsVal := .obj [(js "kind",.str (js "fqdn")),(js "value",.str (js "a"))]

def rule (protocol action family : String) : JsVal :=
  .obj [(js "protocol",.str (js protocol)),(js "port",numeral 443),(js "action",.str (js action)),
    (js "address_family",.str (js family))]

/-- Two rules and a sink. -/
def twoRules (url : JsString) : JsVal :=
  .obj [(js "network_policy",.arr [rule "TCP" "deny" "any",rule "tcp" "allow" "ipv4"]),
    (js "canary_sink",.obj [(js "url",.str url)])]

def twoRulesOut (url : JsString) : JsVal :=
  .obj [(js "version",numeral 1),
    (js "network_policy",.arr [rule "tcp" "deny" "any",rule "tcp" "allow" "ipv4"]),
    (js "canary_sink",.obj [(js "url",.str url)])]

theorem port_ok (path : JsString) : portNumber path (numeral 443) = .ok (numeral 443) := by
  have hin : integerIn (numeral 443) 1 65535 = true :=
    integerIn_numeral (by norm_num) (by norm_num) (by norm_num) (by norm_num)
  rw [portNumber,integerInRange,if_pos hin]

theorem sampleRule_ok {protocol action family : String} (path : JsString)
    (hprotocol : ∀ path,wordIn oneHost.P.toLowerCase 8 ["tcp","udp"]
      "protocol must be \"tcp\" or \"udp\"." path (.str (js protocol)) = .ok (.str (js "tcp")))
    (haction : ∀ path,wordIn oneHost.P.toLowerCase 8 ["allow","deny"]
      "action must be \"allow\" or \"deny\"." path (.str (js action)) = .ok (.str (js action)))
    (hfamily : ∀ path,wordIn oneHost.P.toLowerCase 8 ["ipv4","ipv6","any"]
      "address_family must be \"ipv4\", \"ipv6\", or \"any\"." path (.str (js family)) =
        .ok (.str (js family))) :
    checkObject networkRuleKeys (ruleMembers oneHost) path (rule protocol action family) =
        .ok (rule "tcp" action family) ∧
      (networkRules oneHost).item path (rule protocol action family) =
        .ok (rule "tcp" action family) := by
  have h1 : field (rule protocol action family) "protocol" = .str (js protocol) := rfl
  have h2 : field (rule protocol action family) "port" = numeral 443 := rfl
  have h3 : field (rule protocol action family) "action" = .str (js action) := rfl
  have h4 : field (rule protocol action family) "address_family" = .str (js family) := rfl
  have h5 : field (rule protocol action family) "note" = .undefined := rfl
  have hkeys : rejectUnknownKeys (rule protocol action family) networkRuleKeys path = .ok () :=
    rejectUnknownKeys_known (by simp [networkRuleKeys]) path
  constructor
  · rw [checkObject,hkeys]
    simp only [ruleMembers,checkMembers,always,h1,h2,h3,h4,hprotocol,haction,hfamily,
      port_ok]
    rfl
  · simp only [networkRules]
    rw [checkObject,hkeys]
    simp only [ruleMembers,List.cons_append,List.nil_append,checkMembers,always,
      noteMember,h1,h2,h3,h4,h5,hprotocol,haction,hfamily,port_ok]
    rfl

theorem families_differ :
    ruleKey (rule "tcp" "allow" "ipv4") ≠ ruleKey (rule "tcp" "deny" "any") := by
  intro h
  have hcancel : js "ipv4" = js "any" := List.append_cancel_left h
  exact absurd hcancel (by decide)

theorem policy_ok (path : JsString) : normalizeNetworkPolicy oneHost path
    (.arr [rule "TCP" "deny" "any",rule "tcp" "allow" "ipv4"]) =
      .ok (.arr [rule "tcp" "deny" "any",rule "tcp" "allow" "ipv4"]) := by
  have hdeny := fun path => @sampleRule_ok "TCP" "deny" "any" path (fun _ => rfl) (fun _ => rfl)
    (fun _ => rfl)
  have hallow := fun path => @sampleRule_ok "tcp" "allow" "ipv4" path (fun _ => rfl)
    (fun _ => rfl) (fun _ => rfl)
  have hnew : ruleKey (rule "tcp" "allow" "ipv4") ∉ [ruleKey (rule "tcp" "deny" "any")] := by
    simpa using families_differ
  have hrules : checkList (networkRules oneHost) path 0 []
      [rule "TCP" "deny" "any",rule "tcp" "allow" "ipv4"] =
        .ok [rule "tcp" "deny" "any",rule "tcp" "allow" "ipv4"] :=
    checkList_new (congrArg (Except.map ruleKey) (hdeny _).1) List.not_mem_nil (hdeny _).2
      (checkList_new (congrArg (Except.map ruleKey) (hallow _).1) hnew (hallow _).2 rfl)
  rw [normalizeNetworkPolicy,checkArray]
  simp only [hrules,List.length_cons,List.length_nil]
  rfl

theorem kept_onHost {path : JsString} (h : path.all (fun u => isPathUnit u || u = 34) = true)
    (hlength : path.length ≤ 2038) : Kept maxUrl (hostOrigin++path) := by
  refine ⟨trim_of_solid ?_,by simp [hostOrigin,js],?_⟩
  · intro u hu
    rcases List.mem_append.mp hu with hu | hu
    · exact solid_origin u hu
    · have hunit := List.all_eq_true.mp h u hu
      rw [Bool.or_eq_true,decide_eq_true_eq] at hunit
      rcases hunit with hunit | rfl
      · exact isPathUnit_spec hunit
      · decide
  · have horigin : hostOrigin.length = 10 := by decide
    rw [List.length_append,horigin,maxUrl]
    omega

theorem twoRules_ok {path : JsString} (h : path.all (fun u => isPathUnit u || u = 34) = true)
    (hlength : path.length ≤ 2038) :
    normalizeControlDeclarations oneHost hostTarget (twoRules (hostOrigin++path)) =
      .ok (twoRulesOut (hostOrigin++path.flatMap encoded)) := by
  have hkept := kept_onHost h hlength
  have hhost : ((targetHostFromRecord oneHost hostTarget).filter (· ≠ [])).map
      oneHost.P.toLowerCase = some (oneHost.P.toLowerCase (unbracketHost oneHost (js "a"))) := by
    decide
  have haccepted : SinkAccepted oneHost (targetHostFromRecord oneHost hostTarget)
      ⟨path.flatMap encoded,all_encoded h⟩ := ⟨rfl,rfl,rfl,hhost⟩
  have hsink : ∀ at_,normalizeCanarySink oneHost (targetHostFromRecord oneHost hostTarget) at_
      (.obj [(js "url",.str (hostOrigin++path))]) =
        .ok (.obj [(js "url",.str (hostOrigin++path.flatMap encoded))]) := by
    intro at_
    have hurl : field (.obj [(js "url",.str (hostOrigin++path))]) "url" =
        .str (hostOrigin++path) := rfl
    refine checkObject_known (by simp) ?_
    simp only [checkMembers,always,hurl,haccepted.sinkUrl hkept (parseOnHost_append h)]
    rfl
  have h1 : field (twoRules (hostOrigin++path)) "network_policy" =
      .arr [rule "TCP" "deny" "any",rule "tcp" "allow" "ipv4"] := rfl
  have h2 : field (twoRules (hostOrigin++path)) "canary_sink" =
      .obj [(js "url",.str (hostOrigin++path))] := rfl
  rw [normalizeControlDeclarations,twoRules,rejectUnknownKeys_known (by simp [topLevelKeys]),
    ← twoRules]
  simp only [documentMembers,checkMembers,ControlDeclarations.optional,h1,h2,policy_ok,hsink]
  rfl

/-- A short URL with a quotation mark: the document stays, in any order of its rules. -/
theorem short_sink_stays : ∃ out,normalizeControlDeclarations oneHost hostTarget
      (twoRules (hostOrigin++js "x\"y")) = .ok out ∧
    normalizeControlDeclarations oneHost hostTarget out = .ok out ∧ OrderFree oneHost out := by
  have hok := @twoRules_ok (js "x\"y") (by decide) (by decide)
  refine ⟨_,hok,(declarations_canonical_iff oneHost_documented hok).mpr ?_⟩
  intro s url hs hurl
  cases hs
  rw [(@kept_onHost (js "x\"y") (by decide) (by decide)).trimmed] at hurl
  have hurl : parseOnHost (hostOrigin++js "x\"y") = some url := hurl
  cases (@parseOnHost_append (js "x\"y") (by decide)).symm.trans hurl
  decide

/-- A path that grows past the limit when it is written. -/
theorem grown_refused {path : JsString} (h : path.all (fun u => isPathUnit u || u = 34) = true)
    (hlength : path.length ≤ 2038) (hgrown : 2038 < (path.flatMap encoded).length) : ∃ out,
    normalizeControlDeclarations oneHost hostTarget (twoRules (hostOrigin++path)) = .ok out ∧
      normalizeControlDeclarations oneHost hostTarget out ≠ .ok out := by
  have hok := twoRules_ok h hlength
  refine ⟨_,hok,fun hagain => ?_⟩
  have hurl : oneHost.P.newUrl (trim (hostOrigin++path)) =
      some ⟨path.flatMap encoded,all_encoded h⟩ := by
    rw [(kept_onHost h hlength).trimmed]
    exact parseOnHost_append h
  have hshort := shortSink_of_again oneHost_documented hok hagain _ _ rfl hurl
  have horigin : hostOrigin.length = 10 := by decide
  change (hostOrigin++path.flatMap encoded).length ≤ 2048 at hshort
  rw [List.length_append,horigin] at hshort
  omega

def quotes (n : ℕ) : JsString := List.replicate n 34

theorem length_quotes (n : ℕ) : ((quotes n).flatMap encoded).length = n*3 := by
  induction n with
  | zero => rfl
  | succ n ih =>
      have hquote : (encoded 34).length = 3 := by decide
      rw [quotes,List.replicate_succ,List.flatMap_cons,List.length_append,hquote,← quotes,ih]
      omega

/-- A URL of 2048 units is accepted and comes back with 6124. -/
theorem long_sink_refused : Documented oneHost ∧ ∃ out,
    normalizeControlDeclarations oneHost hostTarget (twoRules (hostOrigin++quotes 2038)) =
        .ok out ∧
      normalizeControlDeclarations oneHost hostTarget out ≠ .ok out := by
  refine ⟨oneHost_documented,grown_refused ?_ ?_ ?_⟩
  · rw [quotes,List.all_replicate]
    decide
  · rw [quotes,List.length_replicate]
  · rw [length_quotes]
    omega

end AstraNull.DeclaredPolicy

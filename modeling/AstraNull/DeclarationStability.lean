import Mathlib
import AstraNull.JsonText
import AstraNull.ScriptText
import AstraNull.ScriptValue
import AstraNull.ScriptObject
import AstraNull.CheckedObjects
import AstraNull.ProbeProfile
import AstraNull.TargetMetadata
import AstraNull.TargetInput
import AstraNull.ControlDeclarations

/-!
# Normal declarations stay

A normalised document passes again unchanged, with one exception: the limit of the sink URL is
that of the text that came in, and serialisation may make the text longer. The rules of a
normalised network policy have distinct keys, so their order decides nothing.
-/
namespace AstraNull.DeclarationStability
open JsonText ScriptText ScriptValue ScriptObject CheckedObjects ControlDeclarations
open ProbeProfile (numeral integerIn)
open TargetMetadata (isPlain KeepsPlain trim_of_solid)
open TargetInput (Platform textOf)

structure Documented (C : Context) : Prop where
  lower_plain : KeepsPlain C.P.toLowerCase
  lower_small : ∀ s,∀ u ∈ C.P.toLowerCase s,¬ (65 ≤ u.toNat ∧ u.toNat ≤ 90)
  /-- Only single units become ASCII. -/
  lower_length : ∀ s,(∀ u ∈ C.P.toLowerCase s,u.toNat < 128) →
    (C.P.toLowerCase s).length ≤ s.length
  upper_plain : ∀ s : JsString,(∀ u ∈ s,u.toNat < 128 ∧ ¬ (97 ≤ u.toNat ∧ u.toNat ≤ 122)) →
    C.toUpperCase s = s
  clear_host : ∀ url,C.P.hostname (C.P.clearHash url) = C.P.hostname url ∧
    C.P.protocol (C.P.clearHash url) = C.P.protocol url ∧
    C.P.username (C.P.clearHash url) = C.P.username url ∧
    C.P.password (C.P.clearHash url) = C.P.password url
  clear_again : ∀ url,C.P.clearHash (C.P.clearHash url) = C.P.clearHash url
  /-- What is written is read back. -/
  parse_href : ∀ url,C.P.protocol url = js "https:" →
    C.P.newUrl (C.P.href (C.P.clearHash url)) = some (C.P.clearHash url)
  href_solid : ∀ url,C.P.protocol url = js "https:" →
    ∀ u ∈ C.P.href url,isWhiteSpace u.toNat = false
  parse_empty : C.P.newUrl [] = none

/-- A text that `trimmedString` returns as it is. -/
structure Kept (max : ℕ) (text : JsString) : Prop where
  trimmed : trim text = text
  ne_nil : text ≠ []
  length : text.length ≤ max

theorem kept_of_trimmedString {value : JsVal} {path text : JsString} {max : ℕ}
    (h : trimmedString value path max = .ok text) :
    Kept max text ∧ ∃ s,value = .str s ∧ text = trim s := by
  cases value with
  | str s =>
      rw [trimmedString] at h
      split_ifs at h with hempty hlong
      cases h
      exact ⟨⟨trim_trim s,hempty,not_lt.mp hlong⟩,s,rfl,rfl⟩
  | _ => cases h

theorem Kept.trimmedString {max : ℕ} {text : JsString} (h : Kept max text) (path : JsString) :
    trimmedString (.str text) path max = .ok text := by
  rw [ControlDeclarations.trimmedString,h.trimmed,if_neg h.ne_nil,if_neg (not_lt.mpr h.length)]

theorem patterned_ok {fold : JsString → JsString} {max : ℕ} {pattern : JsString → Bool}
    {message : JsString → JsString} {path : JsString} {v w : JsVal}
    (h : patterned fold max pattern message path v = .ok w) :
    ∃ text,Kept max text ∧ pattern (fold text) = true ∧ w = .str (fold text) := by
  obtain ⟨text,ht,h⟩ := ok_of_bind h
  split_ifs at h with hpattern
  cases h
  exact ⟨text,(kept_of_trimmedString ht).1,hpattern,rfl⟩

theorem stable_patterned {fold : JsString → JsString} {max : ℕ} {pattern : JsString → Bool}
    {message : JsString → JsString}
    (hfold : ∀ text,Kept max text → pattern (fold text) = true →
      Kept max (fold text) ∧ fold (fold text) = fold text) :
    Stable (patterned fold max pattern message) := by
  intro path path' v w h
  obtain ⟨text,hkept,hpattern,rfl⟩ := patterned_ok h
  obtain ⟨hagain,hidem⟩ := hfold text hkept hpattern
  rw [patterned,hagain.trimmedString]
  simp only [bind,Except.bind]
  rw [hidem,if_pos hpattern]
  rfl

theorem stable_plainPattern (max : ℕ) (pattern : JsString → Bool) (message : JsString → JsString) :
    Stable (patterned id max pattern message) :=
  stable_patterned fun _ hkept _ => ⟨hkept,rfl⟩

/-- A word that passes as it is. -/
structure Fixed (fold : JsString → JsString) (max : ℕ) (word : String) : Prop where
  kept : Kept max (js word)
  fold : fold (js word) = js word

theorem wordIn_ok {fold : JsString → JsString} {max : ℕ} {allowed : List String}
    {message : String} {path : JsString} {v w : JsVal}
    (h : wordIn fold max allowed message path v = .ok w) : ∃ word ∈ allowed,w = .str (js word) := by
  obtain ⟨text,-,h⟩ := ok_of_bind h
  split_ifs at h with hany
  cases h
  obtain ⟨word,hword,heq⟩ := List.any_eq_true.mp hany
  exact ⟨word,hword,by rw [eq_of_beq heq]⟩

theorem stable_wordIn {fold : JsString → JsString} {max : ℕ} {allowed : List String}
    {message : String} (hfixed : ∀ word ∈ allowed,Fixed fold max word) :
    Stable (wordIn fold max allowed message) := by
  intro path path' v w h
  obtain ⟨word,hword,rfl⟩ := wordIn_ok h
  have hany : (allowed.any fun other => js other == js word) = true :=
    List.any_eq_true.mpr ⟨word,hword,beq_self_eq_true _⟩
  rw [wordIn,(hfixed word hword).kept.trimmedString]
  simp only [bind,Except.bind]
  rw [(hfixed word hword).fold,if_pos hany]
  rfl

theorem integerInRange_ok {min max : ℕ} {path : JsString} {v w : JsVal}
    (h : integerInRange min max path v = .ok w) : integerIn v min max = true ∧ w = v := by
  rw [integerInRange] at h
  split_ifs at h with hin
  cases h
  exact ⟨hin,rfl⟩

theorem stable_integerInRange (min max : ℕ) : Stable (integerInRange min max) := by
  intro path path' v w h
  obtain ⟨hin,rfl⟩ := integerInRange_ok h
  rw [integerInRange,if_pos hin]

/-- A check that never returns undefined or null. -/
def Definite (check : Check Refusal) : Prop := ∀ path v w,check path v = .ok w → nullish w = false

theorem definite_wordIn (fold : JsString → JsString) (max : ℕ) (allowed : List String)
    (message : String) : Definite (wordIn fold max allowed message) := by
  intro path v w h
  obtain ⟨word,-,rfl⟩ := wordIn_ok h
  rfl

@[simp] theorem name_always (name : String) (check : Check Refusal) :
    (always name check).name = name := rfl

@[simp] theorem name_optional (name : String) (check : Check Refusal) :
    (ControlDeclarations.optional name check).name = name := rfl

theorem stableAt_always {name : String} {check : Check Refusal} (h : Stable check)
    (source : JsVal) : (always name check).StableAt source :=
  h.member (fun _ hskip => absurd hskip Bool.false_ne_true) (fun _ _ _ _ => rfl) source

theorem stableAt_optional {name : String} {check : Check Refusal} (h : Stable check)
    (hdefinite : Definite check) (source : JsVal) :
    (ControlDeclarations.optional name check).StableAt source :=
  h.member (fun _ _ => rfl) hdefinite source

theorem checkObject_ok {keys : List String} {ms : List (Member Refusal)} {path : JsString}
    {v w : JsVal} (h : checkObject keys ms path v = .ok w) :
    ∃ kvs,checkMembers dotted path v ms = .ok kvs ∧ w = .obj kvs := by
  obtain ⟨_,_,h⟩ := ok_of_bind h
  obtain ⟨_,_,h⟩ := ok_of_bind h
  obtain ⟨kvs,hkvs,h⟩ := ok_of_bind h
  cases h
  exact ⟨kvs,hkvs,rfl⟩

theorem rejectUnknownKeys_known {kvs : List (JsString × JsVal)} {keys : List String}
    (h : ∀ k ∈ kvs.map Prod.fst,∃ name ∈ keys,js name = k) (path : JsString) :
    rejectUnknownKeys (.obj kvs) keys path = .ok () := by
  have hnone : (names (.obj kvs)).find? (fun key => !keys.any fun name => js name == key) =
      none := by
    rw [List.find?_eq_none]
    intro k hk hunknown
    obtain ⟨name,hname,rfl⟩ := h k hk
    have hany : (keys.any fun other => js other == js name) = true :=
      List.any_eq_true.mpr ⟨name,hname,beq_self_eq_true _⟩
    rw [hany] at hunknown
    cases hunknown
  rw [rejectUnknownKeys,hnone]

theorem checkObject_known {kvs kvs' : List (JsString × JsVal)} {keys : List String}
    {ms : List (Member Refusal)} {path : JsString}
    (hkeys : ∀ k ∈ kvs.map Prod.fst,∃ name ∈ keys,js name = k)
    (h : checkMembers dotted path (.obj kvs) ms = .ok kvs') :
    checkObject keys ms path (.obj kvs) = .ok (.obj kvs') := by
  rw [checkObject,rejectUnknownKeys_known hkeys,h]
  rfl

theorem known_checkMembers {pathOf : JsString → String → JsString} {path : JsString}
    {source : JsVal} {ms : List (Member Refusal)} {keys : List String}
    {kvs : List (JsString × JsVal)} (hkeys : ∀ m ∈ ms,m.name ∈ keys)
    (h : checkMembers pathOf path source ms = .ok kvs) :
    ∀ k ∈ kvs.map Prod.fst,∃ name ∈ keys,js name = k := by
  intro k hk
  obtain ⟨m,hm,rfl⟩ := List.mem_map.mp ((names_checkMembers h).subset hk)
  exact ⟨m.name,hkeys m hm,rfl⟩

/-- An object whose members stay, for the members of this value. -/
theorem checkObject_again {keys : List String} {ms : List (Member Refusal)}
    {path path' : JsString} {v w : JsVal} (hstable : ∀ m ∈ ms,m.StableAt v)
    (hnames : (ms.map fun m => js m.name).Nodup) (hkeys : ∀ m ∈ ms,m.name ∈ keys)
    (h : checkObject keys ms path v = .ok w) : checkObject keys ms path' w = .ok w := by
  obtain ⟨kvs,hkvs,rfl⟩ := checkObject_ok h
  refine checkObject_known (known_checkMembers hkeys hkvs) ?_
  have := @checkMembers_again _ dotted path path' v ms kvs [] [] hstable hnames
    (fun _ _ => List.not_mem_nil) hkvs
  rwa [List.append_nil,List.nil_append] at this

theorem stable_checkObject {keys : List String} {ms : List (Member Refusal)}
    (hstable : ∀ m ∈ ms,∀ source,m.StableAt source)
    (hnames : (ms.map fun m => js m.name).Nodup) (hkeys : ∀ m ∈ ms,m.name ∈ keys) :
    Stable (checkObject keys ms) :=
  fun _ _ v _ h => checkObject_again (fun m hm => hstable m hm v) hnames hkeys h

theorem definite_checkObject (keys : List String) (ms : List (Member Refusal)) :
    Definite (checkObject keys ms) := by
  intro path v w h
  obtain ⟨kvs,-,rfl⟩ := checkObject_ok h
  rfl

/-- The first members of a checked object pass with the same result. -/
theorem checkObject_front {keys : List String} {ms ns : List (Member Refusal)}
    {path path' : JsString} {v u w : JsVal} (hstable : ∀ m ∈ ms,∀ source,m.StableAt source)
    (hnames : ((ms++ns).map fun m => js m.name).Nodup) (hkeys : ∀ m ∈ ms++ns,m.name ∈ keys)
    (hfront : checkObject keys ms path v = .ok u) (h : checkObject keys (ms++ns) path v = .ok w) :
    checkObject keys ms path' w = .ok u := by
  obtain ⟨front,hms,rfl⟩ := checkObject_ok hfront
  obtain ⟨kvs,hkvs,rfl⟩ := checkObject_ok h
  obtain ⟨front',back,hms',hns,rfl⟩ := checkMembers_append hkvs
  cases hms.symm.trans hms'
  refine checkObject_known (known_checkMembers hkeys hkvs) ?_
  rw [List.map_append,List.nodup_append] at hnames
  refine @checkMembers_again _ dotted path path' v ms front [] back
    (fun m hm => hstable m hm v) hnames.1 ?_ hms
  intro m hm hback
  have hlater := (names_checkMembers hns).subset hback
  exact hnames.2.2 _ (List.mem_map.mpr ⟨m,hm,rfl⟩) _ hlater rfl

theorem checkArray_ok {l : Listing Refusal} {max : ℕ} {notArray tooMany : JsString → JsString}
    {path : JsString} {v w : JsVal} (h : checkArray l max notArray tooMany path v = .ok w) :
    ∃ raws vs,v = .arr raws ∧ raws.length ≤ max ∧ checkList l path 0 [] raws = .ok vs ∧
      w = .arr vs := by
  cases v with
  | arr raws =>
      simp only [checkArray] at h
      split_ifs at h with hlong
      · cases h
      · obtain ⟨vs,hvs,h⟩ := ok_of_bind h
        cases h
        exact ⟨raws,vs,rfl,not_lt.mp hlong,hvs,rfl⟩
  | _ => cases h

theorem stable_checkArray {l : Listing Refusal} (hstable : l.Stable) (max : ℕ)
    (notArray tooMany : JsString → JsString) : Stable (checkArray l max notArray tooMany) := by
  intro path path' v w h
  obtain ⟨raws,vs,rfl,hlength,hvs,rfl⟩ := checkArray_ok h
  simp only [checkArray]
  rw [if_neg (not_lt.mpr ((length_checkList hvs).trans hlength)),checkList_again hstable 0 hvs]
  rfl

theorem definite_checkArray (l : Listing Refusal) (max : ℕ)
    (notArray tooMany : JsString → JsString) : Definite (checkArray l max notArray tooMany) := by
  intro path v w h
  obtain ⟨raws,vs,-,-,-,rfl⟩ := checkArray_ok h
  rfl

theorem fixed_action : ∀ word ∈ ["block","challenge","block_or_challenge"],Fixed id 32 word := by
  intro word hword
  have hplain : trim (js word) = js word ∧ js word ≠ [] ∧ (js word).length ≤ 32 := by
    revert word
    decide
  exact ⟨⟨hplain.1,hplain.2.1,hplain.2.2⟩,rfl⟩

theorem stableAt_note (source : JsVal) : noteMember.StableAt source := by
  refine (stable_plainPattern _ _ _).member (fun _ _ => rfl) ?_ source
  intro path v w h
  obtain ⟨text,hkept,-,rfl⟩ := patterned_ok h
  have hempty : js "" = [] := rfl
  simp [isMissingNote,nullish,is,hempty,hkept.ne_nil]

theorem ruleNames {C : Context} : ((ruleMembers C++[noteMember]).map fun m => js m.name).Nodup := by
  change [js "protocol",js "port",js "action",js "address_family",js "note"].Nodup
  decide

theorem ruleNames_known {C : Context} :
    ∀ m ∈ ruleMembers C++[noteMember],m.name ∈ networkRuleKeys := by
  simp [ruleMembers,noteMember,networkRuleKeys]

/-- The object whose key was taken is found again. -/
theorem stable_keyed {keys : List String} {ms ns : List (Member Refusal)}
    {keyOf : JsVal → JsString} (hstable : ∀ m ∈ ms,∀ source,m.StableAt source)
    (hnames : ((ms++ns).map fun m => js m.name).Nodup) (hkeys : ∀ m ∈ ms++ns,m.name ∈ keys)
    {path path' : JsString} {raw v : JsVal} {k : JsString}
    (hk : (checkObject keys ms path raw).map keyOf = .ok k)
    (hv : checkObject keys (ms++ns) path raw = .ok v) :
    (checkObject keys ms path' v).map keyOf = .ok k := by
  cases hu : checkObject keys ms path raw with
  | error e =>
      rw [hu] at hk
      cases hk
  | ok u =>
      rw [hu] at hk
      rw [checkObject_front hstable hnames hkeys hu hv]
      exact hk

theorem stable_distinct {item : Check Refusal} (h : Stable item) : (distinct item).Stable := by
  constructor
  · intro path path' raw k v hk hv
    change (item path raw).map toStr = .ok k at hk
    change (item path' v).map toStr = .ok k
    have hv' : item path raw = .ok v := hv
    rw [h path path' raw v hv',← hk,hv']
  · exact h

theorem stable_absolutePath : Stable absolutePath := stable_plainPattern _ _ _

theorem stable_markerPaths : markerPaths.Stable := by
  obtain ⟨hkey,hitem⟩ := stable_distinct stable_absolutePath
  exact ⟨hkey,hitem⟩

theorem statusCodes_cons (path : JsString) (raw : JsVal) (raws : List JsVal) :
    statusCodes path (.arr (raw::raws)) =
      checkArray (distinct (integerInRange 400 599)) maxStatusCodes (fun _ => [])
        (fun _ => js "At most 16 status_codes are allowed.") path (.arr (raw::raws)) := rfl

/-- The first code is kept, so that the list is not empty. -/
theorem stable_statusCodes : Stable statusCodes := by
  intro path path' v w h
  cases v with
  | arr raws =>
      cases raws with
      | nil => cases h
      | cons raw raws =>
          rw [statusCodes_cons] at h
          have hagain := stable_checkArray (stable_distinct (stable_integerInRange 400 599))
            _ _ _ path path' _ _ h
          obtain ⟨raws',vs,hraws,-,hvs,rfl⟩ := checkArray_ok h
          cases hraws
          obtain ⟨k,-,⟨hseen,-⟩ | ⟨-,v,rest,-,-,rfl⟩⟩ := checkList_cases hvs
          · cases hseen
          · exact hagain
  | _ => cases h

theorem definite_statusCodes : Definite statusCodes := by
  intro path v w h
  cases v with
  | arr raws =>
      cases raws with
      | nil => cases h
      | cons raw raws =>
          rw [statusCodes_cons] at h
          exact definite_checkArray _ _ _ _ path _ _ h
  | _ => cases h

theorem canaryAction_ok {path : JsString} {v w : JsVal} (h : canaryAction path v = .ok w) :
    ∃ word ∈ ["block","block_or_challenge"],w = .str (js word) := by
  rw [canaryAction] at h
  split_ifs at h
  · cases h
    exact ⟨"block",by simp,rfl⟩
  · exact wordIn_ok h

theorem stable_canaryAction : Stable canaryAction := by
  intro path path' v w h
  obtain ⟨word,hword,rfl⟩ := canaryAction_ok h
  have hfixed : Fixed id 32 word := fixed_action word (by simp at hword ⊢; tauto)
  have hany : (["block","block_or_challenge"].any fun other => js other == js word) = true :=
    List.any_eq_true.mpr ⟨word,hword,beq_self_eq_true _⟩
  rw [canaryAction,if_neg (by simp [nullish]),wordIn,hfixed.kept.trimmedString]
  simp only [bind,Except.bind]
  rw [hfixed.fold,if_pos hany]
  rfl

/-- The object that a rate-limit canary comes back as. -/
def canary (location method threshold window action : JsVal) : JsVal :=
  .obj [(js "path",location),(js "method",method),(js "threshold",threshold),
    (js "window_seconds",window),(js "expected_action",action)]

theorem fields_canary (location method threshold window action : JsVal) :
    let v := canary location method threshold window action
    field v "path" = location ∧ field v "method" = method ∧ field v "threshold" = threshold ∧
      field v "window_seconds" = window ∧ field v "expected_action" = action :=
  ⟨rfl,rfl,rfl,rfl,rfl⟩

theorem stable_lockdown : Stable lockdown := by
  intro path path' v w h
  cases v with
  | bool b =>
      cases h
      rfl
  | _ => cases h

theorem stable_origin : Stable normalizeOrigin := by
  refine stable_checkObject ?_ (List.nodup_singleton _) (by simp)
  intro m hm source
  rw [List.mem_singleton.mp hm]
  exact stableAt_always stable_lockdown source

theorem perspectiveId_ok {C : Context} {path : JsString} {v w : JsVal}
    (h : perspectiveId C path v = .ok w) :
    ∃ text,Kept 32 text ∧ text ∈ C.knownIds ∧ w = .str text := by
  obtain ⟨text,ht,h⟩ := ok_of_bind h
  split_ifs at h with hknown
  cases h
  exact ⟨text,(kept_of_trimmedString ht).1,hknown,rfl⟩

theorem stable_perspectiveId {C : Context} : Stable (perspectiveId C) := by
  intro path path' v w h
  obtain ⟨text,hkept,hknown,rfl⟩ := perspectiveId_ok h
  rw [perspectiveId,hkept.trimmedString]
  simp only [bind,Except.bind]
  rw [if_pos hknown]
  rfl

theorem perspectiveIds_ok {C : Context} {path : JsString} {v w : JsVal}
    (h : perspectiveIds C path v = .ok w) :
    ∃ raws vs,checkList (distinct (perspectiveId C)) path 0 [] raws = .ok vs ∧ w = .arr vs := by
  cases v with
  | arr raws =>
      obtain ⟨vs,hvs,h⟩ := ok_of_bind h
      cases h
      exact ⟨raws,vs,hvs,rfl⟩
  | _ => cases h

theorem stable_perspectiveIds {C : Context} : Stable (perspectiveIds C) := by
  intro path path' v w h
  obtain ⟨raws,vs,hvs,rfl⟩ := perspectiveIds_ok h
  simp only [perspectiveIds]
  rw [checkList_again (stable_distinct stable_perspectiveId) 0 hvs]
  rfl

theorem definite_perspectiveIds {C : Context} : Definite (perspectiveIds C) := by
  intro path v w h
  obtain ⟨raws,vs,-,rfl⟩ := perspectiveIds_ok h
  rfl

theorem stable_perspectives {C : Context} : Stable (normalizePerspectives C) := by
  refine stable_checkObject ?_ ?_ (by simp)
  · intro m hm source
    simp only [List.mem_cons,List.not_mem_nil,or_false] at hm
    rcases hm with rfl | rfl
    · exact stableAt_optional stable_perspectiveIds definite_perspectiveIds source
    · exact stableAt_optional stable_perspectiveIds definite_perspectiveIds source
  · change [js "allowlisted_perspective_ids",js "denied_perspective_ids"].Nodup
    decide

theorem isHeaderToken_spec {u : UInt16} (h : isHeaderToken u = true) :
    u.toNat < 128 ∧ isWhiteSpace u.toNat = false := by
  have hrange : 33 ≤ u.toNat ∧ u.toNat < 128 := by
    simp only [isHeaderToken,isAlphanumeric,Bool.or_eq_true,Bool.and_eq_true,decide_eq_true_eq] at h
    rcases h with ((((((((h | rfl) | h) | rfl) | rfl) | rfl) | rfl) | h) | rfl) | rfl
    all_goals first | omega | decide
  refine ⟨hrange.2,?_⟩
  simp only [isWhiteSpace,Bool.or_eq_false_iff,Bool.and_eq_false_iff,decide_eq_false_iff_not]
  omega

/-- A URL that the sink accepts. -/
structure SinkAccepted (C : Context) (targetHost : Option JsString) (url : C.P.Url) : Prop where
  protocol : C.P.protocol url = js "https:"
  username : C.P.username url = []
  password : C.P.password url = []
  host : (targetHost.filter (· ≠ [])).map C.P.toLowerCase =
    some (C.P.toLowerCase (unbracketHost C (C.P.hostname url)))

theorem sinkUrl_ok {C : Context} {targetHost : Option JsString} {path : JsString} {v w : JsVal}
    (h : sinkUrl C targetHost path v = .ok w) : ∃ text url,Kept maxUrl text ∧
      (∃ s,v = .str s ∧ text = trim s) ∧ C.P.newUrl text = some url ∧
      SinkAccepted C targetHost url ∧ w = .str (C.P.href (C.P.clearHash url)) := by
  obtain ⟨text,ht,h⟩ := ok_of_bind h
  obtain ⟨hkept,hs⟩ := kept_of_trimmedString ht
  cases hurl : C.P.newUrl text with
  | none =>
      rw [hurl] at h
      cases h
  | some url =>
      rw [hurl] at h
      simp only at h
      by_cases hcredentials : C.P.protocol url ≠ js "https:" ∨ C.P.username url ≠ [] ∨
          C.P.password url ≠ []
      · rw [if_pos hcredentials] at h
        cases h
      · rw [if_neg hcredentials] at h
        split_ifs at h with hhost
        · cases h
        cases h
        simp only [ne_eq,not_or,not_not] at hcredentials hhost
        exact ⟨text,url,hkept,hs,hurl,⟨hcredentials.1,hcredentials.2.1,hcredentials.2.2,hhost⟩,rfl⟩

theorem SinkAccepted.sinkUrl {C : Context} {targetHost : Option JsString} {url : C.P.Url}
    (h : SinkAccepted C targetHost url) {text : JsString} (hkept : Kept maxUrl text)
    (hurl : C.P.newUrl text = some url) (path : JsString) :
    sinkUrl C targetHost path (.str text) = .ok (.str (C.P.href (C.P.clearHash url))) := by
  rw [ControlDeclarations.sinkUrl,hkept.trimmedString]
  simp only [bind,Except.bind,hurl]
  rw [if_neg (by simp [h.protocol,h.username,h.password]),if_neg (not_not.mpr h.host)]
  rfl

section
variable {C : Context} (hC : Documented C)
include hC

theorem fixed_networkWords : ∀ word ∈ ["tcp","udp","allow","deny","ipv4","ipv6","any"],
    Fixed C.P.toLowerCase 8 word := by
  intro word hword
  have hplain : ((js word).all fun u => u.toNat < 128 && (u.toNat < 65 || 90 < u.toNat)) = true ∧
      trim (js word) = js word ∧ js word ≠ [] ∧ (js word).length ≤ 8 := by
    revert word
    decide
  obtain ⟨hunits,htrim,hne,hlength⟩ := hplain
  refine ⟨⟨htrim,hne,hlength⟩,hC.lower_plain _ fun u hu => ?_⟩
  have hunit := List.all_eq_true.mp hunits u hu
  simp only [Bool.and_eq_true,Bool.or_eq_true,decide_eq_true_eq] at hunit
  omega

theorem fixed_method : ∀ word ∈ ["GET","HEAD"],Fixed C.toUpperCase 8 word := by
  intro word hword
  have hplain : ((js word).all fun u => u.toNat < 128 && (u.toNat < 97 || 122 < u.toNat)) = true ∧
      trim (js word) = js word ∧ js word ≠ [] ∧ (js word).length ≤ 8 := by
    revert word
    decide
  obtain ⟨hunits,htrim,hne,hlength⟩ := hplain
  refine ⟨⟨htrim,hne,hlength⟩,hC.upper_plain _ fun u hu => ?_⟩
  have hunit := List.all_eq_true.mp hunits u hu
  simp only [Bool.and_eq_true,Bool.or_eq_true,decide_eq_true_eq] at hunit
  omega

theorem stableAt_ruleMembers : ∀ m ∈ ruleMembers C,∀ source,m.StableAt source := by
  have hwords := fixed_networkWords hC
  intro m hm source
  simp only [ruleMembers,List.mem_cons,List.not_mem_nil,or_false] at hm
  rcases hm with rfl | rfl | rfl | rfl
  · exact stableAt_always (stable_wordIn fun w hw => hwords w (by simp at hw ⊢; tauto)) source
  · exact stableAt_always (stable_integerInRange 1 65535) source
  · exact stableAt_always (stable_wordIn fun w hw => hwords w (by simp at hw ⊢; tauto)) source
  · exact stableAt_always (stable_wordIn fun w hw => hwords w (by simp at hw ⊢; tauto)) source

theorem stable_rule : Stable (networkRules C).item := by
  refine stable_checkObject ?_ ruleNames ruleNames_known
  intro m hm source
  rcases List.mem_append.mp hm with hm | hm
  · exact stableAt_ruleMembers hC m hm source
  · rw [List.mem_singleton.mp hm]
    exact stableAt_note source

theorem stable_networkRules : (networkRules C).Stable where
  key := fun _ _ _ _ _ hk hv =>
    stable_keyed (stableAt_ruleMembers hC) ruleNames ruleNames_known hk hv
  item := stable_rule hC

theorem stableAt_limitMembers : ∀ m ∈ limitMembers C,∀ source,m.StableAt source := by
  have hwords := fixed_networkWords hC
  intro m hm source
  simp only [limitMembers,List.mem_cons,List.not_mem_nil,or_false] at hm
  rcases hm with rfl | rfl
  · exact stableAt_always (stable_wordIn fun w hw => hwords w (by simp at hw ⊢; tauto)) source
  · exact stableAt_always (stable_integerInRange 1 65535) source

theorem stable_connectionLimits : (connectionLimits C).Stable := by
  have hnames : ((limitMembers C++[always "max_connections_per_source"
      (integerInRange 1 10)]).map fun m => js m.name).Nodup := by
    change [js "protocol",js "port",js "max_connections_per_source"].Nodup
    decide
  have hkeys : ∀ m ∈ limitMembers C++[always "max_connections_per_source" (integerInRange 1 10)],
      m.name ∈ ["protocol","port","max_connections_per_source"] := by
    simp [limitMembers]
  constructor
  · intro path path' raw k v hk hv
    exact stable_keyed (stableAt_limitMembers hC) hnames hkeys hk hv
  · refine stable_checkObject ?_ hnames hkeys
    intro m hm source
    rcases List.mem_append.mp hm with hm | hm
    · exact stableAt_limitMembers hC m hm source
    · rw [List.mem_singleton.mp hm]
      exact stableAt_always (stable_integerInRange 1 10) source

theorem stable_headerName : Stable (patterned C.P.toLowerCase maxHeaderName headerToken fun _ =>
    js "header_name must be an RFC 7230 token.") := by
  refine stable_patterned fun text hkept htoken => ?_
  rw [headerToken,Bool.and_eq_true,decide_eq_true_eq,List.all_eq_true] at htoken
  have hunits := fun u hu => isHeaderToken_spec (htoken.2 u hu)
  have hlength := hC.lower_length text fun u hu => (hunits u hu).1
  refine ⟨⟨trim_of_solid fun u hu => (hunits u hu).2,htoken.1,hlength.trans hkept.length⟩,?_⟩
  exact hC.lower_plain _ fun u hu => ⟨(hunits u hu).1,hC.lower_small text u hu⟩

theorem stable_blockSignature : Stable (normalizeBlockSignature C) := by
  refine stable_checkObject ?_ ?_ (by simp)
  · intro m hm source
    simp only [List.mem_cons,List.not_mem_nil,or_false] at hm
    rcases hm with rfl | rfl | rfl
    · exact stableAt_always (stable_headerName hC) source
    · exact stableAt_always (stable_plainPattern _ _ _) source
    · exact stableAt_optional stable_statusCodes definite_statusCodes source
  · change [js "header_name",js "header_value",js "status_codes"].Nodup
    decide

theorem stable_method : Stable (wordIn C.toUpperCase 8 ["GET","HEAD"]
    "method must be \"GET\" or \"HEAD\".") := stable_wordIn (fixed_method hC)

theorem stable_rateLimitCanary : Stable (normalizeRateLimitCanary C) := by
  intro path path' v w h
  obtain ⟨_,-,h⟩ := ok_of_bind h
  obtain ⟨_,-,h⟩ := ok_of_bind h
  obtain ⟨location,hlocation,h⟩ := ok_of_bind h
  obtain ⟨method,hmethod,h⟩ := ok_of_bind h
  obtain ⟨action,haction,h⟩ := ok_of_bind h
  obtain ⟨threshold,hthreshold,h⟩ := ok_of_bind h
  obtain ⟨window,hwindow,h⟩ := ok_of_bind h
  cases h
  have h1 := stable_absolutePath _ (dotted path' "path") _ _ hlocation
  have h2 := stable_method hC _ (dotted path' "method") _ _ hmethod
  have h3 := stable_canaryAction _ (dotted path' "expected_action") _ _ haction
  have h4 := stable_integerInRange 1 10 _ (dotted path' "threshold") _ _ hthreshold
  have h5 := stable_integerInRange 1 60 _ (dotted path' "window_seconds") _ _ hwindow
  change normalizeRateLimitCanary C path' (canary location method threshold window action) =
    .ok (canary location method threshold window action)
  obtain ⟨f1,f2,f3,f4,f5⟩ := fields_canary location method threshold window action
  rw [normalizeRateLimitCanary,f1,f2,f3,f4,f5,canary,rejectUnknownKeys_known (by simp)]
  simp only [bind,Except.bind,asObject,isPlain,if_true,h1,h2,h3,h4,h5]
  rfl

omit hC in
theorem definite_rateLimitCanary : Definite (normalizeRateLimitCanary C) := by
  intro path v w h
  obtain ⟨_,-,h⟩ := ok_of_bind h
  obtain ⟨_,-,h⟩ := ok_of_bind h
  obtain ⟨_,-,h⟩ := ok_of_bind h
  obtain ⟨_,-,h⟩ := ok_of_bind h
  obtain ⟨_,-,h⟩ := ok_of_bind h
  obtain ⟨_,-,h⟩ := ok_of_bind h
  obtain ⟨_,-,h⟩ := ok_of_bind h
  cases h
  rfl

theorem stable_waf : Stable (normalizeWaf C) := by
  refine stable_checkObject ?_ ?_ (by simp)
  · intro m hm source
    simp only [List.mem_cons,List.not_mem_nil,or_false] at hm
    rcases hm with rfl | rfl | rfl | rfl
    · exact stableAt_optional (stable_blockSignature hC) (definite_checkObject _ _) source
    · exact stableAt_optional (stable_wordIn fixed_action) (definite_wordIn _ _ _ _) source
    · exact stableAt_optional (stable_rateLimitCanary hC) definite_rateLimitCanary source
    · exact stableAt_optional (stable_checkArray stable_markerPaths _ _ _)
        (definite_checkArray _ _ _ _) source
  · change [js "block_signature",js "expected_action",js "rate_limit_canary",
      js "marker_paths"].Nodup
    decide

theorem trim_href {url : C.P.Url} (h : C.P.protocol url = js "https:") :
    trim (C.P.href (C.P.clearHash url)) = C.P.href (C.P.clearHash url) :=
  trim_of_solid (hC.href_solid _ ((hC.clear_host url).2.1.trans h))

theorem kept_href {url : C.P.Url} (h : C.P.protocol url = js "https:")
    (hshort : (C.P.href (C.P.clearHash url)).length ≤ maxUrl) :
    Kept maxUrl (C.P.href (C.P.clearHash url)) := by
  refine ⟨trim_href hC h,?_,hshort⟩
  intro hnil
  have hparse := hC.parse_href url h
  rw [hnil,hC.parse_empty] at hparse
  cases hparse

theorem sinkUrl_again {targetHost : Option JsString} {url : C.P.Url}
    (h : SinkAccepted C targetHost url)
    (hshort : (C.P.href (C.P.clearHash url)).length ≤ maxUrl) (path : JsString) :
    sinkUrl C targetHost path (.str (C.P.href (C.P.clearHash url))) =
      .ok (.str (C.P.href (C.P.clearHash url))) := by
  obtain ⟨hhost,hprotocol,husername,hpassword⟩ := hC.clear_host url
  have hclear : SinkAccepted C targetHost (C.P.clearHash url) :=
    ⟨hprotocol.trans h.protocol,husername.trans h.username,hpassword.trans h.password,
      by rw [hhost]; exact h.host⟩
  rw [hclear.sinkUrl (kept_href hC h.protocol hshort) (hC.parse_href url h.protocol),
    hC.clear_again]

end

/-- The sink, serialised without its hash, keeps to the limit. -/
def ShortSink (C : Context) (input : JsVal) : Prop :=
  ∀ s url,field (field input "canary_sink") "url" = .str s → C.P.newUrl (trim s) = some url →
    (C.P.href (C.P.clearHash url)).length ≤ maxUrl

theorem documentNames (C : Context) (targetHost : Option JsString) :
    ([(js "version",numeral 1)].map Prod.fst++
      (documentMembers C targetHost).map fun m => js m.name).Nodup := by
  change [js "version",js "network_policy",js "waf",js "origin",js "perspectives",
    js "canary_sink",js "connection_limits"].Nodup
  decide

theorem sameNumber_numeral {k : ℕ} (h0 : 0 < k) (hk : k < 2^53) :
    sameNumber (numeral k) (natNumber k) = true := by
  obtain ⟨x,-,hx⟩ := NumberText.Number.exists_natural h0 hk
  rw [numeral,natNumber,ofNonneg,hx]
  simp [sameNumber,Numeric.same]

theorem normalizeControlDeclarations_ok {C : Context} {target input out : JsVal}
    (h : normalizeControlDeclarations C target input = .ok out) :
    ∃ kvs,checkMembers (fun _ name => js name) [] input
        (documentMembers C (targetHostFromRecord C target)) = .ok kvs ∧
      out = .obj ((js "version",numeral 1)::kvs) := by
  obtain ⟨_,-,h⟩ := ok_of_bind h
  obtain ⟨_,-,h⟩ := ok_of_bind h
  dsimp only at h
  split_ifs at h
  · cases h
  · obtain ⟨kvs,hkvs,h⟩ := ok_of_bind h
    cases h
    exact ⟨kvs,hkvs,rfl⟩

section
variable {C : Context} (hC : Documented C) {target input out : JsVal}
include hC

theorem stableAt_sink (targetHost : Option JsString) (hshort : ShortSink C input) :
    (ControlDeclarations.optional "canary_sink" (normalizeCanarySink C targetHost)).StableAt
      input := by
  refine ⟨fun _ => rfl,fun path path' w _ h => ⟨definite_checkObject _ _ path _ w h,?_⟩⟩
  refine checkObject_again ?_ (List.nodup_singleton _) (by simp) h
  intro m hm
  rw [List.mem_singleton.mp hm]
  refine ⟨fun hskip => absurd hskip Bool.false_ne_true,fun path path' w _ hw => ⟨rfl,?_⟩⟩
  obtain ⟨text,url,-,⟨s,hs,rfl⟩,hurl,haccepted,rfl⟩ := sinkUrl_ok hw
  exact sinkUrl_again hC haccepted (hshort s url hs hurl) path'

theorem stableAt_document (targetHost : Option JsString) (hshort : ShortSink C input) :
    ∀ m ∈ documentMembers C targetHost,m.StableAt input := by
  intro m hm
  simp only [documentMembers,List.mem_cons,List.not_mem_nil,or_false] at hm
  rcases hm with rfl | rfl | rfl | rfl | rfl | rfl
  · exact stableAt_optional (stable_checkArray (stable_networkRules hC) _ _ _)
      (definite_checkArray _ _ _ _) input
  · exact stableAt_optional (stable_waf hC) (definite_checkObject _ _) input
  · exact stableAt_optional stable_origin (definite_checkObject _ _) input
  · exact stableAt_optional stable_perspectives (definite_checkObject _ _) input
  · exact stableAt_sink hC targetHost hshort
  · exact stableAt_optional (stable_checkArray (stable_connectionLimits hC) _ _ _)
      (definite_checkArray _ _ _ _) input

theorem normalize_again (h : normalizeControlDeclarations C target input = .ok out)
    (hshort : ShortSink C input) : normalizeControlDeclarations C target out = .ok out := by
  obtain ⟨kvs,hkvs,rfl⟩ := normalizeControlDeclarations_ok h
  have hknown := @known_checkMembers _ _ _ _ topLevelKeys _
    (by simp [documentMembers,topLevelKeys]) hkvs
  have hagain := @checkMembers_again _ (fun _ name => js name) [] [] input _ kvs
    [(js "version",numeral 1)] [] (stableAt_document hC _ hshort)
    (documentNames C (targetHostFromRecord C target)) (fun _ _ => List.not_mem_nil) hkvs
  rw [List.append_nil,List.singleton_append] at hagain
  have hversion : field (.obj ((js "version",numeral 1)::kvs)) "version" = numeral 1 :=
    @field_of_first [] kvs "version" (numeral 1) List.not_mem_nil
  have hone := sameNumber_numeral Nat.one_pos (by norm_num : 1 < 2^53)
  rw [normalizeControlDeclarations,rejectUnknownKeys_known]
  · simp only [bind,Except.bind,asObject,isPlain,if_true,hversion,hone,Bool.not_true,
      Bool.and_false,Bool.false_eq_true,if_false,hagain]
    rfl
  · rw [List.map_cons,List.forall_mem_cons]
    exact ⟨⟨"version",by simp [topLevelKeys],rfl⟩,hknown⟩

omit hC in
/-- What a document with a sink was returned with. -/
theorem sink_ok (h : normalizeControlDeclarations C target input = .ok out)
    (hsink : nullish (field input "canary_sink") = false) :
    ∃ path w,sinkUrl C (targetHostFromRecord C target) path
        (field (field input "canary_sink") "url") = .ok w ∧
      field (field out "canary_sink") "url" = w := by
  obtain ⟨kvs,hkvs,rfl⟩ := normalizeControlDeclarations_ok h
  obtain ⟨v,hv,hfield⟩ := @field_checkMembers _ _ _ _ _ _ [(js "version",numeral 1)]
    (documentNames C (targetHostFromRecord C target)) hkvs
    (ControlDeclarations.optional "canary_sink"
      (normalizeCanarySink C (targetHostFromRecord C target)))
    (by simp [documentMembers]) hsink
  obtain ⟨kvs',hkvs',rfl⟩ := checkObject_ok hv
  obtain ⟨w,hw,hurl⟩ := @field_checkMembers _ _ _ _ _ _ [] (by simp) hkvs'
    (always "url" (sinkUrl C (targetHostFromRecord C target))) (by simp) rfl
  exact ⟨_,w,hw,(congrArg (fun v => field v "url") hfield).trans hurl⟩

theorem shortSink_of_again (h : normalizeControlDeclarations C target input = .ok out)
    (hagain : normalizeControlDeclarations C target out = .ok out) : ShortSink C input := by
  intro s url hs hurl
  have hpresent : ∀ v : JsVal,field v "url" = .str s → nullish v = false := by
    intro v hv
    cases v with
    | undefined => cases hv
    | null => cases hv
    | _ => rfl
  obtain ⟨path,w,hw,hout⟩ := sink_ok h (hpresent _ hs)
  rw [hs] at hw
  obtain ⟨text,url',-,⟨s',hs',rfl⟩,hurl',haccepted,rfl⟩ := sinkUrl_ok hw
  cases hs'
  cases hurl.symm.trans hurl'
  have hstill : nullish (field out "canary_sink") = false := by
    cases hv : field out "canary_sink" with
    | undefined =>
        rw [hv] at hout
        cases hout
    | null =>
        rw [hv] at hout
        cases hout
    | _ => rfl
  obtain ⟨path',w',hw',-⟩ := sink_ok hagain hstill
  rw [hout] at hw'
  obtain ⟨text',_,hkept,⟨s'',hs'',rfl⟩,-⟩ := sinkUrl_ok hw'
  cases hs''
  have := hkept.length
  rwa [trim_href hC haccepted.protocol] at this

end

end AstraNull.DeclarationStability

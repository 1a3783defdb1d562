import Mathlib
import AstraNull.JsonText
import AstraNull.CanonicalJson
import AstraNull.ScriptText
import AstraNull.ProbeJobSigning
import AstraNull.TargetInput

/-!
# The hash of a scope

`lib/scopeHash.mjs`: the targets of a group are written one after the other, in order, and hashed.
The separator of the records may stand in the value of a target, and a value can hold what looks
like a record.
-/
namespace AstraNull.ScopeHash
open JsonText CanonicalJson ScriptText
open ProbeJobSigning (hex hex_injective)
open TargetInput (Kind)

structure Target where
  id : JsString
  kind : Kind
  value : JsString
deriving DecidableEq

/-- What stands before the value. -/
def header (id : JsString) (kind : Kind) : JsString := id++js ":"++kind.text++js ":"

def part (t : Target) : JsString := header t.id t.kind++t.value

def sortTexts (texts : List JsString) : List JsString := texts.insertionSort keyLE

def scopePayload (targetGroupId : JsString) (targets : List Target) : JsString :=
  targetGroupId++js "|"++[124].intercalate (sortTexts (targets.map part))

def computeScopeHashFromTargets (sha256 : ByteArray → List UInt8) (targetGroupId : JsString)
    (targets : List Target) : JsString :=
  hex (sha256 (utf8 (scopePayload targetGroupId targets)))

instance : @Std.Total JsString keyLE := ⟨keyLE_total⟩

instance : IsTrans JsString keyLE := ⟨fun _ _ _ => keyLE_trans⟩

theorem sortTexts_perm {texts texts' : List JsString} (h : texts.Perm texts') :
    sortTexts texts = sortTexts texts' := by
  refine List.Perm.eq_of_pairwise (fun a b _ _ => keyLE_antisymm)
    (List.pairwise_insertionSort _ _) (List.pairwise_insertionSort _ _) ?_
  exact (List.perm_insertionSort _ _).trans (h.trans (List.perm_insertionSort _ _).symm)

/-- The targets in the order of their records. -/
theorem sorted_targets (targets : List Target) :
    ∃ ts : List Target,ts.Perm targets ∧ sortTexts (targets.map part) = ts.map part := by
  refine ⟨targets.insertionSort fun a b => keyLE (part a) (part b),
    List.perm_insertionSort _ _,?_⟩
  exact (List.map_insertionSort _ _ part targets fun _ _ _ _ => Iff.rfl).symm

/-- Ids are made of letters, digits and underscores. -/
structure Target.Valid (t : Target) : Prop where
  noColon : 58 ∉ t.id
  noBar : 124 ∉ t.id

/-- The text begins like a record. -/
def StartsRecord (s : JsString) : Prop :=
  ∃ id kind,58 ∉ id ∧ 124 ∉ id ∧ header id kind <+: s

/-- No bar in the value is followed by what begins like a record. -/
def Target.Plain (t : Target) : Prop := ∀ v w,t.value = v++124::w → ¬ StartsRecord w

theorem kind_text (kind : Kind) : 58 ∉ kind.text ∧ 124 ∉ kind.text := by
  cases kind <;> decide

theorem kind_text_injective {kind kind' : Kind} (h : kind.text = kind'.text) : kind = kind' := by
  cases kind <;> cases kind' <;> first | rfl | exact absurd h (by decide)

theorem header_noBar {id : JsString} {kind : Kind} (h : 124 ∉ id) : 124 ∉ header id kind := by
  simp only [header,List.mem_append,not_or]
  exact ⟨⟨⟨h,by decide⟩,(kind_text kind).2⟩,by decide⟩

/-- Two records with something behind them begin alike. -/
theorem header_eq {id id' : JsString} {kind kind' : Kind} {a b : JsString} (hid : 58 ∉ id)
    (hid' : 58 ∉ id') (h : header id kind++a = header id' kind'++b) :
    id = id' ∧ kind = kind' ∧ a = b := by
  have hcolon : js ":" = [58] := by decide
  simp only [header,hcolon,List.append_assoc,List.singleton_append] at h
  obtain ⟨hids,hrest⟩ := before_separator hid hid' h
  obtain ⟨hkinds,hab⟩ := before_separator (kind_text kind).1 (kind_text kind').1 hrest
  exact ⟨hids,kind_text_injective hkinds,hab⟩

/-- What follows a record: nothing, or a bar and the other records. -/
def tailOf : List Target → JsString
  | [] => []
  | t::ts => 124::[124].intercalate ((t::ts).map part)

theorem intercalate_parts (t : Target) (ts : List Target) :
    [124].intercalate ((t::ts).map part) = part t++tailOf ts := by
  cases ts with
  | nil => simp [tailOf]
  | cons u ts =>
      rw [List.map_cons,List.map_cons,List.intercalate_cons_cons,tailOf,List.map_cons]
      simp

/-- A header lies in front of the first bar. -/
theorem startsRecord_front {x : JsString} {ts us : List Target} (hts : ∀ t ∈ ts,t.Valid)
    (hne : ts ≠ []) (h : x++tailOf us = [124].intercalate (ts.map part)) : StartsRecord x := by
  cases ts with
  | nil => exact absurd rfl hne
  | cons t ts =>
      have hvalid := hts t List.mem_cons_self
      refine ⟨t.id,t.kind,hvalid.noColon,hvalid.noBar,?_⟩
      rw [intercalate_parts,part,List.append_assoc] at h
      rcases List.append_eq_append_iff.mp h with ⟨rest,hhead,htail⟩ | ⟨rest,hx,-⟩
      · cases us with
        | nil =>
            rw [tailOf] at htail
            rw [hhead,(List.append_eq_nil_iff.mp htail.symm).1,List.append_nil]
        | cons u us =>
            cases rest with
            | nil => rw [hhead,List.append_nil]
            | cons c rest =>
                rw [tailOf,List.cons_append] at htail
                have hbar : (124 : UInt16) ∈ header t.id t.kind := by
                  rw [hhead,(List.cons.inj htail).1]
                  simp
                exact absurd hbar (header_noBar hvalid.noBar)
      · exact ⟨rest,hx.symm⟩

/-- A value ends where the next record begins. -/
theorem value_le {v w : JsString} {ts us : List Target} (hts : ∀ t ∈ ts,t.Valid)
    (hplain : ∀ x y,w = x++124::y → ¬ StartsRecord y) (h : v++tailOf ts = w++tailOf us) :
    w.length ≤ v.length := by
  rcases List.append_eq_append_iff.mp h with ⟨rest,hw,hrest⟩ | ⟨rest,hv,-⟩
  · cases rest with
    | nil => rw [hw,List.append_nil]
    | cons c rest =>
        cases ts with
        | nil =>
            rw [tailOf] at hrest
            cases hrest
        | cons t ts =>
            rw [tailOf,List.cons_append] at hrest
            obtain ⟨rfl,hbody⟩ := List.cons.inj hrest
            exact absurd (startsRecord_front hts (by simp) hbody.symm) (hplain v rest hw)
  · rw [hv,List.length_append]
    omega

/-- The records of plain targets can be told apart. -/
theorem records_injective {ts us : List Target} (hts : ∀ t ∈ ts,t.Valid ∧ t.Plain)
    (hus : ∀ u ∈ us,u.Valid ∧ u.Plain)
    (h : [124].intercalate (ts.map part) = [124].intercalate (us.map part)) : ts = us := by
  induction ts generalizing us with
  | nil =>
      cases us with
      | nil => rfl
      | cons u us =>
          rw [intercalate_parts] at h
          have hpart := (List.append_eq_nil_iff.mp h.symm).1
          simp [part,header,js] at hpart
  | cons t ts ih =>
      cases us with
      | nil =>
          rw [intercalate_parts] at h
          have hpart := (List.append_eq_nil_iff.mp h).1
          simp [part,header,js] at hpart
      | cons u us =>
          rw [List.forall_mem_cons] at hts hus
          rw [intercalate_parts,intercalate_parts,part,part,List.append_assoc,
            List.append_assoc] at h
          obtain ⟨hid,hkind,hrest⟩ := header_eq hts.1.1.noColon hus.1.1.noColon h
          have hlength : t.value.length = u.value.length := le_antisymm
            (value_le (fun v hv => (hus.2 v hv).1) hts.1.2 hrest.symm)
            (value_le (fun v hv => (hts.2 v hv).1) hus.1.2 hrest)
          obtain ⟨hvalue,htail⟩ := List.append_inj hrest hlength
          have hrecord : t = u := by
            cases t
            cases u
            simp_all
          have hbody : [124].intercalate (ts.map part) = [124].intercalate (us.map part) := by
            cases ts with
            | nil =>
                cases us with
                | nil => rfl
                | cons u us => cases htail
            | cons t ts =>
                cases us with
                | nil => cases htail
                | cons u us => exact (List.cons.inj htail).2
          rw [hrecord,ih hts.2 hus.2 hbody]

theorem payload_perm (targetGroupId : JsString) {ts us : List Target} (h : ts.Perm us) :
    scopePayload targetGroupId ts = scopePayload targetGroupId us := by
  rw [scopePayload,scopePayload,sortTexts_perm (h.map part)]

theorem perm_of_payload {targetGroupId : JsString} {ts us : List Target}
    (hts : ∀ t ∈ ts,t.Valid ∧ t.Plain) (hus : ∀ u ∈ us,u.Valid ∧ u.Plain)
    (h : scopePayload targetGroupId ts = scopePayload targetGroupId us) : ts.Perm us := by
  obtain ⟨ts',hpermt,hsortt⟩ := sorted_targets ts
  obtain ⟨us',hpermu,hsortu⟩ := sorted_targets us
  rw [scopePayload,scopePayload,hsortt,hsortu] at h
  have hsame := records_injective (fun t ht => hts t (hpermt.mem_iff.mp ht))
    (fun u hu => hus u (hpermu.mem_iff.mp hu)) (List.append_cancel_left h)
  rw [hsame] at hpermt
  exact hpermt.symm.trans hpermu

theorem perm_of_hash {sha256 : ByteArray → List UInt8} (hsha : Function.Injective sha256)
    {targetGroupId : JsString} {ts us : List Target} (hts : ∀ t ∈ ts,t.Valid ∧ t.Plain)
    (hus : ∀ u ∈ us,u.Valid ∧ u.Plain)
    (htext : ∀ x ∈ scopePayload targetGroupId ts,x.toNat < 0xD800)
    (htext' : ∀ x ∈ scopePayload targetGroupId us,x.toNat < 0xD800)
    (h : computeScopeHashFromTargets sha256 targetGroupId ts =
      computeScopeHashFromTargets sha256 targetGroupId us) : ts.Perm us :=
  perm_of_payload hts hus (utf8_injective htext htext' (hsha (hex_injective h)))

theorem intercalate_joined (before after : List JsString) (a b : JsString) :
    [124].intercalate (before++(a++124::b)::after) = [124].intercalate (before++a::b::after) := by
  induction before with
  | nil =>
      cases after with
      | nil => simp [List.intercalate_cons_cons]
      | cons c after => simp [List.intercalate_cons_cons]
  | cons c before ih =>
      cases before with
      | nil =>
          simp only [List.nil_append,List.cons_append] at ih ⊢
          rw [List.intercalate_cons_cons,List.intercalate_cons_cons,ih]
      | cons d before =>
          simp only [List.cons_append] at ih ⊢
          rw [List.intercalate_cons_cons,List.intercalate_cons_cons,ih]

/-- The payload does not depend on the order, and it determines the targets as long as no value
holds what begins like a record behind a bar. A value that holds a whole record, where the record
would stand, has the payload of the two. -/
theorem scope_payload_binds (targetGroupId : JsString) :
    (∀ ts us : List Target,ts.Perm us →
      scopePayload targetGroupId ts = scopePayload targetGroupId us) ∧
    (∀ ts us : List Target,(∀ t ∈ ts,t.Valid ∧ t.Plain) → (∀ u ∈ us,u.Valid ∧ u.Plain) →
      scopePayload targetGroupId ts = scopePayload targetGroupId us → ts.Perm us) ∧
    (∀ (sha256 : ByteArray → List UInt8) (ts us : List Target),Function.Injective sha256 →
      (∀ t ∈ ts,t.Valid ∧ t.Plain) → (∀ u ∈ us,u.Valid ∧ u.Plain) →
      (∀ x ∈ scopePayload targetGroupId ts,x.toNat < 0xD800) →
      (∀ x ∈ scopePayload targetGroupId us,x.toNat < 0xD800) →
      computeScopeHashFromTargets sha256 targetGroupId ts =
        computeScopeHashFromTargets sha256 targetGroupId us → ts.Perm us) ∧
    ∀ (t u : Target) (v : JsString) (rest : List Target) (before after : List JsString),
      t.value = v++124::part u →
      sortTexts (part t::rest.map part) = before++part t::after →
      sortTexts (part ⟨t.id,t.kind,v⟩::part u::rest.map part) =
        before++part ⟨t.id,t.kind,v⟩::part u::after →
      scopePayload targetGroupId (t::rest) = scopePayload targetGroupId (⟨t.id,t.kind,v⟩::u::rest) ∧
        ¬ (t::rest).Perm (⟨t.id,t.kind,v⟩::u::rest) := by
  refine ⟨fun ts us => payload_perm targetGroupId,fun ts us => perm_of_payload,
    fun sha256 ts us hsha hts hus htext htext' => perm_of_hash hsha hts hus htext htext',?_⟩
  intro t u v rest before after hvalue hsort hsort'
  constructor
  · have hpart : part t = part ⟨t.id,t.kind,v⟩++124::part u := by
      rw [part,part,hvalue]
      simp
    rw [scopePayload,scopePayload,List.map_cons,List.map_cons,List.map_cons,hsort,hsort',hpart,
      intercalate_joined]
  · intro hperm
    have := hperm.length_eq
    simp at this

/-- URLs with a path, whose units are taken as they are. -/
def pathUrls : TargetInput.Platform where
  toLowerCase := id
  isIP := fun _ => 0
  domainToASCII := id
  Url := JsString × JsString
  newUrl := fun text =>
    let rest := text.drop 7
    let host := rest.takeWhile (· ≠ 47)
    let path := rest.dropWhile (· ≠ 47)
    if (js "http://").isPrefixOf text ∧ path ≠ [] ∧
        path.all (fun u => 33 ≤ u.toNat && u.toNat ≤ 126 && u ≠ 35 && u ≠ 63 && u ≠ 92) then
      some (host,path)
    else none
  protocol := fun _ => js "http:"
  username := fun _ => []
  password := fun _ => []
  hostname := Prod.fst
  setHostname := fun url host => (host,url.2)
  clearHash := id
  href := fun url => js "http://"++url.1++url.2

def firstTarget : Target := ⟨js "tgt_1",.url,js "http://a/"⟩

def secondTarget : Target := ⟨js "tgt_2",.url,js "http://b/"⟩

/-- The record of the second target, as a path of the first. -/
def joinedTarget : Target := ⟨js "tgt_1",.url,js "http://a/|tgt_2:url:http://b/"⟩

theorem two_scopes_one_payload :
    (∀ t ∈ [joinedTarget,firstTarget,secondTarget],t.Valid ∧
      TargetInput.normalizeByKind pathUrls t.kind t.value = .ok t.value) ∧
    scopePayload (js "tg_1") [joinedTarget] = scopePayload (js "tg_1") [firstTarget,secondTarget] ∧
    ¬ [joinedTarget].Perm [firstTarget,secondTarget] := by
  refine ⟨?_,by decide,by decide⟩
  simp only [List.forall_mem_cons]
  exact ⟨⟨⟨by decide,by decide⟩,by rfl⟩,⟨⟨by decide,by decide⟩,by rfl⟩,
    ⟨⟨by decide,by decide⟩,by rfl⟩,by simp⟩

theorem plain_of_noBar {t : Target} (h : 124 ∉ t.value) : t.Plain := by
  intro v w hvalue
  exact absurd (by rw [hvalue]; simp) h

theorem two_orders_one_scope : [firstTarget,secondTarget].Perm [secondTarget,firstTarget] := by
  have hplain : ∀ t ∈ [firstTarget,secondTarget],t.Valid ∧ t.Plain := by
    simp only [List.forall_mem_cons]
    exact ⟨⟨⟨by decide,by decide⟩,plain_of_noBar (by decide)⟩,
      ⟨⟨by decide,by decide⟩,plain_of_noBar (by decide)⟩,by simp⟩
  have hplain' : ∀ t ∈ [secondTarget,firstTarget],t.Valid ∧ t.Plain := by
    intro t ht
    exact hplain t (by simpa [or_comm] using ht)
  exact (scope_payload_binds (js "tg_1")).2.1 _ _ hplain hplain' (by decide)

end AstraNull.ScopeHash

import Mathlib
import AstraNull.IntervalIndex
import AstraNull.AddressText

/-!
# Providers by address

`lookupAddress` of `edgeFingerprint.mjs` and `lookupAsnForIp` of `asnLookup.mjs` over one index of
labelled intervals for each version. Both walk the same way and fold different things: the first
collects providers, the second keeps the provider of the shortest interval.
-/
namespace AstraNull.AddressIndex
open JsonText IpText Orders IntervalIndex AddressText

structure Interval where
  version : Version
  start : ℤ
  stop : ℤ
  provider : JsString
deriving DecidableEq

def Interval.row (i : Interval) : Row JsString := ⟨i.start,i.stop,i.provider⟩

structure Rows where
  v4 : List (Row JsString) := []
  v6 : List (Row JsString) := []

def Rows.family (rows : Rows) : Version → List (Row JsString)
  | .v4 => rows.v4
  | .v6 => rows.v6

def pushInterval (rows : Rows) (interval : Interval) : Rows :=
  match interval.version with
  | .v4 => { rows with v4 := rows.v4++[interval.row] }
  | .v6 => { rows with v6 := rows.v6++[interval.row] }

structure Packed where
  rows : List (Row JsString)
  starts : List ℤ
  maxSpan : Option ℤ

def sortAndPack (list : List (Row JsString)) : Packed :=
  let rows := sortRows compare list
  ⟨rows,rows.map Row.start,maxSpan rows⟩

def buildAddressIndex (loaded : List Interval) : Version → Packed :=
  let rows := loaded.foldl pushInterval {}
  fun version => sortAndPack (rows.family version)

/-- The search and the walk both lookups make; without rows there is no widest span. -/
def scanRows {σ : Type} (packed : Packed) (value : ℤ) (step : σ → Row JsString → σ) (init : σ) : σ :=
  match packed.maxSpan with
  | none => init
  | some widest =>
      walk packed.rows value (value-widest) step (countAtMost packed.starts value) init

/-- `providers.add`. -/
def addProvider (providers : List JsString) (row : Row JsString) : List JsString :=
  if row.label ∈ providers then providers else providers++[row.label]

def keepShortest (best : Option (JsString × ℤ)) (row : Row JsString) : Option (JsString × ℤ) :=
  match best with
  | none => some (row.label,row.span)
  | some b => if row.span < b.2 then some (row.label,row.span) else some b

/-- The tables a selected provider is described from, with the entries of an AS number by its
decimal text. -/
structure AsnTables where
  Entry : Type
  Metadata : Type
  registry : JsString → Option Entry
  metadata : JsString → Option Metadata

inductive AsnInfo (tables : AsnTables)
  | registered (entry : tables.Entry)
  | cloud (provider : JsString) (metadata : Option tables.Metadata)

def describe (tables : AsnTables) (provider : JsString) : Option (AsnInfo tables) :=
  if provider.take 2 = js "AS" then (tables.registry (provider.drop 2)).map .registered
  else some (.cloud provider (tables.metadata provider))

section
variable (net : NetIsIP) (toLowerCase : JsString → JsString)

def lookupAddress (index : Version → Packed) (ip : Option JsString) : List JsString :=
  match parseIpAddress net toLowerCase ip with
  | none => []
  | some parsed =>
      (scanRows (index parsed.version) parsed.value addProvider []).insertionSort
        fun a b => compare a b ≠ .gt

def bestMatch (index : Version → Packed) (ip : Option JsString) : Option (JsString × ℤ) :=
  match parseIpAddress net toLowerCase ip with
  | none => none
  | some parsed => scanRows (index parsed.version) parsed.value keepShortest none

def lookupAsnForIp (tables : AsnTables) (index : Version → Packed) (ip : Option JsString) :
    Option (AsnInfo tables) :=
  (bestMatch net toLowerCase index ip).bind fun best => describe tables best.1

/-- The interval is of the address's version and the address lies in it. -/
def Contains (interval : Interval) (ip : Option JsString) : Prop :=
  ∃ parsed,parseIpAddress net toLowerCase ip = some parsed ∧ interval.version = parsed.version ∧
    interval.start ≤ parsed.value ∧ parsed.value ≤ interval.stop

end

theorem family_pushInterval (rows : Rows) (interval : Interval) (version : Version) :
    (pushInterval rows interval).family version =
      rows.family version++(if interval.version = version then [interval.row] else []) := by
  cases hv : interval.version <;> cases version <;> simp [pushInterval,Rows.family,hv]

theorem family_load (loaded : List Interval) (rows : Rows) (version : Version) :
    (loaded.foldl pushInterval rows).family version =
      rows.family version++(loaded.filter (·.version = version)).map Interval.row := by
  induction loaded generalizing rows with
  | nil => simp
  | cons interval loaded ih =>
      rw [List.foldl_cons,ih,family_pushInterval,List.append_assoc]
      congr 1
      by_cases hv : interval.version = version <;> simp [hv]

def loadedRows (loaded : List Interval) (version : Version) : List (Row JsString) :=
  (loaded.filter (·.version = version)).map Interval.row

theorem buildAddressIndex_eq (loaded : List Interval) (version : Version) :
    buildAddressIndex loaded version = sortAndPack (loadedRows loaded version) := by
  rw [buildAddressIndex]
  dsimp only
  rw [family_load]
  cases version <;> rfl

theorem mem_loadedRows {loaded : List Interval} {version : Version} {r : Row JsString} :
    r ∈ loadedRows loaded version ↔ ∃ i ∈ loaded,i.version = version ∧ i.row = r := by
  simp [loadedRows,and_assoc]

theorem loadedRows_perm {loaded loaded' : List Interval} (h : loaded.Perm loaded')
    (version : Version) : (loadedRows loaded version).Perm (loadedRows loaded' version) :=
  (h.filter _).map _

theorem buildAddressIndex_perm {loaded loaded' : List Interval} (h : loaded.Perm loaded') :
    buildAddressIndex loaded = buildAddressIndex loaded' := by
  funext version
  rw [buildAddressIndex_eq,buildAddressIndex_eq,sortAndPack,sortAndPack,
    sortRows_perm totalOrder_compare (loadedRows_perm h version)]

/-- Both lookups fold over the rows that cover the value, from the last one in order. -/
theorem scanRows_sortAndPack {σ : Type} (list : List (Row JsString)) (value : ℤ)
    (step : σ → Row JsString → σ) (init : σ) :
    scanRows (sortAndPack list) value step init =
      ((sortRows compare list).reverse.filter (·.covers value)).foldl step init := by
  by_cases hempty : sortRows compare list = []
  · simp [scanRows,sortAndPack,hempty,maxSpan]
  · obtain ⟨widest,hwidest,hbound⟩ := maxSpan_bounds hempty
    simp only [scanRows,sortAndPack,hwidest]
    exact walk_countAtMost (sortRows_starts totalOrder_compare list) hbound step init

theorem mem_covering {loaded : List Interval} {version : Version} {value : ℤ} {r : Row JsString} :
    r ∈ (sortRows compare (loadedRows loaded version)).reverse.filter (·.covers value) ↔
      ∃ i ∈ loaded,i.version = version ∧ i.start ≤ value ∧ value ≤ i.stop ∧ i.row = r := by
  rw [List.mem_filter,List.mem_reverse,mem_sortRows,mem_loadedRows,covers_iff]
  constructor
  · rintro ⟨⟨i,hi,hv,rfl⟩,hstart,hstop⟩
    exact ⟨i,hi,hv,hstart,hstop,rfl⟩
  · rintro ⟨i,hi,hv,hstart,hstop,rfl⟩
    exact ⟨⟨i,hi,hv,rfl⟩,hstart,hstop⟩

theorem mem_addProvider {p : JsString} {providers : List JsString} {row : Row JsString} :
    p ∈ addProvider providers row ↔ p ∈ providers ∨ p = row.label := by
  rw [addProvider]
  split_ifs with h
  · constructor
    · exact .inl
    · rintro (hp | rfl)
      · exact hp
      · exact h
  · simp

theorem nodup_addProvider {providers : List JsString} (h : providers.Nodup) (row : Row JsString) :
    (addProvider providers row).Nodup := by
  rw [addProvider]
  split_ifs with hin
  · exact h
  · exact List.nodup_append.mpr ⟨h,List.nodup_singleton _,by rintro a ha b hb rfl; simp_all⟩

theorem collect_providers (rows : List (Row JsString)) {providers : List JsString}
    (h : providers.Nodup) : (rows.foldl addProvider providers).Nodup ∧
      ∀ p,p ∈ rows.foldl addProvider providers ↔ p ∈ providers ∨ ∃ r ∈ rows,r.label = p := by
  induction rows generalizing providers with
  | nil => exact ⟨h,by simp⟩
  | cons row rows ih =>
      obtain ⟨hnodup,hmem⟩ := ih (nodup_addProvider h row)
      refine ⟨hnodup,fun p => ?_⟩
      rw [List.foldl_cons,hmem,mem_addProvider]
      simp only [List.exists_mem_cons_iff,or_assoc,eq_comm]

/-- The span that is kept is the least one, and it is one of the rows'. -/
theorem keepShortest_fold (rows : List (Row JsString)) (b : JsString × ℤ) :
    ∃ best,rows.foldl keepShortest (some b) = some best ∧
      (best = b ∨ ∃ r ∈ rows,best = (r.label,r.span)) ∧ best.2 ≤ b.2 ∧
      ∀ r ∈ rows,best.2 ≤ r.span := by
  induction rows generalizing b with
  | nil => exact ⟨b,rfl,.inl rfl,le_refl _,by simp⟩
  | cons row rows ih =>
      rw [List.foldl_cons,keepShortest]
      split_ifs with hless
      · obtain ⟨best,hfold,hfrom,hle,hall⟩ := ih (row.label,row.span)
        refine ⟨best,hfold,?_,hle.trans hless.le,List.forall_mem_cons.mpr ⟨hle,hall⟩⟩
        rcases hfrom with rfl | ⟨r,hr,rfl⟩
        · exact .inr ⟨row,List.mem_cons_self,rfl⟩
        · exact .inr ⟨r,List.mem_cons_of_mem _ hr,rfl⟩
      · obtain ⟨best,hfold,hfrom,hle,hall⟩ := ih b
        refine ⟨best,hfold,?_,hle,
          List.forall_mem_cons.mpr ⟨hle.trans (not_lt.mp hless),hall⟩⟩
        exact hfrom.imp_right fun ⟨r,hr,hbest⟩ => ⟨r,List.mem_cons_of_mem _ hr,hbest⟩

theorem keepShortest_none (rows : List (Row JsString)) :
    (rows.foldl keepShortest none = none ↔ rows = []) ∧
      ∀ best,rows.foldl keepShortest none = some best →
        (∃ r ∈ rows,best = (r.label,r.span)) ∧ ∀ r ∈ rows,best.2 ≤ r.span := by
  cases rows with
  | nil => simp
  | cons row rows =>
      obtain ⟨best,hfold,hfrom,hle,hall⟩ := keepShortest_fold rows (row.label,row.span)
      rw [List.foldl_cons,show keepShortest none row = some (row.label,row.span) from rfl,hfold]
      refine ⟨by simp,?_⟩
      rintro best' ⟨⟩
      refine ⟨?_,List.forall_mem_cons.mpr ⟨hle,hall⟩⟩
      rcases hfrom with hbest | ⟨r,hr,hbest⟩
      · exact ⟨row,List.mem_cons_self,hbest⟩
      · exact ⟨r,List.mem_cons_of_mem _ hr,hbest⟩

section
variable {net : NetIsIP} {toLowerCase : JsString → JsString} (loaded : List Interval)
  (ip : Option JsString)

theorem lookupAddress_spec :
    (lookupAddress net toLowerCase (buildAddressIndex loaded) ip).Nodup ∧
      ∀ p,p ∈ lookupAddress net toLowerCase (buildAddressIndex loaded) ip ↔
        ∃ i ∈ loaded,Contains net toLowerCase i ip ∧ i.provider = p := by
  rw [lookupAddress]
  cases hparse : parseIpAddress net toLowerCase ip with
  | none => simp [Contains,hparse]
  | some parsed =>
      dsimp only
      rw [buildAddressIndex_eq,scanRows_sortAndPack]
      obtain ⟨hnodup,hmem⟩ := collect_providers
        ((sortRows compare (loadedRows loaded parsed.version)).reverse.filter
          (·.covers (parsed.value : ℤ))) List.nodup_nil
      refine ⟨(List.perm_insertionSort _ _).nodup_iff.mpr hnodup,fun p => ?_⟩
      rw [List.mem_insertionSort,hmem]
      constructor
      · rintro (hp | ⟨r,hr,rfl⟩)
        · cases hp
        · obtain ⟨i,hi,hv,hstart,hstop,rfl⟩ := mem_covering.mp hr
          exact ⟨i,hi,⟨parsed,hparse,hv,hstart,hstop⟩,rfl⟩
      · rintro ⟨i,hi,⟨parsed',hparse',hv,hstart,hstop⟩,rfl⟩
        cases hparse.symm.trans hparse'
        exact .inr ⟨i.row,mem_covering.mpr ⟨i,hi,hv,hstart,hstop,rfl⟩,rfl⟩

theorem bestMatch_spec :
    (bestMatch net toLowerCase (buildAddressIndex loaded) ip = none ↔
      ∀ i ∈ loaded,¬ Contains net toLowerCase i ip) ∧
    ∀ best,bestMatch net toLowerCase (buildAddressIndex loaded) ip = some best →
      ∃ i ∈ loaded,Contains net toLowerCase i ip ∧ best = (i.provider,i.stop-i.start) ∧
        ∀ j ∈ loaded,Contains net toLowerCase j ip → i.stop-i.start ≤ j.stop-j.start := by
  rw [bestMatch]
  cases hparse : parseIpAddress net toLowerCase ip with
  | none => simp [Contains,hparse]
  | some parsed =>
      dsimp only
      rw [buildAddressIndex_eq,scanRows_sortAndPack]
      obtain ⟨hnone,hsome⟩ := keepShortest_none
        ((sortRows compare (loadedRows loaded parsed.version)).reverse.filter
          (·.covers (parsed.value : ℤ)))
      have hcovering : ∀ i ∈ loaded,Contains net toLowerCase i ip → i.row ∈
          (sortRows compare (loadedRows loaded parsed.version)).reverse.filter
            (·.covers (parsed.value : ℤ)) := by
        rintro i hi ⟨parsed',hparse',hv,hstart,hstop⟩
        cases hparse.symm.trans hparse'
        exact mem_covering.mpr ⟨i,hi,hv,hstart,hstop,rfl⟩
      constructor
      · rw [hnone,List.eq_nil_iff_forall_not_mem]
        constructor
        · intro hempty i hi hcontains
          exact hempty _ (hcovering i hi hcontains)
        · intro hno r hr
          obtain ⟨i,hi,hv,hstart,hstop,rfl⟩ := mem_covering.mp hr
          exact hno i hi ⟨parsed,hparse,hv,hstart,hstop⟩
      · intro best hbest
        obtain ⟨⟨r,hr,rfl⟩,hleast⟩ := hsome best hbest
        obtain ⟨i,hi,hv,hstart,hstop,rfl⟩ := mem_covering.mp hr
        refine ⟨i,hi,⟨parsed,hparse,hv,hstart,hstop⟩,rfl,fun j hj hcontains => ?_⟩
        exact hleast j.row (hcovering j hj hcontains)

end

/-- Whatever the intervals and the order they were loaded in, the providers found are those of the
intervals that contain the address, and the AS entry is that of a shortest one among them. -/
theorem lookups_are_linear_scans (net : NetIsIP) (toLowerCase : JsString → JsString)
    (tables : AsnTables) (loaded loaded' : List Interval) (hloaded : loaded.Perm loaded')
    (ip : Option JsString) :
    ((lookupAddress net toLowerCase (buildAddressIndex loaded) ip).Nodup ∧
      ∀ p,p ∈ lookupAddress net toLowerCase (buildAddressIndex loaded) ip ↔
        ∃ i ∈ loaded,Contains net toLowerCase i ip ∧ i.provider = p) ∧
    ((∀ i ∈ loaded,¬ Contains net toLowerCase i ip) ∧
        lookupAsnForIp net toLowerCase tables (buildAddressIndex loaded) ip = none ∨
      ∃ i ∈ loaded,Contains net toLowerCase i ip ∧
        (∀ j ∈ loaded,Contains net toLowerCase j ip → i.stop-i.start ≤ j.stop-j.start) ∧
        lookupAsnForIp net toLowerCase tables (buildAddressIndex loaded) ip =
          describe tables i.provider) ∧
    lookupAddress net toLowerCase (buildAddressIndex loaded') ip =
      lookupAddress net toLowerCase (buildAddressIndex loaded) ip ∧
    lookupAsnForIp net toLowerCase tables (buildAddressIndex loaded') ip =
      lookupAsnForIp net toLowerCase tables (buildAddressIndex loaded) ip := by
  obtain ⟨hnone,hsome⟩ := @bestMatch_spec net toLowerCase loaded ip
  refine ⟨lookupAddress_spec loaded ip,?_,?_,?_⟩
  · cases hbest : bestMatch net toLowerCase (buildAddressIndex loaded) ip with
    | none => exact .inl ⟨hnone.mp hbest,by rw [lookupAsnForIp,hbest]; rfl⟩
    | some best =>
        obtain ⟨i,hi,hcontains,rfl,hleast⟩ := hsome best hbest
        exact .inr ⟨i,hi,hcontains,hleast,by rw [lookupAsnForIp,hbest]; rfl⟩
  · rw [buildAddressIndex_perm hloaded]
  · rw [buildAddressIndex_perm hloaded]

/-- Two nested blocks and a copy of the inner one under another name. -/
def nestedBlocks : List Interval :=
  [⟨.v4,0,255,js "wide"⟩,⟨.v4,8,15,js "AS1"⟩,⟨.v4,8,15,js "inner"⟩]

theorem parse_nine : parseIpAddress netIsIP id (some (js "0.0.0.9")) = some ⟨.v4,9⟩ := by
  have hquad : netIsIP.isIP (ScriptText.chars (js "0.0.0.9")) = 4 :=
    (netIsIP.isIP_four _).mpr ⟨⟨0,0,0,9⟩,by decide⟩
  have htrim : ScriptText.trim (js "0.0.0.9") = js "0.0.0.9" := by decide
  have hvalue : mergeOctets (((js "0.0.0.9").splitOn 46).map decimalNumber) = 9 := by decide
  simp only [parseIpAddress,Option.getD_some,htrim,ipv4ToBigint,hquad,hvalue,ne_eq,
    not_true_eq_false,if_false]

theorem nestedBlocks_lookups :
    js "wide" ∈ lookupAddress netIsIP id (buildAddressIndex nestedBlocks) (some (js "0.0.0.9")) ∧
    lookupAddress netIsIP id (buildAddressIndex nestedBlocks.reverse) (some (js "0.0.0.9")) =
      lookupAddress netIsIP id (buildAddressIndex nestedBlocks) (some (js "0.0.0.9")) := by
  have h := lookups_are_linear_scans netIsIP id ⟨Unit,Unit,fun _ => none,fun _ => none⟩ nestedBlocks
    nestedBlocks.reverse (List.reverse_perm _).symm (some (js "0.0.0.9"))
  refine ⟨(h.1.2 (js "wide")).mpr ⟨⟨.v4,0,255,js "wide"⟩,by decide,?_,rfl⟩,h.2.2.1⟩
  exact ⟨⟨.v4,9⟩,parse_nine,rfl,by decide,by decide⟩

end AstraNull.AddressIndex

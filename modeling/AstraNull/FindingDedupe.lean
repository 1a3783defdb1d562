import Mathlib
import AstraNull.ProtectionFindings
import AstraNull.Orders

/-!
# One candidate for each dedupe key

`dedupeProtectionFindingCandidates` on the candidates of evaluations: what it returns for each
tenant and key, and that the order of the candidates does not matter.
-/
namespace AstraNull.FindingDedupe
open FindingRecords ProtectionFindings Orders

section
variable {α : Type*} {cmp : α → α → Ordering} [Std.TransCmp cmp]

instance total_of_transCmp : Std.Total fun a b : α => cmp a b ≠ .gt where
  total a b := by
    rw [@Std.OrientedCmp.eq_swap _ cmp _ b a]
    cases cmp a b <;> simp

instance isTrans_of_transCmp : IsTrans α fun a b => cmp a b ≠ .gt where
  trans a b c hab hbc := by
    have hac := @Std.TransCmp.isLE_trans _ cmp _ a b c (Ordering.isLE_iff_ne_gt.mpr hab)
      (Ordering.isLE_iff_ne_gt.mpr hbc)
    exact Ordering.isLE_iff_ne_gt.mp hac

theorem eq_of_ne_gt {a b : α} (hab : cmp a b ≠ .gt) (hba : cmp b a ≠ .gt) : cmp a b = .eq := by
  rw [@Std.OrientedCmp.eq_swap _ cmp _ b a] at hba
  cases h : cmp a b <;> simp_all

end

theorem nodup_eraseDups {α : Type*} [BEq α] [LawfulBEq α] (l : List α) : l.eraseDups.Nodup := by
  induction hn : l.length using Nat.strong_induction_on generalizing l with
  | _ n ih =>
    cases l with
    | nil => simp
    | cons a rest =>
      rw [List.eraseDups_cons,List.nodup_cons,List.mem_eraseDups]
      refine ⟨by simp,ih _ ?_ _ rfl⟩
      rw [← hn,List.length_cons]
      exact Nat.lt_succ_of_le (List.length_filter_le _ rest)

/-- Small letters, digits and underscores. -/
def Plain (text : String) : Prop :=
  ∀ ch ∈ text.toList,ch.isLower = true ∨ ch.isDigit = true ∨ ch = '_'

/-- What the digest and the collation of the platform give. -/
structure Faithful (P : Platform) : Prop where
  digest_injective : Function.Injective P.digest
  digest_plain : ∀ basis,Plain (P.digest basis)
  ordered : Std.TransCmp P.localeCompare
  separated : ∀ a b,Plain a → Plain b → P.localeCompare a b = .eq → a = b

theorem Plain.append {a b : String} (ha : Plain a) (hb : Plain b) : Plain (a++b) := by
  intro ch hch
  rw [String.toList_append,List.mem_append] at hch
  exact hch.elim (ha ch) (hb ch)

/-- A candidate that an evaluation gives with some declarations. -/
def Derives (P : Platform) (c : Candidate) : Prop :=
  ∃ evaluation d derived,deriveProtectionFindingCandidates P evaluation d = .ok derived ∧
    c ∈ derived.candidates

/-- Evaluation ids that the collation takes as equal are equal. -/
def Separated (P : Platform) (candidates : List Candidate) : Prop :=
  ∀ a ∈ candidates,∀ b ∈ candidates,P.localeCompare a.evaluationId b.evaluationId = .eq →
    a.evaluationId = b.evaluationId

def basisTenant : DedupeBasis → String
  | .entryPathScope tenantId _ _ _ _ _ => tenantId
  | .entryPathId tenantId _ _ => tenantId
  | .firewallExpectationScope tenantId _ _ _ _ _ => tenantId
  | .expectationId tenantId _ => tenantId

def basisKind : DedupeBasis → Kind
  | .entryPathScope .. => .pathValidation
  | .entryPathId .. => .pathValidation
  | .firewallExpectationScope .. => .firewallChange
  | .expectationId .. => .firewallChange

/-- The classes of the findings of a kind. -/
def classesOf : Kind → List FindingClass
  | .pathValidation => [.confirmedExposure,.suspectedBypass,.observedEnforcementGap]
  | .firewallChange => [.confirmedExposure,.observedAvailabilityGap]

/-- The rank separates the classes of a kind. -/
theorem eq_of_classRank {kind : Kind} {a b : FindingClass} (ha : a ∈ classesOf kind)
    (hb : b ∈ classesOf kind) (h : classRank a = classRank b) : a = b := by
  cases kind <;> cases a <;> cases b <;> simp_all [classesOf,classRank]

/-- What is read of a derived candidate. -/
structure Shape (P : Platform) (c : Candidate) : Prop where
  keyed : ∃ basis,c.dedupeKey = P.digest basis ∧ basisTenant basis = c.tenantId ∧
    basisKind basis = c.comparisonKind
  classed : c.findingClass ∈ classesOf c.comparisonKind

theorem classifyPathItem_class {item : Item} {relation : Option EntryPath} {k : Classification}
    (h : classifyPathItem item relation = some k) : k.findingClass ∈ classesOf .pathValidation := by
  unfold classifyPathItem at h
  split at h
  · cases h
    decide
  · dsimp only at h
    split at h
    · split at h <;> cases h <;> decide
    · split at h <;> cases h <;> decide
  · cases h
    decide
  · cases h
    decide
  · cases h

theorem classifyFirewallItem_class {item : Item} {expectation : Option Expectation}
    {k : Classification} (h : classifyFirewallItem item expectation = some k) :
    k.findingClass ∈ classesOf .firewallChange := by
  unfold classifyFirewallItem at h
  dsimp only at h
  split at h
  · cases h
    decide
  split at h
  · cases h
    decide
  split at h
  · cases h
    decide
  split at h
  · cases h
    decide
  · cases h

theorem buildCandidate_keyed (P : Platform) (v : Verified) (item : Item) (index : ℕ)
    (relation : Option EntryPath) (expectation : Option Expectation) (k : Classification) :
    ∃ basis,(buildCandidate P v item index relation expectation k).dedupeKey = P.digest basis ∧
      basisTenant basis = v.evaluation.tenantId ∧ basisKind basis = v.kind := by
  refine ⟨_,rfl,?_,?_⟩
  · cases v.kind with
    | pathValidation => cases relation <;> rfl
    | firewallChange => cases expectation <;> rfl
  · cases v.kind with
    | pathValidation => cases relation <;> rfl
    | firewallChange => cases expectation <;> rfl

theorem shape_of_derives {P : Platform} {c : Candidate} (h : Derives P c) : Shape P c := by
  obtain ⟨evaluation,d,derived,hderive,hc⟩ := h
  unfold deriveProtectionFindingCandidates at hderive
  split at hderive
  · cases hderive
  next v hv =>
    cases hderive
    obtain ⟨reading,hreading,hcandidate⟩ := List.mem_filterMap.mp hc
    obtain ⟨⟨item,index⟩,-,rfl⟩ := List.mem_map.mp hreading
    simp only [readItem] at hcandidate
    split at hcandidate
    · cases hcandidate
    split at hcandidate
    · cases hcandidate
    split at hcandidate
    · cases hcandidate
    next k hk =>
      simp only [candidateOf,Option.some.injEq] at hcandidate
      subst hcandidate
      refine ⟨buildCandidate_keyed P v item index _ _ k,?_⟩
      show k.findingClass ∈ classesOf v.kind
      split at hk
      next hkind =>
        rw [hkind]
        exact classifyFirewallItem_class hk
      next hkind =>
        rw [hkind]
        exact classifyPathItem_class hk

section
variable {P : Platform}

theorem candidateOrder_eq_compareLex (P : Platform) : candidateOrder P =
    compareLex (fun a b => compare b.evaluatedAt a.evaluatedAt)
      (compareLex (fun a b => compare (classRank b.findingClass) (classRank a.findingClass))
        (compareLex (fun a b => P.localeCompare b.evaluationId a.evaluationId)
          (compareOn Candidate.itemIndex))) := rfl

theorem transCmp_map {α β : Type*} (cmp : β → β → Ordering) [Std.TransCmp cmp] (f : α → β) :
    Std.TransCmp fun a b => cmp (f a) (f b) where
  eq_swap := Std.OrientedCmp.eq_swap
  isLE_trans := Std.TransCmp.isLE_trans

theorem transCmp_candidateOrder (hP : Faithful P) : Std.TransCmp (candidateOrder P) := by
  have := hP.ordered
  have h₁ : Std.TransCmp fun a b : Candidate => compare b.evaluatedAt a.evaluatedAt :=
    transCmp_map (fun x y : ℤ => compare y x) Candidate.evaluatedAt
  have h₂ : Std.TransCmp fun a b : Candidate =>
      compare (classRank b.findingClass) (classRank a.findingClass) :=
    transCmp_map (fun x y : ℤ => compare y x) fun c : Candidate => classRank c.findingClass
  have h₃ : Std.TransCmp fun a b : Candidate => P.localeCompare b.evaluationId a.evaluationId :=
    transCmp_map (fun x y => P.localeCompare y x) Candidate.evaluationId
  rw [candidateOrder_eq_compareLex]
  infer_instance

theorem ids_of_candidateOrder {group : List Candidate} (hids : Separated P group) {a b : Candidate}
    (ha : a ∈ group) (hb : b ∈ group) (h : candidateOrder P a b = .eq) :
    (a.evaluationId,a.itemIndex) = (b.evaluationId,b.itemIndex) := by
  simp only [candidateOrder,Ordering.then_eq_eq] at h
  obtain ⟨-,-,hid,hindex⟩ := h
  rw [hids b hb a ha hid,compare_eq_iff_eq.mp hindex]

/-- The candidates of a tenant and key. -/
def groupOf (candidates : List Candidate) (key : String × String) : List Candidate :=
  candidates.filter fun c => groupKey c == key

/-- Candidates of one key are of one kind. -/
theorem kind_of_key (hP : Faithful P) {a b : Candidate} (ha : Shape P a) (hb : Shape P b)
    (h : a.dedupeKey = b.dedupeKey) :
    a.comparisonKind = b.comparisonKind ∧ a.tenantId = b.tenantId := by
  obtain ⟨x,hx,hxt,hxk⟩ := ha.keyed
  obtain ⟨y,hy,hyt,hyk⟩ := hb.keyed
  have hxy : x = y := hP.digest_injective (by rw [← hx,← hy,h])
  subst hxy
  exact ⟨by rw [← hxk,← hyk],by rw [← hxt,← hyt]⟩

theorem mergeGroup_spec (hP : Faithful P) {group : List Candidate} (hne : group ≠ []) :
    ∃ newest strongest,mergeGroup P group = some { newest with
        strongestObservedClass := some strongest.findingClass
        sourceEvaluationIds := uniqueSorted (group.map Candidate.evaluationId)
        observationCount := group.length } ∧
      newest ∈ group ∧ (∀ c ∈ group,candidateOrder P newest c ≠ .gt) ∧
      strongest ∈ group ∧
      ∀ c ∈ group,classRank c.findingClass ≤ classRank strongest.findingClass := by
  have := transCmp_candidateOrder hP
  have : Std.Total fun a b : Candidate => classRank b.findingClass ≤ classRank a.findingClass :=
    ⟨fun a b => le_total _ _⟩
  have : IsTrans Candidate fun a b => classRank b.findingClass ≤ classRank a.findingClass :=
    ⟨fun a b c hab hbc => le_trans hbc hab⟩
  obtain ⟨newest,hnewest⟩ : ∃ newest,
      (group.insertionSort fun a b => candidateOrder P a b ≠ .gt).head? = some newest := by
    rw [← Option.isSome_iff_exists,List.isSome_head?,← List.length_pos_iff,
      List.length_insertionSort,List.length_pos_iff]
    exact hne
  obtain ⟨strongest,hstrongest⟩ : ∃ strongest,(group.insertionSort fun a b =>
      classRank b.findingClass ≤ classRank a.findingClass).head? = some strongest := by
    rw [← Option.isSome_iff_exists,List.isSome_head?,← List.length_pos_iff,
      List.length_insertionSort,List.length_pos_iff]
    exact hne
  obtain ⟨hnew,hfirst⟩ := rel_of_head_insertionSort hnewest
  obtain ⟨hstrong,hmost⟩ := rel_of_head_insertionSort hstrongest
  refine ⟨newest,strongest,?_,hnew,hfirst,hstrong,hmost⟩
  rw [mergeGroup,hnewest,hstrongest]

theorem uniqueSorted_perm {texts texts' : List String} (h : texts.Perm texts') :
    uniqueSorted texts = uniqueSorted texts' := by
  refine insertionSort_eq_of_perm ?_ fun a _ b _ hab hba => le_antisymm hab hba
  rw [List.perm_ext_iff_of_nodup (nodup_eraseDups _) (nodup_eraseDups _)]
  intro text
  rw [List.mem_eraseDups,List.mem_eraseDups]
  exact h.mem_iff

/-- The order of a group does not matter. -/
theorem mergeGroup_perm (hP : Faithful P) {group group' : List Candidate}
    (hshape : ∀ c ∈ group,Shape P c) (hids : Separated P group)
    (hkey : ∀ a ∈ group,∀ b ∈ group,a.dedupeKey = b.dedupeKey)
    (hdistinct : (group.map fun c => (c.evaluationId,c.itemIndex)).Nodup)
    (hperm : group.Perm group') : mergeGroup P group = mergeGroup P group' := by
  obtain rfl | hne := eq_or_ne group []
  · rw [hperm.nil_eq]
  have hne' : group' ≠ [] := fun h => hne (by rw [h] at hperm; exact hperm.eq_nil)
  have := transCmp_candidateOrder hP
  obtain ⟨newest,strongest,hmerge,hnew,hfirst,hstrong,hmost⟩ := mergeGroup_spec hP hne
  obtain ⟨newest',strongest',hmerge',hnew',hfirst',hstrong',hmost'⟩ := mergeGroup_spec hP hne'
  rw [← hperm.mem_iff] at hnew' hstrong'
  have hsame : newest = newest' := by
    have heq := eq_of_ne_gt (hfirst _ hnew') (hfirst' _ (hperm.mem_iff.mp hnew))
    exact List.inj_on_of_nodup_map hdistinct hnew hnew' (ids_of_candidateOrder hids hnew hnew' heq)
  have hclass : strongest.findingClass = strongest'.findingClass := by
    have hkind := (kind_of_key hP (hshape _ hstrong) (hshape _ hstrong')
      (hkey _ hstrong _ hstrong')).1
    have hclassed := (hshape _ hstrong').classed
    rw [← hkind] at hclassed
    refine eq_of_classRank (hshape _ hstrong).classed hclassed (le_antisymm ?_ ?_)
    · exact hmost' _ (hperm.mem_iff.mp hstrong)
    · exact hmost _ hstrong'
  rw [hmerge,hmerge',hsame,hclass,uniqueSorted_perm (hperm.map _),hperm.length_eq]

theorem mem_groupOf {candidates : List Candidate} {key : String × String} {c : Candidate} :
    c ∈ groupOf candidates key ↔ c ∈ candidates ∧ groupKey c = key := by
  simp [groupOf]

/-- The merged candidates before they are sorted. -/
def mergedGroups (P : Platform) (candidates : List Candidate) : List Candidate :=
  (candidates.map groupKey).eraseDups.filterMap fun key => mergeGroup P (groupOf candidates key)

theorem dedupe_eq (candidates : List Candidate) :
    dedupeProtectionFindingCandidates P candidates = (mergedGroups P candidates).insertionSort
      fun a b => P.localeCompare a.dedupeKey b.dedupeKey ≠ .gt := by
  simp only [dedupeProtectionFindingCandidates,mergedGroups,List.filterMap_map]
  rfl

theorem groupKey_of_merge (hP : Faithful P) {candidates : List Candidate} {key : String × String}
    (hkey : key ∈ candidates.map groupKey) :
    ∃ r,mergeGroup P (groupOf candidates key) = some r ∧ groupKey r = key := by
  obtain ⟨c,hc,rfl⟩ := List.mem_map.mp hkey
  have hne : groupOf candidates (groupKey c) ≠ [] :=
    List.ne_nil_of_mem (mem_groupOf.mpr ⟨hc,rfl⟩)
  obtain ⟨newest,strongest,hmerge,hnew,-⟩ := mergeGroup_spec hP hne
  exact ⟨_,hmerge,(mem_groupOf.mp hnew).2⟩

theorem map_groupKey_mergedGroups (hP : Faithful P) (candidates : List Candidate) :
    (mergedGroups P candidates).map groupKey = (candidates.map groupKey).eraseDups := by
  have hall : ∀ keys : List (String × String),(∀ key ∈ keys,key ∈ candidates.map groupKey) →
      (keys.filterMap fun key => mergeGroup P (groupOf candidates key)).map groupKey = keys := by
    intro keys hkeys
    induction keys with
    | nil => rfl
    | cons key keys ih =>
        obtain ⟨r,hr,hgroup⟩ := groupKey_of_merge hP (hkeys key List.mem_cons_self)
        simp only [List.filterMap_cons,hr,List.map_cons,hgroup]
        rw [ih fun k hk => hkeys k (List.mem_cons_of_mem _ hk)]
  exact hall _ fun key hkey => List.mem_eraseDups.mp hkey

theorem mem_mergedGroups (hP : Faithful P) {candidates : List Candidate} {r : Candidate}
    (hr : r ∈ mergedGroups P candidates) :
    mergeGroup P (groupOf candidates (groupKey r)) = some r ∧
      groupKey r ∈ candidates.map groupKey := by
  obtain ⟨key,hkey,hmerge⟩ := List.mem_filterMap.mp hr
  rw [List.mem_eraseDups] at hkey
  obtain ⟨r',hr',hgroup⟩ := groupKey_of_merge hP hkey
  rw [hmerge,Option.some.injEq] at hr'
  rw [← hr'] at hgroup
  rw [hgroup]
  exact ⟨hmerge,hkey⟩

theorem mergedGroups_perm (hP : Faithful P) {candidates candidates' : List Candidate}
    (hshape : ∀ c ∈ candidates,Shape P c) (hids : Separated P candidates)
    (hdistinct : (candidates.map fun c => (c.evaluationId,c.itemIndex)).Nodup)
    (hperm : candidates.Perm candidates') :
    (mergedGroups P candidates).Perm (mergedGroups P candidates') := by
  have hsame : (fun key => mergeGroup P (groupOf candidates key)) =
      fun key => mergeGroup P (groupOf candidates' key) := by
    funext key
    refine mergeGroup_perm hP ?_ ?_ ?_ ?_ (hperm.filter _)
    · exact fun c hc => hshape c (mem_groupOf.mp hc).1
    · exact fun a ha b hb => hids a (mem_groupOf.mp ha).1 b (mem_groupOf.mp hb).1
    · intro a ha b hb
      have hab := (mem_groupOf.mp ha).2.trans (mem_groupOf.mp hb).2.symm
      exact congrArg Prod.snd hab
    · exact hdistinct.sublist (List.filter_sublist.map _)
  rw [mergedGroups,hsame]
  refine List.Perm.filterMap _ ?_
  rw [List.perm_ext_iff_of_nodup (nodup_eraseDups _) (nodup_eraseDups _)]
  intro key
  rw [List.mem_eraseDups,List.mem_eraseDups]
  exact (hperm.map groupKey).mem_iff

/-- Two merged candidates whose keys compare equal are one. -/
theorem eq_of_compare_keys (hP : Faithful P) {candidates : List Candidate}
    (hshape : ∀ c ∈ candidates,Shape P c) {a b : Candidate} (ha : a ∈ mergedGroups P candidates)
    (hb : b ∈ mergedGroups P candidates) (h : P.localeCompare a.dedupeKey b.dedupeKey = .eq) :
    a = b := by
  obtain ⟨hmergea,hkeya⟩ := mem_mergedGroups hP ha
  obtain ⟨hmergeb,hkeyb⟩ := mem_mergedGroups hP hb
  obtain ⟨x,hx,hxa⟩ := List.mem_map.mp hkeya
  obtain ⟨y,hy,hyb⟩ := List.mem_map.mp hkeyb
  have hplain : ∀ c ∈ candidates,Plain c.dedupeKey := by
    intro c hc
    obtain ⟨basis,hbasis,-⟩ := (hshape c hc).keyed
    rw [hbasis]
    exact hP.digest_plain basis
  have hax : x.dedupeKey = a.dedupeKey := congrArg Prod.snd hxa
  have hby : y.dedupeKey = b.dedupeKey := congrArg Prod.snd hyb
  rw [← hax,← hby] at h
  have hkeys := hP.separated _ _ (hplain x hx) (hplain y hy) h
  have htenants := (kind_of_key hP (hshape x hx) (hshape y hy) hkeys).2
  have hgroups : groupKey a = groupKey b := by
    rw [← hxa,← hyb]
    exact Prod.ext htenants hkeys
  rw [hgroups,hmergeb,Option.some.injEq] at hmergea
  exact hmergea.symm

/-- One candidate for each tenant and key, with the strongest class and the size of its group, in
an order and with members that do not depend on the order of the candidates, where the collation
tells the evaluation ids apart. -/
theorem dedupe_by_tenant_and_key (hP : Faithful P) (candidates : List Candidate)
    (hderives : ∀ c ∈ candidates,Derives P c) (hids : Separated P candidates)
    (hdistinct : (candidates.map fun c => (c.evaluationId,c.itemIndex)).Nodup) :
    ((dedupeProtectionFindingCandidates P candidates).map groupKey).Nodup ∧
    (∀ key,key ∈ (dedupeProtectionFindingCandidates P candidates).map groupKey ↔
      key ∈ candidates.map groupKey) ∧
    (∀ r ∈ dedupeProtectionFindingCandidates P candidates,
      (∃ strongest ∈ groupOf candidates (groupKey r),
        r.strongestObservedClass = some strongest.findingClass ∧
        ∀ c ∈ groupOf candidates (groupKey r),
          classRank c.findingClass ≤ classRank strongest.findingClass) ∧
      r.observationCount = (groupOf candidates (groupKey r)).length) ∧
    ∀ candidates',candidates.Perm candidates' →
      dedupeProtectionFindingCandidates P candidates' =
        dedupeProtectionFindingCandidates P candidates := by
  have hshape : ∀ c ∈ candidates,Shape P c := fun c hc => shape_of_derives (hderives c hc)
  have := hP.ordered
  have := transCmp_map P.localeCompare Candidate.dedupeKey
  simp only [dedupe_eq]
  have hsorted := List.perm_insertionSort
    (fun a b : Candidate => P.localeCompare a.dedupeKey b.dedupeKey ≠ .gt) (mergedGroups P candidates)
  have hkeys := (hsorted.map groupKey).trans (.of_eq (map_groupKey_mergedGroups hP candidates))
  refine ⟨hkeys.nodup_iff.mpr (nodup_eraseDups _),?_,?_,?_⟩
  · intro key
    rw [hkeys.mem_iff,List.mem_eraseDups]
  · intro r hr
    obtain ⟨hmerge,hkey⟩ := mem_mergedGroups hP (hsorted.mem_iff.mp hr)
    have hne : groupOf candidates (groupKey r) ≠ [] := by
      obtain ⟨c,hc,hck⟩ := List.mem_map.mp hkey
      exact List.ne_nil_of_mem (mem_groupOf.mpr ⟨hc,hck⟩)
    obtain ⟨newest,strongest,hmerged,-,-,hstrong,hmost⟩ := mergeGroup_spec hP hne
    rw [hmerge,Option.some.injEq] at hmerged
    exact ⟨⟨strongest,hstrong,congrArg Candidate.strongestObservedClass hmerged,hmost⟩,
      congrArg Candidate.observationCount hmerged⟩
  · intro candidates' hperm
    refine (insertionSort_eq_of_perm (mergedGroups_perm hP hshape hids hdistinct hperm) ?_).symm
    intro a ha b hb hab hba
    refine eq_of_compare_keys hP hshape ha hb ?_
    exact @eq_of_ne_gt _ P.localeCompare _ _ _ hab hba

end

instance encodableChar : Encodable Char :=
  Encodable.ofLeftInverse Char.toNat Char.ofNat Char.ofNat_toNat

instance encodableString : Encodable String :=
  Encodable.ofLeftInverse String.toList String.ofList fun _ => String.ofList_toList

deriving instance Encodable for RelationKind
deriving instance Encodable for ServiceEndpoint
deriving instance Encodable for DedupeBasis

def samplePlatform : Platform where
  digest basis := "pvf_"++String.ofList (Nat.toDigits 10 (Encodable.encode basis))
  evaluationDigest _ := some "e0"
  parseDate _ := some 0
  localeCompare a b := compare a b

theorem samplePlatform_faithful : Faithful samplePlatform where
  digest_injective a b h := by
    have hdigits := String.ofList_injective ((String.append_right_inj _).mp h)
    have hcodes := congrArg (fun ds => Nat.ofDigitChars 10 ds 0) hdigits
    simp only [Nat.ofDigitChars_ten_toDigits] at hcodes
    exact Encodable.encode_injective hcodes
  digest_plain basis := by
    refine Plain.append (by simp [Plain]) fun ch hch => .inr (.inl ?_)
    rw [String.toList_ofList] at hch
    exact Nat.isDigit_of_mem_toDigits (by decide) (by decide) hch
  ordered := inferInstanceAs (Std.TransCmp fun a b : String => compare a b)
  separated a b _ _ h := compare_eq_iff_eq.mp h

def sampleRef : EvidenceRef where
  testRunId := "run_0"
  checkId := none
  checkVersion := none
  gradingVersion := none
  verdictId := none
  targetId := none
  evidenceIds := some ["evd_0"]
  observedAt := "2026-01-01T00:00:00.000Z"
  finalized := true

def sampleItem (outcome : PathOutcome) : Item where
  entryPathId := some "ep_alt"
  scenario := some "sqli"
  outcome := outcome
  reasons := []
  expectationId := none
  status := .other
  gapKind := none
  expectationMet := none
  complete := none
  comparisonComplete := none
  observationOnly := none
  evidenceRefs := some [sampleRef]

def sampleEvaluation : Evaluation where
  id := some "pvc_0000000000000001"
  kind := some .pathValidation
  tenantId := "ten_a"
  items := some [sampleItem .suspectedAlternateApplicationRoute,sampleItem .scopedApplicationBypass]
  evaluationDigest := some "e0"
  evaluatedAt := 0
  comparisonComplete := none

def sampleCandidate (index : ℕ) (k : Classification) : Candidate :=
  buildCandidate samplePlatform ⟨sampleEvaluation,"pvc_0000000000000001",.pathValidation,
    [sampleItem .suspectedAlternateApplicationRoute,sampleItem .scopedApplicationBypass],"e0"⟩
    (sampleItem .scopedApplicationBypass) index none none k

def sampleCandidates : List Candidate :=
  [sampleCandidate 0 ⟨.suspectedBypass,.p2,none⟩,sampleCandidate 1 ⟨.confirmedExposure,.p1,none⟩]

theorem sampleCandidates_derived :
    deriveProtectionFindingCandidates samplePlatform sampleEvaluation ⟨[],[]⟩ =
      .ok ⟨sampleCandidates,[]⟩ := rfl

theorem sampleCandidates_order_free :
    dedupeProtectionFindingCandidates samplePlatform sampleCandidates.reverse =
      dedupeProtectionFindingCandidates samplePlatform sampleCandidates := by
  refine (dedupe_by_tenant_and_key samplePlatform_faithful sampleCandidates ?_ ?_ ?_).2.2.2 _
    (List.reverse_perm _).symm
  · intro c hc
    exact ⟨sampleEvaluation,⟨[],[]⟩,_,sampleCandidates_derived,hc⟩
  · exact fun a _ b _ h => compare_eq_iff_eq.mp h
  · decide

/-- Of two candidates that compare equal the first one stands for their group. -/
theorem dedupe_pair {P : Platform} {a b : Candidate} (hkey : groupKey a = groupKey b)
    (horder : candidateOrder P a b = .eq) :
    (dedupeProtectionFindingCandidates P [a,b]).map Candidate.evaluationId = [a.evaluationId] := by
  have hkeys : ([a,b].map groupKey).eraseDups = [groupKey a] := by
    simp [List.eraseDups_cons,hkey]
  have hgroup : groupOf [a,b] (groupKey a) = [a,b] := by simp [groupOf,hkey]
  have hnewest : ([a,b].insertionSort fun a b => candidateOrder P a b ≠ .gt).head? = some a := by
    simp [horder]
  rw [dedupe_eq,mergedGroups,hkeys,List.filterMap_cons,hgroup,mergeGroup,hnewest]
  cases hstrongest : ([a,b].insertionSort fun a b =>
      classRank b.findingClass ≤ classRank a.findingClass).head? with
  | none =>
      rw [List.head?_eq_none_iff,← List.length_eq_zero_iff,List.length_insertionSort] at hstrongest
      cases hstrongest
  | some strongest => rfl

def withoutZeros (text : String) : String := String.ofList (text.toList.filter (· ≠ '\x00'))

theorem withoutZeros_plain {text : String} (h : Plain text) : withoutZeros text = text := by
  have hkept : text.toList.filter (· ≠ '\x00') = text.toList := by
    refine List.filter_eq_self.mpr fun ch hch => ?_
    rw [decide_eq_true_eq]
    rintro rfl
    exact absurd (h _ hch) (by decide)
  rw [withoutZeros,hkept,String.ofList_toList]

/-- A collation that skips the character 0, as that of the platform does. -/
def skippingPlatform : Platform :=
  { samplePlatform with localeCompare := fun a b => compare (withoutZeros a) (withoutZeros b) }

theorem skippingPlatform_faithful : Faithful skippingPlatform where
  digest_injective := samplePlatform_faithful.digest_injective
  digest_plain := samplePlatform_faithful.digest_plain
  ordered := transCmp_map (fun a b : String => compare a b) withoutZeros
  separated a b ha hb h := by
    have hsame : withoutZeros a = withoutZeros b := compare_eq_iff_eq.mp h
    rwa [withoutZeros_plain ha,withoutZeros_plain hb] at hsame

def tiedEvaluation (id : String) : Evaluation :=
  { sampleEvaluation with
    id := some id
    items := some [sampleItem .scopedApplicationBypass] }

def tiedCandidate (id : String) : Candidate :=
  buildCandidate skippingPlatform ⟨tiedEvaluation id,id,.pathValidation,
    [sampleItem .scopedApplicationBypass],"e0"⟩ (sampleItem .scopedApplicationBypass) 0 none none
    ⟨.confirmedExposure,.p1,none⟩

theorem tiedCandidate_derived : deriveProtectionFindingCandidates skippingPlatform
      (tiedEvaluation "e1") ⟨[],[]⟩ = .ok ⟨[tiedCandidate "e1"],[]⟩ ∧
    deriveProtectionFindingCandidates skippingPlatform (tiedEvaluation "e1\x00") ⟨[],[]⟩ =
      .ok ⟨[tiedCandidate "e1\x00"],[]⟩ := ⟨rfl,rfl⟩

/-- Evaluation ids that differ by a skipped character: the candidate that comes first stands for
both. -/
theorem tied_ids_keep_order : ¬ ∀ P,Faithful P → ∀ candidates : List Candidate,
    (∀ c ∈ candidates,Derives P c) →
    (candidates.map fun c => (c.evaluationId,c.itemIndex)).Nodup →
    ∀ candidates',candidates.Perm candidates' →
      dedupeProtectionFindingCandidates P candidates' =
        dedupeProtectionFindingCandidates P candidates := by
  intro hall
  have hsame := hall skippingPlatform skippingPlatform_faithful
    [tiedCandidate "e1",tiedCandidate "e1\x00"] (fun c hc => ?_) (by decide)
    [tiedCandidate "e1\x00",tiedCandidate "e1"] (List.Perm.swap _ _ _)
  · have hfirst := @dedupe_pair skippingPlatform (tiedCandidate "e1") (tiedCandidate "e1\x00") rfl
      (by decide)
    have hsecond := @dedupe_pair skippingPlatform (tiedCandidate "e1\x00") (tiedCandidate "e1") rfl
      (by decide)
    rw [hsame,hfirst] at hsecond
    exact absurd hsecond (by decide)
  · simp only [List.mem_cons,List.not_mem_nil,or_false] at hc
    rcases hc with rfl | rfl
    · exact ⟨_,_,_,tiedCandidate_derived.1,List.mem_singleton_self _⟩
    · exact ⟨_,_,_,tiedCandidate_derived.2,List.mem_singleton_self _⟩

end AstraNull.FindingDedupe

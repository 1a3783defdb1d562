import Mathlib
import AstraNull.DeepEquality
import AstraNull.OwnershipChronology
import AstraNull.TargetOwnership

/-!
# The latest verification of a target

The projection of a tenant's rows keeps, for each target, the latest row and whether the rows at
its time disagree. It is the same for every order of the rows, and rows that cannot be read or
disagree leave the target pending.
-/
namespace AstraNull.VerificationOrder
open JsonText ScriptValue ScriptObject DeepEquality OwnershipTransitions OwnershipChronology
open TargetOwnership

section Claims
variable {a b c : Verification}

/-- The reference of the row has no member twice. -/
def Proper (row : Verification) : Prop := WellFormed row.sourceRef

theorem wellFormed_orElse {v : JsVal} (h : WellFormed v) : WellFormed (orElse v (.obj [])) := by
  rw [orElse]
  split_ifs
  · exact .obj List.nodup_nil (by simp)
  · exact h

theorem sameClaim_iff : sameClaim a b = true ↔ a.state = b.state ∧ a.sourceKind = b.sourceKind ∧
    isDeepStrictEqual (orElse a.sourceRef (.obj [])) (orElse b.sourceRef (.obj [])) = true := by
  simp [sameClaim,and_assoc]

theorem sameClaim_refl (h : Proper a) : sameClaim a a = true :=
  sameClaim_iff.mpr ⟨rfl,rfl,isDeepStrictEqual_refl (wellFormed_orElse h)⟩

theorem sameClaim_symm (ha : Proper a) (hb : Proper b) (h : sameClaim a b = true) :
    sameClaim b a = true := by
  obtain ⟨hstate,hkind,href⟩ := sameClaim_iff.mp h
  exact sameClaim_iff.mpr ⟨hstate.symm,hkind.symm,
    isDeepStrictEqual_symm _ _ (wellFormed_orElse ha) (wellFormed_orElse hb) href⟩

theorem sameClaim_trans (hab : sameClaim a b = true) (hbc : sameClaim b c = true) :
    sameClaim a c = true := by
  obtain ⟨hstate,hkind,href⟩ := sameClaim_iff.mp hab
  obtain ⟨hstate',hkind',href'⟩ := sameClaim_iff.mp hbc
  exact sameClaim_iff.mpr ⟨hstate.trans hstate',hkind.trans hkind',
    isDeepStrictEqual_trans _ _ _ href href'⟩

end Claims

/-- What the entry of a target knows of the rows of that target. -/
structure Summarizes (rows : List Verification) (l : Latest) : Prop where
  unread : l.instant = none ↔ ∃ r ∈ rows,parsed r = none
  unreadAmbiguous : l.instant = none → l.ambiguous = true
  latest : ∀ m,l.instant = some m → l.row ∈ rows ∧ parsed l.row = some m ∧
    ∀ r ∈ rows,∀ i,parsed r = some i → exactTime i ≤ exactTime m
  disagree : ∀ m,l.instant = some m →
    (l.ambiguous = true ↔ ∃ r ∈ rows,parsed r = some m ∧ sameClaim r l.row = false)

theorem nextLatest_unread {row : Verification} (h : parsed row = none) (previous : Option Latest) :
    nextLatest previous row = ⟨row,none,true⟩ := by
  simp only [nextLatest,show ownershipTransitionInstant row.transitionedAt = none from h]

theorem summarizes_unread {rows : List Verification} {row r : Verification}
    (hrow : row ∈ rows) (h : parsed row = none) : Summarizes rows ⟨r,none,true⟩ :=
  ⟨iff_of_true rfl ⟨row,hrow,h⟩,fun _ => rfl,nofun,nofun⟩

theorem summarizes_read {rows : List Verification} {l : Latest} {m : Instant}
    (hl : l.instant = some m) (hread : ¬ ∃ r ∈ rows,parsed r = none)
    (hlatest : l.row ∈ rows ∧ parsed l.row = some m ∧
      ∀ r ∈ rows,∀ i,parsed r = some i → exactTime i ≤ exactTime m)
    (hdisagree : l.ambiguous = true ↔ ∃ r ∈ rows,parsed r = some m ∧ sameClaim r l.row = false) :
    Summarizes rows l := by
  refine ⟨iff_of_false (by simp [hl]) hread,by simp [hl],?_,?_⟩
  · intro m' hm
    cases hl.symm.trans hm
    exact hlatest
  · intro m' hm
    cases hl.symm.trans hm
    exact hdisagree

theorem summarizes_first {row : Verification} (hproper : Proper row) :
    Summarizes [row] (nextLatest none row) := by
  cases h : parsed row with
  | none =>
      rw [nextLatest_unread h]
      exact summarizes_unread (List.mem_singleton_self row) h
  | some i =>
      have hnext : nextLatest none row = ⟨row,some i,false⟩ := by
        simp only [nextLatest,show ownershipTransitionInstant row.transitionedAt = some i from h]
      rw [hnext]
      refine summarizes_read rfl ?_ ⟨List.mem_singleton_self row,h,?_⟩ ?_
      · rintro ⟨r,hr,hnone⟩
        rw [List.mem_singleton.mp hr,h] at hnone
        cases hnone
      · intro r hr j hj
        rw [List.mem_singleton.mp hr,h] at hj
        cases hj
        exact le_refl _
      · refine iff_of_false nofun ?_
        rintro ⟨r,hr,-,hdiffer⟩
        rw [List.mem_singleton.mp hr,sameClaim_refl hproper] at hdiffer
        cases hdiffer

theorem summarizes_next {rows : List Verification} {l : Latest} (h : Summarizes rows l)
    {row : Verification} (hproper : Proper row) :
    Summarizes (rows++[row]) (nextLatest (some l) row) := by
  cases hrow : parsed row with
  | none =>
      rw [nextLatest_unread hrow]
      exact summarizes_unread (List.mem_append_right _ (List.mem_singleton_self row)) hrow
  | some i =>
      have hread : ownershipTransitionInstant row.transitionedAt = some i := hrow
      cases hl : l.instant with
      | none =>
          have hkeep : nextLatest (some l) row = l := by
            simp only [nextLatest,hread,hl]
          rw [hkeep]
          obtain ⟨r,hr,hnone⟩ := h.unread.mp hl
          refine ⟨iff_of_true hl ⟨r,List.mem_append_left _ hr,hnone⟩,h.unreadAmbiguous,?_,?_⟩
          · intro m hm
            cases hl.symm.trans hm
          · intro m hm
            cases hl.symm.trans hm
      | some m =>
          obtain ⟨hmem,hparsed,hmax⟩ := h.latest m hl
          have hdisagree := h.disagree m hl
          have hall : ¬ ∃ r ∈ rows++[row],parsed r = none := by
            rintro ⟨r,hr,hnone⟩
            rcases List.mem_append.mp hr with hr | hr
            · rw [h.unread.mpr ⟨r,hr,hnone⟩] at hl
              cases hl
            · rw [List.mem_singleton.mp hr,hrow] at hnone
              cases hnone
          have hmax' : ∀ {k},exactTime m ≤ exactTime k → exactTime i ≤ exactTime k →
              ∀ r ∈ rows++[row],∀ j,parsed r = some j → exactTime j ≤ exactTime k := by
            intro k hmk hik r hr j hj
            rcases List.mem_append.mp hr with hr | hr
            · exact (hmax r hr j hj).trans hmk
            · rw [List.mem_singleton.mp hr,hrow] at hj
              cases hj
              exact hik
          have hlast : ∀ {q : Verification → Prop},(∃ r ∈ rows++[row],q r) ↔
              (∃ r ∈ rows,q r) ∨ q row := by
            intro q
            simp [or_and_right,exists_or]
          have hcompare := compareOwnershipInstants_eq (normal_of_parsed hrow)
            (normal_of_parsed hparsed)
          rcases lt_trichotomy (exactTime i) (exactTime m) with hlt | heq | hgt
          · have hkeep : nextLatest (some l) row = l := by
              simp only [nextLatest,hread,hl,hcompare.trans (compare_lt_iff_lt.mpr hlt)]
            rw [hkeep]
            refine summarizes_read hl hall
              ⟨List.mem_append_left _ hmem,hparsed,hmax' (le_refl _) hlt.le⟩ ?_
            rw [hdisagree,hlast]
            refine (or_iff_left ?_).symm
            rintro ⟨hm,-⟩
            cases hrow.symm.trans hm
            exact absurd hlt (lt_irrefl _)
          · have him : i = m :=
              exactTime_injective (normal_of_parsed hrow) (normal_of_parsed hparsed) heq
            have hnext : nextLatest (some l) row =
                if sameClaim row l.row then l else { l with ambiguous := true } := by
              simp only [nextLatest,hread,hl,hcompare.trans (compare_eq_iff_eq.mpr heq)]
            rw [hnext]
            split_ifs with hclaim
            · refine summarizes_read hl hall
                ⟨List.mem_append_left _ hmem,hparsed,hmax' (le_refl _) heq.le⟩ ?_
              rw [hdisagree,hlast]
              refine (or_iff_left ?_).symm
              rintro ⟨-,hdiffer⟩
              rw [hclaim] at hdiffer
              cases hdiffer
            · refine summarizes_read (m := m) hl hall
                ⟨List.mem_append_left _ hmem,hparsed,hmax' (le_refl _) heq.le⟩ ?_
              refine iff_of_true rfl ⟨row,List.mem_append_right _ (List.mem_singleton_self row),?_⟩
              exact ⟨him ▸ hrow,by simpa using hclaim⟩
          · have hnext : nextLatest (some l) row = ⟨row,some i,false⟩ := by
              simp only [nextLatest,hread,hl,hcompare.trans (compare_gt_iff_gt.mpr hgt)]
            rw [hnext]
            refine summarizes_read rfl hall ⟨List.mem_append_right _ (List.mem_singleton_self row),
              hrow,hmax' hgt.le (le_refl _)⟩ ?_
            refine iff_of_false nofun ?_
            rw [hlast]
            rintro (⟨r,hr,hi,-⟩ | ⟨-,hdiffer⟩)
            · exact absurd (hmax r hr i hi) (not_le.mpr hgt)
            · rw [sameClaim_refl hproper] at hdiffer
              cases hdiffer

theorem instant_of_clear {rows : List Verification} {l : Latest} (h : Summarizes rows l)
    (hclear : l.ambiguous = false) : ∃ m,l.instant = some m := by
  cases hl : l.instant with
  | none =>
      rw [h.unreadAmbiguous hl] at hclear
      cases hclear
  | some m => exact ⟨m,rfl⟩

/-- The entry after the rows of a target, in the order they are stored. -/
def entry (rows : List Verification) : Option Latest :=
  rows.foldl (fun l row => some (nextLatest l row)) none

theorem entry_summarizes {rows : List Verification} (hproper : ∀ row ∈ rows,Proper row) :
    ∀ l ∈ entry rows,Summarizes rows l := by
  induction rows using List.reverseRecOn with
  | nil => simp [entry]
  | append_singleton rows row ih =>
      intro l hl
      have hrow := hproper row (List.mem_append_right _ (List.mem_singleton_self row))
      have hrest := ih fun r hr => hproper r (List.mem_append_left _ hr)
      rw [entry,List.foldl_append] at hl
      change l ∈ some (nextLatest (entry rows) row) at hl
      cases hl
      cases hentry : entry rows with
      | some l => exact summarizes_next (hrest l hentry) hrow
      | none =>
          cases rows using List.reverseRecOn with
          | nil => exact summarizes_first hrow
          | append_singleton rows r _ =>
              rw [entry,List.foldl_append] at hentry
              cases hentry

theorem entry_eq_none {rows : List Verification} : entry rows = none ↔ rows = [] := by
  cases rows using List.reverseRecOn with
  | nil => simp [entry]
  | append_singleton rows r _ => simp [entry,List.foldl_append]

/-- Entries of the same rows in another order agree. -/
theorem summaries_agree {rows rows' : List Verification} (hsame : ∀ r,r ∈ rows' ↔ r ∈ rows)
    (hproper : ∀ row ∈ rows,Proper row) {l l' : Latest} (h : Summarizes rows l)
    (h' : Summarizes rows' l') :
    l'.ambiguous = l.ambiguous ∧ (l.ambiguous = false → sameClaim l'.row l.row = true) := by
  have hunread : l.instant = none ↔ l'.instant = none := by
    rw [h.unread,h'.unread]
    simp [hsame]
  cases hl : l.instant with
  | none =>
      have hl' := hunread.mp hl
      rw [h.unreadAmbiguous hl,h'.unreadAmbiguous hl']
      exact ⟨rfl,fun hclear => absurd hclear (by decide)⟩
  | some m =>
      cases hl' : l'.instant with
      | none =>
          rw [hunread.mpr hl'] at hl
          cases hl
      | some m' =>
          obtain ⟨hmem,hparsed,hmax⟩ := h.latest m hl
          obtain ⟨hmem',hparsed',hmax'⟩ := h'.latest m' hl'
          have htime : exactTime m' = exactTime m :=
            le_antisymm (hmax l'.row ((hsame _).mp hmem') m' hparsed')
              (hmax' l.row ((hsame _).mpr hmem) m hparsed)
          have hm : m' = m :=
            exactTime_injective (normal_of_parsed hparsed') (normal_of_parsed hparsed) htime
          subst hm
          have hin' := (hsame _).mp hmem'
          have hdisagree := h.disagree m' hl
          have hdisagree' := h'.disagree m' hl'
          -- every row at the latest time says what the other entry's row says, or neither is clear
          have hclear : l.ambiguous = false → ∀ r ∈ rows,parsed r = some m' →
              sameClaim r l.row = true := by
            intro hfalse r hr hrm
            by_contra hne
            rw [hdisagree.mpr ⟨r,hr,hrm,by simpa using hne⟩] at hfalse
            cases hfalse
          have hclear' : l'.ambiguous = false → ∀ r ∈ rows,parsed r = some m' →
              sameClaim r l'.row = true := by
            intro hfalse r hr hrm
            by_contra hne
            rw [hdisagree'.mpr ⟨r,(hsame r).mpr hr,hrm,by simpa using hne⟩] at hfalse
            cases hfalse
          refine ⟨?_,fun hfalse => hclear hfalse _ hin' hparsed'⟩
          cases hamb : l.ambiguous with
          | false =>
              by_contra hamb'
              obtain ⟨r,hr,hrm,hdiffer⟩ := hdisagree'.mp (by simpa using hamb')
              have hr' := (hsame r).mp hr
              have hback := sameClaim_symm (hproper _ hin') (hproper _ hmem)
                (hclear hamb _ hin' hparsed')
              rw [sameClaim_trans (hclear hamb r hr' hrm) hback] at hdiffer
              cases hdiffer
          | true =>
              by_contra hamb'
              obtain ⟨r,hr,hrm,hdiffer⟩ := hdisagree.mp hamb
              have hfalse : l'.ambiguous = false := by simpa using hamb'
              have hback := sameClaim_symm (hproper _ hmem) (hproper _ hin')
                (hclear' hfalse _ hmem hparsed)
              rw [sameClaim_trans (hclear' hfalse r hr hrm) hback] at hdiffer
              cases hdiffer

theorem latestStep_at {tenantId id : JsString} {wanted : Option (List JsString)}
    (hid : wanted.all fun ids => ids.contains id) (latest : ByTarget Latest) (row : Verification) :
    latestStep tenantId wanted latest row id =
      if isOf tenantId id row then some (nextLatest (latest id) row) else latest id := by
  by_cases htarget : row.targetId = id
  · by_cases htenant : row.tenantId = tenantId
    · have hwanted : (wanted.any fun ids => !ids.contains row.targetId) = false := by
        cases wanted with
        | none => rfl
        | some ids => simpa [htarget] using hid
      have hskip : ¬ (row.tenantId ≠ tenantId ||
          wanted.any fun ids => !ids.contains row.targetId) = true := by
        rw [hwanted]
        simp [htenant]
      rw [latestStep,if_neg hskip]
      simp [isOf,htarget,htenant]
    · simp [latestStep,isOf,htenant]
  · have hne : ¬ id = row.targetId := fun h => htarget h.symm
    rw [latestStep]
    split_ifs <;> simp_all [isOf]

theorem latestStep_other {tenantId id : JsString} {wanted : Option (List JsString)}
    (hid : (wanted.all fun ids => ids.contains id) = false) (latest : ByTarget Latest)
    (row : Verification) : latestStep tenantId wanted latest row id = latest id := by
  rw [latestStep]
  split_ifs with hskip
  · rfl
  · by_cases htarget : id = row.targetId
    · exfalso
      cases wanted with
      | none => cases hid
      | some ids => simp_all
    · simp [htarget]

/-- The entry of a target is that of its own rows. -/
theorem latestRows_eq (store : Store) (tenantId : JsString) (wanted : Option (List JsString))
    (id : JsString) : latestRows store tenantId wanted id =
      if wanted.all fun ids => ids.contains id then
        (entry (store.targetVerifications.filter (isOf tenantId id))).map Latest.projected
      else none := by
  rw [latestRows]
  split_ifs with hid
  · congr 1
    have hfold : ∀ (rows : List Verification) (f : ByTarget Latest),
        rows.foldl (latestStep tenantId wanted) f id =
          (rows.filter (isOf tenantId id)).foldl (fun l row => some (nextLatest l row)) (f id) := by
      intro rows
      induction rows with
      | nil => intro f; rfl
      | cons row rows ih =>
          intro f
          rw [List.foldl_cons,ih,latestStep_at hid]
          by_cases hof : isOf tenantId id row <;> simp [hof]
    exact hfold _ _
  · have hfold : ∀ (rows : List Verification) (f : ByTarget Latest),
        rows.foldl (latestStep tenantId wanted) f id = f id := by
      intro rows
      induction rows with
      | nil => intro f; rfl
      | cons row rows ih =>
          intro f
          rw [List.foldl_cons,ih,latestStep_other (by simpa using hid)]
    rw [hfold]
    rfl

section Reads
variable {P : Platform} {store : Store} {a b : JsVal}

theorem asPlainObject_orElse (v : JsVal) :
    asPlainObject (orElse v (.obj [])) = asPlainObject v := by
  cases v <;> rfl

theorem wellFormed_asPlainObject (h : WellFormed a) : WellFormed (asPlainObject a) := by
  rw [asPlainObject]
  split_ifs
  · exact h
  · exact .obj List.nodup_nil (by simp)

theorem asPlainObject_congr (h : isDeepStrictEqual a b = true) :
    isDeepStrictEqual (asPlainObject a) (asPlainObject b) = true := by
  rw [asPlainObject,asPlainObject,isObject_congr h]
  split_ifs
  · exact h
  · exact isDeepStrictEqual_refl (.obj List.nodup_nil (by simp))

theorem textOf_congr (h : isDeepStrictEqual a b = true) : textOf a = textOf b := by
  rw [textOf,textOf,orElse,orElse,nullish_congr h]
  split_ifs
  · rfl
  · exact toStr_congr a b h

theorem currentProof_congr (ha : WellFormed a) (h : isDeepStrictEqual a b = true) (now : ℤ)
    (connector snapshot : JsVal) (target : Target) :
    isCurrentProviderDnsOwnershipProof P now connector snapshot a target =
      isCurrentProviderDnsOwnershipProof P now connector snapshot b target := by
  have hfield := field_congr (wellFormed_asPlainObject ha) (asPlainObject_congr h)
  have htext : ∀ name,textOf (field (asPlainObject a) name) =
      textOf (field (asPlainObject b) name) := fun name => textOf_congr (hfield name)
  have hstr : ∀ name,toStr (field (asPlainObject a) name) =
      toStr (field (asPlainObject b) name) := fun name => toStr_congr _ _ (hfield name)
  have his : ∀ name literal,is (field (asPlainObject a) name) literal =
      is (field (asPlainObject b) name) literal := fun name => is_congr (hfield name)
  have hmarker : ∀ name,normalizedMarker P (field (asPlainObject a) name) =
      normalizedMarker P (field (asPlainObject b) name) := fun name => by
    rw [normalizedMarker,normalizedMarker,htext]
  have hinstant : ∀ name other,
      sameInstant P (field (asPlainObject a) name) (field (asPlainObject a) other) =
        sameInstant P (field (asPlainObject b) name) (field (asPlainObject b) other) :=
    fun name other => by rw [sameInstant,sameInstant,htext,htext]
  simp only [isCurrentProviderDnsOwnershipProof]
  rw [htext "connector_id",htext "snapshot_id",htext "resource_ref_hash",hmarker,his,his,hstr,
    hinstant]

theorem providerProof_congr (ha : WellFormed a)
    (h : isDeepStrictEqual (orElse a (.obj [])) (orElse b (.obj [])) = true) (tenantId : JsString)
    (target : Target) : providerProofIsCurrent P store tenantId a target =
      providerProofIsCurrent P store tenantId b target := by
  have hplain : isDeepStrictEqual (asPlainObject a) (asPlainObject b) = true := by
    rw [← asPlainObject_orElse a,← asPlainObject_orElse b]
    exact asPlainObject_congr h
  have hwf := wellFormed_asPlainObject ha
  have hstrict : ∀ u name,strictEq u (field (asPlainObject a) name) =
      strictEq u (field (asPlainObject b) name) :=
    fun u name => strictEq_congr (field_congr hwf hplain name) u
  simp only [providerProofIsCurrent,hstrict,currentProof_congr hwf hplain]

end Reads

/-- What decides about a projected row: its state, and whether it was ambiguous. -/
def view (row : Row) : JsString × Bool := (row.state,decide (row.sourceKind = ownershipAmbiguous))

section Projection
variable (P : Platform)

theorem view_ofStored (store : Store) (v : Verification) (target : Option Target) :
    view (effectiveTargetVerification P store (Row.ofStored v) target) =
      (if v.state ≠ js "provider_verified" ∨
          target.any (providerProofIsCurrent P store v.tenantId v.sourceRef) = true then v.state
        else js "pending",decide (v.sourceKind = ownershipAmbiguous)) := by
  have hstate : (Row.ofStored v).state = v.state := rfl
  rw [effectiveTargetVerification,hstate]
  by_cases hother : v.state ≠ js "provider_verified"
  · rw [if_pos hother,if_pos (.inl hother)]
    rfl
  · rw [if_neg hother]
    by_cases hproof : target.any (providerProofIsCurrent P store v.tenantId v.sourceRef) = true
    · rw [if_pos (show target.any (providerProofIsCurrent P store (Row.ofStored v).tenantId
        (Row.ofStored v).sourceRef) = true from hproof),if_pos (Or.inr hproof)]
      rfl
    · rw [if_neg (show ¬ target.any (providerProofIsCurrent P store (Row.ofStored v).tenantId
        (Row.ofStored v).sourceRef) = true from hproof),if_neg (not_or.mpr ⟨hother,hproof⟩)]
      rfl

theorem view_effective {store : Store} {v w : Verification} {target : Option Target}
    (hproper : Proper v) (htenant : v.tenantId = w.tenantId) (h : sameClaim v w = true) :
    view (effectiveTargetVerification P store (Row.ofStored v) target) =
      view (effectiveTargetVerification P store (Row.ofStored w) target) := by
  obtain ⟨hstate,hkind,href⟩ := sameClaim_iff.mp h
  have hproof : target.any (providerProofIsCurrent P store v.tenantId v.sourceRef) =
      target.any (providerProofIsCurrent P store w.tenantId w.sourceRef) := by
    rw [htenant]
    congr 1
    funext t
    exact providerProof_congr hproper href _ t
  rw [view_ofStored,view_ofStored,hstate,hkind,hproof]

theorem view_ambiguous {store : Store} (row : Row) (target : Option Target) :
    view (effectiveTargetVerification P store row.ambiguous target) = (js "pending",true) := by
  have hstate : row.ambiguous.state = js "pending" := rfl
  rw [effectiveTargetVerification,if_pos (by rw [hstate]; decide)]
  simp [view,Row.ambiguous,Row.pending]

/-- The store with its verification rows in another order. -/
def reordered (store : Store) (rows : List Verification) : Store :=
  { store with targetVerifications := rows }

theorem effective_reordered {store : Store} {rows : List Verification} (row : Row)
    (target : Option Target) :
    effectiveTargetVerification P (reordered store rows) row target =
      effectiveTargetVerification P store row target := rfl

variable {store : Store} {rows : List Verification} (hperm : rows.Perm store.targetVerifications)
  (hproper : ∀ row ∈ store.targetVerifications,Proper row)
include hperm hproper

theorem view_latest (tenantId : JsString) (wanted : Option (List JsString)) (id : JsString)
    (target : Option Target) :
    (latestRows (reordered store rows) tenantId wanted id).map (fun row =>
        view (effectiveTargetVerification P (reordered store rows) row target)) =
      (latestRows store tenantId wanted id).map fun row =>
        view (effectiveTargetVerification P store row target) := by
  simp only [effective_reordered]
  rw [latestRows_eq,latestRows_eq]
  split_ifs with hid
  · have hrows := hperm.filter (isOf tenantId id)
    have hown : ∀ row ∈ store.targetVerifications.filter (isOf tenantId id),Proper row :=
      fun row hrow => hproper row (List.mem_filter.mp hrow).1
    have hown' : ∀ row ∈ rows.filter (isOf tenantId id),Proper row :=
      fun row hrow => hown row (hrows.subset hrow)
    change ((entry (rows.filter (isOf tenantId id))).map Latest.projected).map _ = _
    cases hentry : entry (store.targetVerifications.filter (isOf tenantId id)) with
    | none =>
        rw [entry_eq_none] at hentry
        rw [hentry,List.perm_nil] at hrows
        rw [hrows]
        rfl
    | some l =>
        cases hentry' : entry (rows.filter (isOf tenantId id)) with
        | none =>
            rw [entry_eq_none] at hentry'
            rw [hentry',List.nil_perm] at hrows
            rw [hrows] at hentry
            cases hentry
        | some l' =>
            have hsum := entry_summarizes hown l hentry
            have hsum' := entry_summarizes hown' l' hentry'
            obtain ⟨hamb,hclaim⟩ := summaries_agree (fun r => hrows.mem_iff) hown hsum hsum'
            simp only [Option.map_some,Latest.projected,hamb]
            cases hflag : l.ambiguous with
            | true => simp only [if_true,view_ambiguous]
            | false =>
                obtain ⟨m,hm⟩ := instant_of_clear hsum hflag
                obtain ⟨m',hm'⟩ := instant_of_clear hsum' (hamb.trans hflag)
                have hin := (hsum.latest m hm).1
                have hin' := (hsum'.latest m' hm').1
                have htenant : l'.row.tenantId = l.row.tenantId := by
                  have hof := (List.mem_filter.mp hin).2
                  have hof' := (List.mem_filter.mp hin').2
                  simp only [isOf,Bool.and_eq_true,beq_iff_eq] at hof hof'
                  exact hof'.1.trans hof.1.symm
                exact congrArg some (view_effective P (hown' _ hin') htenant (hclaim hflag))
  · rfl

end Projection

section Inherited
variable (P : Platform)

theorem isAmbiguous_congr {row row' : Option Row} (h : row'.map view = row.map view) :
    isAmbiguous row' = isAmbiguous row := by
  have hread : ∀ r,isAmbiguous r = (r.map view).any fun v => v.2 := by
    intro r
    cases r <;> rfl
  rw [hread,hread,h]

theorem state_congr {row row' : Option Row} (h : row'.map view = row.map view) :
    row'.map Row.state = row.map Row.state := by
  have hread : ∀ r : Option Row,r.map Row.state = (r.map view).map Prod.fst := by
    intro r
    cases r <;> rfl
  rw [hread,hread,h]

theorem isProof_congr {row row' : Option Row} (h : row'.map view = row.map view) :
    Row.isProof row' = Row.isProof row := by
  rw [Row.isProof,Row.isProof,state_congr h]

theorem view_inherit (target parent : Target) (row : Row) :
    view (inherit target parent row) = (row.state,false) := by
  have hkind : ¬ js "inherited_parent" = ownershipAmbiguous := by decide
  simp [view,inherit,hkind]

variable {store : Store} {rows : List Verification} (hperm : rows.Perm store.targetVerifications)
  (hproper : ∀ row ∈ store.targetVerifications,Proper row)
include hperm hproper

theorem view_ownRow (tenantId : JsString) (target : Target) :
    (ownRow P (reordered store rows) tenantId target).map view =
      (ownRow P store tenantId target).map view := by
  rw [ownRow,ownRow,Option.map_map,Option.map_map]
  exact view_latest P hperm hproper tenantId _ _ _

theorem view_withInherited (tenantId : JsString) (target : Target) {row row' : Option Row}
    (h : row'.map view = row.map view) :
    (withInherited P (reordered store rows) tenantId target row').map view =
      (withInherited P store tenantId target row).map view := by
  rw [withInherited,withInherited,isAmbiguous_congr h,isProof_congr h]
  have htargets : tenantTargets (reordered store rows) tenantId =
      tenantTargets store tenantId := rfl
  rw [htargets]
  split_ifs
  · exact h
  · cases ownershipParentFor P target (tenantTargets store tenantId) with
    | none => exact h
    | some parent =>
        have hparent := view_ownRow P hperm hproper tenantId parent
        cases hrow : ownRow P store tenantId parent with
        | none =>
            rw [hrow,Option.map_none,Option.map_eq_none_iff] at hparent
            simp only [hparent,hrow]
            exact h
        | some parentRow =>
            rw [hrow] at hparent
            obtain ⟨parentRow',hrow',hview⟩ := Option.map_eq_some_iff.mp hparent
            have hstate : parentRow'.state = parentRow.state := congrArg Prod.fst hview
            rw [hrow'] at hparent
            simp only [hrow,hrow',isProof_congr hparent]
            split_ifs
            · rw [Option.map_some,Option.map_some,view_inherit,view_inherit,hstate]
            · exact h

theorem view_effectiveTargetVerifications {tenantId : JsString}
    (hdemo : isDemoAutoVerifyTenant P tenantId = false) (targetIds : Option (List JsString))
    (id : JsString) :
    (effectiveTargetVerifications P (reordered store rows) tenantId targetIds id).map view =
      (effectiveTargetVerifications P store tenantId targetIds id).map view := by
  have hown : ∀ target,((latestRows (reordered store rows) tenantId targetIds id).map
        fun row => effectiveTargetVerification P (reordered store rows) row target).map view =
      ((latestRows store tenantId targetIds id).map
        fun row => effectiveTargetVerification P store row target).map view := by
    intro target
    rw [Option.map_map,Option.map_map]
    exact view_latest P hperm hproper tenantId targetIds id target
  have htarget : targetsById (reordered store rows) tenantId targetIds id =
      targetsById store tenantId targetIds id := rfl
  simp only [effectiveTargetVerifications,htarget,hdemo]
  cases targetsById store tenantId targetIds id with
  | none => exact hown none
  | some target => exact view_withInherited P hperm hproper tenantId target (hown (some target))

end Inherited

/-- A row of the target whose time cannot be read. -/
def Unread (store : Store) (tenantId id : JsString) : Prop :=
  ∃ row ∈ store.targetVerifications,isOf tenantId id row = true ∧ parsed row = none

/-- Two rows of the target at its latest time that do not say the same. -/
def Disputed (store : Store) (tenantId id : JsString) : Prop :=
  ∃ a ∈ store.targetVerifications,∃ b ∈ store.targetVerifications,∃ m,
    isOf tenantId id a = true ∧ isOf tenantId id b = true ∧ parsed a = some m ∧
    parsed b = some m ∧ sameClaim a b = false ∧
    ∀ row ∈ store.targetVerifications,isOf tenantId id row = true → ∀ i,parsed row = some i →
      compareOwnershipInstants i m ≠ .gt

theorem ambiguous_of_disputed {rows : List Verification} {l : Latest} (h : Summarizes rows l)
    (hproper : ∀ row ∈ rows,Proper row) {a b : Verification} {m : Instant} (ha : a ∈ rows)
    (hb : b ∈ rows) (ham : parsed a = some m) (hbm : parsed b = some m)
    (hdiffer : sameClaim a b = false)
    (hmax : ∀ row ∈ rows,∀ i,parsed row = some i → compareOwnershipInstants i m ≠ .gt) :
    l.ambiguous = true := by
  by_contra hamb
  have hclear : l.ambiguous = false := by simpa using hamb
  obtain ⟨m',hm'⟩ := instant_of_clear h hclear
  obtain ⟨hmem,hparsed,hlatest⟩ := h.latest m' hm'
  have hm : m = m' := by
    refine exactTime_injective (normal_of_parsed ham) (normal_of_parsed hparsed)
      (le_antisymm (hlatest a ha m ham) ?_)
    have hle := hmax l.row hmem m' hparsed
    rw [compareOwnershipInstants_eq (normal_of_parsed hparsed) (normal_of_parsed ham)] at hle
    exact compare_le_iff_le.mp hle
  subst hm
  have hsame : ∀ r ∈ rows,parsed r = some m → sameClaim r l.row = true := by
    intro r hr hrm
    by_contra hne
    exact hamb ((h.disagree m hm').mpr ⟨r,hr,hrm,by simpa using hne⟩)
  have hback := sameClaim_symm (hproper b hb) (hproper l.row hmem) (hsame b hb hbm)
  rw [sameClaim_trans (hsame a ha ham) hback] at hdiffer
  cases hdiffer

theorem ambiguous_entry {store : Store} (hproper : ∀ row ∈ store.targetVerifications,Proper row)
    {tenantId id : JsString} (h : Unread store tenantId id ∨ Disputed store tenantId id) :
    ∃ l,entry (store.targetVerifications.filter (isOf tenantId id)) = some l ∧
      l.ambiguous = true := by
  have hown : ∀ row ∈ store.targetVerifications.filter (isOf tenantId id),Proper row :=
    fun row hrow => hproper row (List.mem_filter.mp hrow).1
  have hsome : ∃ row,row ∈ store.targetVerifications.filter (isOf tenantId id) := by
    rcases h with ⟨row,hrow,hof,-⟩ | ⟨a,ha,-,-,-,hof,-⟩
    · exact ⟨row,List.mem_filter.mpr ⟨hrow,hof⟩⟩
    · exact ⟨a,List.mem_filter.mpr ⟨ha,hof⟩⟩
  cases hentry : entry (store.targetVerifications.filter (isOf tenantId id)) with
  | none =>
      obtain ⟨row,hrow⟩ := hsome
      rw [entry_eq_none.mp hentry] at hrow
      cases hrow
  | some l =>
      have hsum := entry_summarizes hown l hentry
      refine ⟨l,rfl,?_⟩
      rcases h with ⟨row,hrow,hof,hnone⟩ | ⟨a,ha,b,hb,m,hofa,hofb,ham,hbm,hdiffer,hmax⟩
      · exact hsum.unreadAmbiguous
          (hsum.unread.mpr ⟨row,List.mem_filter.mpr ⟨hrow,hof⟩,hnone⟩)
      · refine ambiguous_of_disputed hsum hown (List.mem_filter.mpr ⟨ha,hofa⟩)
          (List.mem_filter.mpr ⟨hb,hofb⟩) ham hbm hdiffer ?_
        intro row hrow i hi
        obtain ⟨hrow,hof⟩ := List.mem_filter.mp hrow
        exact hmax row hrow hof i hi

/-- An ambiguous row is kept: no parent and no demo tenant changes it. -/
theorem effective_of_ambiguous (P : Platform) {store : Store} {tenantId id : JsString}
    {targetIds : Option (List JsString)} {row : Row}
    (h : latestRows store tenantId targetIds id = some row.ambiguous) :
    (effectiveTargetVerifications P store tenantId targetIds id).map view =
      some (js "pending",true) := by
  simp only [effectiveTargetVerifications,h,Option.map_some]
  have hview : ∀ target,view (effectiveTargetVerification P store row.ambiguous target) =
      (js "pending",true) := view_ambiguous P row
  cases targetsById store tenantId targetIds id with
  | none => exact congrArg some (hview none)
  | some target =>
      have hamb : isAmbiguous (some
          (effectiveTargetVerification P store row.ambiguous (some target))) = true :=
        congrArg Prod.snd (hview (some target))
      simp only [withInherited,withDemo,hamb,Bool.true_or,if_true,ite_self]
      exact congrArg some (hview (some target))

theorem pending_not_proof : (ownershipProofFromStates (some (js "pending"))).verified = false := by
  decide

/-- The state of a target does not depend on the order of the rows; a row that cannot be read, or
two latest rows that differ, leave it pending whatever its parent has. -/
theorem latest_verification_fails_closed (P : Platform) (store : Store)
    (hproper : ∀ row ∈ store.targetVerifications,Proper row) (tenantId : JsString)
    (hdemo : isDemoAutoVerifyTenant P tenantId = false) (targetIds : Option (List JsString))
    (id : JsString) :
    (∀ rows,rows.Perm store.targetVerifications →
      (effectiveTargetVerifications P (reordered store rows) tenantId targetIds id).map
          Row.state =
        (effectiveTargetVerifications P store tenantId targetIds id).map Row.state) ∧
    ((targetIds.all fun ids => ids.contains id) = true →
      Unread store tenantId id ∨ Disputed store tenantId id →
      (effectiveTargetVerifications P store tenantId targetIds id).map Row.state =
          some (js "pending") ∧
        Row.isProof (effectiveTargetVerifications P store tenantId targetIds id) = false) := by
  constructor
  · intro rows h
    exact state_congr (view_effectiveTargetVerifications P h hproper hdemo targetIds id)
  · intro hid hbad
    obtain ⟨l,hentry,hamb⟩ := ambiguous_entry hproper hbad
    have hlatest : latestRows store tenantId targetIds id =
        some (Row.ofStored l.row).ambiguous := by
      rw [latestRows_eq,if_pos hid,hentry]
      simp [Latest.projected,hamb]
    have hview := effective_of_ambiguous P hlatest
    have hstate : (effectiveTargetVerifications P store tenantId targetIds id).map Row.state =
        some (js "pending") := by
      obtain ⟨row,hrow,hpair⟩ := Option.map_eq_some_iff.mp hview
      rw [hrow]
      exact congrArg some (congrArg Prod.fst hpair)
    refine ⟨hstate,?_⟩
    rw [Row.isProof,hstate]
    exact pending_not_proof

def plainPlatform : Platform := ⟨id,fun _ => none,fun _ => [],[]⟩

def fqdn (id : String) (value : String) (tags : List JsVal) : Target :=
  ⟨js id,js "t",js "g",.fqdn,.str (js value),.str (js value),.undefined,.undefined,.arr tags,[],
    false⟩

def verified (id : String) (time : String) : Verification :=
  ⟨js "v",js "t",js id,js "dns_verified",js "dns_txt",.null,js time,[],[]⟩

/-- A verified parent, and a child with a row of no time. -/
def timelessChild : Store where
  now := 0
  targets := [fqdn "p" "a.b" [],fqdn "c" "w.a.b" [.str (js "subdomain-of:p")]]
  targetVerifications := [verified "p" "1970-01-01T00:00:00Z",
    verified "c" "1970-01-01T00:00:00Z",verified "c" ""]
  wafConnectors := []
  wafConnectorSnapshots := []

theorem timelessChild_pending :
    Row.isProof (effectiveTargetVerifications plainPlatform timelessChild (js "t") none (js "p")) =
      true ∧
    (effectiveTargetVerifications plainPlatform timelessChild (js "t") none (js "c")).map
      Row.state = some (js "pending") := by
  refine ⟨by decide,((latest_verification_fails_closed plainPlatform timelessChild ?_ (js "t")
    (by decide) none (js "c")).2 rfl (.inl ⟨verified "c" "",?_,by decide,by decide⟩)).1⟩
  · intro row hrow
    simp only [timelessChild,List.mem_cons,List.not_mem_nil,or_false] at hrow
    rcases hrow with rfl | rfl | rfl <;> exact .null
  · simp [timelessChild]

end AstraNull.VerificationOrder

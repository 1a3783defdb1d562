import Mathlib
import AstraNull.ReviewedGrant

/-!
# What a reviewed execution grant binds

A grant reads the current time once, so rebuilding it at its own time gives the same envelope;
every part of the envelope is a text or a number apart from the objects that hold them, so the
envelope is admitted again after a copy through JSON. Two contexts in which one envelope is valid
agree on everything the envelope holds, because the canonical text determines it.
-/
namespace AstraNull.GrantBinding
open NumberText JsonText CanonicalJson ScriptText ScriptValue ScriptObject Custody
open CanonicalEncoders ReviewedOperations ReviewedGrant

/-- A string or a number. -/
inductive Scalar : JsVal → Prop
  | str (s : JsString) : Scalar (.str s)
  | num (n : Number) : Scalar (.num n)

section Scalars
variable {v w : JsVal} {S : Services}

theorem Scalar.isJson (h : Scalar v) : IsJson v := by
  cases h with
  | str s => exact .str s
  | num n => exact .num n

theorem Scalar.visits (h : Scalar v) {depth : ℕ} (hd : depth ≤ maxDepth) : Visits v depth 1 := by
  cases h with
  | str s => exact visits_str s hd
  | num n => exact visits_num n hd

theorem Scalar.of_canonical (h : Scalar w) (he : canonical v = w) : v = w := by
  cases v with
  | arr vs => cases h <;> cases he
  | obj kvs => cases h <;> cases he
  | undefined | null | bool | num | str => exact he

theorem Scalar.canonical_eq (h : Scalar v) : canonical v = v := by
  cases h <;> rfl

theorem eq_of_strictEq (h : strictEq v w = true) : v = w := by
  cases v <;> cases w <;> simp_all [strictEq]

theorem str_of_is {literal : String} (h : is v literal = true) : v = .str (js literal) := by
  cases v with
  | str s => simpa [is] using h
  | _ => cases h

theorem str_of_idOk (h : idOk v = true) : ∃ s,v = .str s := by
  cases v with
  | str s => exact ⟨s,rfl⟩
  | _ => cases h

theorem str_of_digestOk (h : digestOk v = true) : ∃ s,v = .str s ∧ isHex s = true := by
  cases v with
  | str s => exact ⟨s,rfl,h⟩
  | _ => cases h

theorem str_of_reviewedGrantUtc {t : ℤ} (h : reviewedGrantUtc S v = some t) : ∃ s,v = .str s := by
  cases v with
  | str s => exact ⟨s,rfl⟩
  | _ => cases h

theorem num_of_positiveSafe (h : positiveSafe v = true) : Scalar v := by
  cases v with
  | num n => exact .num n
  | _ => cases h

theorem num_of_isNat {k : ℕ} (h : isNat v k = true) : Scalar v := by
  cases v with
  | num n => exact .num n
  | _ => cases h

theorem num_of_sumIs {k : ℕ} (h : sumIs v w k = true) : Scalar v := by
  cases v with
  | num n => exact .num n
  | _ => cases h

theorem Scalar.of_idOk (h : idOk v = true) : Scalar v := by
  obtain ⟨s,rfl⟩ := str_of_idOk h
  exact .str s

theorem Scalar.of_digestOk (h : digestOk v = true) : Scalar v := by
  obtain ⟨s,rfl,-⟩ := str_of_digestOk h
  exact .str s

theorem Scalar.of_is {literal : String} (h : is v literal = true) : Scalar v := by
  rw [str_of_is h]
  exact .str _

theorem Scalar.of_utc {t : ℤ} (h : reviewedGrantUtc S v = some t) : Scalar v := by
  obtain ⟨s,rfl⟩ := str_of_reviewedGrantUtc h
  exact .str s

theorem Scalar.of_isSome (h : (reviewedGrantUtc S v).isSome = true) : Scalar v := by
  obtain ⟨t,ht⟩ := Option.isSome_iff_exists.mp h
  exact .of_utc ht

end Scalars

/-- Distinct names, none of them `__proto__`. -/
def Plain (keys : List String) : Prop := (keys.map js).Nodup ∧ js "__proto__" ∉ keys.map js

instance (keys : List String) : Decidable (Plain keys) := instDecidableAnd

theorem exact_members {v : JsVal} {keys : List String} (hv : IsJson v) (h : exact v keys = true)
    (hkeys : (keys.map js).Nodup) :
    ∃ kvs,v = .obj kvs ∧ kvs.length = keys.length ∧
      ∀ p ∈ kvs,∃ key ∈ keys,p.1 = js key ∧ p.2 = field v key := by
  rw [exact,Bool.and_eq_true,Bool.and_eq_true,decide_eq_true_eq,List.all_eq_true] at h
  obtain ⟨⟨hrecord,hlength⟩,hhas⟩ := h
  cases hv with
  | obj hnd hm =>
      rename_i kvs
      refine ⟨kvs,rfl,hlength,fun p hp => ?_⟩
      have hsub : keys.map js ⊆ kvs.map Prod.fst := by
        intro k hk
        obtain ⟨key,hkey,rfl⟩ := List.mem_map.mp hk
        obtain ⟨q,hq,hname⟩ := List.any_eq_true.mp (hhas key hkey)
        exact List.mem_map.mpr ⟨q,hq,of_decide_eq_true hname⟩
      have hperm : (keys.map js).Perm (kvs.map Prod.fst) := by
        refine (List.subperm_of_subset hkeys hsub).perm_of_length_le ?_
        rw [List.length_map,List.length_map]
        exact hlength.le
      obtain ⟨key,hkey,hname⟩ := List.mem_map.mp (hperm.mem_iff.mpr (List.mem_map_of_mem hp))
      refine ⟨key,hkey,hname.symm,?_⟩
      rw [field,get_of_mem hnd (k := js key) (v := p.2) (by rw [hname]; exact hp)]
  | null | bool | num | str | arr => cases hrecord

/-- The visit of an object with exactly given members of bounded cost. -/
theorem visits_exact {v : JsVal} {keys : List String} {depth cost : ℕ} (hv : IsJson v)
    (h : exact v keys = true) (hkeys : Plain keys) (hd : depth ≤ maxDepth)
    (hm : ∀ key ∈ keys,Visits (field v key) (depth+1) cost) :
    Visits v depth (1+keys.length*cost) := by
  obtain ⟨kvs,rfl,hlength,hmembers⟩ := exact_members hv h hkeys.1
  rw [← hlength]
  refine visits_obj hd fun p hp => ?_
  obtain ⟨key,hkey,hname,hvalue⟩ := hmembers p hp
  refine ⟨fun hproto => hkeys.2 ?_,hvalue ▸ hm key hkey⟩
  rw [← hproto,hname]
  exact List.mem_map_of_mem hkey

section
variable {S : Services}

structure Validated (S : Services) (job : SignedJob) (reservation : JsVal) (lease : Lease) :
    Prop where
  shape : shapeOk job.binding = true
  plan : planOk S job.binding = true
  target : targetOk job (field job.binding "plan") = true
  budget : ∃ resolver,
    budgetOk job.constraints (field job.payload "probe_profile") resolver = true
  reservation : reservationOk S job reservation lease = true

theorem shapeGap_none {binding : JsVal} {at_ : ℤ} (h : shapeGap S binding at_ = none) :
    shapeOk binding = true ∧ planOk S binding = true := by
  rw [shapeGap] at h
  by_cases hb : (!shapeOk binding || !planOk S binding) = true
  · rw [if_pos hb] at h
    cases h
  · simpa using hb

theorem signedGap_none {job : SignedJob} {check : JsVal} {at_ : ℤ}
    (h : signedGap S job check at_ = none) :
    shapeGap S job.binding at_ = none ∧ targetOk job (field job.binding "plan") = true ∧
      ∃ resolver,
        budgetOk job.constraints (field job.payload "probe_profile") resolver = true := by
  unfold signedGap at h
  dsimp only at h
  split at h
  · cases h
  split at h
  · cases h
  · rename_i hshape
    split at h
    · cases h
    · rename_i url _
      split_ifs at h with hdest hcheck hdelivery hprofile hauthority hbudget hownership
      simp only [Bool.or_eq_true,not_or,Bool.not_eq_true,Bool.not_eq_false'] at hdest hbudget
      exact ⟨hshape,hdest.1,_,hbudget⟩

theorem validated {job : SignedJob} {reservation check : JsVal} {lease : Lease} {at_ : ℤ}
    (h : validateReservation S job reservation check lease at_ = some none) :
    Validated S job reservation lease := by
  rw [validateReservation] at h
  split_ifs at h
  · cases h
  cases hsigned : signedGap S job check at_ with
  | some gap =>
      rw [hsigned] at h
      cases h
  | none =>
      rw [hsigned] at h
      have hres := Option.some.inj h
      obtain ⟨hgap,htarget,hbudget⟩ := signedGap_none hsigned
      obtain ⟨hshape,hplan⟩ := shapeGap_none hgap
      refine ⟨hshape,hplan,htarget,hbudget,?_⟩
      rw [reservationGap] at hres
      by_cases hok : (!reservationOk S job reservation lease) = true
      · rw [if_pos hok] at hres
        cases hres
      · simpa using hok

structure Built (S : Services) (ctx : Context) (g : Grant) : Prop where
  reservation : admitted ctx.reservation = some g.reservation
  payload : originalPayload ctx.originalJob = some (g.payload,g.canonical)
  tenantId : (primitive ctx.tenantId).getD .undefined = g.tenantId
  tenant : idOk g.tenantId = true
  issuedAt : reviewedGrantClock S ctx.now = some g.issuedAt
  leased : (reviewedGrantUtc S g.leasedAt).isSome
  issued : (reviewedGrantUtc S (field g.constraints "issued_at")).isSome
  notAfter : (reviewedGrantUtc S (field g.constraints "not_after")).isSome
  clocks : clockGap S g.binding g.reservation = none
  targetId : targetIdOf ctx.originalJob = g.targetId
  signature : (jobSignature ctx.originalJob).getD [] = g.signature
  workerId : (leaseOf ctx).workerId = g.workerId
  leasedAt : (leaseOf ctx).leasedAt = g.leasedAt
  validated : Validated S ⟨g.payload,g.targetId⟩ g.reservation (leaseOf ctx)

theorem buildAt_ok {g grant : Grant} {check : JsVal} {lease : Lease} {at_ issued until_ : ℤ}
    (h : buildAt S grant check lease at_ issued until_ = .ok g) :
    grant = g ∧ clockGap S g.binding g.reservation = none ∧
      Validated S ⟨g.payload,g.targetId⟩ g.reservation lease := by
  unfold buildAt at h
  split at h
  · cases h
  · rename_i hclock
    split_ifs at h
    split at h
    · cases h
    · cases h
    · rename_i hvalid
      cases h
      exact ⟨rfl,hclock,validated hvalid⟩

theorem built {ctx : Context} {g : Grant} (h : buildGrant S ctx = .ok g) : Built S ctx g := by
  unfold buildGrant at h
  split at h
  · rename_i reservation check hreservation hcheck
    split at h
    · cases h
    · rename_i payload canonical hpayload
      dsimp only at h
      split_ifs at h with htenant
      split at h
      · rename_i at_ leased issued until_ hnow hleased hissued huntil
        obtain ⟨rfl,hclock,hvalid⟩ := buildAt_ok h
        simp only [tenantOk,Bool.not_eq_true',Bool.not_eq_false,Bool.and_eq_true] at htenant
        exact {
          reservation := hreservation
          payload := hpayload
          tenantId := rfl
          tenant := htenant.1
          issuedAt := hnow
          leased := Option.isSome_of_eq_some hleased
          issued := Option.isSome_of_eq_some hissued
          notAfter := Option.isSome_of_eq_some huntil
          clocks := hclock
          targetId := rfl
          signature := rfl
          workerId := rfl
          leasedAt := rfl
          validated := hvalid }
      · cases h
  · cases h

/-- A grant reads the current time through its clock only. -/
theorem buildGrant_congr (ctx : Context) {now now' : Instant}
    (h : reviewedGrantClock S now = reviewedGrantClock S now') :
    buildGrant S { ctx with now := now } = buildGrant S { ctx with now := now' } := by
  simp only [buildGrant,leaseOf,h]

theorem clock_range {now : Instant} {t : ℤ} (h : reviewedGrantClock S now = some t) :
    0 ≤ t ∧ t ≤ maxTime := by
  have hrange := (Option.filter_eq_some_iff.mp h).2
  simpa using hrange

theorem clock_number {t : ℤ} (h : 0 ≤ t ∧ t ≤ maxTime) :
    reviewedGrantClock S (.number t) = some t := by
  have hden : ((t : ℚ)).den = 1 := Rat.den_intCast t
  rw [reviewedGrantClock,if_pos hden,Rat.num_intCast,Option.filter_some,if_pos (by simpa using h)]

theorem reviewedGrantUtc_iso {t : ℤ} (h : 0 ≤ t ∧ t ≤ maxTime) :
    reviewedGrantUtc S (.str (S.toISOString t)) = some t := by
  rw [reviewedGrantUtc,if_pos (S.iso_fits t h.1 h.2),S.parse_iso t h.1 h.2,Option.filter_some,
    if_pos (by simp)]

/-- A grant rebuilt at its own time is the same grant. -/
theorem rebuilt {ctx : Context} {g : Grant} (h : buildGrant S ctx = .ok g) :
    buildGrant S { ctx with now := .number g.issuedAt } = .ok g := by
  have hb := built h
  have hclock := clock_number (S := S) (clock_range hb.issuedAt)
  rw [buildGrant_congr ctx (hclock.trans hb.issuedAt.symm)]
  exact h

theorem originalPayload_some {job : Content} {payload : JsVal} {canonical : List Char}
    (h : originalPayload job = some (payload,canonical)) :
    admitted (signedFields job) = some payload ∧ payloadOk job payload = true ∧
      canonicalJsonStringify (signedFields job) = some canonical := by
  rw [originalPayload] at h
  split_ifs at h
  obtain ⟨v,hv,h⟩ := Option.bind_eq_some_iff.mp h
  split_ifs at h with hok
  obtain ⟨t,ht,h⟩ := Option.bind_eq_some_iff.mp h
  split_ifs at h
  obtain ⟨rfl,rfl⟩ := Prod.mk.inj (Option.some.inj h)
  exact ⟨hv,by simpa using hok,ht⟩

theorem admitted_some {c : Content} {v : JsVal} (hc : c.WellFormed) (h : admitted c = some v) :
    IsJson v ∧ embed v = c := by
  rw [admitted] at h
  split_ifs at h with hj
  obtain ⟨w,hw,rfl⟩ := isJson_of_reviewedGrantJson hc hj
  rw [reading_embed] at h
  cases h
  exact ⟨hw,rfl⟩

theorem same_canonical {v w : JsVal} (hv : IsJson v) (hw : IsJson w) (h : same v w = true) :
    canonical v = canonical w := by
  have htext := of_decide_eq_true h
  rw [canonicalJsonStringify_embed hv,canonicalJsonStringify_embed hw] at htext
  have hclean := text_injective (wellFormed_canonical hv.wellFormed)
    (wellFormed_canonical hw.wellFormed) (Option.some.inj htext)
  rwa [clean_canonical hv.wellFormed,clean_canonical hw.wellFormed,clean_of_isJson hv,
    clean_of_isJson hw] at hclean

theorem field_canonical {v w : JsVal} (hv : IsJson v) (hw : IsJson w)
    (h : canonical v = canonical w) (name : String) :
    canonical (field v name) = canonical (field w name) := by
  rw [field,field,← get_canonical hv.wellFormed,← get_canonical hw.wellFormed,h]

/-- The four texts a reservation repeats of the binding. -/
def referenceKeys : List String := ["binding_version","review_id","plan_version","plan_digest"]

theorem planOk_texts {b : JsVal} (h : planOk S b = true) :
    is (field (field b "plan") "version") "reviewed-inert-operation.v1" = true ∧
      idOk (field (field b "plan") "target_id") = true := by
  simp only [planOk,Bool.and_eq_true] at h
  obtain ⟨⟨⟨⟨⟨⟨⟨⟨⟨⟨⟨⟨⟨⟨⟨⟨⟨⟨hversion,_⟩,htarget⟩,_⟩,_⟩,_⟩,_⟩,_⟩,_⟩,_⟩,_⟩,_⟩,_⟩,_⟩,_⟩,_⟩,_⟩,_⟩,_⟩ := h
  exact ⟨hversion,htarget⟩

theorem shapeOk_texts {b : JsVal} (h : shapeOk b = true) :
    is (field b "version") "reviewed-operation-binding.v1" = true ∧
      idOk (field b "review_id") = true ∧ digestOk (field b "plan_digest") = true := by
  simp only [shapeOk,Bool.and_eq_true] at h
  obtain ⟨⟨⟨⟨⟨⟨⟨⟨⟨⟨⟨⟨⟨_,hversion⟩,hreview⟩,hdigest⟩,_⟩,_⟩,_⟩,_⟩,_⟩,_⟩,_⟩,_⟩,_⟩,_⟩ := h
  exact ⟨hversion,hreview,hdigest⟩

theorem operationReference_scalars {b : JsVal} (hshape : shapeOk b = true)
    (hplan : planOk S b = true) :
    ∀ key ∈ referenceKeys,Scalar (field (operationReference b) key) := by
  obtain ⟨hversion,hreview,hdigest⟩ := shapeOk_texts hshape
  obtain ⟨hplanVersion,-⟩ := planOk_texts hplan
  simp only [referenceKeys,List.forall_mem_cons]
  exact ⟨Scalar.of_is hversion,Scalar.of_idOk hreview,Scalar.of_is hplanVersion,
    Scalar.of_digestOk hdigest,by simp⟩

theorem isJson_operationReference {b : JsVal} (hshape : shapeOk b = true)
    (hplan : planOk S b = true) : IsJson (operationReference b) := by
  have h := operationReference_scalars hshape hplan
  simp only [referenceKeys,List.forall_mem_cons] at h
  have hnames : [js "binding_version",js "review_id",js "plan_version",js "plan_digest"].Nodup := by
    decide
  refine .obj hnames ?_
  simp only [List.forall_mem_cons]
  exact ⟨h.1.isJson,h.2.1.isJson,h.2.2.1.isJson,h.2.2.2.1.isJson,by simp⟩

theorem isJson_field {v : JsVal} {name : String} (hv : IsJson v)
    (h : (field v name).isUndefined = false) : IsJson (field v name) := by
  cases hv with
  | obj hnd hm =>
      rcases get_cases hnd (js name) with ⟨w,hmem,hget⟩ | ⟨-,hget⟩
      · rw [field,hget]
        exact hm _ hmem
      · rw [field,hget] at h
        cases h
  | null | bool | num | str | arr => cases h

theorem isUndefined_of_exact {v : JsVal} {keys : List String} (h : exact v keys = true) :
    v.isUndefined = false := by
  cases v with
  | undefined => cases h
  | _ => rfl

section Reservation
variable {job : SignedJob} {reservation : JsVal} {lease : Lease}

theorem reference_scalars (hj : IsJson reservation) (hv : Validated S job reservation lease) :
    IsJson (field reservation "reviewed_operation") ∧
      ∀ key ∈ referenceKeys,Scalar (field (field reservation "reviewed_operation") key) := by
  have hok := hv.reservation
  simp only [reservationOk,Bool.and_eq_true] at hok
  have hexact : exact (field reservation "reviewed_operation") referenceKeys = true := hok.1.1.2
  have hro := isJson_field hj (isUndefined_of_exact hexact)
  have hcanonical := same_canonical hro (isJson_operationReference hv.shape hv.plan) hok.1.2
  refine ⟨hro,fun key hkey => ?_⟩
  have hscalar := operationReference_scalars hv.shape hv.plan key hkey
  have hfield := field_canonical hro (isJson_operationReference hv.shape hv.plan) hcanonical key
  rw [hscalar.canonical_eq] at hfield
  rw [hscalar.of_canonical hfield]
  exact hscalar

theorem budget_scalars {c profile : JsVal} {resolver : ℕ} (h : budgetOk c profile resolver = true) :
    ∀ key ∈ ["max_probe_requests","max_destination_resolver_attempts","max_total_operations",
      "execution_attempts","timeout_ms"],Scalar (field c key) := by
  simp only [budgetOk,Bool.and_eq_true] at h
  obtain ⟨⟨⟨⟨⟨⟨⟨⟨⟨⟨hprobe,_⟩,_⟩,_⟩,hresolver⟩,htotal⟩,_⟩,hattempts⟩,htimeout⟩,_⟩,_⟩ := h
  simp only [List.forall_mem_cons]
  exact ⟨num_of_positiveSafe hprobe,num_of_isNat hresolver,num_of_sumIs htotal,
    num_of_isNat hattempts,num_of_positiveSafe htimeout,by simp⟩

theorem reservation_scalars (hv : Validated S job reservation lease)
    (hreserved : Scalar (field reservation "reserved_at"))
    (hleased : Scalar lease.leasedAt) (hnotAfter : Scalar (field job.constraints "not_after")) :
    ∀ key ∈ reservationKeys,key ≠ "reviewed_operation" → Scalar (field reservation key) := by
  have hok := hv.reservation
  obtain ⟨resolver,hbudget⟩ := hv.budget
  have hbudgets := budget_scalars hbudget
  simp only [List.forall_mem_cons] at hbudgets
  obtain ⟨hprobe,hresolver,htotal,-⟩ := hbudgets
  simp only [reservationOk,copiedConstraints,List.all_cons,List.all_nil,Bool.and_eq_true,
    Bool.and_true] at hok
  obtain ⟨⟨⟨⟨⟨⟨⟨⟨⟨⟨⟨⟨⟨_,hversion⟩,hstate⟩,hid⟩,hworker⟩,_⟩,_⟩,_⟩,_⟩,_⟩,hleasedAt⟩,_⟩,_⟩,
    hn,hp,hd,ht⟩ := hok
  rw [← eq_of_strictEq hleasedAt] at hleased
  rw [← eq_of_strictEq hn] at hnotAfter
  rw [← eq_of_strictEq hp] at hprobe
  rw [← eq_of_strictEq hd] at hresolver
  rw [← eq_of_strictEq ht] at htotal
  simp only [reservationKeys,List.forall_mem_cons]
  exact ⟨fun _ => .of_is hversion,fun _ => .of_idOk hid,fun _ => .of_idOk hworker,
    fun _ => hleased,fun _ => hreserved,fun _ => hnotAfter,fun _ => hprobe,fun _ => hresolver,
    fun _ => htotal,fun _ => .of_is hstate,fun h => absurd rfl h,by simp⟩

/-- A validated reservation is small. -/
theorem reservation_visits (hj : IsJson reservation) (hv : Validated S job reservation lease)
    (hreserved : Scalar (field reservation "reserved_at")) (hleased : Scalar lease.leasedAt)
    (hnotAfter : Scalar (field job.constraints "not_after")) : Visits reservation 1 56 := by
  have hok := hv.reservation
  simp only [reservationOk,Bool.and_eq_true] at hok
  obtain ⟨⟨⟨⟨⟨⟨⟨⟨⟨⟨⟨⟨⟨hexact,_⟩,_⟩,_⟩,_⟩,_⟩,_⟩,_⟩,_⟩,_⟩,_⟩,hreference⟩,_⟩,_⟩ := hok
  obtain ⟨hro,href⟩ := reference_scalars hj hv
  have hscalars := reservation_scalars hv hreserved hleased hnotAfter
  refine @visits_exact _ reservationKeys 1 5 hj hexact (by decide) (by decide) fun key hkey => ?_
  by_cases hname : key = "reviewed_operation"
  · subst hname
    exact @visits_exact _ referenceKeys 2 1 hro hreference (by decide) (by decide) fun k hk =>
      (href k hk).visits (by decide)
  · exact ((hscalars key hkey hname).visits (by decide)).mono (by decide)

end Reservation

/-- JSON within the limits, at the depth of a member of the envelope. -/
def Fits (v : JsVal) : Prop := IsJson v ∧ Visits v 1 56

theorem Scalar.fits {v : JsVal} (h : Scalar v) : Fits v :=
  ⟨h.isJson,(h.visits (by decide)).mono (by decide)⟩

theorem fits_obj {kvs : List (JsString × JsVal)} (keys : List String)
    (hnames : kvs.map Prod.fst = keys.map js) (hkeys : Plain keys) (hlength : keys.length ≤ 55)
    (h : ∀ p ∈ kvs,Scalar p.2) : Fits (.obj kvs) := by
  have hcount : kvs.length = keys.length := by
    rw [← List.length_map (f := Prod.fst),hnames,List.length_map]
  refine ⟨.obj (hnames ▸ hkeys.1) fun p hp => (h p hp).isJson,?_⟩
  refine (@visits_obj 1 1 kvs (by decide) fun p hp => ⟨fun hproto => hkeys.2 ?_,?_⟩).mono
    (by omega)
  · rw [← hnames,← hproto]
    exact List.mem_map_of_mem hp
  · exact (h p hp).visits (by decide)

section Envelope
variable {ctx : Context} {g : Grant} {signer : Signer}

theorem Built.clockText (hb : Built S ctx g) :
    ∀ v ∈ clockTexts g.binding g.reservation,Scalar v := by
  have h := hb.clocks
  rw [clockGap] at h
  split_ifs at h with hjson hnull hrecord hres hall
  exact fun v hv => .of_isSome (List.all_eq_true.mp hall v hv)

theorem Built.targetId_str (hb : Built S ctx g) : ∃ s,g.targetId = .str s := by
  have ht := hb.validated.target
  simp only [targetOk,Bool.and_eq_true] at ht
  rw [eq_of_strictEq ht.1.1.1.1.1.2]
  exact str_of_idOk (planOk_texts hb.validated.plan).2

theorem Built.job_fits (hb : Built S ctx g) : Fits g.job := by
  obtain ⟨-,hok,-⟩ := originalPayload_some hb.payload
  simp only [payloadOk,List.all_cons,List.all_nil,Bool.and_eq_true,Bool.and_true] at hok
  obtain ⟨⟨⟨⟨⟨⟨_,hid,_,hrun,hcheck⟩,hnonce⟩,_⟩,_⟩,_⟩,_⟩ := hok
  have htarget : Scalar g.targetId := by
    obtain ⟨s,hs⟩ := hb.targetId_str
    rw [hs]
    exact .str s
  refine fits_obj ["id","test_run_id","check_id","target_id","nonce_hash"] rfl (by decide)
    (by decide) ?_
  simp only [List.forall_mem_cons]
  exact ⟨.of_idOk hid,.of_idOk hrun,.of_idOk hcheck,htarget,.of_digestOk hnonce,by simp⟩

theorem Built.budgets_fit (hb : Built S ctx g) : Fits g.budgets := by
  obtain ⟨resolver,hbudget⟩ := hb.validated.budget
  have h := budget_scalars hbudget
  simp only [List.forall_mem_cons] at h
  refine fits_obj ["max_probe_requests","max_destination_resolver_attempts",
    "max_total_operations","execution_attempts","timeout_ms"] rfl (by decide) (by decide) ?_
  simp only [List.forall_mem_cons]
  exact ⟨h.1,h.2.1,h.2.2.1,h.2.2.2.1,h.2.2.2.2.1,by simp⟩

theorem Built.authority_fits (hb : Built S ctx g) : Fits (g.authority S) := by
  have horiginal := hb.clockText (field (field g.binding "authority") "original_not_after")
    (by simp [clockTexts])
  refine fits_obj ["issued_at","original_not_after","not_after","grant_issued_at"] rfl (by decide)
    (by decide) ?_
  simp only [List.forall_mem_cons]
  exact ⟨.of_isSome hb.issued,horiginal,.of_isSome hb.notAfter,.str _,by simp⟩

theorem Built.worker_str (hb : Built S ctx g) : ∃ s,g.workerId = .str s := by
  have hok := hb.validated.reservation
  simp only [reservationOk,Bool.and_eq_true] at hok
  obtain ⟨⟨⟨⟨⟨⟨⟨⟨⟨_,hworker⟩,_⟩,_⟩,_⟩,_⟩,_⟩,_⟩,_⟩,_⟩ := hok
  rw [hb.workerId] at hworker
  exact str_of_idOk hworker

theorem Built.worker_fits (hb : Built S ctx g) :
    Fits (.obj [(js "id",g.workerId),(js "leased_at",g.leasedAt)]) := by
  obtain ⟨s,hs⟩ := hb.worker_str
  refine fits_obj ["id","leased_at"] rfl (by decide) (by decide) ?_
  simp only [List.forall_mem_cons]
  exact ⟨hs ▸ .str s,.of_isSome hb.leased,by simp⟩

theorem Built.reservation_fits (hb : Built S ctx g) (hres : ctx.reservation.WellFormed) :
    Fits g.reservation := by
  have hj := (admitted_some hres hb.reservation).1
  have hreserved := hb.clockText (field g.reservation "reserved_at") (by simp [clockTexts])
  have hleased : Scalar (leaseOf ctx).leasedAt := by
    rw [hb.leasedAt]
    exact .of_isSome hb.leased
  exact ⟨hj,reservation_visits hj hb.validated hreserved hleased (.of_isSome hb.notAfter)⟩

theorem signer_scalars (h : signerOk signer = true) :
    Scalar signer.algorithm ∧ Scalar signer.keyReference ∧ Scalar signer.fingerprint := by
  simp only [signerOk,Bool.and_eq_true] at h
  refine ⟨.of_is h.1.1,?_,.of_digestOk h.1.2⟩
  cases hkey : signer.keyReference with
  | str s => exact .str s
  | _ => simp [hkey] at h

/-- The envelope is a JSON value that is admitted again. -/
theorem envelope_admitted (hs : signerOk signer = true) (hb : Built S ctx g)
    (hres : ctx.reservation.WellFormed) :
    IsJson (envelope S signer g) ∧ admitted (embed (envelope S signer g)) =
      some (envelope S signer g) := by
  obtain ⟨hal,hkey,hfinger⟩ := signer_scalars hs
  have hparts : ∀ p ∈ members (envelope S signer g),Fits p.2 := by
    simp only [envelope,members,List.forall_mem_cons]
    exact ⟨(Scalar.str _).fits,(Scalar.str _).fits,(Scalar.str _).fits,hal.fits,hkey.fits,
      hfinger.fits,(Scalar.of_idOk hb.tenant).fits,hb.job_fits,(Scalar.str _).fits,
      (Scalar.str _).fits,hb.worker_fits,hb.reservation_fits hres,hb.budgets_fit,hb.authority_fits,
      by simp⟩
  have hkeys : Plain envelopeKeys := by decide
  have hvisits : Visits (envelope S signer g) 0 (1+14*56) := by
    refine visits_obj (by decide) fun p hp => ⟨fun hproto => hkeys.2 ?_,(hparts p hp).2⟩
    rw [← hproto]
    exact List.mem_map_of_mem (f := Prod.fst) hp
  refine ⟨.obj hkeys.1 fun p hp => (hparts p hp).1,?_⟩
  rw [admitted,hvisits.admitted (by decide),if_pos rfl,reading_embed]

theorem envelopeOk_envelope (hs : signerOk signer = true) :
    envelopeOk (envelope S signer g) = true := by
  have halgorithm : is signer.algorithm "ed25519" = true := by
    simp only [signerOk,Bool.and_eq_true] at hs
    exact hs.1.1
  have hexact : exact (envelope S signer g) envelopeKeys = true := rfl
  have hauthority : exact (g.authority S)
      ["issued_at","original_not_after","not_after","grant_issued_at"] = true := rfl
  have hfield : field (envelope S signer g) "authority" = g.authority S := rfl
  have hsigner : field (envelope S signer g) "algorithm" = signer.algorithm := rfl
  rw [envelopeOk,hexact,hfield,hauthority,hsigner,halgorithm]
  rfl

/-- An envelope validates in the context it was built in from its time up to its deadline. -/
theorem validates_iff (hs : signerOk signer = true) (hbuild : buildGrant S ctx = .ok g)
    (hres : ctx.reservation.WellFormed) {until_ : ℤ}
    (huntil : reviewedGrantUtc S (field g.constraints "not_after") = some until_)
    (now : Instant) :
    validateReviewedExecutionGrantEnvelope S (embed (envelope S signer g))
        { ctx with now := now } .current = .ok () ↔
      ∃ t,reviewedGrantClock S now = some t ∧ g.issuedAt ≤ t ∧ t < until_ := by
  have hb := built hbuild
  have hadmitted := (envelope_admitted hs hb hres).2
  have hgranted : reviewedGrantUtc S (field (field (envelope S signer g) "authority")
      "grant_issued_at") = some g.issuedAt := reviewedGrantUtc_iso (clock_range hb.issuedAt)
  have hdeadline : reviewedGrantUtc S (field (field (envelope S signer g) "authority")
      "not_after") = some until_ := huntil
  have hsigner : signerOf (envelope S signer g) = signer := rfl
  have hrebuilt : buildReviewedExecutionGrantEnvelope S { ctx with now := .number g.issuedAt }
      signer = .ok (envelope S signer g) := by
    rw [buildReviewedExecutionGrantEnvelope,hs,rebuilt hbuild]
    rfl
  rw [validateReviewedExecutionGrantEnvelope,hadmitted]
  simp only [envelopeOk_envelope hs,hgranted,hdeadline,hsigner,Bool.not_true,Bool.false_eq_true,
    if_false]
  cases hclock : reviewedGrantClock S now with
  | none => simp
  | some t =>
      simp only [hrebuilt,Option.some.injEq,exists_eq_left']
      by_cases hearly : t < g.issuedAt
      · rw [if_pos hearly]
        exact iff_of_false (by simp) fun h => absurd h.1 (by omega)
      · rw [if_neg hearly,if_neg (by simp)]
        by_cases hlate : until_ ≤ t
        · rw [if_pos (by simpa using hlate)]
          exact iff_of_false (by simp) fun h => absurd h.2 (by omega)
        · rw [if_neg (by simpa using hlate)]
          exact iff_of_true rfl ⟨by omega,by omega⟩

end Envelope

theorem field_readingMembers (members : List (JsString × Content)) (name : String) :
    (((readingMembers members).find? fun p => p.1 = js name).map Prod.snd).getD .undefined =
      reading (((members.find? fun p => p.1 = js name).map Prod.snd).getD .undefined) := by
  induction members with
  | nil => rfl
  | cons p members ih =>
      obtain ⟨k,c⟩ := p
      by_cases hk : k = js name
      · simp [readingMembers,hk]
      · simpa [readingMembers,List.find?_cons,hk] using ih

/-- Reading commutes with property access. -/
theorem field_reading (c : Content) (name : String) :
    field (reading c) name = reading (member c name) := by
  cases c with
  | obj extras members => exact field_readingMembers members name
  | _ => rfl

theorem wellFormed_member {c : Content} (h : c.WellFormed) (name : String) :
    (member c name).WellFormed := by
  cases h with
  | @obj extras members hnd hm =>
      change (Option.getD (Option.map Prod.snd (members.find? _)) Content.undefined).WellFormed
      cases hfind : members.find? fun p => p.1 = js name with
      | none => exact .undefined
      | some p => exact hm p (List.mem_of_find?_eq_some hfind)
  | _ => exact .undefined

theorem wellFormed_signedFields {job : Content} (h : job.WellFormed) :
    (signedFields job).WellFormed := by
  have hnames : (originalJobSignedKeys.map js).Nodup := by decide
  refine .obj _ hnames ?_
  exact List.forall_mem_map.mpr fun key _ => wellFormed_member h key

theorem member_signedFields (job : Content) {key : String} (h : key ∈ originalJobSignedKeys) :
    member (signedFields job) key = member job key := by
  simp only [originalJobSignedKeys,List.mem_cons,List.not_mem_nil,or_false] at h
  rcases h with rfl | rfl | rfl | rfl | rfl | rfl | rfl | rfl <;> rfl

theorem embed_eq_str {v : JsVal} {c : Content} {s : JsString} (h : v = .str s)
    (hc : (primitive c).getD .undefined = v) : c = .str s := by
  subst h
  cases c with
  | str u => exact congrArg Content.str (JsVal.str.inj hc)
  | _ => cases hc

theorem member_embed (v : JsVal) (name : String) : member (embed v) name = embed (field v name) := by
  cases v with
  | obj kvs =>
      induction kvs with
      | nil => rfl
      | cons p kvs ih =>
          obtain ⟨k,w⟩ := p
          by_cases hk : k = js name
          · simp [embed,embedMembers,member,field,JsVal.get,hk]
          · simpa [embed,embedMembers,member,field,JsVal.get,List.find?_cons,hk] using ih
  | _ => rfl

/-- Two JSON contents that differ in the order of members only. -/
def SameJson (c d : Content) : Prop := ∃ v w,c = embed v ∧ d = embed w ∧ Reordering v w

/-- What two contexts of one envelope share. -/
structure Agree (a b : Context) : Prop where
  signed : ∀ key ∈ originalJobSignedKeys,
    SameJson (member a.originalJob key) (member b.originalJob key)
  targetId : member a.originalJob "target_id" = member b.originalJob "target_id"
  signature : member a.originalJob "job_signature" = member b.originalJob "job_signature"
  reservation : SameJson a.reservation b.reservation
  tenantId : a.tenantId = b.tenantId
  workerId : a.workerId = b.workerId
  leasedAt : a.leasedAt = b.leasedAt

structure Context.WellFormed (ctx : Context) : Prop where
  originalJob : ctx.originalJob.WellFormed
  reservation : ctx.reservation.WellFormed

section Agreement
variable {a b : Context} {g k : Grant} {signer signer' : Signer}

theorem sameJson_of_canonical {c d : Content} {v w : JsVal} (hc : embed v = c) (hd : embed w = d)
    (hv : IsJson v) (h : canonical v = canonical w) : SameJson c d :=
  ⟨v,w,hc.symm,hd.symm,(reordering_iff hv.wellFormed).mpr h⟩

theorem envelope_canonical (hs : signerOk signer = true) (hs' : signerOk signer' = true)
    (hg : Built S a g) (hk : Built S b k) (ha : a.reservation.WellFormed)
    (hb : b.reservation.WellFormed)
    (h : canonicalJsonStringify (embed (envelope S signer g)) =
      canonicalJsonStringify (embed (envelope S signer' k))) :
    ∀ name,canonical (field (envelope S signer g) name) =
      canonical (field (envelope S signer' k) name) := by
  have hj := (envelope_admitted hs hg ha).1
  have hj' := (envelope_admitted hs' hk hb).1
  have hsame := same_canonical hj hj' (decide_eq_true h)
  exact field_canonical hj hj' hsame

theorem Built.signature_hex (hb : Built S a g) :
    member a.originalJob "job_signature" = .str g.signature ∧ isHex g.signature = true := by
  obtain ⟨-,hok,-⟩ := originalPayload_some hb.payload
  have hsome : (jobSignature a.originalJob).isSome = true := by
    simp only [payloadOk,Bool.and_eq_true] at hok
    exact hok.1.1.1.2
  have hsig := hb.signature
  unfold jobSignature at hsome hsig
  cases hm : member a.originalJob "job_signature" with
  | str s =>
      simp only [hm] at hsome hsig
      split_ifs at hsome hsig with hhex
      · exact ⟨congrArg Content.str hsig,by rw [← show s = g.signature from hsig]; exact hhex⟩
      · cases hsome
  | _ => simp [hm] at hsome

theorem plain_of_isHex {s : JsString} (h : isHex s = true) : ∀ u ∈ s,u.toNat < 0xD800 := by
  intro u hu
  simp only [isHex,Bool.and_eq_true,List.all_eq_true] at h
  have hunit := h.2 u hu
  simp only [Bool.or_eq_true,Bool.and_eq_true,decide_eq_true_eq] at hunit
  omega

/-- The digests of the two signatures do not collide. -/
def CollisionFree (S : Services) (a b : Context) : Prop :=
  ∀ s t,member a.originalJob "job_signature" = .str s →
    member b.originalJob "job_signature" = .str t →
    S.sha256 (utf8 s) = S.sha256 (utf8 t) → utf8 s = utf8 t

theorem str_eq_of_canonical {v w : JsVal} {s : JsString} (hv : v = .str s)
    (h : canonical v = canonical w) : w = .str s := by
  subst hv
  exact (Scalar.str s).of_canonical h.symm

/-- Equal payload texts: the signed fields agree. -/
theorem signed_agree (hg : Built S a g) (hk : Built S b k) (ha : a.originalJob.WellFormed)
    (hb : b.originalJob.WellFormed) (h : ofText g.canonical = ofText k.canonical) :
    ∀ key ∈ originalJobSignedKeys,
      SameJson (member a.originalJob key) (member b.originalJob key) := by
  intro key hkey
  obtain ⟨hpg,-,htg⟩ := originalPayload_some hg.payload
  obtain ⟨hpk,-,htk⟩ := originalPayload_some hk.payload
  obtain ⟨hjg,heg⟩ := admitted_some (wellFormed_signedFields ha) hpg
  obtain ⟨hjk,hek⟩ := admitted_some (wellFormed_signedFields hb) hpk
  have htext : g.canonical = k.canonical := by
    rw [← chars_units g.canonical,← chars_units k.canonical]
    exact congrArg chars h
  have hsame : same g.payload k.payload = true := by
    refine decide_eq_true ?_
    rw [heg,hek,htg,htk,htext]
  have hcanonical := field_canonical hjg hjk (same_canonical hjg hjk hsame) key
  have hmg : embed (field g.payload key) = member a.originalJob key := by
    rw [← member_embed,heg,member_signedFields _ hkey]
  have hmk : embed (field k.payload key) = member b.originalJob key := by
    rw [← member_embed,hek,member_signedFields _ hkey]
  exact ⟨_,_,hmg.symm,hmk.symm,
    (reordering_iff (wellFormed_get hjg.wellFormed (js key))).mpr hcanonical⟩

theorem signature_agree (hg : Built S a g) (hk : Built S b k) (hfree : CollisionFree S a b)
    (h : signatureHash S g.signature = signatureHash S k.signature) :
    member a.originalJob "job_signature" = member b.originalJob "job_signature" := by
  obtain ⟨hmg,hhg⟩ := hg.signature_hex
  obtain ⟨hmk,hhk⟩ := hk.signature_hex
  have hbytes := hfree _ _ hmg hmk (ProbeJobSigning.hex_injective h)
  rw [hmg,hmk,utf8_injective (plain_of_isHex hhg) (plain_of_isHex hhk) hbytes]

theorem agree_of_envelopes (hs : signerOk signer = true) (hs' : signerOk signer' = true)
    (hg : Built S a g) (hk : Built S b k) (ha : Context.WellFormed a) (hb : Context.WellFormed b)
    (hfree : CollisionFree S a b)
    (h : canonicalJsonStringify (embed (envelope S signer g)) =
      canonicalJsonStringify (embed (envelope S signer' k))) : Agree a b := by
  have hfields := envelope_canonical hs hs' hg hk ha.reservation hb.reservation h
  have hjob := field_canonical hg.job_fits.1 hk.job_fits.1 (hfields "job")
  have hworker := field_canonical hg.worker_fits.1 hk.worker_fits.1 (hfields "worker")
  obtain ⟨target,htarget⟩ := hg.targetId_str
  obtain ⟨tenant,htenant⟩ := str_of_idOk hg.tenant
  obtain ⟨worker,hworkerId⟩ := hg.worker_str
  obtain ⟨t,ht⟩ := Option.isSome_iff_exists.mp hg.leased
  obtain ⟨leased,hleased⟩ := str_of_reviewedGrantUtc ht
  have htarget' : k.targetId = .str target := str_eq_of_canonical htarget (hjob "target_id")
  have htenant' : k.tenantId = .str tenant := str_eq_of_canonical htenant (hfields "tenant_id")
  have hworkerId' : k.workerId = .str worker := str_eq_of_canonical hworkerId (hworker "id")
  have hleased' : k.leasedAt = .str leased := str_eq_of_canonical hleased (hworker "leased_at")
  have hpayload := hfields "original_job_payload"
  have hsignature := hfields "original_job_signature_sha256"
  obtain ⟨hres,heg⟩ := admitted_some ha.reservation hg.reservation
  obtain ⟨-,hek⟩ := admitted_some hb.reservation hk.reservation
  exact {
    signed := signed_agree hg hk ha.originalJob hb.originalJob (JsVal.str.inj hpayload)
    targetId := (embed_eq_str htarget hg.targetId).trans (embed_eq_str htarget' hk.targetId).symm
    signature := signature_agree hg hk hfree (JsVal.str.inj hsignature)
    reservation := sameJson_of_canonical heg hek hres (hfields "reservation")
    tenantId := (embed_eq_str htenant hg.tenantId).trans (embed_eq_str htenant' hk.tenantId).symm
    workerId := (embed_eq_str hworkerId hg.workerId).trans
      (embed_eq_str hworkerId' hk.workerId).symm
    leasedAt := (embed_eq_str hleased hg.leasedAt).trans (embed_eq_str hleased' hk.leasedAt).symm }

/-- A valid envelope has the canonical text of a grant built in the context. -/
theorem validated_envelope {e : Content} {ctx : Context} {mode : Mode}
    (h : validateReviewedExecutionGrantEnvelope S e ctx mode = .ok ()) :
    ∃ signer g now,signerOk signer = true ∧ Built S { ctx with now := now } g ∧
      canonicalJsonStringify e = canonicalJsonStringify (embed (envelope S signer g)) := by
  unfold validateReviewedExecutionGrantEnvelope at h
  split at h
  · cases h
  · rename_i env henv
    split_ifs at h
    split at h
    · rename_i grantedAt now hgranted hnow
      by_cases hearly : now < grantedAt
      · rw [if_pos hearly] at h
        cases h
      rw [if_neg hearly] at h
      split at h
      · cases h
      · rename_i rebuiltEnvelope hrebuilt
        split_ifs at h with hsame
        unfold buildReviewedExecutionGrantEnvelope at hrebuilt
        split_ifs at hrebuilt with hsigner
        cases hg : buildGrant S { ctx with now := .number grantedAt } with
        | error error =>
            rw [hg] at hrebuilt
            cases hrebuilt
        | ok g =>
            rw [hg] at hrebuilt
            cases hrebuilt
            exact ⟨_,g,_,by simpa using hsigner,built hg,not_not.mp hsame⟩
    · cases h

end Agreement

end

/-- A grant is valid in its own context from its time up to the signed deadline, also after a copy
through JSON, and contexts of one valid envelope agree on what it signs. -/
theorem reviewed_grant_binding (S : Services) :
    (∀ ctx signer env,Context.WellFormed ctx →
      buildReviewedExecutionGrantEnvelope S ctx signer = .ok env →
      ∃ copy grantedAt notAfter,jsonCopy (embed env) = some copy ∧
        reviewedGrantClock S ctx.now = some grantedAt ∧
        reviewedGrantUtc S (reading (member (member ctx.originalJob "constraints") "not_after")) =
          some notAfter ∧
        ∀ now,validateReviewedExecutionGrantEnvelope S (embed copy) { ctx with now := now }
            .current = .ok () ↔
          ∃ t,reviewedGrantClock S now = some t ∧ grantedAt ≤ t ∧ t < notAfter) ∧
    ∀ (e : Content) (a b : Context) (mode mode' : Mode),Context.WellFormed a →
      Context.WellFormed b → CollisionFree S a b →
      validateReviewedExecutionGrantEnvelope S e a mode = .ok () →
      validateReviewedExecutionGrantEnvelope S e b mode' = .ok () → Agree a b := by
  constructor
  · intro ctx signer env hctx hbuild
    unfold buildReviewedExecutionGrantEnvelope at hbuild
    split_ifs at hbuild with hsigner
    have hs : signerOk signer = true := by simpa using hsigner
    cases hg : buildGrant S ctx with
    | error error =>
        rw [hg] at hbuild
        cases hbuild
    | ok g =>
        rw [hg] at hbuild
        cases hbuild
        have hb := built hg
        obtain ⟨notAfter,huntil⟩ := Option.isSome_iff_exists.mp hb.notAfter
        have hj := (envelope_admitted hs hb hctx.reservation).1
        obtain ⟨hpayload,-,-⟩ := originalPayload_some hb.payload
        obtain ⟨-,heg⟩ := admitted_some (wellFormed_signedFields hctx.originalJob) hpayload
        refine ⟨envelope S signer g,g.issuedAt,notAfter,?_,hb.issuedAt,?_,
          validates_iff hs hg hctx.reservation huntil⟩
        · exact jsonCopy_embed hj
        · rw [← field_reading,← member_signedFields _ (by decide),← heg,member_embed,reading_embed]
          exact huntil
  · intro e a b mode mode' ha hb hfree hva hvb
    obtain ⟨signer,g,now,hs,hg,hsame⟩ := validated_envelope hva
    obtain ⟨signer',k,now',hs',hk,hsame'⟩ := validated_envelope hvb
    have h := agree_of_envelopes hs hs' hg hk ⟨ha.1,ha.2⟩ ⟨hb.1,hb.2⟩ hfree (hsame ▸ hsame')
    exact ⟨h.1,h.2,h.3,h.4,h.5,h.6,h.7⟩

end AstraNull.GrantBinding

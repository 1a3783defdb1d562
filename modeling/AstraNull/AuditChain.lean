import Mathlib
import AstraNull.HashChain
import AstraNull.NumberText
import AstraNull.JsonText
import AstraNull.CanonicalJson
import AstraNull.ScriptText
import AstraNull.ScriptValue
import AstraNull.ScriptObject
import AstraNull.ProbeJobSigning
import AstraNull.AuditLog

/-!
# What the audit chain guarantees

Every log written by `audit` verifies, before and after a text round trip. Conversely the hash
of the last chained entry of a verifying log determines all its chained entries.
-/
namespace AstraNull.AuditChain
open HashChain NumberText JsonText CanonicalJson ScriptText ScriptValue ScriptObject
  ProbeJobSigning AuditLog

section
variable (P : Platform)

/-- The last hash and sequence number after an entry that passes. -/
def advance (last : JsVal × ℚ) (entry : JsVal) : Option (JsVal × ℚ) :=
  if nullish entry then none
  else if !truthy (field entry "entry_hash") then some last
  else match field entry "sequence" with
    | .num n =>
        if (rational n).den = 1 ∧ 1 ≤ rational n ∧ last.2 < rational n ∧
            strictEq (field entry "prev_hash") last.1 ∧
            strictEq (field entry "entry_hash") (.str (computeEntryHash P entry)) then
          some (field entry "entry_hash",rational n)
        else none
    | _ => none

theorem verifyFrom_valid (last : JsVal × ℚ) (index : ℕ) (log : List JsVal) :
    verifyFrom P last.1 last.2 index log = .valid ↔
      ∃ end',log.foldlM (advance P) last = some end' := by
  induction log generalizing last index with
  | nil => simp [verifyFrom]
  | cons e es ih =>
      rw [verifyFrom,List.foldlM_cons,advance]
      by_cases hnull : nullish e
      · simp [hnull]
      by_cases hfree : truthy (field e "entry_hash")
      · cases hs : field e "sequence" with
        | num n =>
            simp only [hnull,hfree,Bool.not_true,Bool.false_eq_true,if_false]
            by_cases hok : (rational n).den = 1 ∧ 1 ≤ rational n ∧ last.2 < rational n ∧
                strictEq (field e "prev_hash") last.1 ∧
                strictEq (field e "entry_hash") (.str (computeEntryHash P e))
            · obtain ⟨h1,h2,h3,h4,h5⟩ := id hok
              rw [if_pos hok,if_neg (by simp [h1,h2]),if_neg (not_le.mpr h3),if_neg (by simp [h4]),
                if_neg (by simp [h5])]
              exact ih (field e "entry_hash",rational n) (index+1)
            · rw [if_neg hok]
              split_ifs with h1 h2 h3 h4
              · simp
              · simp
              · simp
              · simp
              · push Not at h1 h2
                simp only [Bool.not_eq_true,Bool.not_eq_false'] at h3 h4
                exact absurd ⟨h1.1,h1.2,h2,h3,h4⟩ hok
        | _ => simp [hnull,hfree]
      · simpa [hnull,hfree] using ih last (index+1)

variable {P} in
/-- A passing entry is not chained, or continues the chain. -/
theorem advance_cases {last next : JsVal × ℚ} {e : JsVal} (h : advance P last e = some next) :
    truthy (field e "entry_hash") = false ∧ next = last ∨
      truthy (field e "entry_hash") = true ∧ field e "prev_hash" = last.1 ∧
        field e "entry_hash" = .str (computeEntryHash P e) ∧
        next.1 = .str (computeEntryHash P e) ∧
        ∃ n,field e "sequence" = .num n ∧ (rational n).den = 1 ∧ 1 ≤ rational n ∧
          next.2 = rational n := by
  rw [advance] at h
  split_ifs at h with hnull hfree
  · left
    exact ⟨by simpa using hfree,(Option.some.inj h).symm⟩
  · right
    cases hs : field e "sequence" with
    | num n =>
        simp only [hs] at h
        split_ifs at h with hok
        have hhash := eq_of_strictEq hok.2.2.2.2
        rw [← Option.some.inj h]
        exact ⟨by simpa using hfree,eq_of_strictEq hok.2.2.2.1,hhash,hhash,n,rfl,hok.1,hok.2.1,
          rfl⟩
    | _ => simp [hs] at h

/-- The entries that carry a hash. -/
def chained (log : List JsVal) : List JsVal := log.filter fun e => truthy (field e "entry_hash")

theorem lastChainedEntry_eq (log : List JsVal) : lastChainedEntry log = (chained log).getLast? := by
  rw [lastChainedEntry,chained,← List.head?_reverse,← List.filter_reverse,List.head?_filter]

/-- The hash a link names; null names none. -/
def link : JsVal → Option JsVal
  | .null => none
  | v => some v

/-- What a passing chained entry binds. -/
structure Sealed (e : JsVal) : Prop where
  isChained : truthy (field e "entry_hash") = true
  entryHash : field e "entry_hash" = .str (computeEntryHash P e)
  prevHash : field e "prev_hash" = .null ∨ ∃ s,field e "prev_hash" = .str s

variable {P} in
theorem linked_of_accepted {last next : JsVal × ℚ} {log : List JsVal}
    (hlast : last.1 = .null ∨ ∃ s,last.1 = .str s)
    (h : log.foldlM (advance P) last = some next) :
    Linked (fun e => field e "entry_hash") (fun e => link (field e "prev_hash")) (link last.1)
      (chained log) ∧ ∀ e ∈ chained log,Sealed P e := by
  induction log generalizing last with
  | nil => exact ⟨trivial,by simp [chained]⟩
  | cons e es ih =>
      rw [List.foldlM_cons] at h
      obtain ⟨mid,hmid,hrest⟩ := Option.bind_eq_some_iff.mp h
      rcases advance_cases hmid with ⟨hfree,rfl⟩ | ⟨hfree,hprev,hhash,hnext,-⟩
      · rw [chained,List.filter_cons_of_neg (by simp [hfree])]
        exact ih hlast hrest
      · obtain ⟨hl,hs⟩ := ih (Or.inr ⟨_,hnext⟩) hrest
        rw [chained,List.filter_cons_of_pos (by simp [hfree])]
        refine ⟨⟨congrArg link hprev,?_⟩,?_⟩
        · rw [hnext] at hl
          change Linked _ _ (some (field e "entry_hash")) _
          rw [hhash]
          exact hl
        · rintro a (_ | ⟨_,ha⟩)
          · exact ⟨hfree,hhash,by rwa [hprev]⟩
          · exact hs a ha

/-- The bytes that are hashed for an entry. -/
def payload (e : JsVal) : ByteArray :=
  (String.ofList (stableStringify (buildHashableRecord e))).toUTF8

theorem computeEntryHash_eq (e : JsVal) : computeEntryHash P e = hex (P.sha256 (payload e)) := rfl

theorem isJson_remove {e : JsVal} (h : IsJson e) (name : String) : IsJson (remove e name) := by
  cases h with
  | obj hnd hm =>
      exact .obj (hnd.sublist (List.filter_sublist.map _))
        fun p hp => hm p (List.mem_of_mem_filter hp)
  | _ => exact .obj List.nodup_nil (by simp [members])

/-- Equal payloads: the same hashable record up to the order of members. -/
theorem canonical_of_payload {a b : JsVal} (ha : IsJson a) (hb : IsJson b)
    (h : payload a = payload b) :
    canonical (remove a "entry_hash") = canonical (remove b "entry_hash") := by
  have htext : stableStringify (remove a "entry_hash") = stableStringify (remove b "entry_hash") :=
    String.ofList_injective (String.toByteArray_inj.mp h)
  have hwa := (isJson_remove ha "entry_hash").wellFormed
  have hwb := (isJson_remove hb "entry_hash").wellFormed
  rw [stableStringify_eq,stableStringify_eq] at htext
  have hclean := text_injective (wellFormed_canonical hwa) (wellFormed_canonical hwb) htext
  rwa [clean_canonical hwa,clean_canonical hwb,clean_of_isJson (isJson_remove ha _),
    clean_of_isJson (isJson_remove hb _)] at hclean

theorem perm_remove {kvs : List (JsString × JsVal)} (hnd : (kvs.map Prod.fst).Nodup)
    {k : JsString} {x : JsVal} (hx : (k,x) ∈ kvs) :
    kvs.Perm ((k,x)::kvs.filter fun p => p.1 ≠ k) := by
  induction kvs with
  | nil => exact absurd hx List.not_mem_nil
  | cons p kvs ih =>
      rw [List.map_cons,List.nodup_cons] at hnd
      rcases List.mem_cons.mp hx with rfl | hx
      · have hall : kvs.filter (fun p => p.1 ≠ k) = kvs := by
          rw [List.filter_eq_self]
          intro q hq
          simpa using fun heq => hnd.1 (List.mem_map.mpr ⟨q,hq,heq⟩)
        rw [List.filter_cons_of_neg (by simp),hall]
      · have hp : p.1 ≠ k := fun heq => hnd.1 (heq ▸ List.mem_map_of_mem hx)
        rw [List.filter_cons_of_pos (by simpa using hp)]
        exact ((ih hnd.2 hx).cons p).trans (.swap _ _ _)

/-- An entry is its hash and its hashable record. -/
theorem canonical_of_remove {a b x : JsVal} {name : String} (ha : WellFormed a) (hb : WellFormed b)
    (hxa : field a name = x) (hxb : field b name = x) (hx : x.isUndefined = false)
    (h : canonical (remove a name) = canonical (remove b name)) : canonical a = canonical b := by
  have hsplit : ∀ e,WellFormed e → field e name = x → ∃ kvs,e = .obj kvs ∧
      (kvs.map Prod.fst).Nodup ∧ kvs.Perm ((js name,x)::members (remove e name)) := by
    intro e he hxe
    cases he with
    | obj hnd hm =>
        rcases get_cases hnd (js name) with ⟨y,hy,hget⟩ | ⟨_,hget⟩
        · rw [← hget,show JsVal.get _ _ = x from hxe] at hy
          exact ⟨_,rfl,hnd,perm_remove hnd hy⟩
        · rw [show JsVal.get _ _ = x from hxe] at hget
          rw [hget] at hx
          exact absurd hx (by decide)
    | _ =>
        rw [← hxe] at hx
        exact absurd (show true = false from hx) (by decide)
  obtain ⟨kvs,rfl,hnda,hpa⟩ := hsplit a ha hxa
  obtain ⟨kws,rfl,hndb,hpb⟩ := hsplit b hb hxb
  rw [canonical_perm hnda hpa,canonical_perm hndb hpb,canonical,canonical,canonicalMembers,
    canonicalMembers]
  rw [remove,remove,canonical,canonical,JsVal.obj.injEq] at h
  have hperm : (canonicalMembers (members (remove (.obj kvs) name))).Perm
      (canonicalMembers (members (remove (.obj kws) name))) :=
    (sortMembers_perm _).symm.trans ((List.Perm.of_eq h).trans (sortMembers_perm _))
  refine congrArg JsVal.obj (sortMembers_congr ?_ (hperm.cons _))
  rw [List.map_cons,names_canonicalMembers]
  exact ((hpa.map Prod.fst).nodup_iff).mp hnda

variable {P} in
/-- Entries with one hash are one entry, up to the order of members. -/
theorem Sealed.agree {a b : JsVal} (ha : Sealed P a) (hb : Sealed P b) (hja : IsJson a)
    (hjb : IsJson b) (hfree : P.sha256 (payload a) = P.sha256 (payload b) → payload a = payload b)
    (h : field a "entry_hash" = field b "entry_hash") :
    Reordering a b ∧ link (field a "prev_hash") = link (field b "prev_hash") := by
  have hhash := h
  rw [ha.entryHash,hb.entryHash,JsVal.str.injEq,computeEntryHash_eq,computeEntryHash_eq] at hhash
  have hrec := canonical_of_payload hja hjb (hfree (hex_injective hhash))
  constructor
  · rw [reordering_iff hja.wellFormed]
    exact canonical_of_remove hja.wellFormed hjb.wellFormed rfl h.symm (by rw [ha.entryHash]; rfl)
      hrec
  · have hkeep : ∀ e : JsVal,field (remove e "entry_hash") "prev_hash" = field e "prev_hash" :=
      fun e => field_remove_other (by decide)
    have hprev : canonical (field a "prev_hash") = canonical (field b "prev_hash") := by
      rw [← hkeep a,← hkeep b]
      have hga := get_canonical (isJson_remove hja "entry_hash").wellFormed (js "prev_hash")
      have hgb := get_canonical (isJson_remove hjb "entry_hash").wellFormed (js "prev_hash")
      rw [hrec] at hga
      exact hga.symm.trans hgb
    have hself : ∀ e,Sealed P e → canonical (field e "prev_hash") = field e "prev_hash" := by
      intro e he
      rcases he.prevHash with hn | ⟨s,hs⟩
      · rw [hn]
        rfl
      · rw [hs]
        rfl
    rw [hself a ha,hself b hb] at hprev
    rw [hprev]

/-- No two payloads of the logs collide. -/
def CollisionFree (l m : List JsVal) : Prop :=
  Set.InjOn P.sha256 (Set.image payload {e | e ∈ l ∨ e ∈ m})

variable {P} in
theorem chained_determined {l m : List JsVal} (hl : IsJson (.arr l)) (hm : IsJson (.arr m))
    (hfree : CollisionFree P l m) (hvl : verifyAuditChain P (.arr l) = .valid)
    (hvm : verifyAuditChain P (.arr m) = .valid)
    (hlast : (lastChainedEntry l).map (fun e => field e "entry_hash") =
      (lastChainedEntry m).map fun e => field e "entry_hash") :
    List.Forall₂ Reordering (chained l) (chained m) := by
  cases hl with
  | arr hjl =>
      cases hm with
      | arr hjm =>
          obtain ⟨_,hfl⟩ := (verifyFrom_valid P (.null,0) 0 l).mp hvl
          obtain ⟨_,hfm⟩ := (verifyFrom_valid P (.null,0) 0 m).mp hvm
          obtain ⟨hll,hsl⟩ := linked_of_accepted (Or.inl rfl) hfl
          obtain ⟨hlm,hsm⟩ := linked_of_accepted (Or.inl rfl) hfm
          rw [lastChainedEntry_eq,lastChainedEntry_eq] at hlast
          refine Linked.agree (V := fun e => (e ∈ l ∨ e ∈ m) ∧ Sealed P e) ?_ hll hlm
            (fun e he => ⟨Or.inl (List.mem_of_mem_filter he),hsl e he⟩)
            (fun e he => ⟨Or.inr (List.mem_of_mem_filter he),hsm e he⟩) hlast
          have hjson : ∀ e,e ∈ l ∨ e ∈ m → IsJson e := fun e he => he.elim (hjl e) (hjm e)
          rintro a b ⟨hma,hsa⟩ ⟨hmb,hsb⟩ heq
          exact hsa.agree hsb (hjson a hma) (hjson b hmb)
            (hfree (Set.mem_image_of_mem _ hma) (Set.mem_image_of_mem _ hmb)) heq

theorem wellFormed_tooDeep : WellFormed tooDeep := .str _

theorem redactElements_eq (depth : ℕ) (vs : List JsVal) :
    redactElements P depth vs = vs.map (redactObject P depth) := by
  induction vs with
  | nil => rfl
  | cons v vs ih => rw [redactElements,ih,List.map_cons]

theorem names_redactMembers (depth : ℕ) (kvs : List (JsString × JsVal)) :
    ((redactMembers P depth kvs).map Prod.fst).Sublist (kvs.map Prod.fst) := by
  induction kvs with
  | nil => exact List.Sublist.refl _
  | cons p kvs ih =>
      rw [redactMembers,List.map_cons]
      split_ifs
      · exact ih.cons _
      all_goals
        rw [List.map_cons]
        exact ih.cons_cons _

variable {P} in
/-- A member is redacted whole or in its parts. -/
theorem mem_redactMembers {depth : ℕ} {kvs : List (JsString × JsVal)} {p : JsString × JsVal}
    (h : p ∈ redactMembers P depth kvs) :
    p.2 = .str (js "[REDACTED]") ∨ ∃ q ∈ kvs,p.2 = redactObject P depth q.2 := by
  induction kvs with
  | nil => exact absurd h List.not_mem_nil
  | cons q kvs ih =>
      have hrest : p ∈ redactMembers P depth kvs → p.2 = .str (js "[REDACTED]") ∨
          ∃ r ∈ q::kvs,p.2 = redactObject P depth r.2 := by
        intro hp
        rcases ih hp with hp | ⟨r,hr,hp⟩
        · exact Or.inl hp
        · exact Or.inr ⟨r,List.mem_cons_of_mem _ hr,hp⟩
      rw [redactMembers] at h
      split_ifs at h with hproto hkey
      · exact hrest h
      · rcases List.mem_cons.mp h with rfl | h
        · exact Or.inl rfl
        · exact hrest h
      · rcases List.mem_cons.mp h with rfl | h
        · exact Or.inr ⟨q,List.mem_cons_self,rfl⟩
        · exact hrest h

theorem wellFormed_redactObject {v : JsVal} (h : WellFormed v) (depth : ℕ) :
    WellFormed (redactObject P depth v) := by
  induction h generalizing depth with
  | arr _ ih =>
      rw [redactObject]
      split_ifs
      · exact wellFormed_tooDeep
      · rw [redactElements_eq]
        refine .arr fun u hu => ?_
        obtain ⟨w,hw,rfl⟩ := List.mem_map.mp hu
        exact ih w hw _
  | obj hnd _ ih =>
      rw [redactObject]
      split_ifs
      · exact wellFormed_tooDeep
      · refine .obj (hnd.sublist (names_redactMembers P _ _)) fun p hp => ?_
        rcases mem_redactMembers hp with hp | ⟨q,hq,hp⟩
        · rw [hp]
          exact .str _
        · rw [hp]
          exact ih q hq _
  | _ =>
      rw [redactObject]
      · split_ifs
        · exact wellFormed_tooDeep
        · constructor
      all_goals simp

theorem wellFormed_assign {v w : JsVal} (hv : WellFormed v) (hw : WellFormed w) :
    WellFormed (assign v w) := by
  have hfold : ∀ (kws kvs : List (JsString × JsVal)),(∀ p ∈ kws,WellFormed p.2) →
      GoodMembers kvs → GoodMembers (kws.foldl (fun kvs p => setMember kvs p.1 p.2) kvs) := by
    intro kws
    induction kws with
    | nil => exact fun kvs _ h => h
    | cons p kws ih =>
        intro kvs hws h
        rw [List.foldl_cons]
        exact ih _ (fun q hq => hws q (List.mem_cons_of_mem _ hq))
          (h.setMember _ (hws p List.mem_cons_self))
  exact (hfold _ _ (goodMembers_members hw).2 (goodMembers_members hv)).wellFormed

/-- The hash the next record links to. -/
def prevHash (priorEntry : Option JsVal) : JsVal :=
  ScriptValue.orElse ((priorEntry.map fun e => field e "entry_hash").getD .undefined) .null

theorem wellFormed_prevHash {priorEntry : Option JsVal} (h : ∀ e ∈ priorEntry,WellFormed e) :
    WellFormed (prevHash priorEntry) := by
  cases priorEntry with
  | none => exact .null
  | some e =>
      rw [prevHash,ScriptValue.orElse]
      split_ifs
      · exact .null
      · exact wellFormed_get (h e rfl) _

/-- A record has distinct names and carries what the next check reads. -/
theorem buildAuditRecord_spec {a : Audit} {priorEntry : Option JsVal} (ha : WellFormed a.entry)
    (hprior : ∀ e ∈ priorEntry,WellFormed e) :
    ∃ r,buildAuditRecord P a.entry priorEntry a.id a.timestamp = r ∧ WellFormed r ∧
      nullish r = false ∧ field r "sequence" = .num (nextSequence priorEntry) ∧
      field r "prev_hash" = prevHash priorEntry ∧
      field r "entry_hash" = .str (computeEntryHash P r) := by
  refine ⟨_,rfl,?_,rfl,?_,?_,?_⟩
  · have hbase : WellFormed (.obj [(js "id",.str a.id),(js "timestamp",.str a.timestamp)]) := by
      refine .obj (show [js "id",js "timestamp"].Nodup by decide) ?_
      simp only [List.mem_cons,List.not_mem_nil,or_false]
      rintro p (rfl | rfl)
      · exact .str _
      · exact .str _
    exact wellFormed_put (wellFormed_put (wellFormed_put
      (wellFormed_assign hbase (wellFormed_redactObject P ha 0)) (.num _))
      (wellFormed_prevHash hprior)) (.str _)
  · rw [buildAuditRecord,field_put_other (by decide),field_put_other (by decide),field_put_self]
  · rw [buildAuditRecord,field_put_other (by decide),field_put_self]
    rfl
  · rw [buildAuditRecord,field_put_self,computeEntryHash,computeEntryHash,buildHashableRecord,
      buildHashableRecord,remove_put_self]

theorem rational_successor {n : Number} {k : ℕ} (hn : rational n = k) (hk : k+1 < 2^53) :
    rational (successor n) = (k+1 : ℕ) := by
  obtain ⟨x,hx,hof⟩ := Number.exists_natural (Nat.succ_pos k) hk
  have hnonneg : (0 : ℚ) ≤ (k+1 : ℕ) := by positivity
  have hval : rational n+1 = (k+1 : ℕ) := by
    rw [hn]
    push_cast
    rfl
  rw [successor]
  simp only [hval,decide_eq_false (not_lt.mpr hnonneg),abs_of_nonneg hnonneg]
  rw [hof,Option.getD_some,rational,if_neg (by decide),hx]

/-- What holds of a log that `audit` alone has written. -/
structure Written (log : List JsVal) : Prop where
  wellFormed : ∀ e ∈ log,WellFormed e
  bounded : log.length ≤ maxArrayLength
  accepted : log.foldlM (advance P) (.null,0) = some
    (prevHash (lastChainedEntry log),(log.length : ℚ))
  linkable : prevHash (lastChainedEntry log) = .null ∨ ∃ s,prevHash (lastChainedEntry log) = .str s
  numbered : rational (nextSequence (lastChainedEntry log)) = (log.length+1 : ℕ)

theorem written_nil : Written P [] where
  wellFormed := by simp
  bounded := Nat.zero_le _
  accepted := rfl
  linkable := Or.inl rfl
  numbered := rational_successor (Nat.cast_zero.symm : rational .zero = (0 : ℕ)) (by norm_num)

theorem lastChainedEntry_mem {log : List JsVal} : ∀ e ∈ lastChainedEntry log,e ∈ log := by
  intro e he
  exact List.mem_reverse.mp (List.mem_of_find?_eq_some he)

theorem hex_ne_nil {bytes : List UInt8} (h : bytes ≠ []) : hex bytes ≠ [] := by
  obtain ⟨b,bs,rfl⟩ := List.exists_cons_of_ne_nil h
  simp [hex]

variable {P} in
theorem Written.audit (hne : ∀ bytes,P.sha256 bytes ≠ []) {log : List JsVal} (h : Written P log)
    {a : Audit} (ha : WellFormed a.entry) : Written P (audit P log a) := by
  rw [AuditLog.audit]
  split_ifs with hfull
  · exact h
  obtain ⟨r,hr,hwf,hnull,hseq,hprev,hhash⟩ := buildAuditRecord_spec P ha
    fun e he => h.wellFormed e (lastChainedEntry_mem e he)
  rw [hr]
  have htruthy : truthy (field r "entry_hash") = true := by
    rw [hhash]
    exact decide_eq_true (hex_ne_nil (hne _))
  have hlast : lastChainedEntry (log++[r]) = some r := by
    rw [lastChainedEntry_eq,chained,List.filter_append,
      List.filter_cons_of_pos (by simp [htruthy])]
    exact List.getLast?_concat
  have hnext : prevHash (some r) = .str (computeEntryHash P r) := by
    simp [prevHash,hhash,ScriptValue.orElse,nullish]
  have hlen : (log++[r]).length = log.length+1 := by simp
  have hstep : advance P (prevHash (lastChainedEntry log),(log.length : ℚ)) r =
      some (.str (computeEntryHash P r),((log.length+1 : ℕ) : ℚ)) := by
    have hself : strictEq (prevHash (lastChainedEntry log)) (prevHash (lastChainedEntry log)) := by
      rcases h.linkable with hn | ⟨s,hs⟩
      · rw [hn]
        rfl
      · rw [hs]
        exact decide_eq_true rfl
    rw [advance,if_neg (by simp [hnull]),if_neg (by simp [htruthy]),hseq]
    simp only [hprev,hhash,h.numbered]
    rw [if_pos ⟨Rat.den_natCast _,by exact_mod_cast Nat.le_add_left 1 _,
      by exact_mod_cast Nat.lt_succ_self _,hself,decide_eq_true rfl⟩]
  refine ⟨?_,?_,?_,?_,?_⟩
  · intro e he
    rcases List.mem_append.mp he with he | he
    · exact h.wellFormed e he
    · rwa [List.mem_singleton.mp he]
  · rw [hlen]
    omega
  · rw [List.foldlM_append,h.accepted,hlast,hnext,hlen]
    change [r].foldlM (advance P) (prevHash (lastChainedEntry log),(log.length : ℚ)) = _
    rw [List.foldlM_cons,hstep]
    rfl
  · rw [hlast]
    exact Or.inr ⟨_,hnext⟩
  · rw [hlast,hlen]
    have hsome : nextSequence (some r) = successor (nextSequence (lastChainedEntry log)) := by
      rw [nextSequence,Option.map_some,hseq]
      simp only
      rw [if_pos (by rw [h.numbered]; exact Rat.den_natCast _)]
    rw [hsome]
    exact rational_successor h.numbered (by simp only [maxArrayLength] at hfull; omega)

variable {P} in
theorem written_foldl (hne : ∀ bytes,P.sha256 bytes ≠ []) {audits : List Audit}
    (ha : ∀ a ∈ audits,WellFormed a.entry) : Written P (audits.foldl (audit P) []) := by
  induction audits using List.reverseRecOn with
  | nil => exact written_nil P
  | append_singleton as a ih =>
      rw [List.foldl_append,List.foldl_cons,List.foldl_nil]
      exact (ih fun b hb => ha b (List.mem_append_left _ hb)).audit hne (ha a (by simp))

/-- The sequence number of the last chained entry. -/
def lastSequence (log : List JsVal) : ℚ :=
  match (lastChainedEntry log).map fun e => field e "sequence" with
  | some (.num n) => rational n
  | _ => 0

/-- What verification says about the last chained entry. -/
structure Ends (log : List JsVal) (last : JsVal × ℚ) : Prop where
  hash : last.1 = prevHash (lastChainedEntry log)
  linkable : last.1 = .null ∨ ∃ s,last.1 = .str s
  sequence : last.2 = lastSequence log
  natural : ∃ k : ℕ,last.2 = k
  numbered : ∃ n,nextSequence (lastChainedEntry log) = successor n ∧ rational n = last.2

theorem lastChainedEntry_concat (log : List JsVal) (e : JsVal) : lastChainedEntry (log++[e]) =
    if truthy (field e "entry_hash") then some e else lastChainedEntry log := by
  rw [lastChainedEntry_eq,lastChainedEntry_eq,chained,chained,List.filter_append]
  split_ifs with h <;> simp [h]

theorem ends_nil : Ends [] (.null,0) where
  hash := rfl
  linkable := .inl rfl
  sequence := rfl
  natural := ⟨0,Nat.cast_zero.symm⟩
  numbered := ⟨.zero,rfl,rfl⟩

variable {P} in
theorem Ends.advance {log : List JsVal} {last next : JsVal × ℚ} (h : Ends log last) {e : JsVal}
    (he : advance P last e = some next) : Ends (log++[e]) next := by
  rcases advance_cases he with ⟨hfree,rfl⟩ | ⟨hfree,-,hhash,hnext,n,hseq,hden,hone,hnum⟩
  · have hlast : lastChainedEntry (log++[e]) = lastChainedEntry log := by
      rw [lastChainedEntry_concat,if_neg (by simp [hfree])]
    exact ⟨hlast ▸ h.hash,h.linkable,by rw [h.sequence,lastSequence,lastSequence,hlast],
      h.natural,hlast ▸ h.numbered⟩
  · have hlast : lastChainedEntry (log++[e]) = some e := by
      rw [lastChainedEntry_concat,if_pos hfree]
    refine ⟨?_,.inr ⟨_,hnext⟩,?_,?_,n,?_,hnum.symm⟩
    · rw [hlast,hnext,prevHash,Option.map_some,Option.getD_some,hhash]
      rfl
    · rw [hnum,lastSequence,hlast,Option.map_some,hseq]
    · refine ⟨(rational n).num.toNat,?_⟩
      have hnonneg : 0 ≤ (rational n).num := Rat.num_nonneg.mpr (zero_le_one.trans hone)
      rw [hnum]
      conv_lhs => rw [← Rat.coe_int_num_of_den_eq_one hden]
      exact_mod_cast (Int.toNat_of_nonneg hnonneg).symm
    · rw [nextSequence,hlast,Option.map_some,hseq]
      exact if_pos hden

variable {P} in
theorem ends_of_accepted {log : List JsVal} {last : JsVal × ℚ}
    (h : log.foldlM (AuditChain.advance P) (.null,0) = some last) : Ends log last := by
  induction log using List.reverseRecOn generalizing last with
  | nil =>
      cases h
      exact ends_nil
  | append_singleton log e ih =>
      rw [List.foldlM_append] at h
      obtain ⟨mid,hmid,hstep⟩ := Option.bind_eq_some_iff.mp h
      rw [List.foldlM_cons] at hstep
      obtain ⟨next,hnext,hend⟩ := Option.bind_eq_some_iff.mp hstep
      cases hend
      exact (ih hmid).advance hnext

/-- A log and the record of one more entry. -/
def withRecord (log : List JsVal) (a : Audit) : List JsVal :=
  log++[buildAuditRecord P a.entry (lastChainedEntry log) a.id a.timestamp]

variable {P} in
/-- A record after a log that verifies, as long as its number is exact. -/
theorem valid_withRecord (hne : ∀ bytes,P.sha256 bytes ≠ []) {log : List JsVal}
    (hlog : ∀ e ∈ log,WellFormed e) (hvalid : verifyAuditChain P (.arr log) = .valid)
    (hroom : lastSequence log+1 < 2^53) {a : Audit} (ha : WellFormed a.entry) :
    (∀ e ∈ withRecord P log a,WellFormed e) ∧
      verifyAuditChain P (.arr (withRecord P log a)) = .valid ∧
      lastSequence (withRecord P log a) = lastSequence log+1 := by
  obtain ⟨last,hlast⟩ := (verifyFrom_valid P (.null,0) 0 log).mp hvalid
  have hends := ends_of_accepted hlast
  obtain ⟨r,hr,hwf,hnull,hseq,hprev,hhash⟩ := buildAuditRecord_spec P ha
    fun e he => hlog e (lastChainedEntry_mem e he)
  have htruthy : truthy (field r "entry_hash") = true := by
    rw [hhash]
    exact decide_eq_true (hex_ne_nil (hne _))
  have hnumber : rational (nextSequence (lastChainedEntry log)) = last.2+1 := by
    obtain ⟨k,hk⟩ := hends.natural
    have hbound : k+1 < 2^53 := by
      rw [← hends.sequence,hk] at hroom
      exact_mod_cast hroom
    obtain ⟨n,hnext,hn⟩ := hends.numbered
    rw [hnext,rational_successor (hn.trans hk) hbound,hk]
    push_cast
    rfl
  have hself : strictEq (prevHash (lastChainedEntry log)) last.1 := by
    rw [← hends.hash]
    rcases hends.linkable with hn | ⟨s,hs⟩
    · rw [hn]
      rfl
    · rw [hs]
      exact decide_eq_true rfl
  obtain ⟨k,hk⟩ := hends.natural
  have hnat : last.2+1 = (k+1 : ℕ) := by
    rw [hk]
    push_cast
    rfl
  have hstep : AuditChain.advance P last r = some (.str (computeEntryHash P r),last.2+1) := by
    rw [AuditChain.advance,if_neg (by simp [hnull]),if_neg (by simp [htruthy]),hseq]
    simp only [hprev,hhash,hnumber]
    have hone : 1 ≤ last.2+1 := by
      rw [hnat]
      exact_mod_cast Nat.le_add_left 1 k
    have hden : (last.2+1).den = 1 := by
      rw [hnat]
      exact Rat.den_natCast _
    rw [if_pos ⟨hden,hone,lt_add_one _,hself,decide_eq_true rfl⟩]
  have hlast' : (log++[r]).foldlM (AuditChain.advance P) (.null,0) =
      some (.str (computeEntryHash P r),last.2+1) := by
    rw [List.foldlM_append,hlast]
    change [r].foldlM (AuditChain.advance P) last = _
    rw [List.foldlM_cons,hstep]
    rfl
  rw [withRecord,hr]
  refine ⟨?_,(verifyFrom_valid P (.null,0) 0 _).mpr ⟨_,hlast'⟩,?_⟩
  · intro e he
    rcases List.mem_append.mp he with he | he
    · exact hlog e he
    · rwa [List.mem_singleton.mp he]
  · rw [← (ends_of_accepted hlast').sequence,hends.sequence]

theorem remove_clean (e : JsVal) (name : String) :
    remove (clean e) name = clean (remove e name) := by
  cases e with
  | obj kvs =>
      rw [remove,remove,clean,clean,members,members,cleanMembers_eq,cleanMembers_eq,defined,defined,
        List.filter_map,List.filter_filter,List.filter_filter]
      simp only [Function.comp_def,Bool.and_comm]
  | _ => rfl

theorem computeEntryHash_clean {e : JsVal} (h : WellFormed e) :
    computeEntryHash P (clean e) = computeEntryHash P e := by
  have hw : WellFormed (remove e "entry_hash") := wellFormed_remove h
  rw [computeEntryHash,computeEntryHash,hashAuditPayload,hashAuditPayload,buildHashableRecord,
    buildHashableRecord,remove_clean,stableStringify_eq,stableStringify_eq,← clean_canonical hw,
    text_clean]

theorem field_clean {e : JsVal} (h : WellFormed e) (name : String) :
    field (clean e) name =
      if (field e name).isUndefined then .undefined else clean (field e name) := get_clean h _

theorem truthy_field_clean {e : JsVal} (h : WellFormed e) (name : String) :
    truthy (field (clean e) name) = truthy (field e name) := by
  rw [field_clean h]
  cases field e name <;> rfl

theorem strictEq_field_clean {e : JsVal} (h : WellFormed e) (name : String) (w : JsVal) :
    strictEq (field (clean e) name) w = strictEq (field e name) w := by
  rw [field_clean h]
  cases field e name <;> cases w <;> rfl

theorem advance_clean {e : JsVal} (h : WellFormed e) (last : JsVal × ℚ) :
    advance P last (clean e) = advance P last e := by
  have hnull : nullish (clean e) = nullish e := by cases e <;> rfl
  rw [advance,advance,hnull,truthy_field_clean h]
  congr 2
  have hseq := field_clean h "sequence"
  cases hs : field e "sequence" with
  | num n =>
      rw [hs] at hseq
      change field (clean e) "sequence" = .num n at hseq
      rw [hseq]
      simp only [strictEq_field_clean h,computeEntryHash_clean P h]
      split_ifs with hok
      · have hhash := eq_of_strictEq hok.2.2.2.2
        have hclean := field_clean h "entry_hash"
        rw [hhash] at hclean
        rw [hhash,hclean]
        rfl
      · rfl
  | _ =>
      rw [hs] at hseq
      rw [hseq]
      rfl

theorem foldlM_clean {log : List JsVal} (h : ∀ e ∈ log,WellFormed e) (last : JsVal × ℚ) :
    (log.map clean).foldlM (advance P) last = log.foldlM (advance P) last := by
  induction log generalizing last with
  | nil => rfl
  | cons e es ih =>
      rw [List.map_cons,List.foldlM_cons,List.foldlM_cons,advance_clean P (h e List.mem_cons_self)]
      simp only [ih fun b hb => h b (List.mem_cons_of_mem _ hb)]

variable {P} in
theorem Written.roundTrip {log : List JsVal} (h : Written P log) :
    verifyAuditChain P (.arr log) = .valid ∧
      ∃ copy,(stringify (.arr log)).bind parse = some copy ∧
        verifyAuditChain P copy = .valid := by
  refine ⟨(verifyFrom_valid P (.null,0) 0 log).mpr ⟨_,h.accepted⟩,.arr (log.map clean),?_,?_⟩
  · change parse (text (.arr log)) = _
    rw [parse_text (.arr h.wellFormed),clean,cleanElements_eq]
  · exact (verifyFrom_valid P (.null,0) 0 _).mpr
      ⟨_,(foldlM_clean P h.wellFormed _).trans h.accepted⟩

end

/-- Whatever `audit` writes verifies and survives a text round trip; the last hash of a verifying
log determines its chained entries, unless two payloads collide. -/
theorem audit_chain_binding (P : Platform) (hne : ∀ bytes,P.sha256 bytes ≠ []) :
    (∀ audits : List Audit,(∀ a ∈ audits,WellFormed a.entry) →
      verifyAuditChain P (.arr (audits.foldl (audit P) [])) = .valid ∧
        ∃ copy,(stringify (.arr (audits.foldl (audit P) []))).bind parse = some copy ∧
          verifyAuditChain P copy = .valid) ∧
    ∀ l m : List JsVal,IsJson (.arr l) → IsJson (.arr m) → CollisionFree P l m →
      verifyAuditChain P (.arr l) = .valid → verifyAuditChain P (.arr m) = .valid →
      (lastChainedEntry l).map (fun e => field e "entry_hash") =
        (lastChainedEntry m).map (fun e => field e "entry_hash") →
      List.Forall₂ Reordering (chained l) (chained m) := by
  constructor
  · exact fun audits h => (written_foldl hne h).roundTrip
  · exact fun l m hl hm hfree hvl hvm hlast => chained_determined hl hm hfree hvl hvm hlast

/-- Digests that spell out what they digest. -/
def transparent : Platform where
  sha256 := fun bytes => 0::bytes.data.toList
  redactString := id

def sampleAudits : List Audit :=
  [⟨.obj [(js "action",.str (js "policy.created")),(js "metadata",.obj [(js "note",.undefined)])],
    js "evt_1",js "2026-01-01T00:00:00.000Z"⟩,
    ⟨.obj [(js "action",.str (js "policy.removed")),(js "entry_hash",.null)],
      js "evt_2",js "2026-01-02T00:00:00.000Z"⟩]

theorem sampleAudits_wellFormed : ∀ a ∈ sampleAudits,WellFormed a.entry := by
  simp only [sampleAudits,List.forall_mem_cons]
  refine ⟨.obj (show [js "action",js "metadata"].Nodup by decide) ?_,
    .obj (show [js "action",js "entry_hash"].Nodup by decide) ?_,by simp⟩
  · simp only [List.forall_mem_cons]
    refine ⟨.str _,.obj (show [js "note"].Nodup by decide) ?_,by simp⟩
    simp only [List.forall_mem_cons]
    exact ⟨.undefined,by simp⟩
  · simp only [List.forall_mem_cons]
    exact ⟨.str _,.null,by simp⟩

theorem transparent_digest : ∀ bytes,transparent.sha256 bytes ≠ [] :=
  fun _ => List.cons_ne_nil _ _

theorem transparent_collisionFree (l m : List JsVal) : CollisionFree transparent l m := by
  intro a _ b _ h
  exact ByteArray.ext (Array.toList_inj.mp (List.cons.inj h).2)

theorem sample_audits_bound :
    verifyAuditChain transparent (.arr (sampleAudits.foldl (audit transparent) [])) = .valid ∧
      List.Forall₂ Reordering (chained ((sampleAudits.foldl (audit transparent) []).map clean))
        (chained ((sampleAudits.foldl (audit transparent) []).map clean)) := by
  have hbind := audit_chain_binding transparent transparent_digest
  have hlog := written_foldl transparent_digest sampleAudits_wellFormed
  have hjson : IsJson (.arr ((sampleAudits.foldl (audit transparent) []).map clean)) := by
    refine .arr fun v hv => ?_
    obtain ⟨w,hw,rfl⟩ := List.mem_map.mp hv
    exact (hlog.wellFormed w hw).isJson_clean
  have hvalid := (verifyFrom_valid transparent (.null,0) 0 _).mpr
    ⟨_,(foldlM_clean transparent hlog.wellFormed _).trans hlog.accepted⟩
  exact ⟨(hbind.1 sampleAudits sampleAudits_wellFormed).1,
    hbind.2 _ _ hjson hjson (transparent_collisionFree _ _) hvalid hvalid rfl⟩

end AstraNull.AuditChain

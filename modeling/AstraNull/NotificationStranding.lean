import Mathlib
import AstraNull.NotificationBound

/-!
# Deliveries that no pass takes up again

A delivery that is scheduled for a retry goes through any number of retry passes, one after the
other, with any rules, modes and answers. Retries take up scheduled attempts and redrives take
up dead letters; an email retry without a relay host leaves neither, and it is the only way out.
-/
namespace AstraNull.NotificationStranding
open NotificationDelivery NotificationBound

/-- Scheduled, delivered, a dead letter or cancelled with its rule. -/
def Status.isKept : Status → Bool
  | .providerRetryScheduled => true
  | .deliveredProvider => true
  | .providerFailedDlq => true
  | status => status.isCancelled

/-- The latest attempt of the pair is one of these. -/
def Kept (events : List Event) (eventId ruleId : ℕ) : Prop :=
  ∃ e ∈ events,e.id = eventId ∧
    ∃ i a,IsLatest e.deliveryAttempts i a ∧ a.ruleId = ruleId ∧ Status.isKept a.status = true

/-- The pass delivers the item by email and finds no relay host. -/
def relayMissing (p : Pass) (item : Item) : Bool :=
  !p.dryRun && (p.gate item = .deliver || p.gate item = .unknown) &&
    retryChannelActive p.modes item.attempt.channel && p.destination item != "" &&
    item.attempt.channel == .email && (p.reply item).accepted && !(p.reply item).configured

/-- No attempt of the pair meets a missing relay in the pass. -/
def Relayed (p : Pass) (eventId ruleId : ℕ) (events : List Event) : Prop :=
  ∀ item ∈ p.items events,item.eventId = eventId → item.attempt.ruleId = ruleId →
    relayMissing p item = false

section Delivery
variable {modes : List Channel} {attempt : Attempt} {destination : String} {reply : Reply}
  {now : Time} {newAttemptId : AttemptId}

theorem metadataOnly_kept :
    Status.isKept (buildMetadataOnlyRetryDeliveryAttempt attempt now newAttemptId).status =
      true := by
  unfold buildMetadataOnlyRetryDeliveryAttempt
  dsimp only
  split
  · rfl
  · rfl

theorem webhook_kept :
    Status.isKept (buildWebhookRetryDeliveryAttempt attempt reply now newAttemptId).status =
      true := by
  unfold buildWebhookRetryDeliveryAttempt
  dsimp only
  split_ifs
  all_goals rfl

theorem mapRetry_kept {base : Status → String → Attempt}
    (hbase : ∀ status reason,(base status reason).status = status) (result : ProviderResult) :
    Status.isKept (mapRetryProviderDeliveryResult base result now).status = true ↔
      result.status ≠ .queuedProviderNotConfigured := by
  unfold mapRetryProviderDeliveryResult
  cases result.status <;>
    simp [hbase,retryScheduled,failedDlq,Status.isKept,NotificationDelivery.Status.isCancelled]

theorem mapProviderSendResult_configured (reason : String) :
    (mapProviderSendResult reply reason).status ≠ .queuedProviderNotConfigured := by
  unfold mapProviderSendResult
  dsimp only
  split_ifs
  all_goals simp

theorem deliverHttps_configured (reason : String) :
    (deliverHttps reason reply).status ≠ .queuedProviderNotConfigured := by
  unfold deliverHttps
  split
  · exact mapProviderSendResult_configured reason
  · simp

theorem deliverEmail_configured :
    (deliverEmail reply).status ≠ .queuedProviderNotConfigured ↔
      (reply.accepted && !reply.configured) = false := by
  unfold deliverEmail
  dsimp only
  split_ifs with ha hc ho
  all_goals simp_all

theorem deliverer_configured {channel : Channel} {deliver : Reply → ProviderResult}
    (h : deliverer channel = some deliver) :
    (deliver reply).status ≠ .queuedProviderNotConfigured ↔
      (channel == .email && reply.accepted && !reply.configured) = false := by
  cases channel with
  | inApp => cases h
  | webhook => cases h
  | email =>
      cases h
      rw [deliverEmail_configured]
      simp
  | slack =>
      cases h
      exact iff_of_true (deliverHttps_configured _) rfl
  | teams =>
      cases h
      exact iff_of_true (deliverHttps_configured _) rfl

/-- A retry leaves its attempt where a pass finds it, unless it was an email without a relay. -/
theorem retry_kept : Status.isKept (buildRetryDeliveryAttempt modes attempt destination reply now
      newAttemptId).status = true ↔
    (retryChannelActive modes attempt.channel && destination != "" && attempt.channel == .email &&
      reply.accepted && !reply.configured) = false := by
  unfold buildRetryDeliveryAttempt
  dsimp only
  split_ifs with hactive hempty
  · subst hempty
    exact iff_of_true rfl (by simp)
  · cases hd : deliverer attempt.channel with
    | none =>
        refine iff_of_true webhook_kept ?_
        have hne : attempt.channel ≠ .email := by
          intro he
          rw [he] at hd
          cases hd
        simp [hne]
    | some deliver =>
        dsimp only
        rw [mapRetry_kept fun _ _ => rfl,deliverer_configured hd]
        simp [hactive,hempty]
  · exact iff_of_true metadataOnly_kept (by simp [hactive])

end Delivery

theorem record_kept_iff {p : Pass} {item : Item} {record : Attempt}
    (h : p.record item = some record) :
    Status.isKept record.status = true ↔ relayMissing p item = false := by
  unfold Pass.record at h
  split_ifs at h with hd
  cases hg : p.gate item with
  | hold => simp [hg] at h
  | cancel status reason =>
      rw [hg] at h
      obtain rfl := (Option.some.inj h).symm
      refine iff_of_true ?_ (by simp [relayMissing,hg])
      have hc := gate_cancel hg
      cases status <;> first | rfl | cases hc
  | deliver =>
      rw [hg] at h
      obtain rfl := (Option.some.inj h).symm
      rw [retry_kept]
      simp [relayMissing,hg,hd]
  | unknown =>
      rw [hg] at h
      obtain rfl := (Option.some.inj h).symm
      rw [retry_kept]
      simp [relayMissing,hg,hd]

theorem not_relayMissing_of_none {p : Pass} {item : Item} (h : p.record item = none) :
    relayMissing p item = false := by
  unfold Pass.record at h
  split_ifs at h with hd
  · simp [relayMissing,hd]
  · cases hg : p.gate item with
    | hold => simp [relayMissing,hg]
    | cancel status reason => simp [hg] at h
    | deliver => simp [hg] at h
    | unknown => simp [hg] at h

section Pass
variable {p : Pass} {events : List Event} {e : Event} {ruleId : ℕ}

/-- The latest attempt of the rule is one that is kept. -/
def KeptAt (ruleId : ℕ) (e : Event) : Prop :=
  ∃ i a,IsLatest e.deliveryAttempts i a ∧ a.ruleId = ruleId ∧ Status.isKept a.status = true

theorem kept_iff_keptAt (hu : EventIdsUnique events) (he : e ∈ events) :
    Kept events e.id ruleId ↔ KeptAt ruleId e := by
  constructor
  · rintro ⟨x,hx,hid,hkept⟩
    rwa [unique_event hu hx he hid] at hkept
  · exact fun h => ⟨e,he,rfl,h⟩

theorem mem_items_iff (hu : EventIdsUnique events) (he : e ∈ events) {item : Item} :
    item ∈ p.items events ∧ item.eventId = e.id ↔ item ∈ p.itemsOf e := by
  rw [← filter_items hu he,List.mem_filter]
  refine and_congr_right fun hitem => ?_
  obtain ⟨x,hx,hid,-⟩ := mem_collectItems.mp hitem
  obtain ⟨hx,ht⟩ := List.mem_filter.mp hx
  simp only [belongs,isEvent,Bool.and_eq_true,beq_iff_eq]
  constructor
  · intro h
    cases unique_event hu hx he (hid.symm.trans h)
    exact ⟨h.symm,by simpa using ht⟩
  · exact fun h => h.1.symm

/-- A pass keeps a kept delivery exactly when it meets no missing relay. -/
theorem keptAt_advance (h : KeptAt ruleId e) : KeptAt ruleId (p.advance e) ↔
    ∀ item ∈ p.itemsOf e,item.attempt.ruleId = ruleId → relayMissing p item = false := by
  obtain ⟨i,a,hold,hrule,hkept⟩ := h
  have hstill : ∃ x ∈ (p.advance e).deliveryAttempts,x.ruleId = ruleId :=
    ⟨a,List.mem_append_left _ (List.mem_of_getElem? hold.1),hrule⟩
  obtain ⟨j,b,hlatest,hb⟩ := exists_latest hstill
  have hiff : KeptAt ruleId (p.advance e) ↔ Status.isKept b.status = true := by
    constructor
    · rintro ⟨k,c,hc,hcr,hck⟩
      rwa [← (hc.unique hlatest (hcr.trans hb.symm)).2]
    · exact fun hk => ⟨j,b,hlatest,hb,hk⟩
  rw [hiff]
  rcases isLatest_of_append hlatest with hrec | ⟨hbold,hnone⟩
  · obtain ⟨item,hitem,hr⟩ := List.mem_filterMap.mp hrec
    have hir : item.attempt.ruleId = ruleId := (record_kept hr).1.symm.trans hb
    rw [record_kept_iff hr]
    refine ⟨fun hclear x hx hxr => ?_,fun hall => hall item hitem hir⟩
    -- A pass has one item of the rule.
    have hone : ∀ y ∈ p.itemsOf e,y.attempt.ruleId = ruleId →
        y ∈ (p.itemsOf e).filter fun i => i.attempt.ruleId == ruleId :=
      fun y hy hyr => List.mem_filter.mpr ⟨hy,by simp [hyr]⟩
    rcases itemsOf_rule p e ruleId with hnil | ⟨y,-,-,hy⟩
    · have hbad := hone x hx hxr
      rw [hnil] at hbad
      cases hbad
    · have hxy := hone x hx hxr
      have hiy := hone item hitem hir
      rw [hy] at hxy hiy
      rw [List.mem_singleton.mp hxy,← List.mem_singleton.mp hiy]
      exact hclear
  · have hsame : a = b := (hold.unique hbold (hrule.trans hb.symm)).2
    refine iff_of_true (hsame ▸ hkept) fun x hx hxr => not_relayMissing_of_none ?_
    by_contra hc
    obtain ⟨record,hr⟩ := Option.ne_none_iff_exists'.mp hc
    refine hnone record (List.mem_filterMap.mpr ⟨x,hx,hr⟩) ?_
    rw [(record_kept hr).1,hxr,hb]

theorem kept_process (hu : EventIdsUnique events) (he : e ∈ events)
    (h : Kept events e.id ruleId) :
    Kept (processDueNotificationRetries p events) e.id ruleId ↔
      Relayed p e.id ruleId events := by
  have hmem : p.advance e ∈ processDueNotificationRetries p events := by
    rw [process_eq_map hu]
    exact List.mem_map_of_mem he
  have hid : (p.advance e).id = e.id := rfl
  rw [← hid,kept_iff_keptAt (unique_process hu) hmem,
    keptAt_advance ((kept_iff_keptAt hu he).mp h),hid]
  constructor
  · exact fun hall item hitem hie hir => hall item ((mem_items_iff hu he).mp ⟨hitem,hie⟩) hir
  · intro hall item hitem hir
    obtain ⟨hmem,hie⟩ := (mem_items_iff hu he).mpr hitem
    exact hall item hmem hie hir

end Pass

section Passes
variable {events : List Event}

theorem event_afterPasses (hu : EventIdsUnique events) {e : Event} (he : e ∈ events)
    (ps : List Pass) : ∃ x ∈ afterPasses events ps,x.id = e.id := by
  induction ps using List.reverseRecOn with
  | nil => exact ⟨e,he,rfl⟩
  | append_singleton ps p ih =>
      obtain ⟨x,hx,hid⟩ := ih
      refine ⟨p.advance x,?_,hid⟩
      rw [afterPasses_concat,process_eq_map (unique_afterPasses hu ps)]
      exact List.mem_map_of_mem hx

theorem kept_concat (hu : EventIdsUnique events) {e : Event} (he : e ∈ events) {ruleId : ℕ}
    {ps : List Pass} (p : Pass) (h : Kept (afterPasses events ps) e.id ruleId) :
    Kept (afterPasses events (ps++[p])) e.id ruleId ↔
      Relayed p e.id ruleId (afterPasses events ps) := by
  obtain ⟨x,hx,hid⟩ := event_afterPasses hu he ps
  rw [afterPasses_concat,← hid]
  rw [← hid] at h
  exact kept_process (unique_afterPasses hu ps) hx h

/-- A scheduled delivery stays scheduled, delivered, a dead letter or cancelled throughout a run
of passes exactly when none of them takes it up as an email without a relay host. -/
theorem scheduled_kept_iff_relayed (hu : EventIdsUnique events) {e : Event} (he : e ∈ events)
    {i : ℕ} {a : Attempt} (hl : IsLatest e.deliveryAttempts i a)
    (hs : a.status = .providerRetryScheduled) (ps : List Pass) :
    (∀ qs,qs <+: ps → Kept (afterPasses events qs) e.id a.ruleId) ↔
      ∀ qs p,qs++[p] <+: ps → Relayed p e.id a.ruleId (afterPasses events qs) := by
  constructor
  · intro hall qs p hp
    have hqs := hall qs ((List.prefix_append qs [p]).trans hp)
    exact (kept_concat hu he p hqs).mp (hall _ hp)
  · intro hall qs
    induction qs using List.reverseRecOn with
    | nil => exact fun _ => ⟨e,he,rfl,i,a,hl,rfl,by rw [hs]; rfl⟩
    | append_singleton qs p ih =>
        intro hp
        have hqs := ih ((List.prefix_append qs [p]).trans hp)
        exact (kept_concat hu he p hqs).mpr (hall qs p hp)

end Passes

def mailAttempt : Attempt :=
  ⟨.initial 7 1,1,.email,.providerRetryScheduled,"smtp_send_failed",0,some 0,some 1,some 3,
    some 60000,some "smtp_send_failed",some false⟩

def mailEvent : Event := ⟨7,"ten_a","report.ready",[mailAttempt]⟩

def mailRule : Rule :=
  ⟨1,"ten_a",.email,"ops@example.test",["report.ready"],true,none,reportReady_known⟩

/-- A retry pass one backoff later, with or without a relay host. -/
def mailPass (configured : Bool) : Pass :=
  ⟨"ten_a",60000,60000,false,[.email],fun _ => [mailRule],fun _ => ⟨true,configured,false,none⟩,
    fun _ => .next 1⟩

theorem mailAttempt_latest : IsLatest mailEvent.deliveryAttempts 0 mailAttempt := by
  refine ⟨rfl,fun j b hj hb => ?_⟩
  obtain ⟨k,rfl⟩ := Nat.exists_eq_add_of_le' hj
  simp [mailEvent] at hb

theorem configured_mail_kept :
    mailAttempt.status = .providerRetryScheduled ∧
      Kept (afterPasses [mailEvent] [mailPass true]) 7 1 := by
  refine ⟨rfl,(@scheduled_kept_iff_relayed [mailEvent] (by simp [EventIdsUnique]) _
    List.mem_cons_self _ _ mailAttempt_latest rfl [mailPass true]).mpr ?_ _ (List.prefix_refl _)⟩
  intro qs p hp item _ _ _
  obtain rfl : p = mailPass true := by
    have hmem := hp.subset (List.mem_append_right qs (List.mem_singleton_self p))
    exact List.mem_singleton.mp hmem
  simp [relayMissing,mailPass]

def strandedAttempt : Attempt :=
  buildRetryAttemptBase mailAttempt 60000 (.next 1) .queuedProviderNotConfigured
    "smtp_host_not_configured"

/-- Without a relay host the retry ends in a state that neither a retry nor a redrive takes
up. -/
theorem unconfigured_mail_stranded :
    mailAttempt.status = .providerRetryScheduled ∧
      ¬ Kept (afterPasses [mailEvent] [mailPass false]) 7 1 ∧
      (∀ asOf,collectDueNotificationRetries (afterPasses [mailEvent] [mailPass false]) asOf = []) ∧
      collectDlqNotificationAttempts (afterPasses [mailEvent] [mailPass false]) none none = [] := by
  have hafter : afterPasses [mailEvent] [mailPass false] =
      [{ mailEvent with deliveryAttempts := [mailAttempt,strandedAttempt] }] := by
    decide
  have hlatest : latestDeliveryAttemptsByRule [mailAttempt,strandedAttempt] =
      [(1,strandedAttempt)] := by
    decide
  have hstatus : strandedAttempt.status = .queuedProviderNotConfigured := rfl
  rw [hafter]
  refine ⟨rfl,?_,fun asOf => ?_,?_⟩
  · rintro ⟨e,he,-,i,a,hl,-,hk⟩
    obtain rfl := List.mem_singleton.mp he
    have hmem := mem_latest.mpr hl
    rw [hlatest] at hmem
    obtain ⟨-,rfl⟩ := Prod.mk.inj (List.mem_singleton.mp hmem)
    exact absurd hk (by decide)
  · simp [collectDueNotificationRetries,collectItems,hlatest,isNotificationRetryDue,hstatus]
  · simp [collectDlqNotificationAttempts,collectItems,hlatest,hstatus]

end AstraNull.NotificationStranding

import Mathlib
import AstraNull.Tables
import AstraNull.NotificationDelivery

/-!
# How often a notification is sent

One emission, then any number of retry passes one after the other, at any times, under any
delivery modes, against any state of the rules and with any answers of the providers. For a
pair of event and rule, the sends are listed with their outcomes. A webhook delivery counts
its attempts and ends in the dead letters. The adapters for email, Slack and Teams answer
every failure as if it were the first one, and the retry takes their word for it.
-/
namespace AstraNull.NotificationBound
open NotificationDelivery Tables

/-- One emission: the rules of its list and, for the gate of each, the rules at send time. -/
structure Emission where
  eventId : ℕ
  tenantId : String
  trigger : String
  now : Time
  modes : List Channel
  rules : List Rule
  live : ℕ → List Rule
  reply : ℕ → Reply
  unique : (rules.map Rule.id).Nodup

def Emission.subscribed (m : Emission) : List Rule :=
  m.rules.filter fun r => r.tenantId == m.tenantId && r.enabled && r.triggers.contains m.trigger

def Emission.gate (m : Emission) (ruleId : ℕ) : Gate :=
  evaluateNotificationRuleDeliveryGate (resolveRule (m.live ruleId) m.tenantId ruleId) m.trigger

def Emission.destination (m : Emission) (ruleId : ℕ) : String :=
  destinationOf (resolveRule (m.live ruleId) m.tenantId ruleId)

def Emission.attempt (m : Emission) (rule : Rule) : Attempt :=
  let initial := buildNotificationDeliveryAttempt m.eventId rule m.now
  if rule.channel = .inApp then initial
  else finalizeGated m.modes initial (m.gate rule.id) (m.destination rule.id) (m.reply rule.id)
    m.now

def emitNotification (m : Emission) : Event where
  id := m.eventId
  tenantId := m.tenantId
  trigger := m.trigger
  deliveryAttempts := m.subscribed.map m.attempt

/-- The emission sends for the rule. -/
def Emission.sends (m : Emission) (rule : Rule) : Bool :=
  m.gate rule.id = .deliver && outbound m.modes rule.channel (m.destination rule.id) &&
    (m.reply rule.id).sends rule.channel

/-- One call of processDueNotificationRetries, with the rules as each item finds them. -/
structure Pass where
  tenantId : String
  asOf : Time
  now : Time
  dryRun : Bool
  modes : List Channel
  rules : Item → List Rule
  reply : Item → Reply
  newAttemptId : Item → AttemptId

def Pass.gate (p : Pass) (item : Item) : Gate :=
  evaluateNotificationRuleDeliveryGate (resolveRule (p.rules item) p.tenantId item.attempt.ruleId)
    item.trigger

def Pass.destination (p : Pass) (item : Item) : String :=
  destinationOf (resolveRule (p.rules item) p.tenantId item.attempt.ruleId)

/-- The record a pass makes of an item, if it makes one. -/
def Pass.record (p : Pass) (item : Item) : Option Attempt :=
  if p.dryRun then none
  else match p.gate item with
    | .hold => none
    | .cancel status reason => some (buildRuleRemovedCancellationAttempt item.attempt status
        reason p.now (p.newAttemptId item))
    | _ => some (buildRetryDeliveryAttempt p.modes item.attempt (p.destination item)
        (p.reply item) p.now (p.newAttemptId item))

/-- The pass sends for the item. -/
def Pass.sends (p : Pass) (item : Item) : Bool :=
  !p.dryRun && (p.gate item = .deliver || p.gate item = .unknown) &&
    retryChannelActive p.modes item.attempt.channel && p.destination item != "" &&
    (p.reply item).sends item.attempt.channel

def Pass.items (p : Pass) (events : List Event) : List Item :=
  collectDueNotificationRetries (events.filter fun e => e.tenantId == p.tenantId) p.asOf

/-- The records of a pass, each with its event. -/
def Pass.records (p : Pass) (events : List Event) : List (ℕ × Attempt) :=
  (p.items events).filterMap fun item => (p.record item).map fun record => (item.eventId,record)

def processDueNotificationRetries (p : Pass) (events : List Event) : List Event :=
  storeRecords p.tenantId (p.records events) events

/-- The items of one event. -/
def Pass.itemsOf (p : Pass) (event : Event) : List Item :=
  if event.tenantId = p.tenantId then collectDueNotificationRetries [event] p.asOf else []

def belongs (p : Pass) (event : Event) (item : Item) : Bool :=
  isEvent p.tenantId item.eventId event

theorem filter_items {p : Pass} {events : List Event} (hu : EventIdsUnique events) {e : Event}
    (he : e ∈ events) : (p.items events).filter (belongs p e) = p.itemsOf e := by
  have hown : ∀ x : Event,∀ item ∈ collectDueNotificationRetries [x] p.asOf,
      item.eventId = x.id := by
    intro x item hitem
    obtain ⟨y,hy,hid,-⟩ := mem_collectItems.mp hitem
    cases List.mem_singleton.mp hy
    exact hid
  have hone : ∀ x : Event,p.items [x] = p.itemsOf x := by
    intro x
    by_cases ht : x.tenantId = p.tenantId
    · simp [Pass.items,Pass.itemsOf,ht]
    · simp [Pass.items,Pass.itemsOf,ht,collectDueNotificationRetries,collectItems]
  have hcons : ∀ (x : Event) (xs : List Event),
      p.items (x::xs) = p.itemsOf x++p.items xs := by
    intro x xs
    rw [← hone]
    by_cases ht : x.tenantId = p.tenantId
    · simp [Pass.items,ht,collectDueNotificationRetries,collectItems]
    · simp [Pass.items,ht,collectDueNotificationRetries,collectItems]
  have hself : (p.itemsOf e).filter (belongs p e) = p.itemsOf e := by
    refine List.filter_eq_self.mpr fun item hitem => ?_
    by_cases ht : e.tenantId = p.tenantId
    · rw [Pass.itemsOf,if_pos ht] at hitem
      simp [belongs,isEvent,hown e item hitem,ht]
    · simp [Pass.itemsOf,ht] at hitem
  have hother : ∀ x : Event,x.id ≠ e.id → (p.itemsOf x).filter (belongs p e) = [] := by
    intro x hne
    refine List.filter_eq_nil_iff.mpr fun item hitem => ?_
    by_cases ht : x.tenantId = p.tenantId
    · rw [Pass.itemsOf,if_pos ht] at hitem
      simp [belongs,isEvent,hown x item hitem,Ne.symm hne]
    · simp [Pass.itemsOf,ht] at hitem
  have hnone : ∀ xs : List Event,(∀ x ∈ xs,x.id ≠ e.id) →
      (p.items xs).filter (belongs p e) = [] := by
    intro xs hxs
    induction xs with
    | nil => rfl
    | cons x xs ih =>
        rw [hcons,List.filter_append,hother x (hxs x (by simp)),
          ih fun y hy => hxs y (by simp [hy])]
        rfl
  induction events with
  | nil => cases he
  | cons x xs ih =>
      obtain ⟨hx,hxs⟩ := List.nodup_cons.mp hu
      rw [hcons,List.filter_append]
      rcases List.mem_cons.mp he with rfl | he
      · rw [hself,hnone xs fun y hy hid => hx (hid ▸ List.mem_map_of_mem hy),List.append_nil]
      · have hne : x.id ≠ e.id := fun hid => hx (hid ▸ List.mem_map_of_mem he)
        rw [hother x hne,ih hxs he,List.nil_append]

theorem records_of_event (p : Pass) (items : List Item) (e : Event) :
    ((items.filterMap fun i => (p.record i).map fun r => (i.eventId,r)).filter fun row =>
      isEvent p.tenantId row.1 e).map Prod.snd = (items.filter (belongs p e)).filterMap p.record := by
  induction items with
  | nil => rfl
  | cons item items ih =>
      by_cases hb : belongs p e item = true
      · have hi : isEvent p.tenantId item.eventId e = true := hb
        cases hr : p.record item <;> simp [hr,hb,hi,ih]
      · have hi : isEvent p.tenantId item.eventId e = false := by simpa [belongs] using hb
        cases hr : p.record item <;> simp [hr,hb,hi,ih]

/-- What a pass does to one event. -/
theorem process_eq_map {p : Pass} {events : List Event} (hu : EventIdsUnique events) :
    processDueNotificationRetries p events =
      events.map fun e => appendAttempts ((p.itemsOf e).filterMap p.record) e := by
  rw [processDueNotificationRetries,storeRecords_eq_map hu]
  refine List.map_congr_left fun e he => ?_
  rw [Pass.records,records_of_event,filter_items hu he]

/-- An adapter asks for a retry exactly when its send failed. -/
theorem deliverer_retry {channel : Channel} {deliver : Reply → ProviderResult}
    (h : deliverer channel = some deliver) (reply : Reply) :
    (deliver reply).status = .providerRetryScheduled ↔
      reply.sends channel = true ∧ reply.ok = false := by
  obtain ⟨accepted,configured,ok,error⟩ := reply
  cases channel with
  | inApp => cases h
  | webhook => cases h
  | email =>
      cases h
      cases accepted <;> cases configured <;> cases ok <;>
        simp [deliverEmail,Reply.sends,webhookMaxAttempts]
  | slack =>
      cases h
      cases accepted <;> cases ok <;>
        simp [deliverSlack,deliverHttps,mapProviderSendResult,Reply.sends,webhookMaxAttempts]
  | teams =>
      cases h
      cases accepted <;> cases ok <;>
        simp [deliverTeams,deliverHttps,mapProviderSendResult,Reply.sends,webhookMaxAttempts]

theorem applyProviderResult_retry {attempt : Attempt} {result : ProviderResult} {now : Time}
    (h : attempt.status ≠ .providerRetryScheduled) :
    (applyProviderResult attempt result now).status = .providerRetryScheduled ↔
      result.status = .providerRetryScheduled := by
  unfold applyProviderResult
  split_ifs with hq hd hr
  · simp [hq,h]
  · simp [hd]
  · simp [hr]
  · simp [hr]

theorem mapRetryProviderDeliveryResult_retry {base : Status → String → Attempt}
    {result : ProviderResult} {now : Time} (h : ∀ s r,(base s r).status = s) :
    (mapRetryProviderDeliveryResult base result now).status = .providerRetryScheduled ↔
      result.status = .providerRetryScheduled := by
  unfold mapRetryProviderDeliveryResult
  cases hs : result.status <;> simp [retryScheduled,failedDlq,h]

/-- The state of a pair after its sends: what they were answered, and its latest attempt. -/
structure Tracked (answers : List Bool) (attempt : Attempt) : Prop where
  open_failed : attempt.status = .providerRetryScheduled → ∀ ok ∈ answers,ok = false
  earlier_failed : ∀ ok ∈ answers.dropLast,ok = false
  limit : deliverer attempt.channel = none →
    attempt.maxAttempts.getD webhookMaxAttempts = webhookMaxAttempts
  counted : deliverer attempt.channel = none → attempt.status = .providerRetryScheduled →
    answers.length ≤ attempt.attemptNumber.getD 1 ∧
      attempt.attemptNumber.getD 1 < webhookMaxAttempts
  bounded : deliverer attempt.channel = none → answers.length ≤ webhookMaxAttempts
  dead : deliverer attempt.channel = none → answers.length = webhookMaxAttempts →
    (∀ ok ∈ answers,ok = false) → attempt.status = .providerFailedDlq

/-- The attempt of an emission, after one send at most. -/
theorem tracked_first {answers : List Bool} {attempt : Attempt} (hone : answers.length ≤ 1)
    (hlimit : deliverer attempt.channel = none →
      attempt.maxAttempts.getD webhookMaxAttempts = webhookMaxAttempts)
    (hfailed : attempt.status = .providerRetryScheduled → ∀ ok ∈ answers,ok = false)
    (hcount : deliverer attempt.channel = none → attempt.status = .providerRetryScheduled →
      answers.length ≤ attempt.attemptNumber.getD 1 ∧
        attempt.attemptNumber.getD 1 < webhookMaxAttempts) : Tracked answers attempt where
  open_failed := hfailed
  earlier_failed := by
    rcases answers with _ | ⟨b,_ | ⟨c,answers⟩⟩
    · simp
    · simp
    · simp at hone
  limit := hlimit
  counted := hcount
  bounded _ := hone.trans (by decide)
  dead _ hlen := by
    rw [hlen] at hone
    exact absurd hone (by decide)

/-- A record that follows an open attempt: with a send and its answer, or without one. -/
theorem Tracked.record {answers new : List Bool} {attempt record : Attempt}
    (h : Tracked answers attempt) (hopen : attempt.status = .providerRetryScheduled)
    (hnew : new.length ≤ 1) (hchannel : record.channel = attempt.channel)
    (hlimit : record.maxAttempts = some (attempt.maxAttempts.getD webhookMaxAttempts))
    (hfailed : record.status = .providerRetryScheduled → ∀ ok ∈ new,ok = false)
    (hcount : deliverer record.channel = none → record.status = .providerRetryScheduled →
      record.attemptNumber = some (attempt.attemptNumber.getD 1+1) ∧
        attempt.attemptNumber.getD 1+1 < webhookMaxAttempts)
    (hdead : deliverer record.channel = none → attempt.attemptNumber.getD 1 = 2 →
      new = [false] → record.status = .providerFailedDlq) :
    Tracked (answers++new) record where
  open_failed hs := by
    intro ok hok
    rcases List.mem_append.mp hok with hok | hok
    · exact h.open_failed hopen ok hok
    · exact hfailed hs ok hok
  earlier_failed := by
    intro ok hok
    have hall := h.open_failed hopen
    rcases new with _ | ⟨b,_ | ⟨c,new⟩⟩
    · rw [List.append_nil] at hok
      exact hall ok (List.dropLast_subset _ hok)
    · rw [List.dropLast_concat] at hok
      exact hall ok hok
    · simp at hnew
  limit hw := by simp [hlimit,h.limit (hchannel ▸ hw)]
  counted hw hs := by
    obtain ⟨hn,hlt⟩ := hcount hw hs
    have hle := (h.counted (hchannel ▸ hw) hopen).1
    rw [hn,Option.getD_some,List.length_append]
    exact ⟨by omega,hlt⟩
  bounded hw := by
    have hle := h.counted (hchannel ▸ hw) hopen
    rw [List.length_append]
    omega
  dead hw hlen hall := by
    have hle := h.counted (hchannel ▸ hw) hopen
    rw [List.length_append] at hlen
    have hn : attempt.attemptNumber.getD 1 = 2 := by
      simp only [webhookMaxAttempts] at hle hlen
      omega
    have hone : new.length = 1 := by
      simp only [webhookMaxAttempts] at hle hlen
      omega
    obtain ⟨ok,rfl⟩ := List.length_eq_one_iff.mp hone
    have hok : ok = false := hall ok (by simp)
    exact hdead hw hn (by rw [hok])

/-- The answer to the send of an emission, if it sends. -/
def Emission.answers (m : Emission) (rule : Rule) : List Bool :=
  if m.sends rule then [(m.reply rule.id).ok] else []

theorem length_emission_answers (m : Emission) (rule : Rule) : (m.answers rule).length ≤ 1 := by
  unfold Emission.answers
  split
  · simp
  · simp

theorem applyProviderResult_channel {attempt : Attempt} {result : ProviderResult} {now : Time} :
    (applyProviderResult attempt result now).channel = attempt.channel := by
  unfold applyProviderResult
  split_ifs <;> rfl

theorem finalizeWebhookAttempt_numbers {attempt : Attempt} {reply : Reply} {now : Time} :
    (finalizeWebhookAttempt attempt reply now).attemptNumber = some 1 ∧
      (finalizeWebhookAttempt attempt reply now).maxAttempts = some webhookMaxAttempts := by
  unfold finalizeWebhookAttempt
  split_ifs <;> exact ⟨rfl,rfl⟩

theorem finalizeWebhookAttempt_retry {attempt : Attempt} {reply : Reply} {now : Time} :
    (finalizeWebhookAttempt attempt reply now).status = .providerRetryScheduled ↔
      reply.accepted = true ∧ reply.ok = false := by
  unfold finalizeWebhookAttempt
  split_ifs with ha ho
  · simp [ha]
  · simp [ho]
  · simp [ha,ho,webhookMaxAttempts]

theorem sends_accepted {channel : Channel} {reply : Reply} (h : deliverer channel = none) :
    reply.sends channel = reply.accepted := by
  cases channel <;> simp_all [deliverer,Reply.sends]

section
variable (m : Emission) (rule : Rule)

theorem initial_status : (buildNotificationDeliveryAttempt m.eventId rule m.now).status ≠
    .providerRetryScheduled := by
  simp only [buildNotificationDeliveryAttempt,deliveryStatusForChannel]
  split <;> simp

/-- An attempt that the emission leaves as it was built. -/
theorem initial_tracked (hm : m.sends rule = false) :
    Tracked (m.answers rule) (buildNotificationDeliveryAttempt m.eventId rule m.now) := by
  have hnil : m.answers rule = [] := by simp [Emission.answers,hm]
  rw [hnil]
  apply tracked_first
  · simp
  · intro _
    rfl
  · simp
  · intro _ hs
    exact absurd hs (initial_status m rule)

theorem finalize_tracked (hg : m.gate rule.id = .deliver) :
    Tracked (m.answers rule) (finalizeNotificationDeliveryAttempt m.modes
      (buildNotificationDeliveryAttempt m.eventId rule m.now) (m.destination rule.id)
      (m.reply rule.id) m.now) := by
  have hc : (buildNotificationDeliveryAttempt m.eventId rule m.now).channel = rule.channel := rfl
  unfold finalizeNotificationDeliveryAttempt
  rw [hc]
  by_cases hout : outbound m.modes rule.channel (m.destination rule.id) = true
  · rw [if_pos hout]
    have hans : m.answers rule =
        if (m.reply rule.id).sends rule.channel then [(m.reply rule.id).ok] else [] := by
      simp [Emission.answers,Emission.sends,hg,hout]
    cases hd : deliverer rule.channel with
    | some deliver =>
        dsimp only
        have hw : deliverer (applyProviderResult
            (buildNotificationDeliveryAttempt m.eventId rule m.now) (deliver (m.reply rule.id))
            m.now).channel ≠ none := by
          rw [applyProviderResult_channel,hc,hd]
          simp
        apply tracked_first (length_emission_answers m rule)
        · exact fun h => absurd h hw
        · rw [applyProviderResult_retry (initial_status m rule),deliverer_retry hd]
          rintro ⟨hsend,hok⟩
          simp [hans,hsend,hok]
        · exact fun h => absurd h hw
    | none =>
        dsimp only
        rw [sends_accepted hd] at hans
        obtain ⟨hn,hmax⟩ := @finalizeWebhookAttempt_numbers
          (buildNotificationDeliveryAttempt m.eventId rule m.now) (m.reply rule.id) m.now
        apply tracked_first (length_emission_answers m rule)
        · intro _
          rw [hmax]
          rfl
        · rw [finalizeWebhookAttempt_retry]
          rintro ⟨ha,hok⟩
          simp [hans,ha,hok]
        · intro _ _
          rw [hn]
          exact ⟨length_emission_answers m rule,by decide⟩
  · rw [if_neg hout]
    exact initial_tracked m rule (by simp [Emission.sends,hout])

/-- What the emission leaves for a rule. -/
theorem emission_tracked : Tracked (m.answers rule) (m.attempt rule) := by
  unfold Emission.attempt
  dsimp only
  by_cases hi : rule.channel = .inApp
  · rw [if_pos hi]
    exact initial_tracked m rule (by simp [Emission.sends,outbound,hi])
  · rw [if_neg hi]
    have hnil : m.gate rule.id ≠ .deliver → m.answers rule = [] := by
      intro hg
      simp [Emission.answers,Emission.sends,hg]
    unfold finalizeGated
    cases hg : m.gate rule.id with
    | deliver => exact finalize_tracked m rule hg
    | unknown => exact initial_tracked m rule (by simp [Emission.sends,hg])
    | hold =>
        rw [hnil (by simp [hg])]
        apply tracked_first
        · simp
        · intro _
          rfl
        · simp
        · intro _ _
          have hn : (0 : ℕ) < webhookMaxAttempts := by decide
          exact ⟨by simp,hn⟩
    | cancel status reason =>
        rw [hnil (by simp [hg])]
        have hs : status ≠ .providerRetryScheduled := by
          rintro rfl
          simpa [Status.isCancelled] using gate_cancel hg
        apply tracked_first
        · simp
        · intro _
          rfl
        · simp
        · exact fun _ h => absurd h hs

end

/-- The answer to the send of a retry, if it sends. -/
def Pass.answer (p : Pass) (item : Item) : List Bool :=
  if p.sends item then [(p.reply item).ok] else []

section
variable {p : Pass} {item : Item} {record : Attempt}

theorem length_answer : (p.answer item).length ≤ 1 := by
  unfold Pass.answer
  split
  · simp
  · simp

/-- Without a record there was no send. -/
theorem answer_of_record_none (h : p.record item = none) : p.answer item = [] := by
  unfold Pass.record at h
  split_ifs at h with hd
  · simp [Pass.answer,Pass.sends,hd]
  · cases hg : p.gate item with
    | hold => simp [Pass.answer,Pass.sends,hg]
    | deliver => simp [hg] at h
    | unknown => simp [hg] at h
    | cancel status reason => simp [hg] at h

/-- A record is a cancellation without a send, or what a delivery made of the attempt. -/
theorem record_cases (h : p.record item = some record) :
    (p.answer item = [] ∧ ∃ status reason,status.isCancelled = true ∧
      record = buildRuleRemovedCancellationAttempt item.attempt status reason p.now
        (p.newAttemptId item)) ∨
    (p.answer item = (if retryChannelActive p.modes item.attempt.channel &&
        p.destination item != "" && (p.reply item).sends item.attempt.channel
        then [(p.reply item).ok] else []) ∧
      record = buildRetryDeliveryAttempt p.modes item.attempt (p.destination item)
        (p.reply item) p.now (p.newAttemptId item)) := by
  unfold Pass.record at h
  split_ifs at h with hd
  cases hg : p.gate item with
  | hold => simp [hg] at h
  | cancel status reason =>
      rw [hg] at h
      exact Or.inl ⟨by simp [Pass.answer,Pass.sends,hg],status,reason,gate_cancel hg,
        (Option.some.inj h).symm⟩
  | deliver =>
      rw [hg] at h
      exact Or.inr ⟨by simp [Pass.answer,Pass.sends,hg,hd],(Option.some.inj h).symm⟩
  | unknown =>
      rw [hg] at h
      exact Or.inr ⟨by simp [Pass.answer,Pass.sends,hg,hd],(Option.some.inj h).symm⟩

theorem mapRetryProviderDeliveryResult_cases (base : Status → String → Attempt)
    (result : ProviderResult) (now : Time) : ∃ status reason next error exhausted,
    mapRetryProviderDeliveryResult base result now =
      { base status reason with
        nextRetryAt := next
        providerError := error
        exhausted := exhausted } := by
  unfold mapRetryProviderDeliveryResult
  cases result.status <;> exact ⟨_,_,_,_,_,rfl⟩

/-- A retry keeps rule, channel and limit and counts one further attempt. -/
theorem buildRetryDeliveryAttempt_kept {modes : List Channel} {attempt : Attempt}
    {destination : String} {reply : Reply} {now : Time} {newAttemptId : AttemptId} :
    ∃ status reason next error exhausted,
    buildRetryDeliveryAttempt modes attempt destination reply now newAttemptId =
      { buildRetryAttemptBase attempt now newAttemptId status reason with
        nextRetryAt := next
        providerError := error
        exhausted := exhausted } := by
  unfold buildRetryDeliveryAttempt buildMetadataOnlyRetryDeliveryAttempt
    buildWebhookRetryDeliveryAttempt
  dsimp only
  split_ifs
  all_goals first | exact ⟨_,_,_,_,_,rfl⟩ | skip
  all_goals split
  all_goals first | exact mapRetryProviderDeliveryResult_cases _ _ _ | skip
  all_goals exact ⟨_,_,_,_,_,rfl⟩

/-- The number of the next attempt stays below the limit of the delivery. -/
def MayRetry (attempt : Attempt) : Prop :=
  attempt.attemptNumber.getD 1+1 < attempt.maxAttempts.getD webhookMaxAttempts

theorem metadataOnly_retry {attempt : Attempt} {now : Time} {newAttemptId : AttemptId} :
    (buildMetadataOnlyRetryDeliveryAttempt attempt now newAttemptId).status =
      .providerRetryScheduled ↔ MayRetry attempt := by
  unfold buildMetadataOnlyRetryDeliveryAttempt MayRetry
  dsimp only
  split_ifs with hle
  · simp [failedDlq,buildRetryAttemptBase,hle]
  · simp [retryScheduled,buildRetryAttemptBase,Nat.lt_of_not_le hle]

theorem webhook_retry {attempt : Attempt} {reply : Reply} {now : Time}
    {newAttemptId : AttemptId} :
    (buildWebhookRetryDeliveryAttempt attempt reply now newAttemptId).status =
      .providerRetryScheduled ↔
        reply.accepted = true ∧ reply.ok = false ∧ MayRetry attempt := by
  unfold buildWebhookRetryDeliveryAttempt MayRetry
  dsimp only
  split_ifs with ha ho hn
  · simp [failedDlq,buildRetryAttemptBase,ha]
  · simp [buildRetryAttemptBase,ho]
  · simp [retryScheduled,buildRetryAttemptBase,ha,ho,hn]
  · simp [failedDlq,buildRetryAttemptBase,hn]

theorem webhook_dead {attempt : Attempt} {reply : Reply} {now : Time}
    {newAttemptId : AttemptId} (ha : reply.accepted = true) (ho : reply.ok = false)
    (hn : ¬ MayRetry attempt) :
    (buildWebhookRetryDeliveryAttempt attempt reply now newAttemptId).status =
      .providerFailedDlq := by
  unfold MayRetry at hn
  simp [buildWebhookRetryDeliveryAttempt,ha,ho,hn,failedDlq,buildRetryAttemptBase]

/-- The delivery of a retry, over whichever channel. -/
theorem Tracked.delivery {answers : List Bool} {attempt : Attempt} {modes : List Channel}
    {destination : String} {reply : Reply} {now : Time} {newAttemptId : AttemptId}
    (h : Tracked answers attempt) (hopen : attempt.status = .providerRetryScheduled) :
    Tracked (answers++if retryChannelActive modes attempt.channel && destination != "" &&
        reply.sends attempt.channel then [reply.ok] else [])
      (buildRetryDeliveryAttempt modes attempt destination reply now newAttemptId) := by
  obtain ⟨status,reason,next,error,exhausted,hkept⟩ := @buildRetryDeliveryAttempt_kept modes
    attempt destination reply now newAttemptId
  have hchannel : (buildRetryDeliveryAttempt modes attempt destination reply now
      newAttemptId).channel = attempt.channel := by rw [hkept]; rfl
  have hnumber : (buildRetryDeliveryAttempt modes attempt destination reply now
      newAttemptId).attemptNumber = some (attempt.attemptNumber.getD 1+1) := by rw [hkept]; rfl
  apply h.record hopen
  · split
    · simp
    · simp
  · exact hchannel
  · rw [hkept]
    rfl
  · intro hs ok hok
    unfold buildRetryDeliveryAttempt at hs
    dsimp only at hs
    split_ifs at hs with hactive hdest
    · simp [failedDlq,buildRetryAttemptBase] at hs
    · cases hd : deliverer attempt.channel with
      | some deliver =>
          rw [hd] at hs
          dsimp only at hs
          rw [mapRetryProviderDeliveryResult_retry fun _ _ => rfl,deliverer_retry hd] at hs
          simpa [hactive,hdest,hs.1,hs.2] using hok
      | none =>
          rw [hd] at hs
          have hsend := (webhook_retry.mp hs).2.1
          split at hok
          · rw [List.mem_singleton.mp hok,hsend]
          · cases hok
    · simp [hactive] at hok
  · intro hw hs
    rw [hchannel] at hw
    refine ⟨hnumber,?_⟩
    rw [← h.limit hw]
    unfold buildRetryDeliveryAttempt at hs
    dsimp only at hs
    split_ifs at hs with hactive hdest
    · simp [failedDlq,buildRetryAttemptBase] at hs
    · rw [hw] at hs
      exact (webhook_retry.mp hs).2.2
    · exact metadataOnly_retry.mp hs
  · intro hw hn hnew
    rw [hchannel] at hw
    have hmay : ¬ MayRetry attempt := by
      unfold MayRetry
      rw [h.limit hw,hn]
      decide
    split at hnew
    · rename_i hsend
      simp only [Bool.and_eq_true,bne_iff_ne,ne_eq] at hsend
      rw [sends_accepted hw] at hsend
      unfold buildRetryDeliveryAttempt
      dsimp only
      rw [if_pos hsend.1.1,if_neg hsend.1.2,hw]
      exact webhook_dead hsend.2 (List.singleton_inj.mp hnew) hmay
    · cases hnew

/-- What a pass makes of an open attempt. -/
theorem Tracked.retry {answers : List Bool} (h : Tracked answers item.attempt)
    (hopen : item.attempt.status = .providerRetryScheduled) (hr : p.record item = some record) :
    Tracked (answers++p.answer item) record := by
  rcases record_cases hr with ⟨hnil,status,reason,hcancel,rfl⟩ | ⟨hans,rfl⟩
  · rw [hnil]
    have hs : status ≠ .providerRetryScheduled := by
      rintro rfl
      simp [Status.isCancelled] at hcancel
    apply h.record hopen
    · simp
    · rfl
    · rfl
    · simp
    · exact fun _ hs' => absurd hs' hs
    · simp
  · rw [hans]
    exact h.delivery hopen

end

def Pass.advance (p : Pass) (event : Event) : Event :=
  appendAttempts ((p.itemsOf event).filterMap p.record) event

/-- The answers to the sends of a pass for a pair. -/
def Pass.answers (p : Pass) (eventId ruleId : ℕ) (events : List Event) : List Bool :=
  ((p.items events).filter fun i => i.eventId == eventId && i.attempt.ruleId == ruleId).flatMap
    p.answer

section
variable {p : Pass} {event : Event} {ruleId : ℕ}

theorem mem_itemsOf {item : Item} (h : item ∈ p.itemsOf event) :
    IsLatest event.deliveryAttempts item.index item.attempt ∧
      item.attempt.status = .providerRetryScheduled := by
  unfold Pass.itemsOf at h
  split_ifs at h
  · obtain ⟨e,he,-,-,hl,hdue⟩ := mem_collectItems.mp h
    cases List.mem_singleton.mp he
    simp only [isNotificationRetryDue,Bool.and_eq_true,decide_eq_true_eq] at hdue
    exact ⟨hl,hdue.1⟩
  · cases h

/-- A pass has at most one item of a pair. -/
theorem itemsOf_rule (p : Pass) (event : Event) (ruleId : ℕ) :
    ((p.itemsOf event).filter fun i => i.attempt.ruleId == ruleId) = [] ∨
    ∃ item ∈ p.itemsOf event,item.attempt.ruleId = ruleId ∧
      ((p.itemsOf event).filter fun i => i.attempt.ruleId == ruleId) = [item] := by
  have hnodup : ((p.itemsOf event).map fun i => i.attempt.ruleId).Nodup := by
    unfold Pass.itemsOf collectDueNotificationRetries collectItems
    split_ifs
    · simp only [List.flatMap_cons,List.flatMap_nil,List.append_nil,List.map_map]
      exact (nodup_latest event.deliveryAttempts).sublist (List.filter_sublist.map _)
    · simp
  generalize p.itemsOf event = items at hnodup
  induction items with
  | nil => exact Or.inl rfl
  | cons item items ih =>
      obtain ⟨hni,hnodup⟩ := List.nodup_cons.mp hnodup
      by_cases hr : item.attempt.ruleId = ruleId
      · have hrest : (items.filter fun i => i.attempt.ruleId == ruleId) = [] := by
          refine List.filter_eq_nil_iff.mpr fun i hi heq => hni ?_
          exact List.mem_map.mpr ⟨i,hi,(beq_iff_eq.mp heq).trans hr.symm⟩
        exact Or.inr ⟨item,by simp,hr,by simp [hr,hrest]⟩
      · rcases ih hnodup with hnil | ⟨x,hx,hxr,hone⟩
        · exact Or.inl (by simp [hr,hnil])
        · exact Or.inr ⟨x,List.mem_cons_of_mem _ hx,hxr,by simp [hr,hone]⟩

theorem record_kept {item : Item} {record : Attempt} (h : p.record item = some record) :
    record.ruleId = item.attempt.ruleId ∧ record.channel = item.attempt.channel := by
  rcases record_cases h with ⟨-,status,reason,-,rfl⟩ | ⟨-,rfl⟩
  · exact ⟨rfl,rfl⟩
  · obtain ⟨status,reason,next,error,exhausted,hkept⟩ := @buildRetryDeliveryAttempt_kept p.modes
      item.attempt (p.destination item) (p.reply item) p.now (p.newAttemptId item)
    rw [hkept]
    exact ⟨rfl,rfl⟩

/-- The answers to the sends of a pass for one rule of an event. -/
def Pass.answersOf (p : Pass) (ruleId : ℕ) (event : Event) : List Bool :=
  ((p.itemsOf event).filter fun i => i.attempt.ruleId == ruleId).flatMap p.answer

theorem length_answersOf : (p.answersOf ruleId event).length ≤ 1 := by
  unfold Pass.answersOf
  rcases itemsOf_rule p event ruleId with hnil | ⟨item,-,-,hone⟩
  · simp [hnil]
  · simpa [hone] using length_answer

/-- After a pass, the latest attempt of a rule is the old one or the record of its item. -/
theorem advance_latest {i : ℕ} {a : Attempt} (hl : IsLatest (p.advance event).deliveryAttempts i a)
    (hrule : a.ruleId = ruleId) :
    (p.answersOf ruleId event = [] ∧ IsLatest event.deliveryAttempts i a) ∨
    ∃ item ∈ p.itemsOf event,item.attempt.ruleId = ruleId ∧
      p.answersOf ruleId event = p.answer item ∧ p.record item = some a := by
  have hmem : ∀ record ∈ (p.itemsOf event).filterMap p.record,record.ruleId = ruleId →
      ∃ item ∈ (p.itemsOf event).filter fun i => i.attempt.ruleId == ruleId,
        p.record item = some record := by
    intro record hrec heq
    obtain ⟨item,hitem,hr⟩ := List.mem_filterMap.mp hrec
    refine ⟨item,List.mem_filter.mpr ⟨hitem,?_⟩,hr⟩
    rw [(record_kept hr).1] at heq
    simp [heq]
  unfold Pass.answersOf
  rcases itemsOf_rule p event ruleId with hnil | ⟨item,hitem,hir,hone⟩
  · rw [hnil] at hmem ⊢
    rcases isLatest_of_append hl with hrec | ⟨hold,-⟩
    · obtain ⟨item,hitem,-⟩ := hmem a hrec hrule
      cases hitem
    · exact Or.inl ⟨rfl,hold⟩
  · rw [hone] at hmem ⊢
    rw [List.flatMap_cons,List.flatMap_nil,List.append_nil]
    rcases isLatest_of_append hl with hrec | ⟨hold,hnone⟩
    · obtain ⟨x,hx,hr⟩ := hmem a hrec hrule
      cases List.mem_singleton.mp hx
      exact Or.inr ⟨item,hitem,hir,rfl,hr⟩
    · have hr : p.record item = none := by
        by_contra hc
        obtain ⟨record,hr⟩ := Option.ne_none_iff_exists'.mp hc
        refine hnone record (List.mem_filterMap.mpr ⟨item,hitem,hr⟩) ?_
        rw [(record_kept hr).1,hir,hrule]
      exact Or.inl ⟨answer_of_record_none hr,hold⟩

/-- The latest attempt of the rule, whichever it is, matches the answers so far. -/
def PairTracked (ruleId : ℕ) (channel : Channel) (answers : List Bool) (event : Event) : Prop :=
  ∀ i a,IsLatest event.deliveryAttempts i a → a.ruleId = ruleId →
    a.channel = channel ∧ Tracked answers a

theorem PairTracked.advance {answers : List Bool} {channel : Channel}
    (h : PairTracked ruleId channel answers event) :
    PairTracked ruleId channel (answers++p.answersOf ruleId event) (p.advance event) := by
  intro i a hl hrule
  rcases advance_latest hl hrule with ⟨hnil,hold⟩ | ⟨item,hitem,hir,hans,hr⟩
  · rw [hnil,List.append_nil]
    exact h i a hold hrule
  · obtain ⟨hlatest,hopen⟩ := mem_itemsOf hitem
    obtain ⟨hch,htracked⟩ := h _ _ hlatest hir
    rw [hans]
    exact ⟨(record_kept hr).2.trans hch,htracked.retry hopen hr⟩

/-- A failed send of an adapter is scheduled for another retry. -/
theorem adapter_reopens {channel : Channel} {answers : List Bool} {i : ℕ} {a : Attempt}
    (h : PairTracked ruleId channel answers event) (hd : (deliverer channel).isSome = true)
    (hnew : p.answersOf ruleId event = [false])
    (hl : IsLatest (p.advance event).deliveryAttempts i a) (hrule : a.ruleId = ruleId) :
    a.status = .providerRetryScheduled := by
  obtain ⟨deliver,hd⟩ := Option.isSome_iff_exists.mp hd
  rcases advance_latest hl hrule with ⟨hnil,-⟩ | ⟨item,hitem,hir,hans,hr⟩
  · rw [hnil] at hnew
    cases hnew
  · obtain ⟨hch,-⟩ := h _ _ (mem_itemsOf hitem).1 hir
    rw [hans] at hnew
    rcases record_cases hr with ⟨hnil,-⟩ | ⟨hans,rfl⟩
    · rw [hnil] at hnew
      cases hnew
    · rw [hans] at hnew
      split at hnew
      · rename_i hsend
        simp only [Bool.and_eq_true,bne_iff_ne,ne_eq] at hsend
        unfold buildRetryDeliveryAttempt
        dsimp only
        rw [if_pos hsend.1.1,if_neg hsend.1.2,hch,hd]
        dsimp only
        rw [mapRetryProviderDeliveryResult_retry fun _ _ => rfl,deliverer_retry hd,← hch]
        exact ⟨hsend.2,List.singleton_inj.mp hnew⟩
      · cases hnew

end

def afterPasses (events : List Event) (ps : List Pass) : List Event :=
  ps.foldl (fun events p => processDueNotificationRetries p events) events

def retryAnswers (eventId ruleId : ℕ) : List Event → List Pass → List Bool
  | _,[] => []
  | events,p::ps => p.answers eventId ruleId events++
      retryAnswers eventId ruleId (processDueNotificationRetries p events) ps

/-- The answers to all sends for the rule: of the emission, then of the passes. -/
def pairAnswers (events : List Event) (m : Emission) (rule : Rule) (ps : List Pass) : List Bool :=
  m.answers rule++retryAnswers m.eventId rule.id (events++[emitNotification m]) ps

def DeadLettered (events : List Event) (eventId ruleId : ℕ) : Prop :=
  ∃ e ∈ events,e.id = eventId ∧
    ∃ i a,IsLatest e.deliveryAttempts i a ∧ a.ruleId = ruleId ∧ a.status = .providerFailedDlq

/-- No more sends than the limit, and a delivery that used them up in vain is a dead letter. -/
def Bounded (events : List Event) (m : Emission) (rule : Rule) (ps : List Pass) : Prop :=
  (pairAnswers events m rule ps).length ≤ webhookMaxAttempts ∧
  ((pairAnswers events m rule ps).length = webhookMaxAttempts →
    (∀ ok ∈ pairAnswers events m rule ps,ok = false) →
    DeadLettered (afterPasses (events++[emitNotification m]) ps) m.eventId rule.id)

theorem afterPasses_concat (events : List Event) (ps : List Pass) (p : Pass) :
    afterPasses events (ps++[p]) = processDueNotificationRetries p (afterPasses events ps) := by
  simp [afterPasses]

theorem retryAnswers_concat (eventId ruleId : ℕ) (events : List Event) (ps : List Pass)
    (p : Pass) : retryAnswers eventId ruleId events (ps++[p]) =
      retryAnswers eventId ruleId events ps++p.answers eventId ruleId (afterPasses events ps) := by
  induction ps generalizing events with
  | nil => simp [retryAnswers,afterPasses]
  | cons q ps ih => simp [retryAnswers,ih,afterPasses]

theorem unique_process {p : Pass} {events : List Event} (hu : EventIdsUnique events) :
    EventIdsUnique (processDueNotificationRetries p events) := by
  rw [process_eq_map hu]
  exact hu.appendAttempts _

theorem unique_afterPasses {events : List Event} (hu : EventIdsUnique events) (ps : List Pass) :
    EventIdsUnique (afterPasses events ps) := by
  induction ps using List.reverseRecOn with
  | nil => exact hu
  | append_singleton ps p ih =>
      rw [afterPasses_concat]
      exact unique_process ih

theorem answers_eq {p : Pass} {events : List Event} (hu : EventIdsUnique events) {e : Event}
    (he : e ∈ events) (ruleId : ℕ) : p.answers e.id ruleId events = p.answersOf ruleId e := by
  unfold Pass.answers Pass.answersOf
  rw [← filter_items hu he,List.filter_filter]
  congr 1
  refine List.filter_congr fun item hitem => ?_
  obtain ⟨x,hx,hid,-⟩ := mem_collectItems.mp hitem
  obtain ⟨hx,ht⟩ := List.mem_filter.mp hx
  by_cases h : item.eventId = e.id
  · cases unique_event hu hx he (hid.symm.trans h)
    simp [belongs,isEvent,h,ht]
  · have hl : (item.eventId == e.id) = false := beq_eq_false_iff_ne.mpr h
    have hr : (e.id == item.eventId) = false := beq_eq_false_iff_ne.mpr (Ne.symm h)
    simp [belongs,isEvent,hl,hr]

theorem exists_latest {l : List Attempt} {ruleId : ℕ} (h : ∃ a ∈ l,a.ruleId = ruleId) :
    ∃ i a,IsLatest l i a ∧ a.ruleId = ruleId := by
  induction l using List.reverseRecOn with
  | nil =>
      obtain ⟨a,ha,-⟩ := h
      cases ha
  | append_singleton l x ih =>
      by_cases hx : x.ruleId = ruleId
      · exact ⟨l.length,x,isLatest_append.mpr (Or.inl ⟨rfl,rfl⟩),hx⟩
      · obtain ⟨a,ha,hr⟩ := h
        rcases List.mem_append.mp ha with ha | ha
        · obtain ⟨i,b,hl,hb⟩ := ih ⟨a,ha,hr⟩
          exact ⟨i,b,isLatest_append.mpr (Or.inr ⟨hl,fun hc => hx (hc ▸ hb)⟩),hb⟩
        · cases List.mem_singleton.mp ha
          exact absurd hr hx

theorem attempt_kept (m : Emission) (rule : Rule) :
    (m.attempt rule).ruleId = rule.id ∧ (m.attempt rule).channel = rule.channel := by
  unfold Emission.attempt finalizeGated finalizeNotificationDeliveryAttempt
    applyProviderResult finalizeWebhookAttempt
  dsimp only
  repeat' split
  all_goals exact ⟨rfl,rfl⟩

section
variable {events : List Event} {m : Emission} {rule : Rule}

/-- What holds of the event of an emission after any passes. -/
structure Followed (m : Emission) (rule : Rule) (answers : List Bool) (e : Event) : Prop where
  id : e.id = m.eventId
  tracked : PairTracked rule.id rule.channel answers e
  present : ∃ a ∈ e.deliveryAttempts,a.ruleId = rule.id

theorem emitted_followed (hr : rule ∈ m.subscribed) :
    Followed m rule (m.answers rule) (emitNotification m) where
  id := rfl
  tracked := by
    intro i a hl hid
    obtain ⟨r,hmem,rfl⟩ := List.mem_map.mp (List.mem_of_getElem? hl.1)
    rw [(attempt_kept m r).1] at hid
    have heq : r = rule := List.inj_on_of_nodup_map m.unique (List.mem_of_mem_filter hmem)
      (List.mem_of_mem_filter hr) hid
    rw [heq]
    exact ⟨(attempt_kept m rule).2,emission_tracked m rule⟩
  present := ⟨m.attempt rule,List.mem_map_of_mem hr,(attempt_kept m rule).1⟩

theorem pairAnswers_concat (ps : List Pass) (p : Pass) :
    pairAnswers events m rule (ps++[p]) = pairAnswers events m rule ps++
      p.answers m.eventId rule.id (afterPasses (events++[emitNotification m]) ps) := by
  simp [pairAnswers,retryAnswers_concat]

/-- The event of the emission is followed through the passes. -/
theorem followed (hu : EventIdsUnique (events++[emitNotification m])) (hr : rule ∈ m.subscribed)
    (ps : List Pass) : ∃ e ∈ afterPasses (events++[emitNotification m]) ps,
      Followed m rule (pairAnswers events m rule ps) e := by
  induction ps using List.reverseRecOn with
  | nil =>
      refine ⟨emitNotification m,by simp [afterPasses],?_⟩
      simpa [pairAnswers,retryAnswers] using emitted_followed hr
  | append_singleton ps p ih =>
      obtain ⟨e,he,hf⟩ := ih
      have hup := unique_afterPasses hu ps
      rw [afterPasses_concat,process_eq_map hup,pairAnswers_concat,← hf.id,answers_eq hup he]
      refine ⟨p.advance e,List.mem_map_of_mem he,hf.id,hf.tracked.advance,?_⟩
      obtain ⟨a,ha,hid⟩ := hf.present
      exact ⟨a,List.mem_append_left _ ha,hid⟩

/-- The rule's sends go through an adapter, and its first ones all fail. -/
def AdapterFails (events : List Event) (m : Emission) (rule : Rule) (ps : List Pass) : Prop :=
  (deliverer rule.channel).isSome = true ∧
    (pairAnswers events m rule ps).take webhookMaxAttempts = [false,false,false]

theorem adapterFails_of_init {ps : List Pass} {k : ℕ}
    (h : AdapterFails events m rule (ps.take k)) : AdapterFails events m rule ps := by
  have hpre : ∀ qs,∃ more,pairAnswers events m rule (ps.take k++qs) =
      pairAnswers events m rule (ps.take k)++more := by
    intro qs
    induction qs using List.reverseRecOn with
    | nil => exact ⟨[],by simp⟩
    | append_singleton qs q ih =>
        obtain ⟨more,hmore⟩ := ih
        rw [← List.append_assoc,pairAnswers_concat,hmore,List.append_assoc]
        exact ⟨_,rfl⟩
  obtain ⟨more,hmore⟩ := hpre (ps.drop k)
  rw [List.take_append_drop] at hmore
  refine ⟨h.1,?_⟩
  have hlen : webhookMaxAttempts ≤ (pairAnswers events m rule (ps.take k)).length := by
    have := congrArg List.length h.2
    rw [List.length_take] at this
    simp only [webhookMaxAttempts,List.length_cons,List.length_nil] at this ⊢
    omega
  rw [hmore,List.take_append_of_le_length hlen,h.2]

/-- Passes without the defect stay within the limit. -/
theorem bounded_of_not_adapterFails (hu : EventIdsUnique (events++[emitNotification m]))
    (hr : rule ∈ m.subscribed) {ps : List Pass} (h : ¬ AdapterFails events m rule ps) :
    Bounded events m rule ps := by
  obtain ⟨e,he,hf⟩ := followed hu hr ps
  obtain ⟨i,a,hl,hid⟩ := exists_latest hf.present
  obtain ⟨hch,ht⟩ := hf.tracked i a hl hid
  by_cases hd : deliverer rule.channel = none
  · rw [← hch] at hd
    refine ⟨ht.bounded hd,?_⟩
    intro hlen hall
    exact ⟨e,he,hf.id,i,a,hl,hid,ht.dead hd hlen hall⟩
  · have hsome : (deliverer rule.channel).isSome = true := Option.isSome_iff_ne_none.mpr hd
    have hfew : ¬ (webhookMaxAttempts ≤ (pairAnswers events m rule ps).length ∧
        ∀ ok ∈ (pairAnswers events m rule ps).take webhookMaxAttempts,ok = false) := by
      rintro ⟨hlen,hall⟩
      refine h ⟨hsome,?_⟩
      have hthree : [false,false,false] = List.replicate webhookMaxAttempts false := rfl
      rw [hthree]
      exact List.eq_replicate_iff.mpr ⟨by rw [List.length_take]; exact min_eq_left hlen,hall⟩
    refine ⟨?_,?_⟩
    · by_contra hlen
      refine hfew ⟨by omega,?_⟩
      -- The sends before the last one all failed, and the first three are among them.
      intro ok hok
      refine ht.earlier_failed ok ?_
      rw [List.dropLast_eq_take]
      exact (List.take_prefix_take_left (by omega)).subset hok
    · intro hlen hall
      exact absurd ⟨hlen.ge,fun ok hok => hall ok (List.mem_of_mem_take hok)⟩ hfew

/-- The third failure over an adapter leaves the delivery scheduled. -/
theorem exists_unbounded (hu : EventIdsUnique (events++[emitNotification m]))
    (hr : rule ∈ m.subscribed) {ps : List Pass} (h : AdapterFails events m rule ps) :
    ∃ k,¬ Bounded events m rule (ps.take k) := by
  induction ps using List.reverseRecOn with
  | nil =>
      have hone := length_emission_answers m rule
      have hlen := congrArg List.length h.2
      rw [List.length_take] at hlen
      simp only [pairAnswers,retryAnswers,List.append_nil,List.length_cons,
        List.length_nil] at hlen
      omega
  | append_singleton ps p ih =>
      by_cases hp : AdapterFails events m rule ps
      · obtain ⟨k,hk⟩ := ih hp
        refine ⟨min k ps.length,?_⟩
        rw [List.take_append_of_le_length (min_le_right _ _)]
        rwa [List.take_eq_take_min] at hk
      · refine ⟨(ps++[p]).length,?_⟩
        rw [List.take_length]
        obtain ⟨e,he,hf⟩ := followed hu hr ps
        have hup := unique_afterPasses hu ps
        have hans := @pairAnswers_concat events m rule ps p
        rw [← hf.id,answers_eq hup he] at hans
        have hnew := @length_answersOf p e rule.id
        have hfail := h.2
        rw [hans] at hfail
        have hshort : (pairAnswers events m rule ps).length < webhookMaxAttempts := by
          by_contra hlong
          rw [List.take_append_of_le_length (by omega)] at hfail
          exact hp ⟨h.1,hfail⟩
        have hlen := congrArg List.length hfail
        rw [List.length_take,List.length_append] at hlen
        simp only [webhookMaxAttempts,List.length_cons,List.length_nil] at hlen hshort
        have hfail : pairAnswers events m rule ps++p.answersOf rule.id e =
            [false,false]++[false] := by
          rwa [List.take_of_length_le (by simp [webhookMaxAttempts]; omega)] at hfail
        have hlast : p.answersOf rule.id e = [false] :=
          (List.append_inj hfail (by simp; omega)).2
        rintro ⟨-,hdead⟩
        rw [hans,hfail] at hdead
        obtain ⟨x,hx,hid,i,a,hl,hrule,hs⟩ := hdead rfl (by simp)
        rw [afterPasses_concat,process_eq_map hup] at hx
        obtain ⟨y,hy,rfl⟩ := List.mem_map.mp hx
        cases unique_event hup hy he (hid.trans hf.id.symm)
        have hopen := adapter_reopens hf.tracked h.1 hlast hl hrule
        rw [hopen] at hs
        cases hs

end

/-- The sends of a delivery stay within the limit, and end in the dead letters, unless it
goes through an adapter whose first three sends fail. -/
theorem sends_bounded_unless_adapter_fails {events : List Event} {m : Emission} {rule : Rule}
    (hu : EventIdsUnique (events++[emitNotification m])) (hr : rule ∈ m.subscribed)
    (ps : List Pass) :
    (∀ k,Bounded events m rule (ps.take k)) ↔ ¬ AdapterFails events m rule ps := by
  constructor
  · intro hall hfails
    obtain ⟨k,hk⟩ := exists_unbounded hu hr hfails
    exact hk (hall k)
  · intro h k
    exact bounded_of_not_adapterFails hu hr fun hk => h (adapterFails_of_init hk)

def reportRule (channel : Channel) : Rule :=
  ⟨1,"ten_a",channel,"https://hooks.example.com/a",["report.ready"],true,none,reportReady_known⟩

def unreachable : Reply := ⟨true,true,false,none⟩

def reportEmission (channel : Channel) : Emission :=
  ⟨7,"ten_a","report.ready",0,[channel],[reportRule channel],fun _ => [reportRule channel],
    fun _ => unreachable,by simp⟩

/-- A retry pass after the given number of backoffs. -/
def reportPass (channel : Channel) (n : ℕ) : Pass :=
  ⟨"ten_a",n*notificationRetryBackoffMs,n*notificationRetryBackoffMs,false,[channel],
    fun _ => [reportRule channel],fun _ => unreachable,fun _ => .next n⟩

def reportPasses (channel : Channel) : List Pass :=
  [reportPass channel 1,reportPass channel 2,reportPass channel 3]

theorem webhook_report_bounded :
    reportRule .webhook ∈ (reportEmission .webhook).subscribed ∧
      ∀ k,Bounded [] (reportEmission .webhook) (reportRule .webhook)
        ((reportPasses .webhook).take k) := by
  have hu : EventIdsUnique ([]++[emitNotification (reportEmission .webhook)]) := by
    simp [EventIdsUnique]
  have hr : reportRule .webhook ∈ (reportEmission .webhook).subscribed := by
    simp [Emission.subscribed,reportEmission,reportRule]
  refine ⟨hr,?_⟩
  exact (sends_bounded_unless_adapter_fails hu hr _).mpr fun h => by cases h.1

/-- A Slack endpoint that never answers is sent to a fourth time. -/
theorem slack_report_unbounded :
    pairAnswers [] (reportEmission .slack) (reportRule .slack) (reportPasses .slack) =
      [false,false,false,false] ∧
    ¬ ∀ k,Bounded [] (reportEmission .slack) (reportRule .slack)
      ((reportPasses .slack).take k) := by
  have hfour : pairAnswers [] (reportEmission .slack) (reportRule .slack) (reportPasses .slack) =
      [false,false,false,false] := by decide
  refine ⟨hfour,fun h => ?_⟩
  have hlen := (h 3).1
  have hall : (reportPasses .slack).take 3 = reportPasses .slack := rfl
  rw [hall,hfour] at hlen
  exact absurd hlen (by decide)

end AstraNull.NotificationBound

import Mathlib
import AstraNull.NumberText
import AstraNull.JsonText
import AstraNull.ScriptText
import AstraNull.ScriptValue
import AstraNull.ScriptObject
import AstraNull.ProbeExecution
import AstraNull.ProbeProfile
import AstraNull.ProbeActivityItems

/-!
# Activity of a leased job

`normalizeProbeActivityBatch` and `probeActivityEvent` of `lib/probeActivity.mjs`, and
`ingestProbeActivity` of `services/probeCoordinator.mjs`. A batch is taken as a whole or refused
without a trace; an item that is there already is not written again.
-/
namespace AstraNull.ActivityIngest
open NumberText JsonText ScriptText ScriptValue ScriptObject ProbeExecution ProbeActivityItems
open TargetMetadata (isPlain)

/-- The row of a job, with what its activity events repeat. -/
structure ActivityJob extends ProbeJob where
  tenantId : JsString
  testRunId : JsString
  nonceHash : JsVal
  vectorFamily : JsVal
  probeKind : JsVal
  markerClass : JsVal

structure Event where
  id : JsString
  eventId : Option JsString
  tenantId : JsString
  testRunId : JsString
  targetId : Option JsString
  checkId : JsString
  source : JsString
  signalType : JsString
  producerKind : JsString
  nonceHash : JsVal
  timestamp : JsVal
  ingestedAt : Option Time
  metadata : JsVal

/-- The store. Rows are found by tenant and id. -/
structure Desk where
  jobs : JsString → JsString → Option ActivityJob
  found : ∀ tenantId id job,jobs tenantId id = some job → job.id = id ∧ job.tenantId = tenantId
  /-- The states of the runs. -/
  runs : JsString → JsString → Option JsString
  killSwitch : JsString → Bool
  events : List Event

def maxProbeActivityBatch : ℕ := 16

section
variable (S : ItemPlatform)

def itemDates : Dates := ⟨S.newDate,S.newDate,S.toISOString⟩

def normalizeProbeActivityBatch (body : JsVal) (job : ActivityJob) (now : Time) :
    Except Refusal (List JsVal × Option Capture) :=
  match isPlain body && keysWithin body ["leased_at","items","capture"],field body "items" with
  | true,.arr raws =>
      if maxProbeActivityBatch < raws.length then refuse "invalid_probe_activity" 400
      else if !sameStamp (itemDates S) (field body "leased_at") job.leasedAt then
        refuse "probe_activity_lease_mismatch" 409
      else match raws.mapM fun raw => normalizeProbeActivityItem S raw now with
        | none => refuse "invalid_probe_activity" 400
        | some items =>
            if ¬ (items.map fun item => integerOf (field item "sequence")).Nodup then
              refuse "invalid_probe_activity" 400
            else if nullish (field body "capture") then .ok (items,none)
            else match normalizeProbeCapture (itemDates S) (field body "capture") now with
              | none => refuse "invalid_probe_capture" 400
              | some capture => .ok (items,some capture)
  | _,_ => refuse "invalid_probe_activity" 400

variable (digest : JsString → JsString)

def leasedText (leasedAt : Option Time) : JsString := leasedAt.elim (js "null") S.toISOString

/-- `activity:` and the digest of the job, the lease and the sequence. -/
def activityDigest (jobId leased : JsString) (sequence : JsVal) : JsString :=
  digest (jobId++js ":"++leased++js ":"++toStr sequence)

def activityEventId (jobId leased : JsString) (sequence : JsVal) : JsString :=
  js "activity:"++activityDigest digest jobId leased sequence

def activityMetadata (job : ActivityJob) (item : JsVal) (workerId : JsString) : JsVal :=
  .obj [(js "activity",item),(js "probe_job_id",.str job.id),(js "probe_worker_id",.str workerId),
    (js "vector_family",job.vectorFamily),(js "probe_kind",job.probeKind),
    (js "marker_class",job.markerClass),
    (js "leased_at",job.leasedAt.elim .null fun t => .str (S.toISOString t))]

def probeActivityEvent (job : ActivityJob) (item : JsVal) (workerId : JsString) : Event where
  id := js "evt_activity_"++
    activityDigest digest job.id (leasedText S job.leasedAt) (field item "sequence")
  eventId := some (activityEventId digest job.id (leasedText S job.leasedAt) (field item "sequence"))
  tenantId := job.tenantId
  testRunId := job.testRunId
  targetId := job.targetId
  checkId := job.checkId
  source := js "probe_worker"
  signalType := js "probe_activity"
  producerKind := js "signed_probe"
  nonceHash := job.nonceHash
  timestamp := field item "at"
  ingestedAt := none
  metadata := activityMetadata S job item workerId

end

def sameEvent (tenantId : JsString) (record entry : Event) : Bool :=
  entry.tenantId = tenantId && entry.eventId = record.eventId

/-- An event is there under the id, with other metadata. -/
def conflicts (events : List Event) (tenantId : JsString) (record : Event) : Bool :=
  (events.find? (sameEvent tenantId record)).any fun existing =>
    text existing.metadata ≠ text record.metadata

/-- The records that are not there yet, one after the other. -/
def pushNew (tenantId : JsString) (now : Time) : List Event → List Event → List Event
  | events,[] => events
  | events,record::records =>
      if events.any (sameEvent tenantId record) then pushNew tenantId now events records
      else pushNew tenantId now (events++[{ record with ingestedAt := some now }]) records

def Desk.isOpen (desk : Desk) (tenantId runId : JsString) : Bool :=
  (desk.runs tenantId runId).any fun status => status = js "running" || status = js "collecting"

/-- The rows after the capture of one was merged. -/
def Desk.merged (desk : Desk) (tenantId jobId : JsString) (next : Capture) :
    JsString → JsString → Option ActivityJob := fun t id =>
  (desk.jobs t id).map fun job => if t = tenantId ∧ id = jobId then
      { job with capture := some (mergeProbeCapture job.capture next) }
    else job

theorem Desk.found_merged (desk : Desk) (tenantId jobId : JsString) (next : Capture) :
    ∀ t id job,desk.merged tenantId jobId next t id = some job → job.id = id ∧ job.tenantId = t := by
  intro t id job h
  obtain ⟨row,hrow,rfl⟩ := Option.map_eq_some_iff.mp h
  split_ifs
  · exact desk.found t id row hrow
  · exact desk.found t id row hrow

def Desk.writeCapture (desk : Desk) (tenantId jobId : JsString) (capture : Option Capture) : Desk :=
  match capture with
  | none => desk
  | some next => { desk with
      jobs := desk.merged tenantId jobId next
      found := desk.found_merged tenantId jobId next }

/-- The events of a batch. -/
def batchEvents (S : ItemPlatform) (digest : JsString → JsString) (events : List Event)
    (tenantId workerId : JsString) (job : ActivityJob) (items : List JsVal) (now : Time) :
    List Event :=
  pushNew tenantId now events (items.map fun item => probeActivityEvent S digest job item workerId)

def ingestProbeActivity (S : ItemPlatform) (digest : JsString → JsString) (desk : Desk)
    (tenantId workerId jobId : JsString) (body : JsVal) (now : Time) : Desk × Except Refusal ℕ :=
  match desk.jobs tenantId jobId with
  | none => (desk,refuse "job_not_found" 404)
  | some job =>
      if job.ownershipVerificationId.isSome then (desk,refuse "job_not_found" 404)
      else if desk.killSwitch tenantId then (desk,refuse "tenant_kill_switch_active" 409)
      else if job.status ≠ .leased ∨ desk.isOpen tenantId job.testRunId = false then
        (desk,refuse "job_not_open" 409)
      else if job.leasedBy ≠ some workerId then (desk,refuse "job_leased_to_another_worker" 403)
      else match normalizeProbeActivityBatch S body job now with
        | .error refusal => (desk,.error refusal)
        | .ok parsed =>
            let records := parsed.1.map fun item => probeActivityEvent S digest job item workerId
            if records.any (conflicts desk.events tenantId) then
              (desk,refuse "probe_activity_conflict" 409)
            else
              let events := batchEvents S digest desk.events tenantId workerId job parsed.1 now
              ({ desk with events := events }.writeCapture tenantId jobId parsed.2,
                .ok (events.length-desk.events.length))

theorem text_ascii (n : Number) : ∀ c ∈ n.text,c.toNat < 128 := by
  have hdigit : ∀ c : Char,c.isDigit = true → c.toNat < 128 := by
    intro c hc
    simp only [Char.isDigit,Bool.and_eq_true,decide_eq_true_eq,UInt32.le_iff_toNat_le] at hc
    have h57 : '9'.val.toNat = 57 := rfl
    have hnat : c.toNat = c.val.toNat := rfl
    omega
  have htoken : ∀ t : Token,t.Valid → ∀ c ∈ t.text,c.toNat < 128 := by
    intro t ht c hc
    simp only [Token.text,Token.fractionText,Token.exponentText,List.mem_append] at hc
    rcases hc with hc | hc | hc
    · exact hdigit c (ht.whole_digits c hc)
    · split_ifs at hc with hnone
      · cases hc
      · rcases List.mem_cons.mp hc with rfl | hc
        · decide
        · exact hdigit c (ht.fraction_digits c hc)
    · split at hc
      · cases hc
      · rcases List.mem_cons.mp hc with rfl | hc
        · decide
        · rcases List.mem_cons.mp hc with rfl | hc
          · split_ifs <;> decide
          · exact hdigit c (Nat.isDigit_of_mem_toDigits (by norm_num) (by norm_num) hc)
  intro c hc
  cases n with
  | zero =>
      rw [List.mem_singleton.mp hc]
      decide
  | nonzero neg x =>
      rcases List.mem_append.mp hc with hc | hc
      · split_ifs at hc
        · rw [List.mem_singleton.mp hc]
          decide
        · cases hc
      · exact htoken _ (layout_valid x.shortest.2 x.shortest_pos) c hc

theorem toStr_num_injective {a b : Number} (h : toStr (.num a) = toStr (.num b)) : a = b := by
  have hunit : ∀ c d : Char,c.toNat < 128 → d.toNat < 128 →
      UInt16.ofNat c.toNat = UInt16.ofNat d.toNat → c = d := by
    intro c d hc hd he
    have hnat := congrArg UInt16.toNat he
    rw [UInt16.toNat_ofNat',UInt16.toNat_ofNat'] at hnat
    exact Char.toNat_inj.mp (by omega)
  have htext : a.text = b.text := by
    have hmap : a.text.map (fun c => UInt16.ofNat c.toNat) =
        b.text.map fun c => UInt16.ofNat c.toNat := h
    have ha := text_ascii a
    have hb := text_ascii b
    generalize a.text = s at hmap ha
    generalize b.text = t at hmap hb
    induction s generalizing t with
    | nil => exact (List.map_eq_nil_iff.mp hmap.symm).symm
    | cons c s ih =>
        cases t with
        | nil => cases hmap
        | cons d t =>
            rw [List.map_cons,List.map_cons,List.cons.injEq] at hmap
            rw [List.forall_mem_cons] at ha hb
            rw [hunit c d ha.1 hb.1 hmap.1,ih ha.2 t hmap.2 hb.2]
  have hclean := text_injective (.num a) (.num b) (show text (.num a) = text (.num b) from htext)
  exact JsVal.num.inj hclean

/-- Under one lease, another number has another event id. -/
theorem activityEventId_inj {digest : JsString → JsString} (hdigest : Function.Injective digest)
    {jobId leased : JsString} {a b : Number}
    (h : activityEventId digest jobId leased (.num a) =
      activityEventId digest jobId leased (.num b)) : a = b :=
  toStr_num_injective (List.append_cancel_left (hdigest (List.append_cancel_left h)))

/-- The event of a tenant under an id. -/
def keyed (tenantId eventId : JsString) (e : Event) : Bool :=
  e.tenantId = tenantId && e.eventId = some eventId

section
variable {tenantId : JsString} {now : Time} {events records : List Event}

theorem pushNew_keeps : events <+: pushNew tenantId now events records := by
  induction records generalizing events with
  | nil => exact List.prefix_rfl
  | cons record records ih =>
      rw [pushNew]
      split_ifs with hthere
      · exact ih
      · exact (List.prefix_append _ _).trans ih

theorem mem_pushNew {e : Event} (h : e ∈ pushNew tenantId now events records) :
    e ∈ events ∨ ∃ record ∈ records,e = { record with ingestedAt := some now } := by
  induction records generalizing events with
  | nil => exact .inl h
  | cons record records ih =>
      rw [pushNew] at h
      split_ifs at h with hthere
      · rcases ih h with h | ⟨r,hr,he⟩
        · exact .inl h
        · exact .inr ⟨r,List.mem_cons_of_mem _ hr,he⟩
      · rcases ih h with h | ⟨r,hr,he⟩
        · rcases List.mem_append.mp h with h | h
          · exact .inl h
          · exact .inr ⟨record,List.mem_cons_self,List.mem_singleton.mp h⟩
        · exact .inr ⟨r,List.mem_cons_of_mem _ hr,he⟩

/-- What is there already is not written again. -/
theorem pushNew_there {record : Event} (h : events.any (sameEvent tenantId record) = true) :
    pushNew tenantId now events [record] = events := by
  rw [pushNew,if_pos h,pushNew]

/-- The event that a record became does not conflict with it. -/
theorem conflicts_written (record : Event) (ingestedAt : Option Time) :
    conflicts [{ record with ingestedAt := ingestedAt }] tenantId record = false := by
  rw [conflicts,List.find?_cons]
  split <;> simp

/-- Afterwards every record has an event under its id. -/
theorem pushNew_complete (htenant : ∀ record ∈ records,record.tenantId = tenantId) {record : Event}
    (h : record ∈ records) {eventId : JsString} (hid : record.eventId = some eventId) :
    ∃ e ∈ pushNew tenantId now events records,keyed tenantId eventId e = true := by
  induction records generalizing events with
  | nil => cases h
  | cons first records ih =>
      rw [List.forall_mem_cons] at htenant
      rw [pushNew]
      rcases List.mem_cons.mp h with rfl | h
      · split_ifs with hthere
        · obtain ⟨e,he,hsame⟩ := List.any_eq_true.mp hthere
          rw [sameEvent,hid] at hsame
          exact ⟨e,pushNew_keeps.subset he,hsame⟩
        · refine ⟨{ record with ingestedAt := some now },pushNew_keeps.subset (by simp),?_⟩
          simp [keyed,htenant.1,hid]
      · split_ifs with hthere
        · exact ih htenant.2 h
        · exact ih htenant.2 h

/-- An id that has one event at most still has. -/
theorem pushNew_once {eventId : JsString}
    (h : (events.filter (keyed tenantId eventId)).length ≤ 1) :
    ((pushNew tenantId now events records).filter (keyed tenantId eventId)).length ≤ 1 := by
  induction records generalizing events with
  | nil => exact h
  | cons record records ih =>
      rw [pushNew]
      split_ifs with hthere
      · exact ih h
      · refine ih ?_
        rw [List.filter_append,List.length_append]
        by_cases hkey : record.eventId = some eventId
        · have hnone : events.filter (keyed tenantId eventId) = [] := by
            refine List.filter_eq_nil_iff.mpr fun e he hkeyed => hthere ?_
            refine List.any_eq_true.mpr ⟨e,he,?_⟩
            rw [sameEvent,hkey]
            exact hkeyed
          rw [hnone,List.length_nil,zero_add]
          exact List.length_filter_le _ _
        · rw [List.filter_cons_of_neg (by simp [keyed,hkey]),List.filter_nil,List.length_nil,
            add_zero]
          exact h

end

section
variable {S : ItemPlatform} {digest : JsString → JsString}

theorem mapM_mem {α β : Type} {f : α → Option β} {as : List α} {bs : List β}
    (h : as.mapM f = some bs) :
    (∀ a ∈ as,∃ b ∈ bs,f a = some b) ∧ ∀ b ∈ bs,∃ a ∈ as,f a = some b := by
  induction as generalizing bs with
  | nil =>
      cases h
      simp
  | cons a as ih =>
      simp only [List.mapM_cons,Option.bind_eq_bind,Option.bind_eq_some_iff] at h
      obtain ⟨b,hb,rest,hrest,h⟩ := h
      cases h
      obtain ⟨hall,hback⟩ := ih hrest
      constructor
      · refine List.forall_mem_cons.mpr ⟨⟨b,List.mem_cons_self,hb⟩,fun x hx => ?_⟩
        obtain ⟨y,hy,hxy⟩ := hall x hx
        exact ⟨y,List.mem_cons_of_mem _ hy,hxy⟩
      · refine List.forall_mem_cons.mpr ⟨⟨a,List.mem_cons_self,hb⟩,fun y hy => ?_⟩
        obtain ⟨x,hx,hxy⟩ := hback y hy
        exact ⟨x,List.mem_cons_of_mem _ hx,hxy⟩

/-- An accepted batch has the stamp of the lease, and its items and its capture were accepted. -/
theorem batch_ok {body : JsVal} {job : ActivityJob} {now : Time} {items : List JsVal}
    {capture : Option Capture}
    (h : normalizeProbeActivityBatch S body job now = .ok (items,capture)) :
    sameStamp (itemDates S) (field body "leased_at") job.leasedAt = true ∧
    (∃ raws,field body "items" = .arr raws ∧
      raws.mapM (fun raw => normalizeProbeActivityItem S raw now) = some items) ∧
    (nullish (field body "capture") = true ∧ capture = none ∨
      nullish (field body "capture") = false ∧
      normalizeProbeCapture (itemDates S) (field body "capture") now = capture ∧
      capture.isSome = true) := by
  unfold normalizeProbeActivityBatch at h
  split at h
  · next raws hshape hraws =>
      split at h
      · cases h
      split at h
      · cases h
      next hlong hstamp =>
      rw [Bool.not_eq_true',Bool.not_eq_false] at hstamp
      split at h
      · cases h
      next items' hitems =>
      split at h
      · cases h
      split at h
      · next hnone =>
          cases h
          exact ⟨hstamp,⟨raws,hraws,hitems⟩,.inl ⟨hnone,rfl⟩⟩
      · next hsome =>
          split at h
          · cases h
          · next c hc =>
              cases h
              rw [Bool.not_eq_true] at hsome
              exact ⟨hstamp,⟨raws,hraws,hitems⟩,.inr ⟨hsome,hc,rfl⟩⟩
  · cases h

theorem mapM_singleton {α β : Type} {f : α → Option β} {a : α} {b : β} (h : f a = some b) :
    [a].mapM f = some [b] := by
  rw [List.mapM_cons,h]
  rfl

/-- A batch with the stamp of the lease is taken when its items and its capture are. -/
theorem batch_taken {body : JsVal} {job : ActivityJob} {now : Time} {raws items : List JsVal}
    {capture : Capture} (hshape : (isPlain body && keysWithin body ["leased_at","items","capture"]) =
      true) (hraws : field body "items" = .arr raws) (hfew : raws.length ≤ maxProbeActivityBatch)
    (hstamp : sameStamp (itemDates S) (field body "leased_at") job.leasedAt = true)
    (hitems : raws.mapM (fun raw => normalizeProbeActivityItem S raw now) = some items)
    (hnodup : (items.map fun item => integerOf (field item "sequence")).Nodup)
    (hsome : nullish (field body "capture") = false)
    (hcapture : normalizeProbeCapture (itemDates S) (field body "capture") now = some capture) :
    normalizeProbeActivityBatch S body job now = .ok (items,some capture) := by
  unfold normalizeProbeActivityBatch
  rw [hshape,hraws]
  simp only [hstamp,hitems,hsome,hcapture,hnodup,not_lt.mpr hfew,not_true,Bool.not_true,
    Bool.false_eq_true,if_false]

/-- A batch that is refused leaves no trace. -/
theorem ingest_refused {desk : Desk} {tenantId workerId jobId : JsString} {body : JsVal}
    {now : Time} {refusal : Refusal}
    (h : (ingestProbeActivity S digest desk tenantId workerId jobId body now).2 = .error refusal) :
    (ingestProbeActivity S digest desk tenantId workerId jobId body now).1 = desk := by
  unfold ingestProbeActivity at h ⊢
  split
  · rfl
  · next job hjob =>
      rw [hjob] at h
      dsimp only at h ⊢
      split_ifs at h ⊢ with hown hkill hopen hheld
      · rfl
      · rfl
      · rfl
      · rfl
      · split
        · rfl
        · next parsed hparsed =>
            rw [hparsed] at h
            dsimp only at h ⊢
            split_ifs at h ⊢ with hconflict
            · rfl

/-- What the store is after a batch that was taken. -/
theorem ingest_ok {desk : Desk} {tenantId workerId jobId : JsString} {body : JsVal} {now : Time}
    {accepted : ℕ}
    (h : (ingestProbeActivity S digest desk tenantId workerId jobId body now).2 = .ok accepted) :
    ∃ job items capture,desk.jobs tenantId jobId = some job ∧ job.status = .leased ∧
      job.leasedBy = some workerId ∧
      normalizeProbeActivityBatch S body job now = .ok (items,capture) ∧
      (ingestProbeActivity S digest desk tenantId workerId jobId body now).1 =
        { desk with
          events := batchEvents S digest desk.events tenantId workerId job items now }.writeCapture
          tenantId jobId capture := by
  unfold ingestProbeActivity at h ⊢
  split at h
  · cases h
  · next job hjob =>
      rw [hjob]
      dsimp only
      split_ifs at h ⊢ with hown hkill hopen hheld
      · cases h
      · cases h
      · cases h
      · cases h
      · split at h
        · cases h
        · next parsed hparsed =>
            dsimp only at h ⊢
            split_ifs at h ⊢ with hconflict
            · cases h
            · rw [not_or,not_not] at hopen
              rw [not_not] at hheld
              exact ⟨job,parsed.1,parsed.2,rfl,hopen.1,hheld,hparsed,rfl⟩

/-- What the ingest does with a batch that it takes. -/
theorem ingest_accepts {desk : Desk} {tenantId workerId jobId : JsString} {body : JsVal} {now : Time}
    {job : ActivityJob} {items : List JsVal} {capture : Option Capture}
    (hjob : desk.jobs tenantId jobId = some job) (hown : job.ownershipVerificationId = none)
    (hkill : desk.killSwitch tenantId = false) (hstatus : job.status = .leased)
    (hopen : desk.isOpen tenantId job.testRunId = true) (hleased : job.leasedBy = some workerId)
    (hbatch : normalizeProbeActivityBatch S body job now = .ok (items,capture))
    (hfree : (items.map fun item => probeActivityEvent S digest job item workerId).any
      (conflicts desk.events tenantId) = false) :
    ingestProbeActivity S digest desk tenantId workerId jobId body now =
      ({ desk with
          events := batchEvents S digest desk.events tenantId workerId job items now }.writeCapture
          tenantId jobId capture,
        .ok ((batchEvents S digest desk.events tenantId workerId job items now).length-
          desk.events.length)) := by
  rw [ingestProbeActivity,hjob]
  simp only [hown,hkill,hstatus,hopen,hleased,hbatch,hfree,Option.isSome_none,ne_eq,not_true,
    or_self,Bool.true_eq_false,Bool.false_eq_true,if_false]

end

end AstraNull.ActivityIngest

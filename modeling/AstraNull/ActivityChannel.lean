import Mathlib
import AstraNull.NumberText
import AstraNull.JsonText
import AstraNull.ScriptText
import AstraNull.ScriptValue
import AstraNull.ScriptObject
import AstraNull.ProbeExecution
import AstraNull.ProbeProfile
import AstraNull.ProbeActivityItems
import AstraNull.ActivityIngest

/-!
# The activity channel of a worker

`createProbeActivityReporter` of `workers/probe-activity-reporter.mjs` and the ingest of the control
plane, with the network between them. The worker numbers what it records and sends it in batches,
one at a time; a batch that fails is put back, and the worker stops when it fails too often. A
request that was sent may arrive late, more than once or never, and its answer may be lost. Timers
are steps that may come at any time.
-/
namespace AstraNull.ActivityChannel
open NumberText JsonText ScriptText ScriptValue ScriptObject ProbeExecution ProbeActivityItems
open ActivityIngest
open ProbeProfile (numeral)

structure Lease where
  tenantId : JsString
  workerId : JsString
  jobId : JsString
  testRunId : JsString
  leasedAt : Time
  partitionGraceMs : Time

/-- The items of a batch on its way, and its request once it is sent. -/
structure Flight where
  items : List JsVal
  request : Option ℕ

/-- How far `close` is. -/
inductive Phase where
  | working
  | draining
  | closing
  | ended
deriving DecidableEq

structure Reporter where
  sequence : ℕ
  closed : Bool
  stopped : Bool
  retries : ℕ
  dropped : ℕ
  failures : ℕ
  lastAcknowledgment : Time
  finalizedAt : Option Time
  pending : List JsVal
  sending : Option Flight
  phase : Phase

/-- A reporter at the start of a job. -/
def Reporter.start (now : Time) : Reporter where
  sequence := 0
  closed := false
  stopped := false
  retries := 0
  dropped := 0
  failures := 0
  lastAcknowledgment := now
  finalizedAt := none
  pending := []
  sending := none
  phase := .working

section
variable (S : ItemPlatform) (lease : Lease)

def Reporter.snapshot (r : Reporter) : JsVal :=
  .obj [(js "version",.str (js "probe-capture.v1")),(js "recorded_count",numeral r.sequence),
    (js "last_sequence",numeral r.sequence),(js "dropped_count",numeral r.dropped),
    (js "delivery_failures",numeral r.failures),
    (js "finalized_at",r.finalizedAt.elim .null fun t => .str (S.toISOString t))]

def batchBody (r : Reporter) (items : List JsVal) : JsVal :=
  .obj [(js "leased_at",.str (S.toISOString lease.leasedAt)),(js "items",.arr items),
    (js "capture",r.snapshot S)]

/-- The items that fit into a request, from the front of the queue, and what is left. -/
def takeBatch (fits : List JsVal → Bool) : ℕ → List JsVal → List JsVal → List JsVal × List JsVal
  | 0,items,pending => (items,pending)
  | _+1,items,[] => (items,[])
  | room+1,items,entry::pending =>
      if fits (items++[entry]) then takeBatch fits room (items++[entry]) pending
      else (items,entry::pending)

def Reporter.nextBatch (r : Reporter) : List JsVal × List JsVal :=
  takeBatch (fun items => byteLength (batchBody S lease r items) ≤ 28*1024) maxProbeActivityBatch []
    r.pending

def Reporter.flush (r : Reporter) : Reporter :=
  if r.closed || r.stopped || r.sending.isSome then r
  else { r with
    sending := some ⟨(r.nextBatch S lease).1,none⟩
    pending := (r.nextBatch S lease).2 }

def Reporter.stop (r : Reporter) : Reporter :=
  if r.stopped || r.closed then r
  else { r with
    stopped := true
    dropped := r.dropped+r.pending.length
    pending := [] }

/-- A batch that did not get through is put back, or given up with everything else. -/
def Reporter.failed (r : Reporter) (items : List JsVal) (now : Time) : Reporter :=
  let r := { r with
    failures := r.failures+1
    retries := r.retries+1
    sending := none }
  if 2 < r.retries ∨ lease.partitionGraceMs ≤ now-r.lastAcknowledgment then
    { r with dropped := r.dropped+items.length }.stop
  else { r with pending := items++r.pending }

/-- The control plane has taken the job away. -/
def Reporter.revoked (r : Reporter) (items : List JsVal) : Reporter :=
  { r with
    failures := r.failures+1
    dropped := r.dropped+items.length
    sending := none }.stop

def Reporter.answered (r : Reporter) (items : List JsVal) (answer : Except Refusal ℕ)
    (now : Time) : Reporter :=
  match answer with
  | .ok _ => { r with
      retries := 0
      lastAcknowledgment := now
      sending := none }
  | .error refusal =>
      if refusal.status = 401 ∨ refusal.status = 403 ∨ refusal.status = 409 then r.revoked items
      else r.failed lease items now

/-- The entry that an item becomes, if it is recorded. -/
def Reporter.entry (r : Reporter) (item : JsVal) (now : Time) : Option JsVal :=
  if r.closed || r.stopped || maxProbeActivityItems ≤ r.sequence then none
  else normalizeProbeActivityItem S
    (put (put (spread item) "sequence" (numeral (r.sequence+1))) "at" (.str (S.toISOString now))) now

def Reporter.record (r : Reporter) (item : JsVal) (now : Time) : Reporter :=
  match r.entry S item now with
  | none => { r with dropped := r.dropped+1 }
  | some entry => { r with
      sequence := r.sequence+1
      pending := r.pending++[entry] }.flush S lease

/-- A turn of `close`: the queue is emptied, then an empty batch attests the end. -/
def Reporter.drain (r : Reporter) : Reporter :=
  if r.stopped then { r with phase := .ended }
  else if r.pending ≠ [] ∨ r.sending.isSome then r.flush S lease
  else { r.flush S lease with phase := .closing }

end

/-- A request, with the state of the reporter whose snapshot it carries. -/
structure Request where
  items : List JsVal
  sent : Reporter

/-- Both sides and the network. What was recorded is kept in order. -/
structure Channel where
  reporter : Reporter
  recorded : List JsVal
  requests : List Request
  answers : List (ℕ × Except Refusal ℕ)
  desk : Desk

section
variable (S : ItemPlatform) (digest : JsString → JsString) (lease : Lease)

/-- The event id of a number under the lease. -/
def Lease.eventId (sequence : JsVal) : JsString :=
  activityEventId digest lease.jobId (S.toISOString lease.leasedAt) sequence

/-- The event is signed activity of the job and the lease. -/
def Lease.Claims (e : Event) : Prop :=
  e.tenantId = lease.tenantId ∧ e.signalType = js "probe_activity" ∧
    e.producerKind = js "signed_probe" ∧ field e.metadata "probe_job_id" = .str lease.jobId ∧
    field e.metadata "leased_at" = .str (S.toISOString lease.leasedAt)

/-- The event is activity of the lease, or has one of its ids. -/
def Lease.Owns (e : Event) : Prop :=
  (∃ sequence,keyed lease.tenantId (lease.eventId S digest sequence) e = true) ∨ lease.Claims S e

/-- The row of the job is that of the lease. -/
def Lease.Holds (job : ActivityJob) : Prop :=
  sameStamp (itemDates S) (.str (S.toISOString lease.leasedAt)) job.leasedAt = true

/-- What others do to the store. Nobody else writes activity of the lease or under its ids. Without a
stop, the capture of the lease is left alone. -/
structure Outside (stopped : Bool) (desk desk' : Desk) : Prop where
  events : ∃ more,desk'.events = desk.events++more ∧
    ∀ e ∈ more,¬ lease.Owns S digest e
  row : ∀ job',desk'.jobs lease.tenantId lease.jobId = some job' → lease.Holds S job' →
    ∃ job,desk.jobs lease.tenantId lease.jobId = some job ∧ lease.Holds S job ∧
      job'.testRunId = job.testRunId ∧ (stopped = false → job'.capture = job.capture)

def Channel.recordItem (c : Channel) (item : JsVal) (now : Time) : Channel := { c with
  reporter := c.reporter.record S lease item now
  recorded := c.recorded++(c.reporter.entry S item now).toList }

def Channel.deliver (c : Channel) (i : ℕ) (request : Request) (now : Time) : Channel :=
  let result := ingestProbeActivity S digest c.desk lease.tenantId lease.workerId lease.jobId
    (batchBody S lease request.sent request.items) now
  { c with
    desk := result.1
    answers := c.answers++[(i,result.2)] }

inductive Step : Channel → Channel → Prop
  | record (c : Channel) (item : JsVal) (now : Time) : Step c (c.recordItem S lease item now)
  | flush (c : Channel) : Step c { c with reporter := c.reporter.flush S lease }
  | send (c : Channel) (items : List JsVal) : c.reporter.sending = some ⟨items,none⟩ →
      Step c { c with
        reporter := { c.reporter with sending := some ⟨items,some c.requests.length⟩ }
        requests := c.requests++[⟨items,c.reporter⟩] }
  | deliver (c : Channel) (i : ℕ) (request : Request) (now : Time) : c.requests[i]? = some request →
      Step c (c.deliver S digest lease i request now)
  | answer (c : Channel) (items : List JsVal) (i : ℕ) (result : Except Refusal ℕ) (now : Time) :
      c.reporter.sending = some ⟨items,some i⟩ → (i,result) ∈ c.answers →
      Step c { c with reporter := c.reporter.answered lease items result now }
  /-- The connection fails or times out, or something else answers. -/
  | lost (c : Channel) (flight : Flight) (now : Time) : c.reporter.sending = some flight →
      Step c { c with reporter := c.reporter.failed lease flight.items now }
  /-- The request is refused before it gets to the ingest. -/
  | refused (c : Channel) (flight : Flight) : c.reporter.sending = some flight →
      Step c { c with reporter := c.reporter.revoked flight.items }
  | watch (c : Channel) (now : Time) :
      lease.partitionGraceMs ≤ now-c.reporter.lastAcknowledgment →
      Step c { c with reporter := c.reporter.stop }
  | close (c : Channel) (now : Time) : c.reporter.phase = .working →
      Step c { c with
        reporter := { c.reporter with
          finalizedAt := c.reporter.finalizedAt.or (some now)
          phase := .draining } }
  | drain (c : Channel) : c.reporter.phase = .draining →
      Step c { c with reporter := c.reporter.drain S lease }
  | deadline (c : Channel) : c.reporter.phase ≠ .working →
      Step c { c with reporter := c.reporter.stop }
  | finish (c : Channel) : c.reporter.phase ≠ .working → c.reporter.stopped = true ∨
      c.reporter.phase = .closing ∧ c.reporter.sending = none →
      Step c { c with reporter := { c.reporter with closed := true } }
  | outside (c : Channel) (desk : Desk) : Outside S digest lease c.reporter.stopped c.desk desk →
      Step c { c with desk := desk }

/-- At the start nothing is recorded, and the lease has left no trace. -/
structure Fresh (c : Channel) : Prop where
  reporter : ∃ now,c.reporter = .start now
  recorded : c.recorded = []
  requests : c.requests = []
  answers : c.answers = []
  events : ∀ e ∈ c.desk.events,¬ lease.Owns S digest e
  row : ∀ job,c.desk.jobs lease.tenantId lease.jobId = some job → lease.Holds S job →
    job.testRunId = lease.testRunId ∧ job.capture = none

end

/-- What is not acknowledged yet. -/
def Reporter.held (r : Reporter) : List JsVal := (r.sending.elim [] Flight.items)++r.pending

theorem takeBatch_append (fits : List JsVal → Bool) (room : ℕ) (items pending : List JsVal) :
    (takeBatch fits room items pending).1++(takeBatch fits room items pending).2 =
      items++pending := by
  induction room generalizing items pending with
  | zero => rfl
  | succ room ih =>
      cases pending with
      | nil => rfl
      | cons entry pending =>
          rw [takeBatch]
          split_ifs with hfits
          · rw [ih,List.append_assoc,List.singleton_append]
          · rfl

/-- Every recorded entry is accounted for: settled, held, or counted as dropped. -/
def Accounts (settled : JsVal → Prop) (recorded : List JsVal) (r : Reporter) : Prop :=
  ∃ acked lost,recorded.Perm (acked++(r.held++lost)) ∧ lost.length ≤ r.dropped ∧
    (∀ entry ∈ acked,settled entry) ∧ (r.stopped = false → lost = [])

section
variable {settled : JsVal → Prop} {recorded : List JsVal} {r r' : Reporter}

theorem Accounts.congr (h : Accounts settled recorded r) (hheld : r'.held = r.held)
    (hdropped : r.dropped ≤ r'.dropped) (hstopped : r'.stopped = false → r.stopped = false) :
    Accounts settled recorded r' := by
  obtain ⟨acked,lost,hperm,hlost,hacked,hnone⟩ := h
  refine ⟨acked,lost,?_,hlost.trans hdropped,hacked,fun h => hnone (hstopped h)⟩
  rwa [hheld]

theorem Accounts.mono {settled' : JsVal → Prop} (h : Accounts settled recorded r)
    (hsettled : ∀ entry,settled entry → settled' entry) : Accounts settled' recorded r := by
  obtain ⟨acked,lost,hperm,hlost,hacked,hnone⟩ := h
  exact ⟨acked,lost,hperm,hlost,fun entry hentry => hsettled entry (hacked entry hentry),hnone⟩

/-- What is given up is counted. -/
theorem Accounts.give (h : Accounts settled recorded r) {given : List JsVal}
    (hheld : r.held.Perm (given++r'.held)) (hdropped : r.dropped+given.length ≤ r'.dropped)
    (hstopped : r'.stopped = true) : Accounts settled recorded r' := by
  obtain ⟨acked,lost,hperm,hlost,hacked,-⟩ := h
  refine ⟨acked,given++lost,?_,?_,hacked,fun h => absurd (hstopped.symm.trans h) (by decide)⟩
  · refine hperm.trans (List.Perm.append_left acked ?_)
    refine (hheld.append_right lost).trans ?_
    rw [← List.append_assoc]
    exact List.perm_append_comm.append_right lost
  · rw [List.length_append]
    omega

theorem held_flush (S : ItemPlatform) (lease : Lease) (r : Reporter) :
    (r.flush S lease).held = r.held := by
  rw [Reporter.flush]
  split_ifs with hbusy
  · rfl
  · have hnone : r.sending = none := by
      cases hsending : r.sending with
      | none => rfl
      | some flight => simp [hsending] at hbusy
    simp only [Reporter.held,hnone,Option.elim_some,Option.elim_none,List.nil_append]
    exact takeBatch_append _ _ [] r.pending

end

/-- What holds of a reporter by itself. -/
structure Calm (r : Reporter) : Prop where
  closed : r.closed = true → r.stopped = false → r.sending = none ∧ r.phase = .closing
  ended : r.phase = .ended → r.stopped = true
  finalized : r.phase ≠ .working → r.finalizedAt.isSome = true

/-- What a turn that records nothing and hears no good answer can do. -/
structure Moves (r r' : Reporter) : Prop where
  calm : Calm r'
  sequence : r'.sequence = r.sequence
  dropped : r.dropped ≤ r'.dropped
  failures : r.failures ≤ r'.failures
  stopped : r'.stopped = false → r.stopped = false
  flight : ∀ items i,r'.sending = some ⟨items,some i⟩ → r.sending = some ⟨items,some i⟩ ∧
    (r'.stopped = false → r'.pending = [] → r.pending = []) ∧
    (r'.phase = .closing → r.phase = .closing)
  idle : r'.failures = 0 → r'.stopped = false → r'.phase = .closing → r'.sending = none →
    r.phase = .closing ∧ r.sending = none ∧ (r'.pending = [] → r.pending = [])
  accounts : ∀ settled recorded,Accounts settled recorded r → Accounts settled recorded r'

section
variable {S : ItemPlatform} {lease : Lease} {r : Reporter}

/-- What `flush` leaves as it is. -/
theorem flush_frame (S : ItemPlatform) (lease : Lease) (r : Reporter) :
    (r.flush S lease).sequence = r.sequence ∧ (r.flush S lease).dropped = r.dropped ∧
    (r.flush S lease).failures = r.failures ∧ (r.flush S lease).stopped = r.stopped ∧
    (r.flush S lease).closed = r.closed ∧ (r.flush S lease).phase = r.phase ∧
    (r.flush S lease).finalizedAt = r.finalizedAt := by
  rw [Reporter.flush]
  split_ifs
  · exact ⟨rfl,rfl,rfl,rfl,rfl,rfl,rfl⟩
  · exact ⟨rfl,rfl,rfl,rfl,rfl,rfl,rfl⟩

theorem flush_taken (hfree : (r.closed || r.stopped || r.sending.isSome) = false)
    {items pending : List JsVal} (hbatch : r.nextBatch S lease = (items,pending)) :
    r.flush S lease = { r with
      sending := some ⟨items,none⟩
      pending := pending } := by
  rw [Reporter.flush,hfree,hbatch]
  rfl

/-- A batch is taken, or nothing happens. -/
theorem flush_cases (S : ItemPlatform) (lease : Lease) (r : Reporter) :
    r.flush S lease = r ∧ (r.closed = true ∨ r.stopped = true ∨ r.sending.isSome = true) ∨
    (∃ items,(r.flush S lease).sending = some ⟨items,none⟩) ∧ r.closed = false ∧ r.stopped = false ∧
      r.sending = none := by
  rw [Reporter.flush]
  split_ifs with hbusy
  · simp only [Bool.or_eq_true] at hbusy
    exact .inl ⟨rfl,by tauto⟩
  · simp only [Bool.or_eq_true,not_or,Bool.not_eq_true,Option.isSome_eq_false_iff,
      Option.isNone_iff_eq_none] at hbusy
    exact .inr ⟨⟨_,rfl⟩,hbusy.1.1,hbusy.1.2,hbusy.2⟩

theorem calm_flush (h : Calm r) : Calm (r.flush S lease) := by
  obtain ⟨-,-,-,hstopped,hclosed,hphase,hfinal⟩ := flush_frame S lease r
  refine ⟨fun hc hs => ?_,fun hp => ?_,fun hp => ?_⟩
  · rw [hclosed] at hc
    rw [hstopped] at hs
    rcases flush_cases S lease r with ⟨he,-⟩ | ⟨-,hopen,-⟩
    · rw [he]
      exact h.closed hc hs
    · rw [hopen] at hc
      cases hc
  · rw [hstopped]
    exact h.ended (hphase ▸ hp)
  · rw [hfinal]
    exact h.finalized (hphase ▸ hp)

theorem moves_flush (h : Calm r) : Moves r (r.flush S lease) := by
  obtain ⟨hsequence,hdropped,hfailures,hstopped,-,hphase,-⟩ := flush_frame S lease r
  refine {
    calm := calm_flush h
    sequence := hsequence
    dropped := hdropped.ge
    failures := hfailures.ge
    stopped := fun hs => hstopped ▸ hs
    flight := fun items i hsending => ?_
    idle := fun _ _ hp hsending => ?_
    accounts := fun settled recorded ha => ?_ }
  · rcases flush_cases S lease r with ⟨he,-⟩ | ⟨⟨taken,htaken⟩,-⟩
    · rw [he] at hsending ⊢
      exact ⟨hsending,fun _ hp => hp,fun hp => hp⟩
    · rw [htaken] at hsending
      cases hsending
  · rcases flush_cases S lease r with ⟨he,-⟩ | ⟨⟨taken,htaken⟩,-⟩
    · rw [he] at hp hsending ⊢
      exact ⟨hp,hsending,fun hp => hp⟩
    · rw [htaken] at hsending
      cases hsending
  · exact ha.congr (held_flush S lease r) hdropped.ge fun hs => hstopped ▸ hs

/-- What `stop` does to one that is neither stopped nor closed. -/
theorem stop_cases (r : Reporter) : r.stop = r ∧ (r.stopped = true ∨ r.closed = true) ∨
    r.stop = { r with stopped := true,dropped := r.dropped+r.pending.length,pending := [] } ∧
      r.stopped = false ∧ r.closed = false := by
  rw [Reporter.stop]
  split_ifs with hdone
  · rw [Bool.or_eq_true] at hdone
    exact .inl ⟨rfl,hdone⟩
  · rw [Bool.or_eq_true,not_or,Bool.not_eq_true,Bool.not_eq_true] at hdone
    exact .inr ⟨rfl,hdone.1,hdone.2⟩

theorem moves_refl (h : Calm r) : Moves r r where
  calm := h
  sequence := rfl
  dropped := le_rfl
  failures := le_rfl
  stopped := fun hs => hs
  flight := fun _ _ hsending => ⟨hsending,fun _ hp => hp,fun hp => hp⟩
  idle := fun _ _ hp hsending => ⟨hp,hsending,fun hp => hp⟩
  accounts := fun _ _ ha => ha

theorem moves_stop (h : Calm r) : Moves r r.stop := by
  rcases stop_cases r with ⟨he,-⟩ | ⟨he,hstopped,hclosed⟩
  · rw [he]
    exact moves_refl h
  · rw [he]
    exact {
      calm := ⟨fun _ hs => absurd hs (by simp),fun _ => rfl,h.finalized⟩
      sequence := rfl
      dropped := Nat.le_add_right _ _
      failures := le_rfl
      stopped := fun hs => absurd hs (by simp)
      flight := fun _ _ hsending => ⟨hsending,fun hs => absurd hs (by simp),fun hp => hp⟩
      idle := fun _ hs => absurd hs (by simp)
      accounts := fun _ _ ha => @Accounts.give _ _ r _ ha r.pending
        (by simp only [Reporter.held,List.append_nil]; exact List.perm_append_comm) le_rfl rfl }

theorem Moves.trans {a b c : Reporter} (h : Moves a b) (h' : Moves b c) : Moves a c where
  calm := h'.calm
  sequence := h'.sequence.trans h.sequence
  dropped := h.dropped.trans h'.dropped
  failures := h.failures.trans h'.failures
  stopped := fun hs => h.stopped (h'.stopped hs)
  flight := fun items i hsending => by
    obtain ⟨hb,hpending,hphase⟩ := h'.flight items i hsending
    obtain ⟨ha,hpending',hphase'⟩ := h.flight items i hb
    exact ⟨ha,fun hs hp => hpending' (h'.stopped hs) (hpending hs hp),fun hp => hphase' (hphase hp)⟩
  idle := fun hf hs hp hsending => by
    obtain ⟨hphase,hnone,hpending⟩ := h'.idle hf hs hp hsending
    obtain ⟨hphase',hnone',hpending'⟩ := h.idle (Nat.le_zero.mp (hf ▸ h'.failures))
      (h'.stopped hs) hphase hnone
    exact ⟨hphase',hnone',fun hp => hpending' (hpending hp)⟩
  accounts := fun settled recorded ha => h'.accounts settled recorded (h.accounts settled recorded ha)

/-- Items that are given up, with a failure. -/
theorem moves_give (h : Calm r) {flight : Flight} (hsending : r.sending = some flight)
    (retries : ℕ) : Moves r { r with
      failures := r.failures+1,retries := retries,sending := none,
      dropped := r.dropped+flight.items.length }.stop := by
  have hheld : r.held = flight.items++r.pending := by rw [Reporter.held,hsending,Option.elim_some]
  rcases stop_cases { r with
    failures := r.failures+1,retries := retries,sending := none,
    dropped := r.dropped+flight.items.length } with ⟨he,hdone⟩ | ⟨he,hstopped,-⟩
  · have hstopped : r.stopped = true := by
      rcases hdone with hs | hc
      · exact hs
      · by_contra hs
        have hnone := (h.closed hc (Bool.not_eq_true _ ▸ hs)).1
        rw [hsending] at hnone
        cases hnone
    rw [he]
    exact {
      calm := ⟨fun _ hs => absurd (hstopped.symm.trans hs) (by decide),h.ended,h.finalized⟩
      sequence := rfl
      dropped := Nat.le_add_right _ _
      failures := Nat.le_succ _
      stopped := fun hs => hs
      flight := fun _ _ hnone => absurd hnone (by simp)
      idle := fun hf => absurd hf (by simp)
      accounts := fun _ _ ha => @Accounts.give _ _ r _ ha flight.items (by rw [hheld]; rfl) le_rfl
        hstopped }
  · rw [he]
    exact {
      calm := ⟨fun _ hs => absurd hs (by simp),fun _ => rfl,h.finalized⟩
      sequence := rfl
      dropped := by
        change r.dropped ≤ r.dropped+flight.items.length+r.pending.length
        omega
      failures := Nat.le_succ _
      stopped := fun hs => absurd hs (by simp)
      flight := fun _ _ hnone => absurd hnone (by simp)
      idle := fun hf => absurd hf (by simp)
      accounts := fun _ _ ha => @Accounts.give _ _ r _ ha (flight.items++r.pending)
        (by rw [hheld,Reporter.held,Option.elim_none,List.append_nil,List.append_nil])
        (by rw [List.length_append]; exact (Nat.add_assoc _ _ _).ge) rfl }

theorem moves_revoked (h : Calm r) {flight : Flight} (hsending : r.sending = some flight) :
    Moves r (r.revoked flight.items) := moves_give h hsending r.retries

theorem moves_failed (h : Calm r) {flight : Flight} (hsending : r.sending = some flight)
    (now : Time) : Moves r (r.failed lease flight.items now) := by
  rw [Reporter.failed]
  split_ifs with hgiven
  · exact moves_give h hsending (r.retries+1)
  · have hheld : r.held = flight.items++r.pending := by rw [Reporter.held,hsending,Option.elim_some]
    exact {
      calm := ⟨fun hc hs => ⟨rfl,(h.closed hc hs).2⟩,h.ended,h.finalized⟩
      sequence := rfl
      dropped := le_rfl
      failures := Nat.le_succ _
      stopped := fun hs => hs
      flight := fun _ _ hnone => absurd hnone (by simp)
      idle := fun hf => absurd hf (by simp)
      accounts := fun _ _ ha => ha.congr (by rw [hheld]; rfl) le_rfl fun hs => hs }

theorem moves_close (h : Calm r) (hphase : r.phase = .working) (now : Time) : Moves r { r with
    finalizedAt := r.finalizedAt.or (some now),phase := .draining } where
  calm := ⟨fun hc hs => absurd ((h.closed hc hs).2.symm.trans hphase) (by decide),
    fun hp => absurd hp (by simp),fun _ => by cases r.finalizedAt <;> rfl⟩
  sequence := rfl
  dropped := le_rfl
  failures := le_rfl
  stopped := fun hs => hs
  flight := fun _ _ hsending => ⟨hsending,fun _ hp => hp,fun hp => absurd hp (by simp)⟩
  idle := fun _ _ hp => absurd hp (by simp)
  accounts := fun _ _ ha => ha.congr rfl le_rfl fun hs => hs

theorem moves_drain (h : Calm r) (hphase : r.phase = .draining) :
    Moves r (r.drain S lease) := by
  have hopen : r.stopped = false → r.closed = false := by
    intro hs
    by_contra hc
    have hclosing := (h.closed (Bool.not_eq_false _ ▸ hc) hs).2
    rw [hphase] at hclosing
    cases hclosing
  rw [Reporter.drain]
  split_ifs with hstopped hbusy
  · exact {
      calm := ⟨fun _ hs => absurd (hstopped.symm.trans hs) (by decide),fun _ => hstopped,
        fun _ => h.finalized (by rw [hphase]; decide)⟩
      sequence := rfl
      dropped := le_rfl
      failures := le_rfl
      stopped := fun hs => hs
      flight := fun _ _ hsending => ⟨hsending,fun _ hp => hp,fun hp => absurd hp (by simp)⟩
      idle := fun _ _ hp => absurd hp (by simp)
      accounts := fun _ _ ha => ha.congr rfl le_rfl fun hs => hs }
  · exact moves_flush h
  · rw [Bool.not_eq_true] at hstopped
    rw [not_or,not_not,Option.not_isSome_iff_eq_none] at hbusy
    have hflush := @moves_flush S lease r h
    obtain ⟨-,-,-,hstill,hclosed,-,hfinal⟩ := flush_frame S lease r
    obtain ⟨taken,htaken⟩ : ∃ items,(r.flush S lease).sending = some ⟨items,none⟩ := by
      rcases flush_cases S lease r with ⟨-,hblocked⟩ | ⟨htaken,-⟩
      · rw [hstopped,hopen hstopped,hbusy.2] at hblocked
        simp at hblocked
      · exact htaken
    exact {
      calm := ⟨fun hc hs => absurd (hclosed.symm.trans hc) (by rw [hopen hstopped]; decide),
        fun hp => absurd hp (by simp),
        fun _ => by rw [hfinal]; exact h.finalized (by rw [hphase]; decide)⟩
      sequence := hflush.sequence
      dropped := hflush.dropped
      failures := hflush.failures
      stopped := hflush.stopped
      flight := fun items i hsending => by
        change (r.flush S lease).sending = _ at hsending
        rw [htaken] at hsending
        cases hsending
      idle := fun _ _ _ hnone => by
        change (r.flush S lease).sending = _ at hnone
        rw [htaken] at hnone
        cases hnone
      accounts := fun settled recorded ha => (hflush.accounts settled recorded ha).congr rfl le_rfl
        fun hs => hs }

theorem moves_finish (h : Calm r)
    (hdone : r.stopped = true ∨ r.phase = .closing ∧ r.sending = none) :
    Moves r { r with closed := true } where
  calm := ⟨fun _ hs => (hdone.resolve_left (by rw [Bool.not_eq_true]; exact hs)).symm,h.ended,
    h.finalized⟩
  sequence := rfl
  dropped := le_rfl
  failures := le_rfl
  stopped := fun hs => hs
  flight := fun _ _ hsending => ⟨hsending,fun _ hp => hp,fun hp => hp⟩
  idle := fun _ _ hp hsending => ⟨hp,hsending,fun hp => hp⟩
  accounts := fun _ _ ha => ha.congr rfl le_rfl fun hs => hs

end

theorem captureCount_numeral {n : ℕ} (h : n ≤ 1048576) : captureCount (numeral n) = some n := by
  rcases Nat.eq_zero_or_pos n with rfl | hpos
  · rw [numeral_zero]
    norm_num [captureCount,isSafeInteger,rational,maxSafeInteger]
  · obtain ⟨x,hvalue,hx⟩ := ProbeProfile.exists_numeral hpos (show n < 2^53 by omega)
    have hhigh : (n : ℚ) ≤ 1048576 := by exact_mod_cast h
    have hsafe : (n : ℚ) ≤ maxSafeInteger := by
      rw [maxSafeInteger]
      linarith
    rw [hx,captureCount]
    simp [isSafeInteger,hvalue,hsafe,hhigh]

/-- The counts and the end of an accepted capture. -/
theorem capture_ok {dates : Dates} {value : JsVal} {now : Time} {capture : Capture}
    (h : normalizeProbeCapture dates value now = some capture) :
    captureCount (field value "last_sequence") = some capture.lastSequence ∧
    captureCount (field value "dropped_count") = some capture.droppedCount ∧
    captureCount (field value "delivery_failures") = some capture.deliveryFailures ∧
    (capture.finalizedAt.isSome = true ↔ nullish (field value "finalized_at") = false) := by
  unfold normalizeProbeCapture at h
  split at h
  · split at h
    · cases h
    · simp only [Option.bind_eq_bind,Option.bind_eq_some_iff] at h
      obtain ⟨recorded,hrecorded,dropped,hdropped,failures,hfailures,last,hlast,h⟩ := h
      split at h
      · cases h
      · split at h
        · next hnone =>
            cases h
            exact ⟨hlast,hdropped,hfailures,by simp [hnone]⟩
        · next hsome =>
            simp only [Option.bind_eq_some_iff] at h
            obtain ⟨finalized,-,h⟩ := h
            split at h
            · cases h
            · cases h
              rw [Bool.not_eq_true] at hsome
              exact ⟨hlast,hdropped,hfailures,by simp [hsome]⟩
  · cases h

/-- The snapshot of a reporter within its limits is accepted. -/
theorem capture_taken {S : ItemPlatform} {r : Reporter} {now : Time}
    (hsequence : r.sequence ≤ maxProbeActivityItems) (hdropped : r.dropped ≤ 1048576)
    (hfailures : r.failures ≤ 1048576) (hfinal : ∀ t ∈ r.finalizedAt,
      S.newDate (.str (S.toISOString t)) = some t ∧ |now-t| ≤ 300000) :
    normalizeProbeCapture (itemDates S) (r.snapshot S) now =
      some ⟨r.sequence,r.dropped,r.failures,r.sequence,r.finalizedAt⟩ := by
  have hkeys : keysWithin (r.snapshot S) ["version","recorded_count","dropped_count",
      "delivery_failures","last_sequence","finalized_at"] = true := rfl
  have hversion : is (field (r.snapshot S) "version") "probe-capture.v1" = true := rfl
  have hrecorded : field (r.snapshot S) "recorded_count" = numeral r.sequence := rfl
  have hlast : field (r.snapshot S) "last_sequence" = numeral r.sequence := rfl
  have hlost : field (r.snapshot S) "dropped_count" = numeral r.dropped := rfl
  have hfailed : field (r.snapshot S) "delivery_failures" = numeral r.failures := rfl
  have hend : field (r.snapshot S) "finalized_at" =
      r.finalizedAt.elim .null fun t => .str (S.toISOString t) := rfl
  have hsmall : ¬ 256 < r.sequence := not_lt.mpr hsequence
  have hcount : captureCount (numeral r.sequence) = some r.sequence :=
    captureCount_numeral (hsequence.trans (by norm_num [maxProbeActivityItems]))
  unfold normalizeProbeCapture
  split
  · rw [hkeys,hversion,hrecorded,hlast,hlost,hfailed,hend,hcount,captureCount_numeral hdropped,
      captureCount_numeral hfailures]
    cases hfinalized : r.finalizedAt with
    | none => simp [hsmall,nullish]
    | some t =>
        obtain ⟨hread,hnear⟩ := hfinal t hfinalized
        have hinstant : (itemDates S).instant (.str (S.toISOString t)) = some t := hread
        simp [hsmall,nullish,hinstant,not_lt.mpr hnear]
  · next hnone => exact absurd rfl (hnone _)

/-- What a snapshot says once it is read. -/
theorem capture_snapshot {S : ItemPlatform} {r : Reporter} {now : Time} {capture : Capture}
    (h : normalizeProbeCapture (itemDates S) (r.snapshot S) now = some capture)
    (hsequence : r.sequence ≤ 1048576) : capture.lastSequence = r.sequence ∧
      (r.dropped = 0 → capture.droppedCount = 0) ∧ (r.failures = 0 → capture.deliveryFailures = 0) ∧
      (capture.finalizedAt.isSome = true ↔ r.finalizedAt.isSome = true) := by
  have hlast : field (r.snapshot S) "last_sequence" = numeral r.sequence := rfl
  have hdropped : field (r.snapshot S) "dropped_count" = numeral r.dropped := rfl
  have hfailures : field (r.snapshot S) "delivery_failures" = numeral r.failures := rfl
  have hfinal : field (r.snapshot S) "finalized_at" =
      r.finalizedAt.elim .null fun t => .str (S.toISOString t) := rfl
  have hzero : captureCount (numeral 0) = some 0 := captureCount_numeral (by norm_num)
  obtain ⟨hl,hd,hf,hend⟩ := capture_ok h
  rw [hlast,captureCount_numeral hsequence,Option.some.injEq] at hl
  rw [hdropped] at hd
  rw [hfailures] at hf
  refine ⟨hl.symm,fun h0 => ?_,fun h0 => ?_,?_⟩
  · rw [h0,hzero,Option.some.injEq] at hd
    exact hd.symm
  · rw [h0,hzero,Option.some.injEq] at hf
    exact hf.symm
  · rw [hend,hfinal]
    cases r.finalizedAt with
    | none => simp [nullish]
    | some t => simp [nullish]

section
variable (S : ItemPlatform) (digest : JsString → JsString) (lease : Lease)

/-- The event is the signed record of an entry, whose members are those of the entry. -/
structure IsRecord (entry : JsVal) (e : Event) : Prop where
  tenantId : e.tenantId = lease.tenantId
  testRunId : e.testRunId = lease.testRunId
  eventId : e.eventId = some (lease.eventId S digest (field entry "sequence"))
  signed : e.signalType = js "probe_activity" ∧ e.producerKind = js "signed_probe"
  metadata : ∃ item now job,normalizeProbeActivityItem S entry now = some item ∧
    lease.Holds S job ∧ job.id = lease.jobId ∧
    e.metadata = activityMetadata S job item lease.workerId

def Stored (desk : Desk) (entry : JsVal) : Prop :=
  ∃ e ∈ desk.events,IsRecord S digest lease entry e

/-- The capture of the row is at least as far as a snapshot. -/
def Covers (desk : Desk) (sent : Reporter) : Prop :=
  ∀ job,desk.jobs lease.tenantId lease.jobId = some job → lease.Holds S job →
    ∃ capture,job.capture = some capture ∧ sent.sequence ≤ capture.lastSequence ∧
      (sent.finalizedAt.isSome = true → capture.finalizedAt.isSome = true)

/-- The capture of the row says nothing that the reporter has not counted. -/
def Within (r : Reporter) (capture : Capture) : Prop :=
  capture.lastSequence ≤ r.sequence ∧ (r.dropped = 0 → capture.droppedCount = 0) ∧
    (r.failures = 0 → capture.deliveryFailures = 0)

/-- A request says nothing that the reporter has not counted. -/
structure Sent (c : Channel) (request : Request) : Prop where
  items : ∀ entry ∈ request.items,entry ∈ c.recorded
  sequence : request.sent.sequence ≤ c.reporter.sequence
  dropped : c.reporter.dropped = 0 → request.sent.dropped = 0
  failures : c.reporter.failures = 0 → request.sent.failures = 0

/-- What a batch of the lease leaves in the store. -/
structure Taken (c : Channel) (request : Request) (desk : Desk) : Prop where
  events : ∀ e ∈ c.desk.events,e ∈ desk.events
  records : ∀ e ∈ desk.events,e ∈ c.desk.events ∨
    ∃ entry ∈ request.items,IsRecord S digest lease entry e
  written : ∀ entry ∈ request.items,∃ e ∈ desk.events,
    keyed lease.tenantId (lease.eventId S digest (field entry "sequence")) e = true
  once : ∀ sequence,(desk.events.filter
    (keyed lease.tenantId (lease.eventId S digest sequence))).length ≤ 1
  row : ∃ job next,c.desk.jobs lease.tenantId lease.jobId = some job ∧ lease.Holds S job ∧
    desk.jobs lease.tenantId lease.jobId =
      some { job with capture := some (mergeProbeCapture job.capture next) } ∧
    next.lastSequence = request.sent.sequence ∧
    (request.sent.dropped = 0 → next.droppedCount = 0) ∧
    (request.sent.failures = 0 → next.deliveryFailures = 0) ∧
    (request.sent.finalizedAt.isSome = true → next.finalizedAt.isSome = true)

structure Sound (c : Channel) : Prop where
  calm : Calm c.reporter
  count : c.recorded.length = c.reporter.sequence
  small : c.reporter.sequence ≤ maxProbeActivityItems
  number : ∀ i entry,c.recorded[i]? = some entry → field entry "sequence" = numeral (i+1)
  accounts : Accounts (Stored S digest lease c.desk) c.recorded c.reporter
  requests : ∀ request ∈ c.requests,Sent c request
  flight : ∀ items i,c.reporter.sending = some ⟨items,some i⟩ → ∃ request,
    c.requests[i]? = some request ∧ request.items = items ∧
    (c.reporter.stopped = false → c.reporter.pending = [] →
      request.sent.sequence = c.reporter.sequence) ∧
    (c.reporter.phase = .closing → request.sent.finalizedAt.isSome = true)
  answers : ∀ i n,(i,.ok n) ∈ c.answers → ∃ request,c.requests[i]? = some request ∧
    (∀ entry ∈ request.items,Stored S digest lease c.desk entry) ∧
    (c.reporter.stopped = false → Covers S lease c.desk request.sent)
  row : ∀ job,c.desk.jobs lease.tenantId lease.jobId = some job → lease.Holds S job →
    job.testRunId = lease.testRunId ∧ (c.reporter.stopped = false →
      ∀ capture,job.capture = some capture → Within c.reporter capture)
  events : ∀ e ∈ c.desk.events,lease.Owns S digest e →
    ∃ entry ∈ c.recorded,IsRecord S digest lease entry e
  once : ∀ sequence,(c.desk.events.filter
    (keyed lease.tenantId (lease.eventId S digest sequence))).length ≤ 1
  closing : c.reporter.failures = 0 → c.reporter.stopped = false → c.reporter.phase = .closing →
    c.reporter.sending = none → ∃ i n request,(i,.ok n) ∈ c.answers ∧
      c.requests[i]? = some request ∧ request.sent.finalizedAt.isSome = true ∧
      (c.reporter.pending = [] → request.sent.sequence = c.reporter.sequence)

end

section
variable {S : ItemPlatform} {digest : JsString → JsString} {lease : Lease} {c : Channel}

theorem sound_fresh (h : Fresh S digest lease c) : Sound S digest lease c := by
  obtain ⟨reporter,recorded,requests,answers,desk⟩ := c
  obtain ⟨⟨now,hreporter⟩,hrecorded,hrequests,hanswers,hevents,hrow⟩ := h
  dsimp only at hreporter hrecorded hrequests hanswers
  subst hreporter hrecorded hrequests hanswers
  exact {
    calm := ⟨fun hc => (by cases hc),fun hp => (by cases hp),fun hp => absurd rfl hp⟩
    count := rfl
    small := Nat.zero_le _
    number := fun i entry hentry => by simp at hentry
    accounts := ⟨[],[],.refl _,Nat.zero_le _,by simp,fun _ => rfl⟩
    requests := by simp
    flight := fun items i hsending => by cases hsending
    answers := by simp
    row := fun job hjob hholds => ⟨(hrow job hjob hholds).1,fun _ capture hcapture => by
      rw [(hrow job hjob hholds).2] at hcapture
      cases hcapture⟩
    events := fun e he howns => absurd howns (hevents e he)
    once := fun sequence => by
      rw [List.filter_eq_nil_iff.mpr fun e he hkeyed => hevents e he (.inl ⟨sequence,hkeyed⟩)]
      exact Nat.zero_le _
    closing := fun _ _ hp => by cases hp }

/-- A turn of the reporter alone. -/
theorem Sound.moves (h : Sound S digest lease c) {r' : Reporter} (hm : Moves c.reporter r') :
    Sound S digest lease { c with reporter := r' } where
  calm := hm.calm
  count := h.count.trans hm.sequence.symm
  small := hm.sequence.le.trans h.small
  number := h.number
  accounts := hm.accounts _ _ h.accounts
  requests := fun request hrequest => {
    items := (h.requests request hrequest).items
    sequence := (h.requests request hrequest).sequence.trans hm.sequence.ge
    dropped := fun h0 => (h.requests request hrequest).dropped
      (Nat.le_zero.mp (hm.dropped.trans h0.le))
    failures := fun h0 => (h.requests request hrequest).failures
      (Nat.le_zero.mp (hm.failures.trans h0.le)) }
  flight := fun items i hsending => by
    obtain ⟨hbefore,hpending,hphase⟩ := hm.flight items i hsending
    obtain ⟨request,hrequest,hitems,hsequence,hfinal⟩ := h.flight items i hbefore
    refine ⟨request,hrequest,hitems,fun hs hp => ?_,fun hp => hfinal (hphase hp)⟩
    exact (hsequence (hm.stopped hs) (hpending hs hp)).trans hm.sequence.symm
  answers := fun i n hanswer => by
    obtain ⟨request,hrequest,hstored,hcovers⟩ := h.answers i n hanswer
    exact ⟨request,hrequest,hstored,fun hs => hcovers (hm.stopped hs)⟩
  row := fun job hjob hholds => by
    obtain ⟨hrun,hwithin⟩ := h.row job hjob hholds
    refine ⟨hrun,fun hs capture hcapture => ?_⟩
    obtain ⟨hlast,hdropped,hfailures⟩ := hwithin (hm.stopped hs) capture hcapture
    exact ⟨hlast.trans hm.sequence.ge,fun h0 => hdropped (Nat.le_zero.mp (hm.dropped.trans h0.le)),
      fun h0 => hfailures (Nat.le_zero.mp (hm.failures.trans h0.le))⟩
  events := h.events
  once := h.once
  closing := fun hf hs hp hsending => by
    obtain ⟨hphase,hnone,hpending⟩ := hm.idle hf hs hp hsending
    obtain ⟨i,n,request,hanswer,hrequest,hfinal,hsequence⟩ := h.closing
      (Nat.le_zero.mp (hm.failures.trans hf.le)) (hm.stopped hs) hphase hnone
    exact ⟨i,n,request,hanswer,hrequest,hfinal,
      fun hp => (hsequence (hpending hp)).trans hm.sequence.symm⟩

/-- Both ends count the same: what is held was recorded. -/
theorem Sound.held (h : Sound S digest lease c) :
    ∀ entry ∈ c.reporter.held,entry ∈ c.recorded := by
  obtain ⟨acked,lost,hperm,-⟩ := h.accounts
  intro entry hentry
  refine hperm.mem_iff.mpr ?_
  simp [hentry]

/-- A good answer. -/
theorem Sound.acknowledged (h : Sound S digest lease c) {items : List JsVal} {i n : ℕ}
    (hsending : c.reporter.sending = some ⟨items,some i⟩) (hanswer : (i,.ok n) ∈ c.answers)
    (now : Time) : Sound S digest lease { c with
      reporter := { c.reporter with
        retries := 0,lastAcknowledgment := now,sending := none } } where
  calm := ⟨fun hc hs => ⟨rfl,(h.calm.closed hc hs).2⟩,h.calm.ended,h.calm.finalized⟩
  count := h.count
  small := h.small
  number := h.number
  accounts := by
    obtain ⟨request,hrequest,hitems,-⟩ := h.flight items i hsending
    obtain ⟨request',hrequest',hstored,-⟩ := h.answers i n hanswer
    rw [hrequest,Option.some.injEq] at hrequest'
    subst hrequest' hitems
    obtain ⟨acked,lost,hperm,hlost,hacked,hnone⟩ := h.accounts
    refine ⟨acked++request.items,lost,?_,hlost,?_,hnone⟩
    · rw [Reporter.held,hsending,Option.elim_some] at hperm
      rw [Reporter.held,Option.elim_none,List.nil_append,List.append_assoc]
      rwa [List.append_assoc] at hperm
    · intro entry hentry
      rcases List.mem_append.mp hentry with hentry | hentry
      · exact hacked entry hentry
      · exact hstored entry hentry
  requests := fun request hrequest => by
    obtain ⟨hitems,hsequence,hdropped,hfailures⟩ := h.requests request hrequest
    exact ⟨hitems,hsequence,hdropped,hfailures⟩
  flight := fun _ _ hnone => by cases hnone
  answers := h.answers
  row := h.row
  events := h.events
  once := h.once
  closing := fun hf hs hp _ => by
    obtain ⟨request,hrequest,-,hsequence,hfinal⟩ := h.flight items i hsending
    exact ⟨i,n,request,hanswer,hrequest,hfinal hp,hsequence hs⟩

theorem moves_drop {r : Reporter} (h : Calm r) : Moves r { r with dropped := r.dropped+1 } where
  calm := ⟨h.closed,h.ended,h.finalized⟩
  sequence := rfl
  dropped := Nat.le_succ _
  failures := le_rfl
  stopped := fun hs => hs
  flight := fun _ _ hsending => ⟨hsending,fun _ hp => hp,fun hp => hp⟩
  idle := fun _ _ hp hsending => ⟨hp,hsending,fun hp => hp⟩
  accounts := fun _ _ ha => ha.congr rfl (Nat.le_succ _) fun hs => hs

/-- An entry has the next number. -/
theorem entry_number (hS : Documented S) {r : Reporter} {item entry : JsVal} {now : Time}
    (h : r.entry S item now = some entry) :
    field entry "sequence" = numeral (r.sequence+1) ∧ r.sequence < maxProbeActivityItems := by
  rw [Reporter.entry] at h
  split_ifs at h with hfull
  simp only [Bool.or_eq_true,decide_eq_true_eq,not_or,not_le] at hfull
  have hother : js "sequence" ≠ js "at" := by decide
  refine ⟨?_,hfull.2⟩
  rw [(normalize_spec hS h).2.1,field_put_other hother,field_put_self]

theorem Sound.recorded (hS : Documented S) (h : Sound S digest lease c) {item entry : JsVal}
    {now : Time} (hentry : c.reporter.entry S item now = some entry) :
    Sound S digest lease { c with
      reporter := { c.reporter with
        sequence := c.reporter.sequence+1,pending := c.reporter.pending++[entry] }
      recorded := c.recorded++[entry] } := by
  obtain ⟨hnumber,hroom⟩ := entry_number hS hentry
  exact {
    calm := ⟨h.calm.closed,h.calm.ended,h.calm.finalized⟩
    count := by rw [List.length_append,h.count]; rfl
    small := hroom
    number := fun i e he => by
      rcases Nat.lt_or_ge i c.recorded.length with hlt | hge
      · rw [List.getElem?_append_left hlt] at he
        exact h.number i e he
      · rw [List.getElem?_append_right hge,List.getElem?_singleton] at he
        split_ifs at he with h0
        cases he
        rw [hnumber,← h.count,show i = c.recorded.length by omega]
    accounts := by
      obtain ⟨acked,lost,hperm,hlost,hacked,hnone⟩ := h.accounts
      refine ⟨acked,lost,?_,hlost,hacked,hnone⟩
      refine (hperm.append_right [entry]).trans ?_
      simp only [Reporter.held,List.append_assoc]
      refine List.Perm.append_left _ (List.Perm.append_left _ (List.Perm.append_left _ ?_))
      exact List.perm_append_comm
    requests := fun request hrequest => by
      obtain ⟨hitems,hsequence,hdropped,hfailures⟩ := h.requests request hrequest
      exact ⟨fun e he => List.mem_append_left _ (hitems e he),hsequence.trans (Nat.le_succ _),
        hdropped,hfailures⟩
    flight := fun items i hsending => by
      obtain ⟨request,hrequest,hitems,-,hfinal⟩ := h.flight items i hsending
      exact ⟨request,hrequest,hitems,fun _ hp => absurd hp (by simp),hfinal⟩
    answers := h.answers
    row := fun job hjob hholds => by
      obtain ⟨hrun,hwithin⟩ := h.row job hjob hholds
      refine ⟨hrun,fun hs capture hcapture => ?_⟩
      obtain ⟨hlast,hdropped,hfailures⟩ := hwithin hs capture hcapture
      exact ⟨hlast.trans (Nat.le_succ _),hdropped,hfailures⟩
    events := fun e he howns => by
      obtain ⟨recorded,hmem,hrecord⟩ := h.events e he howns
      exact ⟨recorded,List.mem_append_left _ hmem,hrecord⟩
    once := h.once
    closing := fun hf hs hp hsending => by
      obtain ⟨i,n,request,hanswer,hrequest,hfinal,-⟩ := h.closing hf hs hp hsending
      exact ⟨i,n,request,hanswer,hrequest,hfinal,fun hp => absurd hp (by simp)⟩ }

theorem Sound.record (hS : Documented S) (h : Sound S digest lease c) (item : JsVal) (now : Time) :
    Sound S digest lease (c.recordItem S lease item now) := by
  rw [Channel.recordItem,Reporter.record]
  cases hentry : c.reporter.entry S item now with
  | none =>
      simp only [Option.toList_none,List.append_nil]
      exact h.moves (moves_drop h.calm)
  | some entry =>
      have hrecorded := h.recorded hS hentry
      exact hrecorded.moves (moves_flush hrecorded.calm)

theorem Sound.send (h : Sound S digest lease c) {items : List JsVal}
    (hsending : c.reporter.sending = some ⟨items,none⟩) : Sound S digest lease { c with
      reporter := { c.reporter with sending := some ⟨items,some c.requests.length⟩ }
      requests := c.requests++[⟨items,c.reporter⟩] } where
  calm := ⟨fun hc hs => absurd (hsending.symm.trans (h.calm.closed hc hs).1) (by simp),
    h.calm.ended,h.calm.finalized⟩
  count := h.count
  small := h.small
  number := h.number
  accounts := h.accounts.congr (by simp only [Reporter.held,hsending,Option.elim_some]) le_rfl
    fun hs => hs
  requests := fun request hrequest => by
    rcases List.mem_append.mp hrequest with hrequest | hrequest
    · obtain ⟨hitems,hsequence,hdropped,hfailures⟩ := h.requests request hrequest
      exact ⟨hitems,hsequence,hdropped,hfailures⟩
    · rw [List.mem_singleton.mp hrequest]
      refine ⟨fun entry hentry => h.held entry ?_,le_rfl,fun h0 => h0,fun h0 => h0⟩
      rw [Reporter.held,hsending,Option.elim_some]
      exact List.mem_append_left _ hentry
  flight := fun items' i hflight => by
    simp only [Option.some.injEq,Flight.mk.injEq] at hflight
    obtain ⟨rfl,rfl⟩ := hflight
    refine ⟨⟨items,c.reporter⟩,?_,rfl,fun _ _ => rfl,fun hp => h.calm.finalized ?_⟩
    · rw [List.getElem?_append_right le_rfl,Nat.sub_self]
      rfl
    · rw [show c.reporter.phase = .closing from hp]
      decide
  answers := fun i n hanswer => by
    obtain ⟨request,hrequest,hstored,hcovers⟩ := h.answers i n hanswer
    refine ⟨request,?_,hstored,hcovers⟩
    obtain ⟨hlt,-⟩ := List.getElem?_eq_some_iff.mp hrequest
    rw [List.getElem?_append_left hlt,hrequest]
  row := h.row
  events := h.events
  once := h.once
  closing := fun _ _ _ hnone => by cases hnone

/-- What others do. -/
theorem Sound.outside (h : Sound S digest lease c) {desk : Desk}
    (ho : Outside S digest lease c.reporter.stopped c.desk desk) :
    Sound S digest lease { c with desk := desk } := by
  obtain ⟨⟨more,hmore,hother⟩,hrow⟩ := ho
  have hstored : ∀ entry,Stored S digest lease c.desk entry → Stored S digest lease desk entry := by
    rintro entry ⟨e,he,hrecord⟩
    exact ⟨e,by rw [hmore]; exact List.mem_append_left _ he,hrecord⟩
  exact {
    calm := h.calm
    count := h.count
    small := h.small
    number := h.number
    accounts := h.accounts.mono hstored
    requests := fun request hrequest => by
      obtain ⟨hitems,hsequence,hdropped,hfailures⟩ := h.requests request hrequest
      exact ⟨hitems,hsequence,hdropped,hfailures⟩
    flight := h.flight
    answers := fun i n hanswer => by
      obtain ⟨request,hrequest,hitems,hcovers⟩ := h.answers i n hanswer
      refine ⟨request,hrequest,fun entry he => hstored entry (hitems entry he),fun hs job hjob hh => ?_⟩
      obtain ⟨job₀,hjob₀,hh₀,-,hcapture⟩ := hrow job hjob hh
      rw [hcapture hs]
      exact hcovers hs job₀ hjob₀ hh₀
    row := fun job hjob hh => by
      obtain ⟨job₀,hjob₀,hh₀,hrun,hcapture⟩ := hrow job hjob hh
      obtain ⟨hrun₀,hwithin⟩ := h.row job₀ hjob₀ hh₀
      refine ⟨hrun.trans hrun₀,fun hs capture hc => hwithin hs capture ?_⟩
      rwa [← hcapture hs]
    events := fun e he howns => by
      change e ∈ desk.events at he
      rw [hmore] at he
      rcases List.mem_append.mp he with he | he
      · exact h.events e he howns
      · exact absurd howns (hother e he)
    once := fun sequence => by
      have hnone : more.filter (keyed lease.tenantId (lease.eventId S digest sequence)) = [] :=
        List.filter_eq_nil_iff.mpr fun e he hkeyed => hother e he (.inl ⟨sequence,hkeyed⟩)
      change (desk.events.filter _).length ≤ 1
      rw [hmore,List.filter_append,hnone,List.append_nil]
      exact h.once sequence
    closing := h.closing }

/-- Entries with one event id are one entry. -/
theorem Sound.unique (hdigest : Function.Injective digest) (h : Sound S digest lease c)
    {a b : JsVal} (ha : a ∈ c.recorded) (hb : b ∈ c.recorded)
    (hid : lease.eventId S digest (field a "sequence") =
      lease.eventId S digest (field b "sequence")) : a = b := by
  obtain ⟨i,hi⟩ := List.getElem?_of_mem ha
  obtain ⟨j,hj⟩ := List.getElem?_of_mem hb
  obtain ⟨hilt,-⟩ := List.getElem?_eq_some_iff.mp hi
  obtain ⟨hjlt,-⟩ := List.getElem?_eq_some_iff.mp hj
  have hsmall := h.count.le.trans h.small
  rw [maxProbeActivityItems] at hsmall
  rw [h.number i a hi,h.number j b hj] at hid
  have hsame : numeral (i+1) = numeral (j+1) := congrArg JsVal.num (activityEventId_inj hdigest hid)
  have hindex := numeral_inj (by omega) (by omega) hsame
  rw [show i = j by omega,hj,Option.some.injEq] at hi
  exact hi.symm

theorem leasedText_holds {job : ActivityJob} (h : lease.Holds S job) :
    leasedText S job.leasedAt = S.toISOString lease.leasedAt := by
  cases hleased : job.leasedAt with
  | none =>
      rw [Lease.Holds,hleased] at h
      cases h
  | some t =>
      rw [Lease.Holds,hleased] at h
      exact (of_decide_eq_true h).symm

/-- The record of an item of the lease. -/
theorem isRecord_event (hS : Documented S) {job : ActivityJob} {entry item : JsVal} {now : Time}
    (hid : job.id = lease.jobId) (htenant : job.tenantId = lease.tenantId)
    (hrun : job.testRunId = lease.testRunId) (hholds : lease.Holds S job)
    (hitem : normalizeProbeActivityItem S entry now = some item) (ingested : Option Time) :
    IsRecord S digest lease entry
      { probeActivityEvent S digest job item lease.workerId with ingestedAt := ingested } where
  tenantId := htenant
  testRunId := hrun
  eventId := by
    simp only [probeActivityEvent,Lease.eventId,hid,leasedText_holds hholds,
      (normalize_spec hS hitem).2.1]
  signed := ⟨rfl,rfl⟩
  metadata := ⟨item,now,job,hitem,hholds,hid,rfl⟩

/-- Captures that are merged are not behind either of the two. -/
theorem merge_spec (previous : Option Capture) (next : Capture) :
    (∀ capture,previous = some capture →
      capture.lastSequence ≤ (mergeProbeCapture previous next).lastSequence ∧
      (capture.finalizedAt.isSome = true →
        (mergeProbeCapture previous next).finalizedAt.isSome = true)) ∧
    next.lastSequence ≤ (mergeProbeCapture previous next).lastSequence ∧
    (next.finalizedAt.isSome = true →
      (mergeProbeCapture previous next).finalizedAt.isSome = true) := by
  cases previous with
  | none => exact ⟨fun _ h => (by cases h),le_rfl,fun h => h⟩
  | some p =>
      refine ⟨fun capture h => ?_,le_max_right _ _,fun h => ?_⟩
      · cases h
        refine ⟨le_max_left _ _,fun h => ?_⟩
        rw [mergeProbeCapture,Option.isSome_or,h,Bool.true_or]
      · rw [mergeProbeCapture,Option.isSome_or,h,Bool.or_true]

theorem within_merge {r : Reporter} {previous : Option Capture} {next : Capture}
    (hp : ∀ capture,previous = some capture → Within r capture) (hn : Within r next) :
    Within r (mergeProbeCapture previous next) := by
  cases previous with
  | none => exact hn
  | some p =>
      obtain ⟨hlast,hdropped,hfailures⟩ := hp p rfl
      refine ⟨max_le hlast hn.1,fun h0 => ?_,fun h0 => ?_⟩
      · rw [mergeProbeCapture,hdropped h0,hn.2.1 h0]
        rfl
      · rw [mergeProbeCapture,hfailures h0,hn.2.2 h0]
        rfl

theorem ingest_taken (hS : Documented S) (h : Sound S digest lease c) {request : Request}
    (hrequest : request ∈ c.requests) {now : Time} {accepted : ℕ}
    (hok : (ingestProbeActivity S digest c.desk lease.tenantId lease.workerId lease.jobId
      (batchBody S lease request.sent request.items) now).2 = .ok accepted) :
    Taken S digest lease c request (ingestProbeActivity S digest c.desk lease.tenantId
      lease.workerId lease.jobId (batchBody S lease request.sent request.items) now).1 := by
  obtain ⟨job,items,capture,hjob,-,-,hbatch,hdesk⟩ := ingest_ok hok
  have hstamp : field (batchBody S lease request.sent request.items) "leased_at" =
      .str (S.toISOString lease.leasedAt) := rfl
  have hraws : field (batchBody S lease request.sent request.items) "items" =
      .arr request.items := rfl
  have hsnapshot : field (batchBody S lease request.sent request.items) "capture" =
      request.sent.snapshot S := rfl
  obtain ⟨hholds,⟨raws,hitems,hmap⟩,hcapture⟩ := batch_ok hbatch
  rw [hstamp] at hholds
  rw [hraws,JsVal.arr.injEq] at hitems
  subst hitems
  rw [hsnapshot] at hcapture
  obtain ⟨hnone,-⟩ | ⟨-,hnext,hsome⟩ := hcapture
  · cases hnone
  obtain ⟨next,rfl⟩ := Option.isSome_iff_exists.mp hsome
  obtain ⟨hall,hback⟩ := mapM_mem hmap
  obtain ⟨hid,htenant⟩ := c.desk.found _ _ job hjob
  obtain ⟨hrun,-⟩ := h.row job hjob hholds
  have hsmall : request.sent.sequence ≤ 1048576 :=
    ((h.requests request hrequest).sequence.trans h.small).trans (by decide)
  obtain ⟨hlast,hdropped,hfailures,hfinal⟩ := capture_snapshot hnext hsmall
  have hevents : (ingestProbeActivity S digest c.desk lease.tenantId lease.workerId lease.jobId
      (batchBody S lease request.sent request.items) now).1.events =
      batchEvents S digest c.desk.events lease.tenantId lease.workerId job items now := by
    rw [hdesk]
    rfl
  exact {
    events := fun e he => by
      rw [hevents]
      exact pushNew_keeps.subset he
    records := fun e he => by
      rw [hevents] at he
      rcases mem_pushNew he with he | ⟨record,hrecord,rfl⟩
      · exact .inl he
      · obtain ⟨item,hitem,rfl⟩ := List.mem_map.mp hrecord
        obtain ⟨entry,hentry,hnormal⟩ := hback item hitem
        exact .inr ⟨entry,hentry,isRecord_event hS hid htenant hrun hholds hnormal (some now)⟩
    written := fun entry hentry => by
      obtain ⟨item,hitem,hnormal⟩ := hall entry hentry
      have hrecord := @isRecord_event S digest lease hS job entry item now hid htenant hrun hholds
        hnormal none
      rw [hevents]
      refine pushNew_complete (fun record hr => ?_)
        (List.mem_map.mpr ⟨item,hitem,rfl⟩) hrecord.eventId
      obtain ⟨other,-,rfl⟩ := List.mem_map.mp hr
      exact htenant
    once := fun sequence => by
      rw [hevents]
      exact pushNew_once (h.once sequence)
    row := ⟨job,next,hjob,hholds,by
      rw [hdesk]
      simp [Desk.writeCapture,Desk.merged,hjob],hlast,hdropped,hfailures,hfinal.mpr⟩ }

theorem Sound.taken (hdigest : Function.Injective digest) (h : Sound S digest lease c) {i : ℕ}
    {request : Request} (hrequest : c.requests[i]? = some request) {desk : Desk}
    (ht : Taken S digest lease c request desk) (accepted : ℕ) :
    Sound S digest lease { c with
      answers := c.answers++[(i,.ok accepted)]
      desk := desk } := by
  obtain ⟨job,next,hjob,hholds,hrow,hlast,hdropped,hfailures,hfinal⟩ := ht.row
  have hsent := h.requests request (List.mem_of_getElem? hrequest)
  have hkept : ∀ entry,Stored S digest lease c.desk entry → Stored S digest lease desk entry := by
    rintro entry ⟨e,he,hrecord⟩
    exact ⟨e,ht.events e he,hrecord⟩
  have hevents : ∀ e ∈ desk.events,lease.Owns S digest e →
      ∃ entry ∈ c.recorded,IsRecord S digest lease entry e := by
    intro e he howns
    rcases ht.records e he with he | ⟨entry,hentry,hrecord⟩
    · exact h.events e he howns
    · exact ⟨entry,hsent.items entry hentry,hrecord⟩
  have hstored : ∀ entry ∈ request.items,Stored S digest lease desk entry := by
    intro entry hentry
    obtain ⟨e,he,hkeyed⟩ := ht.written entry hentry
    obtain ⟨other,hother,hrecord⟩ := hevents e he (.inl ⟨_,hkeyed⟩)
    rw [keyed,Bool.and_eq_true,decide_eq_true_eq,decide_eq_true_eq,hrecord.eventId,
      Option.some.injEq] at hkeyed
    rw [← h.unique hdigest hother (hsent.items entry hentry) hkeyed.2]
    exact ⟨e,he,hrecord⟩
  obtain ⟨hfirst,hsecond,hthird⟩ := merge_spec job.capture next
  -- the row of the lease is the one that was written
  have honly : ∀ job',desk.jobs lease.tenantId lease.jobId = some job' →
      job' = { job with capture := some (mergeProbeCapture job.capture next) } := by
    intro job' hjob'
    rw [hrow,Option.some.injEq] at hjob'
    exact hjob'.symm
  exact {
    calm := h.calm
    count := h.count
    small := h.small
    number := h.number
    accounts := h.accounts.mono hkept
    requests := fun other hother => by
      obtain ⟨hitems,hsequence,hzero,hnone⟩ := h.requests other hother
      exact ⟨hitems,hsequence,hzero,hnone⟩
    flight := h.flight
    answers := fun j n hanswer => by
      rcases List.mem_append.mp hanswer with hanswer | hanswer
      · obtain ⟨other,hother,hitems,hcovers⟩ := h.answers j n hanswer
        refine ⟨other,hother,fun entry he => hkept entry (hitems entry he),fun hs job' hjob' _ => ?_⟩
        obtain ⟨capture,hcapture,hsequence,hend⟩ := hcovers hs job hjob hholds
        obtain ⟨hle,hsome⟩ := hfirst capture hcapture
        rw [honly job' hjob']
        exact ⟨_,rfl,hsequence.trans hle,fun hf => hsome (hend hf)⟩
      · obtain ⟨rfl,-⟩ := Prod.mk.inj (List.mem_singleton.mp hanswer)
        refine ⟨request,hrequest,hstored,fun _ job' hjob' _ => ?_⟩
        rw [honly job' hjob']
        exact ⟨_,rfl,hlast.symm.le.trans hsecond,fun hf => hthird (hfinal hf)⟩
    row := fun job' hjob' _ => by
      obtain ⟨hrun,hwithin⟩ := h.row job hjob hholds
      rw [honly job' hjob']
      refine ⟨hrun,fun hs capture hcapture => ?_⟩
      cases hcapture
      exact within_merge (hwithin hs) ⟨hlast.le.trans hsent.sequence,
        fun h0 => hdropped (hsent.dropped h0),fun h0 => hfailures (hsent.failures h0)⟩
    events := hevents
    once := ht.once
    closing := fun hf hs hp hsending => by
      obtain ⟨j,n,other,hanswer,hrest⟩ := h.closing hf hs hp hsending
      exact ⟨j,n,other,List.mem_append_left _ hanswer,hrest⟩ }

theorem Sound.deliver (hS : Documented S) (hdigest : Function.Injective digest)
    (h : Sound S digest lease c) {i : ℕ} {request : Request}
    (hrequest : c.requests[i]? = some request) (now : Time) :
    Sound S digest lease (c.deliver S digest lease i request now) := by
  have hmem : request ∈ c.requests := List.mem_of_getElem? hrequest
  rw [Channel.deliver]
  cases hresult : (ingestProbeActivity S digest c.desk lease.tenantId lease.workerId lease.jobId
      (batchBody S lease request.sent request.items) now).2 with
  | error refusal =>
      rw [ingest_refused hresult]
      exact { h with
        answers := fun j n hanswer => h.answers j n (by simpa using hanswer)
        requests := fun request hrequest => by
          obtain ⟨hitems,hsequence,hdropped,hfailures⟩ := h.requests request hrequest
          exact ⟨hitems,hsequence,hdropped,hfailures⟩
        closing := fun hf hs hp hsending => by
          obtain ⟨j,n,other,hanswer,hrest⟩ := h.closing hf hs hp hsending
          exact ⟨j,n,other,List.mem_append_left _ hanswer,hrest⟩ }
  | ok accepted => exact h.taken hdigest hrequest (ingest_taken hS h hmem hresult) accepted

theorem Sound.step (hS : Documented S) (hdigest : Function.Injective digest)
    (h : Sound S digest lease c) {c' : Channel} (hstep : Step S digest lease c c') :
    Sound S digest lease c' := by
  cases hstep with
  | record item now => exact h.record hS item now
  | flush => exact h.moves (moves_flush h.calm)
  | send items hsending => exact h.send hsending
  | deliver i request now hrequest => exact h.deliver hS hdigest hrequest now
  | answer items i result now hsending hanswer =>
      cases result with
      | ok accepted => exact h.acknowledged hsending hanswer now
      | error refusal =>
          rw [Reporter.answered]
          split_ifs
          · exact h.moves (moves_revoked h.calm hsending)
          · exact h.moves (moves_failed h.calm hsending now)
  | lost flight now hsending => exact h.moves (moves_failed h.calm hsending now)
  | refused flight hsending => exact h.moves (moves_revoked h.calm hsending)
  | watch now hlate => exact h.moves (moves_stop h.calm)
  | close now hphase => exact h.moves (moves_close h.calm hphase now)
  | drain hphase => exact h.moves (moves_drain h.calm hphase)
  | deadline hphase => exact h.moves (moves_stop h.calm)
  | finish hphase hdone => exact h.moves (moves_finish h.calm hdone)
  | outside desk hdesk => exact h.outside hdesk

theorem sound_run (hS : Documented S) (hdigest : Function.Injective digest) {c₀ c : Channel}
    (hstart : Fresh S digest lease c₀)
    (hrun : Relation.ReflTransGen (Step S digest lease) c₀ c) : Sound S digest lease c := by
  induction hrun with
  | refl => exact sound_fresh hstart
  | tail _ hstep ih => exact ih.step hS hdigest hstep

/-- Without a stop, what is not stored is still held. -/
theorem Sound.stored_or_held (h : Sound S digest lease c) (hstopped : c.reporter.stopped = false) :
    ∀ entry ∈ c.recorded,Stored S digest lease c.desk entry ∨ entry ∈ c.reporter.held := by
  obtain ⟨acked,lost,hperm,-,hacked,hnone⟩ := h.accounts
  intro entry hentry
  rw [hperm.mem_iff,hnone hstopped,List.append_nil,List.mem_append] at hentry
  exact hentry.imp_left (hacked entry)

/-- However its requests are delayed, repeated or lost, everything that is stored under a lease is
what its worker has recorded, each entry once. What is not stored is held or counted as dropped,
and nothing is left when the channel closes without a stop and with an empty queue. -/
theorem activity_delivered_once (hS : Documented S) (hdigest : Function.Injective digest)
    {c₀ c : Channel} (hstart : Fresh S digest lease c₀)
    (hrun : Relation.ReflTransGen (Step S digest lease) c₀ c) :
    (∀ e ∈ c.desk.events,lease.Owns S digest e →
      ∃ entry ∈ c.recorded,IsRecord S digest lease entry e) ∧
    (∀ sequence,(c.desk.events.filter
      (keyed lease.tenantId (lease.eventId S digest sequence))).length ≤ 1) ∧
    (∃ stored lost : List JsVal,c.recorded.Perm (stored++(c.reporter.held++lost)) ∧
      (∀ entry ∈ stored,Stored S digest lease c.desk entry) ∧
      lost.length ≤ c.reporter.dropped) ∧
    (c.reporter.stopped = false → ∀ entry ∈ c.recorded,
      Stored S digest lease c.desk entry ∨ entry ∈ c.reporter.held) ∧
    (c.reporter.closed = true → c.reporter.stopped = false → c.reporter.pending = [] →
      ∀ entry ∈ c.recorded,Stored S digest lease c.desk entry) := by
  have h := sound_run hS hdigest hstart hrun
  refine ⟨h.events,h.once,?_,h.stored_or_held,fun hclosed hstopped hpending entry hentry => ?_⟩
  · obtain ⟨acked,lost,hperm,hlost,hacked,-⟩ := h.accounts
    exact ⟨acked,lost,hperm,hacked,hlost⟩
  · refine (h.stored_or_held hstopped entry hentry).resolve_right ?_
    rw [Reporter.held,(h.calm.closed hclosed hstopped).1,hpending]
    simp

end

def firstLease : Lease where
  tenantId := js "t"
  workerId := js "w"
  jobId := js "j"
  testRunId := js "r"
  leasedAt := 0
  partitionGraceMs := 2500

def leasedJob : ActivityJob where
  id := js "j"
  targetId := none
  checkId := js "check"
  status := .leased
  leasedBy := some (js "w")
  leasedAt := some 0
  completedAt := none
  ownershipVerificationId := none
  constraints := .obj []
  executionReservation := none
  stopAcknowledgment := none
  capture := none
  tenantId := js "t"
  testRunId := js "r"
  nonceHash := .null
  vectorFamily := .null
  probeKind := .null
  markerClass := .null

def oneJob (tenantId id : JsString) : Option ActivityJob :=
  if tenantId = js "t" ∧ id = js "j" then some leasedJob else none

theorem found_oneJob : ∀ tenantId id job,oneJob tenantId id = some job →
    job.id = id ∧ job.tenantId = tenantId := by
  intro tenantId id job h
  rw [oneJob] at h
  split_ifs at h with hboth
  cases h
  exact ⟨hboth.2.symm,hboth.1.symm⟩

/-- A store with one job, whose run is running. -/
def quietDesk : Desk where
  jobs := oneJob
  found := found_oneJob
  runs := fun _ _ => some (js "running")
  killSwitch := fun _ => false
  events := []

def firstChannel : Channel := ⟨.start 0,[],[],[],quietDesk⟩

theorem fresh_first : Fresh plainPlatform id firstLease firstChannel where
  reporter := ⟨0,rfl⟩
  recorded := rfl
  requests := rfl
  answers := rfl
  events := fun _ h => absurd h (List.not_mem_nil)
  row := fun job hjob _ => by
    change oneJob (js "t") (js "j") = some job at hjob
    rw [oneJob,if_pos ⟨rfl,rfl⟩,Option.some.injEq] at hjob
    subst hjob
    exact ⟨rfl,rfl⟩

/-- What the worker reports when it starts. -/
def startItem : JsVal := .obj [(js "stage",.str (js "job_started"))]

/-- A reporter that has recorded an entry, which is on its way, and then more. -/
def flying (first : JsVal) (pending : List JsVal) (request : Option ℕ) : Reporter :=
  { Reporter.start 0 with
    sequence := 1+pending.length
    pending := pending
    sending := some ⟨[first],request⟩ }

/-- The entry of the item is the start of the job under the next number. -/
theorem entry_start {r : Reporter}
    (hopen : (r.closed || r.stopped || decide (maxProbeActivityItems ≤ r.sequence)) = false) :
    r.entry plainPlatform startItem 0 =
      normalizeProbeActivityItem plainPlatform (startEntry (r.sequence+1)) 0 := by
  have hentry : ∀ n,put (put (spread startItem) "sequence" (numeral n)) "at"
      (.str (plainPlatform.toISOString 0)) = startEntry n := fun _ => rfl
  rw [Reporter.entry,hentry]
  simp only [hopen,Bool.false_eq_true,if_false]

theorem byteLength_snapshot {r : Reporter} (hsequence : r.sequence < 2^53)
    (hdropped : r.dropped < 2^53) (hfailures : r.failures < 2^53) (hopen : r.finalizedAt = none) :
    byteLength (r.snapshot plainPlatform) ≤ 512 := by
  have hrest : byteLength (.str (js "version"))+byteLength (.str (js "probe-capture.v1"))+
      byteLength (.str (js "recorded_count"))+byteLength (.str (js "last_sequence"))+
      byteLength (.str (js "dropped_count"))+byteLength (.str (js "delivery_failures"))+
      byteLength (.str (js "finalized_at"))+byteLength .null ≤ 256 := by decide +kernel
  have hcount := byteLength_numeral hsequence
  have hlost := byteLength_numeral hdropped
  have hfailed := byteLength_numeral hfailures
  rw [Reporter.snapshot,hopen,Option.elim_none]
  refine (byteLength_obj_le _).trans ?_
  simp only [List.map_cons,List.map_nil,List.sum_cons,List.sum_nil]
  omega

/-- A small entry fits into a request. -/
theorem byteLength_batch {r : Reporter} {entry : JsVal} (hsequence : r.sequence < 2^53)
    (hdropped : r.dropped < 2^53) (hfailures : r.failures < 2^53) (hopen : r.finalizedAt = none)
    (hentry : byteLength entry ≤ 1024) :
    byteLength (batchBody plainPlatform firstLease r [entry]) ≤ 28*1024 := by
  have hrest : byteLength (.str (js "leased_at"))+
      byteLength (.str (plainPlatform.toISOString firstLease.leasedAt))+
      byteLength (.str (js "items"))+byteLength (.str (js "capture")) ≤ 256 := by decide +kernel
  have hsnapshot := byteLength_snapshot hsequence hdropped hfailures hopen
  have hitems := byteLength_arr_le [entry]
  rw [batchBody]
  refine (byteLength_obj_le _).trans ?_
  simp only [List.map_cons,List.map_nil,List.sum_cons,List.sum_nil] at hitems ⊢
  omega

theorem record_first {first : JsVal}
    (hfirst : normalizeProbeActivityItem plainPlatform (startEntry 1) 0 = some first)
    (hbytes : byteLength first ≤ 1024) :
    (Reporter.start 0).record plainPlatform firstLease startItem 0 = flying first [] none := by
  have hentry := (@entry_start (Reporter.start 0) rfl).trans hfirst
  have hfits := @byteLength_batch { Reporter.start 0 with
    sequence := 1
    pending := [first] } first (by norm_num) (by norm_num [Reporter.start])
    (by norm_num [Reporter.start]) rfl hbytes
  have hbatch : ({ Reporter.start 0 with
      sequence := 1
      pending := [first] } : Reporter).nextBatch plainPlatform firstLease = ([first],[]) := by
    rw [Reporter.nextBatch]
    simp only [maxProbeActivityBatch,takeBatch,List.nil_append,hfits,decide_true,if_true]
  rw [Reporter.record,hentry]
  exact flush_taken rfl hbatch

/-- Two entries are recorded, and the first is on its way. -/
def started (first second : JsVal) (request : Option ℕ) : Channel where
  reporter := flying first [second] request
  recorded := [first,second]
  requests := []
  answers := []
  desk := quietDesk

theorem recordItem_eq {c : Channel} {item entry : JsVal} {now : Time} {r : Reporter}
    (hentry : c.reporter.entry plainPlatform item now = some entry)
    (hrecord : c.reporter.record plainPlatform firstLease item now = r) :
    c.recordItem plainPlatform firstLease item now =
      { c with
        reporter := r
        recorded := c.recorded++[entry] } := by
  rw [Channel.recordItem,hentry,hrecord]
  rfl

theorem recordItem_twice {first second : JsVal}
    (hfirst : normalizeProbeActivityItem plainPlatform (startEntry 1) 0 = some first)
    (hsecond : normalizeProbeActivityItem plainPlatform (startEntry 2) 0 = some second)
    (hbytes : byteLength first ≤ 1024) :
    (firstChannel.recordItem plainPlatform firstLease startItem 0).recordItem plainPlatform
      firstLease startItem 0 = started first second none := by
  have hentry := (@entry_start (Reporter.start 0) rfl).trans hfirst
  have hentry' := (@entry_start (flying first [] none) rfl).trans hsecond
  have hrecord : (flying first [] none).record plainPlatform firstLease startItem 0 =
      flying first [second] none := by
    rw [Reporter.record,hentry']
    rfl
  rw [@recordItem_eq firstChannel _ _ _ _ hentry (record_first hfirst hbytes)]
  exact recordItem_eq hentry' hrecord

/-- The request that carries the first entry. -/
def firstRequest (first second : JsVal) : Request := ⟨[first],flying first [second] none⟩

/-- What the snapshot of the request says. -/
def countedTwo : Capture := ⟨2,0,0,2,none⟩

theorem batch_first {first second item : JsVal} {job : ActivityJob} {now : Time}
    (hjob : job.leasedAt = some 0)
    (hitem : normalizeProbeActivityItem plainPlatform first now = some item) :
    normalizeProbeActivityBatch plainPlatform (batchBody plainPlatform firstLease
      (firstRequest first second).sent (firstRequest first second).items) job now =
        .ok ([item],some countedTwo) := by
  have hstamp : sameStamp (itemDates plainPlatform) (.str (plainPlatform.toISOString 0))
      job.leasedAt = true := by
    rw [hjob]
    rfl
  have hfew : [first].length ≤ maxProbeActivityBatch := Nat.le_add_left 1 15
  exact batch_taken rfl rfl hfew hstamp (mapM_singleton hitem) (List.nodup_singleton _) rfl
    (capture_taken (show 2 ≤ 256 by norm_num) (show 0 ≤ 1048576 by norm_num)
      (show 0 ≤ 1048576 by norm_num) (fun t ht => absurd ht (Option.not_mem_none t)))

/-- The row of the job then. -/
def countedJob : ActivityJob := { leasedJob with capture := some countedTwo }

/-- The event of an item of the job. -/
def firstEvent (item : JsVal) : Event :=
  { probeActivityEvent plainPlatform id leasedJob item (js "w") with ingestedAt := some 40 }

/-- The store after the batch has arrived. -/
def arrivedDesk (item : JsVal) : Desk :=
  { quietDesk with events := [firstEvent item] }.writeCapture (js "t") (js "j") (some countedTwo)

theorem ingest_first {first second item : JsVal}
    (hitem : normalizeProbeActivityItem plainPlatform first 40 = some item) :
    ingestProbeActivity plainPlatform id quietDesk (js "t") (js "w") (js "j")
      (batchBody plainPlatform firstLease (firstRequest first second).sent
        (firstRequest first second).items) 40 = (arrivedDesk item,.ok 1) :=
  @ingest_accepts plainPlatform id quietDesk (js "t") (js "w") (js "j") _ 40 leasedJob [item] _ rfl rfl
    rfl rfl rfl rfl (batch_first rfl hitem) rfl

theorem ingest_again {first second item : JsVal}
    (hitem : normalizeProbeActivityItem plainPlatform first 60 = some item) :
    ingestProbeActivity plainPlatform id (arrivedDesk item) (js "t") (js "w") (js "j")
      (batchBody plainPlatform firstLease (firstRequest first second).sent
        (firstRequest first second).items) 60 =
          ((arrivedDesk item).writeCapture (js "t") (js "j") (some countedTwo),.ok 0) := by
  have hfree : ([item].map fun item => probeActivityEvent plainPlatform id
      countedJob item (js "w")).any
        (conflicts (arrivedDesk item).events (js "t")) = false := by
    rw [List.map_singleton,List.any_cons,List.any_nil,Bool.or_false]
    exact conflicts_written _ _
  have hthere : batchEvents plainPlatform id (arrivedDesk item).events (js "t") (js "w")
      countedJob [item] 60 = (arrivedDesk item).events := by
    refine pushNew_there ?_
    rw [show (arrivedDesk item).events = [firstEvent item] from rfl,List.any_cons]
    simp [sameEvent,firstEvent,probeActivityEvent,countedJob,leasedJob]
  have hbatch := @batch_first first second item countedJob 60 rfl hitem
  have htaken := @ingest_accepts plainPlatform id (arrivedDesk item) (js "t") (js "w") (js "j") _ 60
    countedJob [item] _ rfl rfl rfl rfl rfl rfl hbatch hfree
  rw [htaken,hthere,Nat.sub_self]

theorem deliver_eq {c : Channel} {i : ℕ} {request : Request} {now : Time} {desk : Desk}
    {answer : Except Refusal ℕ}
    (h : ingestProbeActivity plainPlatform id c.desk firstLease.tenantId firstLease.workerId
      firstLease.jobId (batchBody plainPlatform firstLease request.sent request.items) now =
        (desk,answer)) :
    c.deliver plainPlatform id firstLease i request now =
      { c with
        desk := desk
        answers := c.answers++[(i,answer)] } := by
  rw [Channel.deliver,h]

/-- The request has arrived twice, and no answer was heard. -/
def repeated (first second item : JsVal) : Channel where
  reporter := flying first [second] (some 0)
  recorded := [first,second]
  requests := [firstRequest first second]
  answers := [(0,.ok 1),(0,.ok 0)]
  desk := (arrivedDesk item).writeCapture (js "t") (js "j") (some countedTwo)

theorem run_repeated {first second item : JsVal}
    (hfirst : normalizeProbeActivityItem plainPlatform (startEntry 1) 0 = some first)
    (hsecond : normalizeProbeActivityItem plainPlatform (startEntry 2) 0 = some second)
    (hbytes : byteLength first ≤ 1024)
    (hitem : normalizeProbeActivityItem plainPlatform first 40 = some item)
    (hagain : normalizeProbeActivityItem plainPlatform first 60 = some item) :
    Relation.ReflTransGen (Step plainPlatform id firstLease) firstChannel
      (repeated first second item) := by
  have hrecord : Step plainPlatform id firstLease firstChannel
      (firstChannel.recordItem plainPlatform firstLease startItem 0) := .record _ startItem 0
  have hrecord' : Step plainPlatform id firstLease
      (firstChannel.recordItem plainPlatform firstLease startItem 0) (started first second none) :=
    recordItem_twice hfirst hsecond hbytes ▸ .record _ startItem 0
  let sent : Channel := { started first second (some 0) with
    requests := [firstRequest first second] }
  let arrived : Channel := { sent with
    answers := [(0,.ok 1)]
    desk := arrivedDesk item }
  have hsend : Step plainPlatform id firstLease (started first second none) sent :=
    .send _ [first] rfl
  have harrived : sent.deliver plainPlatform id firstLease 0 (firstRequest first second) 40 =
      arrived := deliver_eq (ingest_first hitem)
  have hrepeated : arrived.deliver plainPlatform id firstLease 0 (firstRequest first second) 60 =
      repeated first second item := deliver_eq (ingest_again hagain)
  have hdeliver : Step plainPlatform id firstLease sent arrived :=
    harrived ▸ .deliver sent 0 _ 40 rfl
  have hdeliver' : Step plainPlatform id firstLease arrived (repeated first second item) :=
    hrepeated ▸ .deliver arrived 0 _ 60 rfl
  exact .tail (.tail (.tail (.tail (.single hrecord) hrecord') hsend) hdeliver) hdeliver'

/-- The first entry is stored, the second is not. -/
structure Repeated (first second : JsVal) (e : Event) (c : Channel) : Prop where
  run : Relation.ReflTransGen (Step plainPlatform id firstLease) firstChannel c
  recorded : c.recorded = [first,second]
  answers : c.answers = [(0,.ok 1),(0,.ok 0)]
  stopped : c.reporter.stopped = false
  events : c.desk.events = [e]
  record : IsRecord plainPlatform id firstLease first e
  missing : ¬ IsRecord plainPlatform id firstLease second e
  row : c.desk.jobs (js "t") (js "j") = some countedJob

theorem exists_repeated : ∃ first second e c,Repeated first second e c := by
  obtain ⟨kvs,hfirst,hperm⟩ := @normalize_start 1 one_pos (by decide) 0 (by norm_num)
  obtain ⟨lws,hsecond,-⟩ := @normalize_start 2 two_pos (by decide) 0 (by norm_num)
  obtain ⟨⟨kvs',hobj,hnames,hstays⟩,-⟩ := accepted_item_stays documented_plain hfirst
  cases hobj
  have hbytes : byteLength (.obj kvs) ≤ 1024 := by
    rw [byteLength_perm hperm]
    exact byteLength_start (by decide)
  have hnear : ∀ now : ℤ,|now| ≤ 300000 →
      timely plainPlatform (field (.obj kvs) "at") now = true := by
    intro now hnow
    have hdate : plainPlatform.newDate (field (.obj kvs) "at") = some 0 := by
      rw [← CheckedObjects.field_perm hperm hnames "at"]
      rfl
    rw [timely,hdate]
    simpa using hnow
  obtain ⟨item,hitem,-⟩ := hstays 40 (hnear 40 (by norm_num))
  have hagain := (normalize_timely (hnear 60 (by norm_num)) (hnear 40 (by norm_num))).trans hitem
  have hnumber : field (.obj kvs) "sequence" = numeral 1 :=
    (normalize_spec documented_plain hfirst).2.1
  have hnumber' : field (.obj lws) "sequence" = numeral 2 :=
    (normalize_spec documented_plain hsecond).2.1
  have hkept : field (.obj item) "sequence" = numeral 1 :=
    (normalize_spec documented_plain hitem).2.1.trans hnumber
  have hid : (firstEvent (.obj item)).eventId =
      some (firstLease.eventId plainPlatform id (numeral 1)) := by
    rw [← hkept]
    rfl
  refine ⟨_,_,firstEvent (.obj item),_,run_repeated hfirst hsecond hbytes hitem hagain,rfl,rfl,rfl,rfl,
    ⟨rfl,rfl,by rw [hid,hnumber],⟨rfl,rfl⟩,_,40,leasedJob,hitem,rfl,rfl,rfl⟩,?_,rfl⟩
  intro h
  have hsame := h.eventId
  rw [hid,hnumber',Option.some.injEq] at hsame
  have hnumerals : numeral 1 = numeral 2 :=
    congrArg JsVal.num (activityEventId_inj Function.injective_id hsame)
  exact absurd (numeral_inj (by norm_num) (by norm_num) hnumerals) (by decide)

/-- A batch that arrives twice leaves one event, and what is not stored is held. -/
theorem repeated_delivered_once : ∃ first second e c,Repeated first second e c ∧
    (∃ entry ∈ c.recorded,IsRecord plainPlatform id firstLease entry e) ∧
    (∀ sequence,(c.desk.events.filter
      (keyed (js "t") (firstLease.eventId plainPlatform id sequence))).length ≤ 1) ∧
    second ∈ c.reporter.held := by
  obtain ⟨first,second,e,c,h⟩ := exists_repeated
  obtain ⟨hrecords,honce,-,hheld,-⟩ := activity_delivered_once documented_plain
    Function.injective_id fresh_first h.run
  have hmem : ∀ e' ∈ c.desk.events,e' = e := by
    intro e' he'
    rw [h.events] at he'
    exact List.mem_singleton.mp he'
  have hsecond : second ∈ c.recorded := by
    rw [h.recorded]
    simp
  refine ⟨first,second,e,c,h,hrecords e (by simp [h.events]) (.inl ⟨field first "sequence",?_⟩),
    honce,(hheld h.stopped second hsecond).resolve_left ?_⟩
  · simp [keyed,h.record.tenantId,h.record.eventId]
  · rintro ⟨e',he',hrecord⟩
    exact h.missing (hmem e' he' ▸ hrecord)

end AstraNull.ActivityChannel

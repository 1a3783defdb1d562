import Mathlib
import AstraNull.Runs
import AstraNull.ProbeExecution

/-!
# At most one execution of a probe job

One job under any interleaving of the operations, by any workers, at any nondecreasing
times. Leases are numbered, so that two leases of one worker are told apart. A run's
history says which lease obtained the reservation and under which lease a result was
accepted. A replay of a durable result is reconciled and accepts nothing.

`Effect` states what one step can do to the row. The operations refine it, and every
result about histories is read off it.
-/
namespace AstraNull.ProbeJobLifecycle
open JsonText ScriptValue ProbeExecution Runs

/-- The row, the durable event, the attempts in flight and the number of the lease. -/
structure State where
  job : ProbeJob
  event : Option ProbeEvent
  clock : Time
  attempts : List Attempt
  lease : ℕ

inductive Operation where
  | lease (caller : Caller)
  | claimPending (workerId : JsString)
  | reserve (caller : Caller) (body : JsVal) (id : JsString)
  | acknowledge (caller : Caller) (body : JsVal)
  | ingest (caller : Caller) (body : JsVal)
  /-- The write of an attempt in flight. -/
  | commit (index : ℕ)
  | cancel
  /-- Another writer replaces the event of the run. -/
  | foreignEvent (event : Option ProbeEvent)

inductive Event where
  | leased (workerId : JsString) (lease : ℕ)
  | begun
  | reserved (workerId : JsString) (lease : ℕ)
  | acknowledged
  | accepted (workerId : JsString) (lease : ℕ) (result : WorkerResult)
  | reconciled
  | cancelled
  | refused (reason : Refusal)
  | idle
deriving DecidableEq

def Event.isReserved : Event → Bool
  | reserved _ _ => true
  | _ => false

def Event.isAccepted : Event → Bool
  | accepted _ _ _ => true
  | _ => false

/-- The row as it is inserted. -/
def createProbeJob (id : JsString) (targetId : Option JsString) (checkId : JsString)
    (ownershipVerificationId : Option JsString) (constraints : JsVal) : ProbeJob where
  id := id
  targetId := targetId
  checkId := checkId
  status := .pending
  leasedBy := none
  leasedAt := none
  completedAt := none
  ownershipVerificationId := ownershipVerificationId
  constraints := constraints
  executionReservation := none
  stopAcknowledgment := none
  capture := none

def start (job : ProbeJob) (event : Option ProbeEvent) (clock : Time) : State :=
  ⟨job,event,clock,[],0⟩

/-- A claim for a result keeps the lease its worker holds and opens one otherwise. -/
def claimedLease (s : State) (workerId : JsString) : ℕ :=
  if heldBy s.job workerId then s.lease else s.lease+1

def refusal (error : String) (status : ℕ) : Event := .refused ⟨error,status⟩

/-- The write of an attempt. -/
def commit (s : State) (gates : Gates) : Attempt → State × Event
  | .reserve workerId seen reservation =>
      match reserveExecution s.job gates workerId seen reservation with
      | some job => ({ s with job := job },.reserved workerId s.lease)
      | none => (s,refusal "probe_execution_not_authorized" 409)
  | .acknowledge workerId seen acknowledgment capture =>
      match recordJobTelemetry s.job workerId seen acknowledgment capture with
      | some job => ({ s with job := job },.acknowledged)
      | none => (s,refusal "probe_stop_lease_mismatch" 409)
  | .result workerId seen now result =>
      match claimJobForResult s.job gates workerId now seen with
      | none => (s,refusal "job_not_open" 409)
      | some claimed =>
          match appendProbeResultEventIdempotent seen s.event result with
          | none => (s,refusal "probe_event_binding_conflict" 409)
          | some event =>
              match markJobCompleted claimed gates workerId claimed.leasedAt now with
              | none => (s,refusal "job_not_open" 409)
              | some job =>
                  ({ s with job := job,event := some event,lease := claimedLease s workerId },
                    .accepted workerId (claimedLease s workerId) result)
  | .reconcile workerId seen now =>
      if seen.status = .completed then (s,.reconciled)
      else match claimJobForResult s.job gates workerId now seen with
        | none => (s,refusal "job_not_open" 409)
        | some claimed =>
            match markJobCompleted claimed gates workerId claimed.leasedAt now with
            | none => (s,refusal "job_not_open" 409)
            | some job => ({ s with job := job,lease := claimedLease s workerId },.reconciled)
  | .ownership workerId seen now result =>
      if seen.status = .completed then
        match gates.ownershipSignal with
        | .ok _ => (s,.reconciled)
        | .error reason =>
            if reason.error = "ownership_verification_not_open" then (s,.reconciled)
            else (s,.refused reason)
      else match claimJobForResult s.job gates workerId now seen with
        | none => (s,refusal "job_not_open" 409)
        | some claimed =>
            match gates.ownershipSignal with
            | .error reason => (s,.refused reason)
            | .ok _ =>
                match markJobCompleted claimed gates workerId claimed.leasedAt now with
                | none => (s,refusal "job_not_open" 409)
                | some job => ({ s with job := job,lease := claimedLease s workerId },
                    .accepted workerId (claimedLease s workerId) result)

/-- A service call whose read succeeded stays in flight. -/
def begin (s : State) (attempt : Except Refusal Attempt) : State × Event :=
  match attempt with
  | .ok a => ({ s with attempts := a::s.attempts },.begun)
  | .error reason => (s,.refused reason)

def leaseRow (s : State) (workerId : JsString) (row : Option ProbeJob) : State × Event :=
  match row with
  | some job => ({ s with job := job,lease := s.lease+1 },.leased workerId (s.lease+1))
  | none => (s,.idle)

section
variable (services : Services)

/-- One operation at one time, on what it finds in the other tables. -/
def perform (gates : Gates) (now : Time) (op : Operation) (s : State) : State × Event :=
  let s := { s with clock := now }
  match op with
  | .lease caller =>
      if caller.workerId = [] then (s,.idle)
      else leaseRow s caller.workerId (leasePendingJobsForWorker s.job gates caller now)
  | .claimPending workerId =>
      leaseRow s workerId (claimPendingJobForWorker s.job gates workerId now)
  | .reserve caller body id =>
      begin s (reserveProbeExecution services s.job gates caller body id now)
  | .acknowledge caller body => begin s (acknowledgeProbeStop services s.job gates caller body now)
  | .ingest caller body => begin s (ingestProbeResult services s.job s.event gates caller body now)
  | .commit index =>
      match s.attempts[index]? with
      | some attempt => commit { s with attempts := s.attempts.eraseIdx index } gates attempt
      | none => (s,.idle)
  | .cancel => ({ s with job := cancelOpenProbeJobs s.job now },.cancelled)
  | .foreignEvent event => ({ s with event := event },.idle)

def Step (s : State) (e : Event) (t : State) : Prop :=
  ∃ gates now op,s.clock ≤ now ∧ perform services gates now op s = (t,e)

end

/-- The job still waits for its result. -/
def Open (job : ProbeJob) : Prop := job.status = .pending ∨ job.status = .leased

/-- The reservation of the row belongs to the lease its worker holds. -/
def ReservedFor (job : ProbeJob) (workerId : JsString) : Prop :=
  ∃ r,job.executionReservation = some r ∧ heldBy job workerId ∧ r.workerId = workerId ∧
    r.leasedAt = job.leasedAt

/-- The row after a claim for a result and its completion. -/
def completedRow (job : ProbeJob) (workerId : JsString) (stamp : Option Time) (done : Time) :
    ProbeJob :=
  { job with
    status := .completed
    leasedBy := some workerId
    leasedAt := stamp
    completedAt := some done }

/-- The effects of one step on row and lease number. -/
inductive Effect (job : ProbeJob) (lease : ℕ) : Event → ProbeJob → ℕ → Prop
  | quiet {e : Event} : e.isReserved = false → e.isAccepted = false → e ≠ .cancelled →
      Effect job lease e job lease
  | leased {workerId : JsString} {now : Time} :
      (job.status = .pending ∨ job.status = .leased ∧ ∃ t,job.leasedAt = some t ∧ t < now) →
      Effect job lease (.leased workerId (lease+1))
        { job with status := .leased,leasedAt := some now,leasedBy := some workerId } (lease+1)
  | reserved {r : Reservation} : heldBy job r.workerId → r.leasedAt = job.leasedAt →
      job.leasedAt.isSome → job.executionReservation = none →
      Effect job lease (.reserved r.workerId lease)
        { job with executionReservation := some r } lease
  | acknowledged {a : Option StopAcknowledgment} {c : Option Capture} :
      Effect job lease .acknowledged { job with stopAcknowledgment := a,capture := c } lease
  | accepted {workerId : JsString} {result : WorkerResult} {stamp : Option Time} {done : Time}
      {number : ℕ} : Open job → (heldBy job workerId → number = lease) →
      (result.trafficFree = false → job.ownershipChallenge = false → ReservedFor job workerId) →
      Effect job lease (.accepted workerId number result)
        (completedRow job workerId stamp done) number
  | reconciled {workerId : JsString} {stamp : Option Time} {done : Time} {number : ℕ} : Open job →
      Effect job lease .reconciled
        (completedRow job workerId stamp done) number
  | cancelled {now : Time} : Effect job lease .cancelled (cancelOpenProbeJobs job now) lease

/-- What the read of an attempt has checked. -/
def Checked (services : Services) : Attempt → Prop
  | .reserve workerId seen r => r.workerId = workerId ∧ r.leasedAt = seen.leasedAt
  | .acknowledge _ _ _ _ => True
  | .result workerId seen _ result => Open seen ∧ (result.trafficFree = false →
      seen.executionReservation.any (reservationCovers services.dates seen workerId) = true)
  | .reconcile _ seen _ => seen.status ≠ .cancelled
  | .ownership _ seen _ _ => seen.status ≠ .cancelled ∧ seen.ownershipChallenge = true

/-- An attempt in flight passed its checks, and what it read of the write-once columns
is still there. -/
structure Sound (services : Services) (job : ProbeJob) (a : Attempt) : Prop where
  checked : Checked services a
  ownership : a.seen.ownershipVerificationId = job.ownershipVerificationId
  reservation : ∀ r,a.seen.executionReservation = some r → job.executionReservation = some r

def Valid (services : Services) (s : State) : Prop := ∀ a ∈ s.attempts,Sound services s.job a

theorem check_passed {α : Type} {c : Prop} [Decidable c] {error : String} {status : ℕ}
    {x : Except Refusal α} {a : α} (h : (if c then refuse error status else x) = .ok a) :
    ¬ c ∧ x = .ok a := by
  split at h
  · cases h
  · exact ⟨by assumption,h⟩

theorem except_bind_ok {α β : Type} {x : Except Refusal α} {f : α → Except Refusal β} {b : β}
    (h : x >>= f = .ok b) : ∃ a,x = .ok a ∧ f a = .ok b := by
  cases x with
  | ok a => exact ⟨a,rfl,h⟩
  | error e => cases h

theorem open_of_ne {job : ProbeJob} (h : job.status ≠ .completed) (h' : job.status ≠ .cancelled) :
    Open job := by
  unfold Open
  cases hs : job.status with
  | pending => exact Or.inl rfl
  | leased => exact Or.inr rfl
  | completed => exact absurd hs h
  | cancelled => exact absurd hs h'

theorem executionReservation_ok {dates : Dates} {job : ProbeJob} {workerId id : JsString}
    {leasedAt : JsVal} {now : Time} {r : Reservation}
    (h : executionReservation dates job workerId leasedAt id now = .ok r) :
    r.workerId = workerId ∧ r.leasedAt = job.leasedAt := by
  unfold executionReservation at h
  obtain ⟨_,h⟩ := check_passed h
  obtain ⟨_,h⟩ := check_passed h
  split at h
  · cases h
  · obtain ⟨_,h⟩ := check_passed h
    obtain ⟨_,h⟩ := check_passed h
    cases h
    exact ⟨rfl,rfl⟩

theorem receipt_ok {dates : Dates} {job : ProbeJob} {workerId : JsString} {result : WorkerResult}
    {u : Unit} (h : probeExecutionReceipt dates job workerId result = .ok u)
    (ht : result.trafficFree = false) :
    job.executionReservation.any (reservationCovers dates job workerId) = true := by
  unfold probeExecutionReceipt at h
  rw [ht,if_neg (by decide)] at h
  split at h
  · assumption
  · cases h

theorem reservationCovers_spec {dates : Dates} {job : ProbeJob} {workerId : JsString}
    {r : Reservation} (h : reservationCovers dates job workerId r = true) :
    heldBy job workerId ∧ r.workerId = workerId ∧ r.leasedAt = job.leasedAt := by
  simp only [reservationCovers,Bool.and_eq_true,decide_eq_true_eq] at h
  tauto

theorem ingest_checked {services : Services} {job : ProbeJob} {event : Option ProbeEvent}
    {gates : Gates} {caller : Caller} {body : JsVal} {now : Time} {a : Attempt}
    (h : ingestProbeResult services job event gates caller body now = .ok a) :
    Checked services a ∧ a.seen = job := by
  unfold ingestProbeResult at h
  obtain ⟨_,h⟩ := check_passed h
  obtain ⟨_,h⟩ := check_passed h
  obtain ⟨_,h⟩ := check_passed h
  obtain ⟨_,h⟩ := check_passed h
  obtain ⟨_,h⟩ := check_passed h
  split at h
  · unfold ingestOwnershipResult at h
    obtain ⟨_,h⟩ := check_passed h
    obtain ⟨hopen,h⟩ := check_passed h
    obtain ⟨result,_,h⟩ := except_bind_ok h
    cases h
    exact ⟨⟨hopen,by assumption⟩,rfl⟩
  · unfold ingestRunResult at h
    obtain ⟨_,h⟩ := check_passed h
    obtain ⟨_,h⟩ := check_passed h
    obtain ⟨hopen,h⟩ := check_passed h
    split at h
    · cases h
    · obtain ⟨hcompleted,h⟩ := check_passed h
      obtain ⟨_,h⟩ := check_passed h
      obtain ⟨_,h⟩ := check_passed h
      obtain ⟨result,_,h⟩ := except_bind_ok h
      obtain ⟨_,hreceipt,h⟩ := except_bind_ok h
      cases h
      exact ⟨⟨open_of_ne hcompleted hopen,receipt_ok hreceipt⟩,rfl⟩
    · obtain ⟨_,h⟩ := check_passed h
      cases h
      exact ⟨hopen,rfl⟩

theorem reserve_checked {services : Services} {job : ProbeJob} {gates : Gates} {caller : Caller}
    {body : JsVal} {id : JsString} {now : Time} {a : Attempt}
    (h : reserveProbeExecution services job gates caller body id now = .ok a) :
    Checked services a ∧ a.seen = job := by
  unfold reserveProbeExecution at h
  obtain ⟨_,h⟩ := check_passed h
  obtain ⟨_,h⟩ := check_passed h
  obtain ⟨_,h⟩ := check_passed h
  obtain ⟨_,h⟩ := check_passed h
  obtain ⟨_,h⟩ := check_passed h
  obtain ⟨_,h⟩ := check_passed h
  obtain ⟨_,h⟩ := check_passed h
  obtain ⟨r,hr,h⟩ := except_bind_ok h
  cases h
  exact ⟨executionReservation_ok hr,rfl⟩

theorem acknowledge_checked {services : Services} {job : ProbeJob} {gates : Gates}
    {caller : Caller} {body : JsVal} {now : Time} {a : Attempt}
    (h : acknowledgeProbeStop services job gates caller body now = .ok a) :
    Checked services a ∧ a.seen = job := by
  unfold acknowledgeProbeStop at h
  obtain ⟨_,h⟩ := check_passed h
  obtain ⟨_,h⟩ := check_passed h
  obtain ⟨parsed,_,h⟩ := except_bind_ok h
  cases h
  exact ⟨trivial,rfl⟩

theorem claim_spec {job seen claimed : ProbeJob} {gates : Gates} {workerId : JsString}
    {now : Time} (h : claimJobForResult job gates workerId now seen = some claimed) :
    (job.status = seen.status ∧ job.leasedBy = seen.leasedBy ∧ job.leasedAt = seen.leasedAt) ∧
      ∃ stamp,claimed =
        { job with status := .leased,leasedAt := stamp,leasedBy := some workerId } := by
  unfold claimJobForResult at h
  split at h
  · rename_i hsame
    exact ⟨⟨hsame.1,hsame.2.1,hsame.2.2.1⟩,_,(Option.some.inj h).symm⟩
  · cases h

theorem mark_spec {job row : ProbeJob} {gates : Gates} {workerId : JsString}
    {leasedAt : Option Time} {now : Time}
    (h : markJobCompleted job gates workerId leasedAt now = some row) :
    row = { job with status := .completed,completedAt := some now } := by
  unfold markJobCompleted at h
  split at h
  · exact (Option.some.inj h).symm
  · cases h

/-- A claim and its completion need the row the attempt has read. -/
theorem claim_complete {job seen claimed row : ProbeJob} {gates : Gates} {workerId : JsString}
    {now : Time} (hclaim : claimJobForResult job gates workerId now seen = some claimed)
    (hmark : markJobCompleted claimed gates workerId claimed.leasedAt now = some row) :
    (job.status = seen.status ∧ job.leasedBy = seen.leasedBy ∧ job.leasedAt = seen.leasedAt) ∧
      ∃ stamp,row = completedRow job workerId stamp now := by
  obtain ⟨hsame,stamp,hclaimed⟩ := claim_spec hclaim
  have hrow := mark_spec hmark
  rw [hclaimed] at hrow
  exact ⟨hsame,stamp,hrow⟩

theorem claimedLease_held {s : State} {workerId : JsString} (h : heldBy s.job workerId) :
    claimedLease s workerId = s.lease := if_pos h

theorem Open.congr {job seen : ProbeJob} (h : job.status = seen.status) (ho : Open seen) :
    Open job := by
  unfold Open at *
  rw [h]
  exact ho

/-- The reservation an accepted result relies on is that of the row it completes. -/
theorem reservedFor_of_seen {services : Services} {job seen : ProbeJob} {workerId : JsString}
    (hsame : job.status = seen.status ∧ job.leasedBy = seen.leasedBy ∧
      job.leasedAt = seen.leasedAt)
    (hres : ∀ r,seen.executionReservation = some r → job.executionReservation = some r)
    (hcover : seen.executionReservation.any
      (reservationCovers services.dates seen workerId) = true) : ReservedFor job workerId := by
  obtain ⟨h1,h2,h3⟩ := hsame
  cases hr : seen.executionReservation with
  | none =>
      rw [hr] at hcover
      cases hcover
  | some r =>
      rw [hr] at hcover
      obtain ⟨⟨hs,hb⟩,hw,hl⟩ := reservationCovers_spec hcover
      refine ⟨r,hres r hr,⟨?_,?_⟩,hw,?_⟩
      · rw [h1,hs]
      · rw [h2,hb]
      · rw [hl,h3]

theorem commit_effect {services : Services} {s t : State} {gates : Gates} {a : Attempt}
    {e : Event} (ha : Sound services s.job a) (h : commit s gates a = (t,e)) :
    Effect s.job s.lease e t.job t.lease := by
  obtain ⟨hchecked,hown,hres⟩ := ha
  cases a with
  | reserve workerId seen r =>
      obtain ⟨hw,hl⟩ := hchecked
      simp only [commit] at h
      split at h
      · rename_i row hrow
        cases h
        unfold reserveExecution at hrow
        split at hrow
        · cases hrow
        · split at hrow
          · rename_i hcond
            cases hrow
            obtain ⟨h1,h2,h3,h4,_,h6,_⟩ := hcond
            rw [← hw]
            exact .reserved ⟨h1,by rw [h2,hw]⟩ (by rw [hl,h4]) h3 (by simpa using h6)
          · cases hrow
      · cases h
        exact .quiet rfl rfl (by simp [refusal])
  | acknowledge workerId seen acknowledgment capture =>
      simp only [commit] at h
      split at h
      · rename_i row hrow
        cases h
        unfold recordJobTelemetry at hrow
        split at hrow
        · cases hrow
          exact .acknowledged
        · cases hrow
      · cases h
        exact .quiet rfl rfl (by simp [refusal])
  | result workerId seen now result =>
      obtain ⟨hopen,hreceipt⟩ := hchecked
      simp only [commit] at h
      split at h
      · cases h
        exact .quiet rfl rfl (by simp [refusal])
      · rename_i claimed hclaim
        split at h
        · cases h
          exact .quiet rfl rfl (by simp [refusal])
        · split at h
          · cases h
            exact .quiet rfl rfl (by simp [refusal])
          · rename_i row hmark
            cases h
            obtain ⟨hsame,stamp,rfl⟩ := claim_complete hclaim hmark
            apply Effect.accepted
            · exact Open.congr hsame.1 hopen
            · exact claimedLease_held
            · intro htraffic _
              exact reservedFor_of_seen hsame hres (hreceipt htraffic)
  | reconcile workerId seen now =>
      simp only [commit] at h
      split at h
      · cases h
        exact .quiet rfl rfl (by simp)
      · rename_i hcompleted
        split at h
        · cases h
          exact .quiet rfl rfl (by simp [refusal])
        · rename_i claimed hclaim
          split at h
          · cases h
            exact .quiet rfl rfl (by simp [refusal])
          · rename_i row hmark
            cases h
            obtain ⟨hsame,stamp,rfl⟩ := claim_complete hclaim hmark
            exact .reconciled (Open.congr hsame.1 (open_of_ne hcompleted hchecked))
  | ownership workerId seen now result =>
      obtain ⟨hcancelled,hchallenge⟩ := hchecked
      simp only [commit] at h
      split at h
      · split at h
        · cases h
          exact .quiet rfl rfl (by simp)
        · split at h
          · cases h
            exact .quiet rfl rfl (by simp)
          · cases h
            exact .quiet rfl rfl (by simp)
      · rename_i hcompleted
        split at h
        · cases h
          exact .quiet rfl rfl (by simp [refusal])
        · rename_i claimed hclaim
          split at h
          · cases h
            exact .quiet rfl rfl (by simp)
          · split at h
            · cases h
              exact .quiet rfl rfl (by simp [refusal])
            · rename_i row hmark
              cases h
              obtain ⟨hsame,stamp,rfl⟩ := claim_complete hclaim hmark
              apply Effect.accepted
              · exact Open.congr hsame.1 (open_of_ne hcompleted hcancelled)
              · exact claimedLease_held
              · -- the row is an ownership challenge like the one that was read
                intro _ hno
                simp only [ProbeJob.ownershipChallenge,← hown,Attempt.seen] at hno hchallenge
                rw [hchallenge] at hno
                cases hno

theorem lease_effect {s t : State} {e : Event} {workerId : JsString} {row : Option ProbeJob}
    {now : Time} (hrow : ∀ job,row = some job →
      (s.job.status = .pending ∨ s.job.status = .leased ∧ ∃ t,s.job.leasedAt = some t ∧ t < now) ∧
      job = { s.job with status := .leased,leasedAt := some now,leasedBy := some workerId })
    (h : leaseRow s workerId row = (t,e)) : Effect s.job s.lease e t.job t.lease := by
  cases row with
  | none =>
      cases h
      exact .quiet rfl rfl (by simp)
  | some job =>
      obtain ⟨hfree,rfl⟩ := hrow job rfl
      cases h
      exact .leased hfree

theorem begin_effect {s t : State} {e : Event} {attempt : Except Refusal Attempt}
    (h : begin s attempt = (t,e)) : Effect s.job s.lease e t.job t.lease := by
  cases attempt with
  | ok a =>
      cases h
      exact .quiet rfl rfl (by simp)
  | error reason =>
      cases h
      exact .quiet rfl rfl (by simp)

/-- A stale lease is older than the time that finds it stale. -/
theorem leaseExpired_lt {job : ProbeJob} {now : Time} (h : leaseExpired job now = true) :
    ∃ t,job.leasedAt = some t ∧ t < now := by
  unfold leaseExpired at h
  cases hl : job.leasedAt with
  | none =>
      rw [hl] at h
      cases h
  | some t =>
      rw [hl] at h
      have hlt : (t : ℚ) < now-leaseTtlSeconds job.constraints*1000 := by simpa using h
      have hpos : (0 : ℚ) < leaseTtlSeconds job.constraints*1000 := by
        have : (180 : ℚ) ≤ leaseTtlSeconds job.constraints := le_max_left _ _
        linarith
      refine ⟨t,rfl,?_⟩
      have : (t : ℚ) < now := by linarith
      exact_mod_cast this

theorem step_effect {services : Services} {s t : State} {e : Event} (hv : Valid services s)
    (h : Step services s e t) : Effect s.job s.lease e t.job t.lease := by
  obtain ⟨gates,now,op,_,h⟩ := h
  cases op with
  | lease caller =>
      simp only [perform] at h
      split at h
      · cases h
        exact .quiet rfl rfl (by simp)
      · refine @lease_effect { s with clock := now } _ _ _ _ now ?_ h
        intro job hjob
        unfold leasePendingJobsForWorker at hjob
        split at hjob
        · cases hjob
        · split at hjob
          · rename_i hcond
            refine ⟨?_,(Option.some.inj hjob).symm⟩
            exact hcond.1.imp_right fun hs => ⟨hs.1,leaseExpired_lt hs.2⟩
          · cases hjob
  | claimPending workerId =>
      refine @lease_effect { s with clock := now } _ _ _ _ now ?_ h
      intro job hjob
      unfold claimPendingJobForWorker at hjob
      split at hjob
      · rename_i hcond
        exact ⟨Or.inl hcond.1,(Option.some.inj hjob).symm⟩
      · cases hjob
  | reserve caller body id => exact begin_effect (s := { s with clock := now }) h
  | acknowledge caller body => exact begin_effect (s := { s with clock := now }) h
  | ingest caller body => exact begin_effect (s := { s with clock := now }) h
  | commit index =>
      simp only [perform] at h
      split at h
      · rename_i a ha
        have hsound := hv a (List.mem_of_getElem? ha)
        exact commit_effect (s := { s with
          clock := now
          attempts := s.attempts.eraseIdx index }) hsound h
      · cases h
        exact .quiet rfl rfl (by simp)
  | cancel =>
      cases h
      exact .cancelled
  | foreignEvent event =>
      cases h
      exact .quiet rfl rfl (by simp)

theorem cancel_columns (job : ProbeJob) (now : Time) :
    (cancelOpenProbeJobs job now).ownershipVerificationId = job.ownershipVerificationId ∧
      (cancelOpenProbeJobs job now).executionReservation = job.executionReservation := by
  unfold cancelOpenProbeJobs
  split <;> exact ⟨rfl,rfl⟩

/-- The ownership binding is constant and a reservation is never lost or replaced. -/
theorem Effect.columns {job row : ProbeJob} {lease number : ℕ} {e : Event}
    (h : Effect job lease e row number) :
    row.ownershipVerificationId = job.ownershipVerificationId ∧
      ∀ r,job.executionReservation = some r → row.executionReservation = some r := by
  cases h with
  | quiet _ _ _ => exact ⟨rfl,fun _ h => h⟩
  | leased _ => exact ⟨rfl,fun _ h => h⟩
  | reserved _ _ _ hnone =>
      refine ⟨rfl,?_⟩
      intro r hr
      rw [hnone] at hr
      cases hr
  | acknowledged => exact ⟨rfl,fun _ h => h⟩
  | accepted _ _ _ => exact ⟨rfl,fun _ h => h⟩
  | reconciled _ => exact ⟨rfl,fun _ h => h⟩
  | cancelled =>
      rename_i now
      obtain ⟨h1,h2⟩ := cancel_columns job now
      rw [h2]
      exact ⟨h1,fun _ h => h⟩

theorem Sound.effect {services : Services} {job row : ProbeJob} {lease number : ℕ} {e : Event}
    {a : Attempt} (ha : Sound services job a) (h : Effect job lease e row number) :
    Sound services row a := by
  obtain ⟨hown,hres⟩ := h.columns
  exact ⟨ha.checked,by rw [hown,ha.ownership],fun r hr => hres r (ha.reservation r hr)⟩

theorem Sound.read {services : Services} {job : ProbeJob} {a : Attempt}
    (h : Checked services a ∧ a.seen = job) : Sound services job a := by
  obtain ⟨hchecked,rfl⟩ := h
  exact ⟨hchecked,rfl,fun _ hr => hr⟩

theorem commit_attempts (s : State) (gates : Gates) (a : Attempt) :
    (commit s gates a).1.attempts = s.attempts := by
  cases a <;> simp only [commit] <;> split <;> try split
  all_goals first
    | rfl
    | (split <;> first | rfl | (split <;> rfl))

/-- A step adds at most an attempt that was checked on the row it left. -/
theorem step_attempts {services : Services} {s t : State} {e : Event} (h : Step services s e t) :
    ∀ a ∈ t.attempts,a ∈ s.attempts ∨ (Checked services a ∧ a.seen = s.job) := by
  obtain ⟨gates,now,op,_,h⟩ := h
  have hbegin : ∀ attempt : Except Refusal Attempt,
      (∀ a,attempt = .ok a → Checked services a ∧ a.seen = s.job) →
      begin { s with clock := now } attempt = (t,e) →
      ∀ a ∈ t.attempts,a ∈ s.attempts ∨ (Checked services a ∧ a.seen = s.job) := by
    intro attempt hok h a ha
    cases attempt with
    | ok b =>
        cases h
        rcases List.mem_cons.mp ha with rfl | ha
        · exact Or.inr (hok a rfl)
        · exact Or.inl ha
    | error reason =>
        cases h
        exact Or.inl ha
  have hrow : ∀ workerId row,leaseRow { s with clock := now } workerId row = (t,e) →
      ∀ a ∈ t.attempts,a ∈ s.attempts ∨ (Checked services a ∧ a.seen = s.job) := by
    intro workerId row h a ha
    cases row with
    | none =>
        cases h
        exact Or.inl ha
    | some job =>
        cases h
        exact Or.inl ha
  cases op with
  | lease caller =>
      simp only [perform] at h
      split at h
      · cases h
        exact fun a ha => Or.inl ha
      · exact hrow _ _ h
  | claimPending workerId => exact hrow _ _ h
  | reserve caller body id => exact hbegin _ (fun a ha => reserve_checked ha) h
  | acknowledge caller body => exact hbegin _ (fun a ha => acknowledge_checked ha) h
  | ingest caller body => exact hbegin _ (fun a ha => ingest_checked ha) h
  | commit index =>
      simp only [perform] at h
      split at h
      · intro a ha
        rename_i b _
        have hkept := commit_attempts { s with
          clock := now
          attempts := s.attempts.eraseIdx index } gates b
        rw [h] at hkept
        rw [hkept] at ha
        exact Or.inl (List.mem_of_mem_eraseIdx ha)
      · cases h
        exact fun a ha => Or.inl ha
  | cancel =>
      cases h
      exact fun a ha => Or.inl ha
  | foreignEvent event =>
      cases h
      exact fun a ha => Or.inl ha

theorem valid_preserved (services : Services) : Preserved (Step services) (Valid services) := by
  intro s e t hv h a ha
  have heff := step_effect hv h
  rcases step_attempts h a ha with ha | hread
  · exact (hv a ha).effect heff
  · exact (Sound.read hread).effect heff

theorem Effect.reserved_iff {job row : ProbeJob} {lease number : ℕ} {e : Event}
    (h : Effect job lease e row number) (he : e.isReserved = true) :
    job.executionReservation = none ∧ row.executionReservation.isSome = true := by
  cases h with
  | reserved _ _ _ hnone => exact ⟨hnone,rfl⟩
  | quiet hq _ _ =>
      rw [hq] at he
      cases he
  | _ => cases he

/-- A granted reservation is the last one. -/
theorem reservation_silences (services : Services) :
    Silences (Step services) (Valid services) (fun e => e.isReserved = true)
      (fun s => s.job.executionReservation.isSome = true) where
  kept s e t hv hb h := by
    obtain ⟨r,hr⟩ := Option.isSome_iff_exists.mp hb
    rw [(step_effect hv h).columns.2 r hr]
    rfl
  quiet s e t hv hb h he := by
    rw [((step_effect hv h).reserved_iff he).1] at hb
    cases hb

/-- A closed row stays closed. -/
theorem Effect.closed {job row : ProbeJob} {lease number : ℕ} {e : Event}
    (h : Effect job lease e row number) (hc : ¬ Open job) : ¬ Open row ∧ e.isAccepted = false := by
  cases h with
  | quiet _ hq _ => exact ⟨hc,hq⟩
  | leased hfree => exact absurd (hfree.imp_right And.left) hc
  | reserved hheld _ _ _ => exact absurd (Or.inr hheld.1) hc
  | acknowledged => exact ⟨hc,rfl⟩
  | accepted hopen _ _ => exact absurd hopen hc
  | reconciled hopen => exact absurd hopen hc
  | cancelled =>
      have hsame : ¬ (job.status = .pending ∨ job.status = .leased) := hc
      rw [cancelOpenProbeJobs,if_neg hsame]
      exact ⟨hc,rfl⟩

/-- Nothing is accepted on a closed row. -/
theorem closed_silences (services : Services) :
    Silences (Step services) (Valid services) (fun e => e.isAccepted = true)
      (fun s => ¬ Open s.job) where
  kept s e t hv hb h := ((step_effect hv h).closed hb).1
  quiet s e t hv hb h he := by
    rw [((step_effect hv h).closed hb).2] at he
    cases he

theorem completedRow_closed (job : ProbeJob) (workerId : JsString) (stamp : Option Time)
    (done : Time) : ¬ Open (completedRow job workerId stamp done) := by
  rintro (h | h) <;> cases h

theorem Effect.accepted_closes {job row : ProbeJob} {lease number : ℕ} {e : Event}
    (h : Effect job lease e row number) (he : e.isAccepted = true) : ¬ Open row := by
  cases h with
  | accepted _ _ _ => exact completedRow_closed _ _ _ _
  | quiet _ hq _ =>
      rw [hq] at he
      cases he
  | _ => cases he

theorem cancel_closes (job : ProbeJob) (now : Time) : ¬ Open (cancelOpenProbeJobs job now) := by
  unfold cancelOpenProbeJobs
  split
  · rintro (h | h) <;> cases h
  · assumption

theorem Effect.cancelled_closes {job row : ProbeJob} {lease number : ℕ}
    (h : Effect job lease .cancelled row number) : ¬ Open row := by
  cases h with
  | quiet _ _ hq => exact absurd rfl hq
  | cancelled => exact cancel_closes _ _

/-- The reservation of the row, and whether the lease that obtained it is still the
current one. A later lease has a later stamp. -/
def Granted (history : List Event) (job : ProbeJob) (lease : ℕ) (r : Reservation) : Prop :=
  ∃ n,Event.reserved r.workerId n ∈ history ∧ (job.status = .leased →
    (n = lease ∧ r.leasedAt = job.leasedAt) ∨
      ∃ t u,r.leasedAt = some t ∧ job.leasedAt = some u ∧ t < u)

structure Inv (ownership : Option JsString) (history : List Event) (s : State) : Prop where
  ownership : s.job.ownershipVerificationId = ownership
  pending : s.job.status = .pending → s.job.executionReservation = none
  granted : ∀ r,s.job.executionReservation = some r → Granted history s.job s.lease r

theorem Granted.mono {history : List Event} {job : ProbeJob} {lease : ℕ} {r : Reservation}
    (e : Event) (h : Granted history job lease r) : Granted (history++[e]) job lease r := by
  obtain ⟨n,hn,hl⟩ := h
  exact ⟨n,List.mem_append_left _ hn,hl⟩

/-- Only the lease columns of the row matter. -/
theorem Granted.congr {history : List Event} {job row : ProbeJob} {lease : ℕ} {r : Reservation}
    (hs : row.status = .leased → job.status = .leased ∧ row.leasedAt = job.leasedAt)
    (h : Granted history job lease r) : Granted history row lease r := by
  obtain ⟨n,hn,hl⟩ := h
  refine ⟨n,hn,fun hrow => ?_⟩
  obtain ⟨h1,h2⟩ := hs hrow
  rw [h2]
  exact hl h1

theorem Granted.closed {history : List Event} {job row : ProbeJob} {lease number : ℕ}
    {r : Reservation} (hc : ¬ Open row) (h : Granted history job lease r) :
    Granted history row number r := by
  obtain ⟨n,hn,_⟩ := h
  exact ⟨n,hn,fun hrow => absurd (Or.inr hrow) hc⟩

theorem inv_effect {ownership : Option JsString} {history : List Event} {s t : State} {e : Event}
    (hi : Inv ownership history s) (h : Effect s.job s.lease e t.job t.lease) :
    Inv ownership (history++[e]) t := by
  obtain ⟨hown,hpending,hgranted⟩ := hi
  obtain ⟨hcol,-⟩ := h.columns
  obtain ⟨job,event,clock,attempts,lease⟩ := t
  simp only at h hcol
  have hown' : job.ownershipVerificationId = ownership := by rw [hcol,hown]
  cases h with
  | quiet _ _ _ => exact ⟨hown',hpending,fun r hr => (hgranted r hr).mono e⟩
  | leased hfree =>
      refine ⟨hown',nofun,?_⟩
      intro r hr
      have hnone : s.job.status ≠ .pending := by
        intro hp
        have := hpending hp
        rw [show s.job.executionReservation = some r from hr] at this
        cases this
      obtain ⟨hs,t,ht,hlt⟩ := hfree.resolve_left hnone
      obtain ⟨n,hn,hl⟩ := hgranted r hr
      refine ⟨n,List.mem_append_left _ hn,fun _ => Or.inr ?_⟩
      rcases hl hs with ⟨_,hsame⟩ | ⟨t',u,ht',hu,hlt'⟩
      · exact ⟨t,_,by rw [hsame,ht],rfl,hlt⟩
      · rw [ht] at hu
        cases hu
        exact ⟨t',_,ht',rfl,hlt'.trans hlt⟩
  | reserved hheld hl _ _ =>
      refine ⟨hown',fun hp => ?_,?_⟩
      · have := hheld.1
        rw [show s.job.status = .pending from hp] at this
        cases this
      · intro r' hr'
        cases Option.some.inj hr'
        exact ⟨s.lease,by simp,fun _ => Or.inl ⟨rfl,hl⟩⟩
  | acknowledged =>
      exact ⟨hown',hpending,fun r hr =>
        Granted.congr (fun hs => ⟨hs,rfl⟩) ((hgranted r hr).mono _)⟩
  | accepted _ _ _ =>
      refine ⟨hown',nofun,fun r hr => ?_⟩
      exact Granted.closed (completedRow_closed _ _ _ _) ((hgranted r hr).mono _)
  | reconciled _ =>
      refine ⟨hown',nofun,fun r hr => ?_⟩
      exact Granted.closed (completedRow_closed _ _ _ _) ((hgranted r hr).mono _)
  | cancelled =>
      rename_i now
      refine ⟨hown',fun hp => absurd (Or.inl hp) (cancel_closes _ _),fun r hr => ?_⟩
      rw [(cancel_columns s.job now).2] at hr
      exact Granted.closed (cancel_closes _ _) ((hgranted r hr).mono _)

/-- A traffic report that is accepted follows the grant of its reservation. -/
theorem accepted_reserved {ownership : Option JsString} {history : List Event} {s t : State}
    {workerId : JsString} {number : ℕ} {result : WorkerResult} (hi : Inv ownership history s)
    (h : Effect s.job s.lease (.accepted workerId number result) t.job t.lease)
    (htraffic : result.trafficFree = false)
    (hown : s.job.ownershipChallenge = false) : Event.reserved workerId number ∈ history := by
  generalize ht : t.job = row at h
  generalize hn : t.lease = last at h
  cases h with
  | quiet _ hq _ => cases hq
  | accepted _ hnumber hcover =>
      obtain ⟨r,hr,hheld,rfl,hl⟩ := hcover htraffic hown
      rw [hnumber hheld]
      obtain ⟨n,hn,hor⟩ := hi.granted r hr
      rcases hor hheld.1 with ⟨rfl,_⟩ | ⟨t,u,ht,hu,hlt⟩
      · exact hn
      · -- a later lease has another stamp than the reservation
        rw [← hl,ht] at hu
        cases hu
        exact absurd hlt (lt_irrefl _)

theorem start_valid (services : Services) (job : ProbeJob) (event : Option ProbeEvent)
    (clock : Time) : Valid services (start job event clock) := by
  intro a ha
  cases ha

section
variable {services : Services} {id checkId : JsString} {targetId ownership : Option JsString}
variable {constraints : JsVal} {event : Option ProbeEvent} {clock : Time}

theorem run_inv {history : List Event} {s : State} (hr : Run (Step services)
      (start (createProbeJob id targetId checkId ownership constraints) event clock) history s) :
    Valid services s ∧ Inv ownership history s := by
  refine hr.invariant (I := fun history s => Valid services s ∧ Inv ownership history s) ?_ ?_
  · constructor
    · exact start_valid _ _ _ _
    · exact ⟨rfl,fun _ => rfl,nofun⟩
  · rintro history s e t ⟨hv,hi⟩ h
    exact ⟨valid_preserved services s e t hv h,inv_effect hi (step_effect hv h)⟩

/-- At most one reservation and one result; a result that reports traffic is from the
worker and the lease of the reservation, unless the job is an ownership challenge; and
no result after a cancel. -/
theorem at_most_once_execution (history : List Event) (s : State) (hr : Run (Step services)
      (start (createProbeJob id targetId checkId ownership constraints) event clock) history s) :
    (history.filter fun e => e.isReserved).length ≤ 1 ∧
      (history.filter fun e => e.isAccepted).length ≤ 1 ∧
      (∀ before after workerId lease result,
        history = before++.accepted workerId lease result::after → result.trafficFree = false →
        (ownership = none ∨ ownership = some []) → Event.reserved workerId lease ∈ before) ∧
      (∀ before after,history = before++.cancelled::after → ∀ e ∈ after,e.isAccepted = false) := by
  have hv := start_valid services (createProbeJob id targetId checkId ownership constraints)
    event clock
  have hI := valid_preserved services
  refine ⟨?_,?_,?_,?_⟩
  · have h := (reservation_silences services).at_most_once hI
      (fun s e t hv h he => ((step_effect hv h).reserved_iff he).2) hv hr
    simpa using h
  · have h := (closed_silences services).at_most_once hI
      (fun s e t hv h he => (step_effect hv h).accepted_closes he) hv hr
    simpa using h
  · rintro before after workerId lease result rfl htraffic hno
    obtain ⟨t,hbefore,hafter⟩ := hr.split
    obtain ⟨u,hstep,_⟩ := hafter.head
    obtain ⟨ht,hi⟩ := run_inv hbefore
    refine accepted_reserved hi (step_effect ht hstep) htraffic ?_
    rw [ProbeJob.ownershipChallenge,hi.ownership]
    rcases hno with rfl | rfl <;> rfl
  · rintro before after rfl e he
    have h := (closed_silences services).never_after (Q := fun e => e = .cancelled) hI
      (fun s e t hv h hq => by
        subst hq
        exact (step_effect hv h).cancelled_closes) hv rfl hr e he
    simpa using h

end

/-- The history and the last state of given operations. -/
def replay (services : Services) : List (Gates × Time × Operation) → State → List Event × State
  | [],s => ([],s)
  | (gates,now,op)::ops,s =>
      let next := perform services gates now op s
      let rest := replay services ops next.1
      (next.2::rest.1,rest.2)

def ordered (clock : Time) : List (Gates × Time × Operation) → Bool
  | [] => true
  | (_,now,_)::ops => clock ≤ now && ordered now ops

theorem commit_clock (s : State) (gates : Gates) (a : Attempt) :
    (commit s gates a).1.clock = s.clock := by
  cases a <;> simp only [commit] <;> split <;> try split
  all_goals first
    | rfl
    | (split <;> first | rfl | (split <;> rfl))

theorem perform_clock (services : Services) (gates : Gates) (now : Time) (op : Operation)
    (s : State) : (perform services gates now op s).1.clock = now := by
  cases op with
  | lease caller =>
      simp only [perform,leaseRow]
      split
      · rfl
      · split <;> rfl
  | claimPending workerId =>
      simp only [perform,leaseRow]
      split <;> rfl
  | commit index =>
      simp only [perform]
      split
      · exact commit_clock _ _ _
      · rfl
  | cancel => rfl
  | foreignEvent event => rfl
  | _ =>
      simp only [perform,begin]
      split <;> rfl

theorem replay_run {services : Services} {ops : List (Gates × Time × Operation)} {s : State}
    (h : ordered s.clock ops = true) :
    Run (Step services) s (replay services ops s).1 (replay services ops s).2 := by
  induction ops generalizing s with
  | nil => exact .start
  | cons entry ops ih =>
      obtain ⟨gates,now,op⟩ := entry
      simp only [ordered,Bool.and_eq_true,decide_eq_true_eq] at h
      have hrest : ordered (perform services gates now op s).1.clock ops = true := by
        rw [perform_clock]
        exact h.2
      exact .cons ⟨gates,now,op,h.1,rfl⟩ (ih hrest)

def sampleInstants : List (String × Time) :=
  [("2026-01-01T00:00:00.000Z",1767225600000),("2026-01-01T00:01:40.000Z",1767225700000)]

def sampleServices : Services where
  dates := {
    parse := fun v => (sampleInstants.find? fun p => is v p.1).map Prod.snd
    instant := fun v => (sampleInstants.find? fun p => is v p.1).map Prod.snd
    iso := fun t => ((sampleInstants.find? fun p => p.2 = t).map fun p => js p.1).getD [] }
  validateProbeResultBody := fun body _ =>
    if is (field body "external_result") "connected" &&
        sameNumber (field (field body "safety_attestation") "requests_sent") (natNumber 1) then
      .ok ⟨.connected,1⟩
    else refuse "invalid_external_result" 400

/-- The number 1. -/
def one : NumberText.Number := .one

def sampleConstraints : JsVal := .obj [(js "authority_version",.str (js probeAuthorityVersion)),
  (js "issued_at",.str (js "2026-01-01T00:00:00.000Z")),
  (js "not_after",.str (js "2026-01-01T00:01:40.000Z")),(js "max_requests",.num one),
  (js "max_probe_requests",.num one),(js "max_destination_resolver_attempts",.num .zero),
  (js "min_destination_resolver_attempts",.num .zero),(js "max_total_operations",.num one),
  (js "execution_attempts",.num one)]

def openGates : Gates := ⟨false,true,true,true,true,true,true,.ok (),true⟩

def sampleWorker : Caller := ⟨js "worker_1",none⟩

def sampleResult : JsVal := .obj [(js "external_result",.str (js "connected")),
  (js "safety_attestation",.obj [(js "requests_sent",.num one),(js "probe_requests_sent",.num one),
    (js "destination_resolver_attempts",.num .zero),(js "total_operations",.num one),
    (js "duration_ms",.num one)])]

def sampleTime : Time := 1767225600000

def atSampleTime (op : Operation) : Gates × Time × Operation := (openGates,sampleTime,op)

def reservedOperations : List (Gates × Time × Operation) := [atSampleTime (.lease sampleWorker),
  atSampleTime (.reserve sampleWorker (.obj [(js "leased_at",.str (js "2026-01-01T00:00:00.000Z"))])
    (js "reservation_1")),atSampleTime (.commit 0),atSampleTime (.ingest sampleWorker sampleResult),atSampleTime (.commit 0)]

def sampleStart (ownership : Option JsString) : State :=
  start (createProbeJob (js "job_1") (some (js "target_1")) (js "check_1") ownership
    sampleConstraints) none sampleTime

theorem reserved_result_accepted :
    ∃ history s,Run (Step sampleServices) (sampleStart none) history s ∧
      (history.filter fun e => e.isAccepted).length ≤ 1 ∧
      history = [.leased (js "worker_1") 1,.begun,.reserved (js "worker_1") 1,.begun,
        .accepted (js "worker_1") 1 ⟨.connected,1⟩] := by
  have hr : Run (Step sampleServices) (sampleStart none) _ _ :=
    @replay_run _ reservedOperations _ (by decide)
  refine ⟨_,_,hr,(at_most_once_execution _ _ hr).2.1,?_⟩
  decide +kernel

def challengeOperations : List (Gates × Time × Operation) :=
  [atSampleTime (.lease sampleWorker),atSampleTime (.ingest sampleWorker sampleResult),atSampleTime (.commit 0)]

/-- An ownership challenge reports its request without any reservation. -/
theorem challenge_result_unreserved :
    ¬ ∀ (services : Services) (id checkId : JsString) (targetId ownership : Option JsString)
      (constraints : JsVal) (event : Option ProbeEvent) (clock : Time) (history : List Event)
      (s : State),Run (Step services)
        (start (createProbeJob id targetId checkId ownership constraints) event clock) history s →
      ∀ before after workerId lease result,
        history = before++.accepted workerId lease result::after → result.trafficFree = false →
        Event.reserved workerId lease ∈ before := by
  intro hall
  have hr : Run (Step sampleServices) (sampleStart (some (js "ov_1"))) _ _ :=
    @replay_run _ challengeOperations _ (by decide)
  have hhistory : (replay sampleServices challengeOperations (sampleStart (some (js "ov_1")))).1 =
      [.leased (js "worker_1") 1,.begun]++.accepted (js "worker_1") 1 ⟨.connected,1⟩::[] := by
    decide +kernel
  have hmem := hall _ _ _ _ _ _ _ _ _ _ hr _ _ _ _ _ hhistory (by decide)
  revert hmem
  decide +kernel

end AstraNull.ProbeJobLifecycle

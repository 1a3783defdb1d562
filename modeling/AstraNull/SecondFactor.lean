import Mathlib
import AstraNull.Runs
import AstraNull.PasswordAuth
import AstraNull.SessionRevocation
import AstraNull.CredentialWrites
import AstraNull.Totp

/-!
# One-time codes are used once

A code is matched to a step when a request reads the credential, and the step is stored by a
later commit. The commit checks the step against the stored one again, and enrolment, its end
and a new password all raise the generation, so a commit at the generation of the read sees the
enrolment of the read. Each call is kept with the request it serves.
-/
namespace AstraNull.SecondFactor
open Tables PasswordAuth SessionRevocation CredentialWrites Runs

structure Tracked where
  store : Store
  calls : List (Operation × Call)

def Tracked.erase (s : Tracked) : State := ⟨s.store,s.calls.map Prod.snd⟩

inductive Kind where
  | login
  | reset
  | confirm
  | disable
deriving DecidableEq

/-- A request that took effect, with the step of its code. -/
structure Commit where
  account : Account
  kind : Kind
  step : Option ℤ
deriving DecidableEq

section
variable (P : Platform)

def decidedStep (s : Store) (r : LoginRequest) (matched : List Match) : Option ℤ :=
  match chosen matched with
  | none => none
  | some m => match m.row.credential s with
      | none => none
      | some c =>
          if isDemoLoginUser P m.row.user then none
          else match matchMfaStep P "password_login_unavailable" m.row.user.tenantId m.row.user.id
              c r.totp r.now with
            | .ok step => step
            | .error _ => none

/-- The step a call commits with when it resumes. -/
def stepOf (s : Store) : Call → Option ℤ
  | .login r (.verifying _ _ matched) => decidedStep P s r matched
  | .login _ (.hashing _ _ step) => step
  | .reset _ _ _ _ step _ => step
  | .confirmMfa _ _ _ step _ => some step
  | .disableMfa _ _ _ step _ => some step
  | _ => none

def commitOf (s : Store) (call : Call) : Event → Option Commit
  | .loggedIn tenantId userId _ => some ⟨(tenantId,userId),.login,stepOf P s call⟩
  | .passwordReset tenantId userId _ => some ⟨(tenantId,userId),.reset,stepOf P s call⟩
  | .mfaEnabled tenantId userId => some ⟨(tenantId,userId),.confirm,stepOf P s call⟩
  | .mfaDisabled tenantId userId => some ⟨(tenantId,userId),.disable,stepOf P s call⟩
  | _ => none

def Tracked.after (calls : List (Operation × Call)) (request : Operation) (o : Outcome) : Tracked :=
  ⟨o.store,o.call.toList.map (Prod.mk request)++calls⟩

def trackedStep (clock : Time) (s : Tracked) : Operation → Tracked × Option Commit
  | .resume index hash =>
      match s.calls[index]? with
      | none => (s,none)
      | some (request,call) =>
          let o := resumeCall P clock s.store hash call
          (.after (s.calls.eraseIdx index) request o,commitOf P s.store call o.event)
  | .editUsers users => ({ s with store := { s.store with users := users } },none)
  | op => (.after s.calls op (startCall P (ensurePasswordStore clock s.store) op),none)

inductive Step (s : Tracked) (y : Option Commit) (t : Tracked) : Prop
  | mk (clock : Time) (op : Operation) (hstep : trackedStep P clock s op = (t,y))

end

/-- The requests change nothing about what the calls do. -/
theorem erase_trackedStep (P : Platform) (clock : Time) (s : Tracked) (op : Operation) :
    (trackedStep P clock s op).1.erase = (step P clock s.erase op).1 := by
  cases op with
  | resume index hash =>
      simp only [trackedStep,step,Tracked.erase,List.getElem?_map]
      cases hc : s.calls[index]? with
      | none => rfl
      | some rc =>
          simp [Tracked.after,State.after,List.eraseIdx_map]
  | editUsers users => rfl
  | login | issueInvite | acceptInvite | requestReset | resetPassword | beginMfa | confirmMfa
  | disableMfa | validate =>
      simp only [trackedStep,step,Tracked.erase,Tracked.after,State.after]
      cases (startCall P (ensurePasswordStore clock s.store) _).call <;> simp

/-- The code of a request and the time it is checked at. -/
def codeOf : Operation → Option (String × Time)
  | .login r => some (r.totp,r.now)
  | .resetPassword _ _ totp now => some (totp,now)
  | _ => none

def demoRequest (k : Account) : Operation → Bool
  | .login r => k.1 == demoAccountTenantId && r.email == demoAdminEmail
  | _ => false

/-- The event ends the enrolment of the account. -/
def ends (k : Account) : Option Commit → Bool
  | some y => y.account == k && y.kind == .disable
  | none => false

/-- No enrolment of the account ends from the first event on. -/
def SameEnrollment (k : Account) (events : List (Option Commit)) : Prop :=
  ∀ y ∈ events,ends k y = false

/-- The platform with the service's own check of codes. -/
def withTotp (T : Totp.Primitives) (P : Platform) : Platform :=
  { P with verifyTotp := Totp.verifyTotp T }

theorem verifyTotp_withTotp (T : Totp.Primitives) (P : Platform) :
    (withTotp T P).verifyTotp = Totp.verifyTotp T := by
  simp only [withTotp]

structure SingleUse (T : Totp.Primitives) (P : Platform) (R : Tracked → Option Commit → Tracked → Prop)
    (s : Tracked) : Prop where
  /-- Within an enrolment every accepted step is after the ones before it. -/
  increasing : ∀ h x k y l t,Run R s (h++some x::(k++some y::l)) t → x.account = y.account →
    SameEnrollment x.account (some x::k) → ∀ i j,x.step = some i → y.step = some j → i < j
  /-- A login or reset of an enrolled account presented a code of a new step. -/
  necessary : ∀ h a,Run R s h a → ∀ clock index hash request call t y c,
    a.calls[index]? = some (request,call) →
    trackedStep P clock a (.resume index hash) = (t,some y) →
    y.kind = .login ∨ y.kind = .reset → demoRequest y.account request = false →
    lookup a.store y.account = some c → c.mfaEnrolledAt.isSome →
    ∃ i secret code,y.step = some i ∧ codeOf request = some code ∧
      mfaSecretOf P y.account.1 y.account.2 c.mfaSecretEnvelope c.mfaEnrollmentId = some secret ∧
      Totp.Matches T secret code.1 code.2 i ∧ (∀ last,c.mfaLastStep = some last → last < i) ∧
      ∀ h₁ x k,h = h₁++some x::k → x.account = y.account →
        SameEnrollment x.account (some x::k) → ∀ j,x.step = some j → j < i

/-- If the account is enrolled, the code matches its secret at the step. -/
def Proven (P : Platform) (k : Account) (code : String × Time) (c : Credential)
    (step : Option ℤ) : Prop :=
  c.mfaEnrolledAt.isSome → ∃ i secret,step = some i ∧
    mfaSecretOf P k.1 k.2 c.mfaSecretEnvelope c.mfaEnrollmentId = some secret ∧
    P.verifyTotp secret code.1 code.2 = some i

/-- The step is proven as long as the row has the generation. -/
def Held (P : Platform) (s : Store) (k : Account) (code : String × Time) (g : ℕ)
    (step : Option ℤ) : Prop :=
  ∃ c,lookup s k = some c ∧ (normalizeSessionGeneration c.sessionGeneration = none ∨
    g ≤ rowGeneration c ∧ (rowGeneration c = g → Proven P k code c step))

section
variable {P : Platform} {s t : Store} {k : Account} {code : String × Time} {g : ℕ}
  {step : Option ℤ} {clock : Time} {hash : String}

theorem proven_of_match (k : Account) (code : String × Time) {unavailable : String}
    {c : Credential}
    (h : matchMfaStep P unavailable k.1 k.2 c code.1 code.2 = .ok step) :
    Proven P k code c step := by
  intro he
  unfold matchMfaStep at h
  rw [if_neg (by simpa [Option.isSome_iff_ne_none] using he)] at h
  cases hs : mfaSecretOf P k.1 k.2 c.mfaSecretEnvelope c.mfaEnrollmentId with
  | none => simp [hs] at h
  | some secret =>
      simp only [hs] at h
      cases hv : P.verifyTotp secret code.1 code.2 with
      | none => simp [hv] at h
      | some i =>
          simp only [hv] at h
          split_ifs at h
          cases h
          exact ⟨i,secret,rfl,rfl,hv⟩

theorem Proven.congr {c d : Credential} (h : Proven P k code c step)
    (hs : Write.SameSecrets c d) : Proven P k code d step := by
  intro he
  rw [hs.enrolledAt] at he
  obtain ⟨i,secret,hstep,hsecret,hv⟩ := h he
  exact ⟨i,secret,hstep,by rw [hs.envelope he,hs.enrollmentId he]; exact hsecret,hv⟩

theorem normalize_eq_none {c : Credential} :
    normalizeSessionGeneration c.sessionGeneration = none ↔
      ¬ (rowGeneration c ≤ maxSafeInteger ∧ 0 < rowGeneration c) := by
  simp only [normalizeSessionGeneration,rowGeneration]
  split_ifs with h
  · simp only [false_iff,not_not]
    exact h
  · simp only [true_iff]
    exact h

theorem Held.evolves {call : Call} {o : Outcome} (h : Held P s k code g step)
    (hw : Writes P s hash call o) : Held P o.store k code g step := by
  obtain ⟨c,hc,hor⟩ := h
  obtain ⟨d,hd,rfl | ⟨w,-,hal,-,rfl⟩⟩ := hw.evolves hc
  · exact ⟨d,hd,hor⟩
  · refine ⟨_,hd,?_⟩
    rcases hor with hnone | ⟨hle,hp⟩
    · left
      rw [normalize_eq_none] at hnone ⊢
      rcases hal.raises with he | ⟨-,hpos,hmax⟩
      · rwa [he]
      · exact absurd ⟨hmax,hpos⟩ hnone
    · right
      refine ⟨hle.trans hal.generation_le,fun hg => ?_⟩
      have hgc : rowGeneration c = g := le_antisymm (hg ▸ hal.generation_le) hle
      exact (hp hgc).congr (hal.sameSecrets (hg.trans hgc.symm))

theorem Held.congr (h : Held P s k code g step) (hs : t.userCredentials = s.userCredentials) :
    Held P t k code g step := by
  obtain ⟨c,hc,hor⟩ := h
  exact ⟨c,(lookup_congr hs k).trans hc,hor⟩

/-- A commit at the generation has what the request proved. -/
theorem Held.proven (h : Held P s k code g step) {c : Credential} (hc : lookup s k = some c)
    (hg : normalizeSessionGeneration c.sessionGeneration = some g) : Proven P k code c step := by
  obtain ⟨d,hd,hnone | ⟨-,hp⟩⟩ := h
  · cases hc.symm.trans hd
    rw [hg] at hnone
    cases hnone
  · cases hc.symm.trans hd
    exact hp (normalize_eq_some.mp hg).1

/-- A login serves its own request and looks at rows of its address. -/
structure LoginOk (P : Platform) (s : Store) (request : Operation) (r : LoginRequest)
    (phase : LoginPhase) : Prop where
  request : request = .login r
  email : ∀ row ∈ rows phase,P.foldEmail row.user.email = r.email
  decided : ∀ row g step,phase = .hashing row g step → isDemoLoginUser P row.user = false →
    Held P s (account row) (r.totp,r.now) g step

def CallOk (P : Platform) (s : Store) (request : Operation) : Call → Prop
  | .login r phase => LoginOk P s request r phase
  | .reset _ reset _ g step _ => ∃ code,codeOf request = some code ∧
      Held P s (reset.tenantId,reset.userId) code g step
  | _ => True

theorem CallOk.kept {request : Operation} {call : Call} (h : CallOk P s request call)
    (hs : ∀ k code g step,Held P s k code g step → Held P t k code g step) :
    CallOk P t request call := by
  cases call with
  | login r phase =>
      exact ⟨h.request,h.email,fun row g step hp hd => hs _ _ _ _ (h.decided row g step hp hd)⟩
  | reset token reset now g step enrollmentId =>
      obtain ⟨code,hcode,hheld⟩ := h
      exact ⟨code,hcode,hs _ _ _ _ hheld⟩
  | invite | requestReset | beginMfa | confirmMfa | disableMfa => trivial

theorem held_of_decided {r : LoginRequest} {matched : List Match} {m : Match} {c : Credential}
    (h : Decided P s r matched m c step g) (hd : isDemoLoginUser P m.row.user = false) :
    Held P s (account m.row) (r.totp,r.now) g step := by
  refine ⟨c,lookup_of_credential h.credential,Or.inr ⟨(normalize_eq_some.mp h.generation).1.ge,?_⟩⟩
  have hstep := h.step
  rw [hd] at hstep
  exact fun _ => proven_of_match (account m.row) (r.totp,r.now) hstep

theorem resumed_ok (hm : Migrated s) {request : Operation} {call next : Call}
    (h : CallOk P s request call) (hnext : (resumeCall P clock s hash call).call = some next) :
    CallOk P s request next := by
  obtain ⟨r,phase,rfl⟩ := resumeCall_login hnext
  obtain ⟨phase',rfl,hrows⟩ := resumeLogin_rows hm hnext
  refine ⟨h.request,fun row hrow => h.email row (hrows row hrow),?_⟩
  rintro row g step rfl hd
  obtain ⟨verifiable,matched,m,c,rfl,hdec,rfl⟩ := resumeLogin_hashing hm hnext
  exact held_of_decided hdec hd

theorem started_ok {op : Operation} {call : Call} (hcall : (startCall P s op).call = some call) :
    CallOk P s op call := by
  cases op with
  | login r =>
      simp only [startCall] at hcall
      split_ifs at hcall
      · cases hcall
      · cases hcall
        refine ⟨rfl,fun row hrow => ?_,fun row g step hphase => by cases hphase⟩
        obtain ⟨u,hu,rfl⟩ := List.mem_map.mp hrow
        have hf := (List.mem_filter.mp hu).2
        simp only [Bool.and_eq_true,beq_iff_eq] at hf
        exact hf.1
  | resetPassword token password totp now =>
      simp only [startCall,readReset] at hcall
      split at hcall
      · cases hcall
      · rename_i reset hreset
        cases hu : userFor s reset.tenantId reset.userId with
        | none => simp [hu,Outcome.refuse] at hcall
        | some user =>
            obtain ⟨hid,htenant⟩ := userFor_key hu
            cases hc : credentialFor s user.tenantId user.id with
            | none => simp [hu,hc,Outcome.refuse] at hcall
            | some c =>
                simp only [hu,hc] at hcall
                split_ifs at hcall with hdead hexpired hweak
                · cases hcall
                · cases hcall
                · repeat' split at hcall
                  all_goals cases hcall
                · cases hg : normalizeSessionGeneration
                      (normalizeSessionGeneration c.sessionGeneration) with
                  | none => simp [hg,Outcome.refuse] at hcall
                  | some g =>
                      simp only [hg] at hcall
                      cases hs : matchMfaStep P "mfa_unavailable" reset.tenantId reset.userId c
                          totp now with
                      | error error => simp [hs,Outcome.refuse] at hcall
                      | ok step =>
                          simp only [hs] at hcall
                          cases hcall
                          rw [hid,htenant] at hc
                          refine ⟨(totp,now),rfl,c,hc,?_⟩
                          cases hn : normalizeSessionGeneration c.sessionGeneration with
                          | none => exact Or.inl rfl
                          | some g' =>
                              right
                              rw [hn] at hg
                              have he : g' = g := (normalize_eq_some.mp hg).1
                              rw [he] at hn
                              exact ⟨(normalize_eq_some.mp hn).1.ge,fun _ =>
                                proven_of_match (reset.tenantId,reset.userId) (totp,now) hs⟩
  | issueInvite | acceptInvite | requestReset | beginMfa | confirmMfa | disableMfa | validate
  | editUsers | resume =>
      simp only [startCall,readInvite,readResetRequest,readBeginMfa,readConfirmMfa,
        readDisableMfa] at hcall
      repeat' split at hcall
      all_goals
        cases hcall
      all_goals trivial

end

section
variable {P : Platform} {s t : Tracked} {y : Option Commit}

structure Inv (P : Platform) (s : Tracked) : Prop where
  migrated : s.calls = [] ∨ Migrated s.store
  calls : ∀ x ∈ s.calls,CallOk P s.store x.1 x.2

theorem Inv.migrated_of_mem (h : Inv P s) {x : Operation × Call} (hx : x ∈ s.calls) :
    Migrated s.store := by
  rcases h.migrated with hnil | hm
  · rw [hnil] at hx
    cases hx
  · exact hm

theorem inv_step (hi : Inv P s) (h : Step P s y t) : Inv P t := by
  obtain ⟨clock,op,hstep⟩ := h
  have hstart : ∀ op,(Tracked.after s.calls op
      (startCall P (ensurePasswordStore clock s.store) op),none) = (t,y) → Inv P t := by
    intro op ho
    cases ho
    have hcred := startCall_credentials P (ensurePasswordStore clock s.store) op
    refine ⟨Or.inr (migrated_congr (migrated_ensure s.store clock) hcred),fun x hx => ?_⟩
    refine CallOk.kept ?_ fun k code g step hh => hh.congr hcred
    rcases List.mem_append.mp hx with hx | hx
    · obtain ⟨call,hcall,rfl⟩ := List.mem_map.mp hx
      exact started_ok (Option.mem_toList.mp hcall)
    · rw [ensure_migrated (hi.migrated_of_mem hx)]
      exact hi.calls x hx
  cases op with
  | resume index hash =>
      simp only [trackedStep] at hstep
      cases hc : s.calls[index]? with
      | none =>
          simp only [hc,Prod.mk.injEq] at hstep
          obtain ⟨rfl,-⟩ := hstep
          exact hi
      | some x =>
          obtain ⟨request,call⟩ := x
          simp only [hc] at hstep
          cases hstep
          have hmem := List.mem_of_getElem? hc
          have hm := hi.migrated_of_mem hmem
          have hw : Writes P s.store hash call (resumeCall P clock s.store hash call) :=
            resume_writes hm call
          refine ⟨Or.inr (hw.migrated hm),fun x hx => ?_⟩
          refine CallOk.kept ?_ fun k code g step hh => hh.evolves hw
          rcases List.mem_append.mp hx with hx | hx
          · obtain ⟨next,hnext,rfl⟩ := List.mem_map.mp hx
            have hok := hi.calls _ hmem
            exact resumed_ok hm hok (Option.mem_toList.mp hnext)
          · exact hi.calls x (List.mem_of_mem_eraseIdx hx)
  | editUsers users =>
      cases hstep
      exact ⟨hi.migrated.imp id fun hm => migrated_congr hm rfl,
        fun x hx => (hi.calls x hx).kept fun k code g step hh => hh.congr rfl⟩
  | login | issueInvite | acceptInvite | requestReset | resetPassword | beginMfa | confirmMfa
  | disableMfa | validate => exact hstart _ hstep

theorem preserved_inv : Preserved (Step P) (Inv P) := fun _ _ _ hi h => inv_step hi h

/-- A call that resumes. -/
structure Resumed (P : Platform) (s : Tracked) (y : Option Commit) (t : Tracked) (clock : Time)
    (index : ℕ) (hash : String) (request : Operation) (call : Call) : Prop where
  waiting : s.calls[index]? = some (request,call)
  writes : Writes P s.store hash call (resumeCall P clock s.store hash call)
  store : t.store = (resumeCall P clock s.store hash call).store
  commit : y = commitOf P s.store call (resumeCall P clock s.store hash call).event

theorem resumed_of_step (hi : Inv P s) {clock : Time} {index : ℕ} {hash : String}
    {request : Operation} {call : Call} (hc : s.calls[index]? = some (request,call))
    (hstep : trackedStep P clock s (.resume index hash) = (t,y)) :
    Resumed P s y t clock index hash request call := by
  have hm := hi.migrated_of_mem (List.mem_of_getElem? hc)
  simp only [trackedStep,hc] at hstep
  cases hstep
  exact ⟨hc,resume_writes hm call,rfl,rfl⟩

/-- A call resumes, or the credentials stay. -/
theorem step_cases (hi : Inv P s) (h : Step P s y t) :
    (∃ clock index hash request call,Resumed P s y t clock index hash request call) ∨
    y = none ∧ (Migrated s.store → t.store.userCredentials = s.store.userCredentials) := by
  obtain ⟨clock,op,hstep⟩ := h
  have hstart : ∀ op,(Tracked.after s.calls op
      (startCall P (ensurePasswordStore clock s.store) op),none) = (t,y) →
      y = none ∧ (Migrated s.store → t.store.userCredentials = s.store.userCredentials) := by
    intro op ho
    cases ho
    refine ⟨rfl,fun hm => ?_⟩
    have hcred := startCall_credentials P (ensurePasswordStore clock s.store) op
    rw [ensure_migrated hm] at hcred ⊢
    exact hcred
  cases op with
  | resume index hash =>
      cases hc : s.calls[index]? with
      | none =>
          simp only [trackedStep,hc,Prod.mk.injEq] at hstep
          obtain ⟨rfl,rfl⟩ := hstep
          exact Or.inr ⟨rfl,fun _ => rfl⟩
      | some x => exact Or.inl ⟨clock,index,hash,x.1,x.2,resumed_of_step hi hc hstep⟩
  | editUsers users =>
      cases hstep
      exact Or.inr ⟨rfl,fun _ => rfl⟩
  | login | issueInvite | acceptInvite | requestReset | resetPassword | beginMfa | confirmMfa
  | disableMfa | validate => exact Or.inr (hstart _ hstep)

theorem migrated_step (hi : Inv P s) (hm : Migrated s.store) (h : Step P s y t) :
    Migrated t.store := by
  rcases step_cases hi h with ⟨clock,index,hash,request,call,hr⟩ | ⟨-,hsame⟩
  · rw [hr.store]
    exact hr.writes.migrated hm
  · exact migrated_congr hm (hsame hm)

/-- The stored step of a row, once there is one, only grows until the enrolment ends. -/
theorem last_step_grows (hi : Inv P s) (hm : Migrated s.store) (h : Step P s y t) {k : Account}
    {c : Credential} {last : ℤ} (hc : lookup s.store k = some c) (hl : c.mfaLastStep = some last)
    (hy : ends k y = false) :
    ∃ d later,lookup t.store k = some d ∧ d.mfaLastStep = some later ∧ last ≤ later := by
  rcases step_cases hi h with ⟨clock,index,hash,request,call,hr⟩ | ⟨-,hsame⟩
  · obtain ⟨d,hd,rfl | ⟨w,ha,hw,he,rfl⟩⟩ := hr.writes.evolves hc
    · exact ⟨d,last,by rw [hr.store]; exact hd,hl,le_rfl⟩
    · rw [hr.store]
      have hopen : ∀ i,mfaStepOpen c i = true → last < i := by
        intro i hi
        simp only [mfaStepOpen,hl,Bool.and_eq_true,Option.all_some,decide_eq_true_eq] at hi
        exact hi.2
      cases w with
      | failure | invite | enroll => exact ⟨_,last,hd,hl,le_rfl⟩
      | login now hash step g =>
          cases step with
          | none => exact ⟨_,last,hd,hl,le_rfl⟩
          | some i =>
              rcases hw.fresh i rfl with ⟨now,g,he⟩ | hf
              · cases he
              · exact ⟨_,i,hd,rfl,(hopen i hf).le⟩
      | reset hash now g step enrollmentId =>
          cases step with
          | none => exact ⟨_,last,hd,hl,le_rfl⟩
          | some i =>
              rcases hw.fresh i rfl with ⟨now,g,he⟩ | hf
              · cases he
              · exact ⟨_,i,hd,rfl,(hopen i hf).le⟩
      | confirm i now g =>
          rw [(hw.confirm i now g rfl).2] at hl
          cases hl
      | disable i now g =>
          rw [hr.commit,he] at hy
          simp [commitOf,ends] at hy
  · exact ⟨c,last,(lookup_congr (hsame hm) k).trans hc,hl,le_rfl⟩

/-- The kind of request that makes the write. -/
def kindOf : Write → Option Kind
  | .login _ _ _ _ => some .login
  | .reset _ _ _ _ _ => some .reset
  | .confirm _ _ _ => some .confirm
  | .disable _ _ _ => some .disable
  | _ => none

theorem stepOf_attempts {a : Store} {hash : String} {call : Call} {k : Account} {w : Write}
    (h : Attempts P a hash call k w) : stepOf P a call = w.step := by
  cases h with
  | decided hd =>
      have hstep := hd.step
      simp only [stepOf,decidedStep,hd.chosen,hd.credential]
      split_ifs at hstep ⊢ with hdemo
      · cases hstep
        rfl
      · rw [hstep]
        rfl
  | failure | rehashed | invite | reset | enroll | confirm | disable => rfl

/-- The write of a request that took effect. -/
structure Committed (P : Platform) (s t : Tracked) (x : Commit) (hash : String) (call : Call)
    (c : Credential) (w : Write) : Prop where
  attempts : Attempts P s.store hash call x.account w
  found : lookup s.store x.account = some c
  allowed : w.Allowed c
  left : lookup t.store x.account = some (w.row c)
  step : x.step = w.step
  kind : kindOf w = some x.kind

theorem Resumed.committed {x : Commit} {clock : Time} {index : ℕ} {hash : String}
    {request : Operation} {call : Call}
    (h : Resumed P s (some x) t clock index hash request call) :
    ∃ c w,Committed P s t x hash call c w := by
  have hcommit := h.commit
  cases h.writes with
  | none hs he =>
      cases hev : (resumeCall P clock s.store hash call).event <;>
        simp [hev,commitOf,quiet] at hcommit he
  | created k token invite now hcall hk hc he hs =>
      rw [he] at hcommit
      cases hcommit
  | row k w c ha hc hw he hs =>
      have hleft : lookup t.store k = some (w.row c) := by
        rw [h.store,lookup_update hs k,if_pos rfl,hc]
        rfl
      have hstep := stepOf_attempts ha
      cases w with
      | failure | enroll =>
          rw [he] at hcommit
          cases hcommit
      | invite =>
          obtain ⟨token,he⟩ := he
          rw [he] at hcommit
          cases hcommit
      | login | confirm | disable =>
          rw [he] at hcommit
          cases hcommit
          exact ⟨c,_,ha,hc,hw,hleft,hstep,rfl⟩
      | reset =>
          obtain ⟨token,he⟩ := he
          rw [he] at hcommit
          cases hcommit
          exact ⟨c,_,ha,hc,hw,hleft,hstep,rfl⟩

/-- A request that took effect: its write, and the row it found and left. -/
theorem step_commit (hi : Inv P s) {x : Commit} (h : Step P s (some x) t) :
    Migrated s.store ∧ ∃ hash call c w,Committed P s t x hash call c w := by
  rcases step_cases hi h with ⟨clock,index,hash,request,call,hr⟩ | ⟨hnone,-⟩
  · obtain ⟨c,w,hcom⟩ := hr.committed
    exact ⟨hi.migrated_of_mem (List.mem_of_getElem? hr.waiting),hash,call,c,w,hcom⟩
  · cases hnone

/-- An accepted step is after the stored one. -/
theorem Committed.fresh {x : Commit} {hash : String} {call : Call} {c : Credential} {w : Write}
    (h : Committed P s t x hash call c w) {i last : ℤ} (hi : x.step = some i)
    (hl : c.mfaLastStep = some last) : last < i := by
  rcases h.allowed.fresh i (h.step.symm.trans hi) with ⟨now,g,rfl⟩ | hopen
  · rw [(h.allowed.confirm i now g rfl).2] at hl
    cases hl
  · simp only [mfaStepOpen,hl,Bool.and_eq_true,Option.all_some,decide_eq_true_eq] at hopen
    exact hopen.2

/-- It is stored, unless it ends the enrolment. -/
theorem Committed.stored {x : Commit} {hash : String} {call : Call} {c : Credential} {w : Write}
    (h : Committed P s t x hash call c w) {i : ℤ} (hi : x.step = some i)
    (hx : ends x.account (some x) = false) :
    ∃ d,lookup t.store x.account = some d ∧ d.mfaLastStep = some i := by
  refine ⟨w.row c,h.left,?_⟩
  have hstep := h.step.symm.trans hi
  have hkind := h.kind
  cases w with
  | failure | invite | enroll => cases hstep
  | login now hash step g =>
      change step = some i at hstep
      subst hstep
      rfl
  | reset hash now g step enrollmentId =>
      change step = some i at hstep
      subst hstep
      rfl
  | confirm i' now g =>
      cases hstep
      rfl
  | disable i' now g =>
      have hk : x.kind = .disable := (Option.some.inj hkind).symm
      simp [ends,hk] at hx

/-- From an accepted step on, the stored step is at least that one. -/
theorem last_step_kept (hi : Inv P s) (hm : Migrated s.store) {k : Account} {i : ℤ}
    (hs : ∃ c last,lookup s.store k = some c ∧ c.mfaLastStep = some last ∧ i ≤ last)
    {h : List (Option Commit)} (hr : Run (Step P) s h t) (hsame : SameEnrollment k h) :
    Inv P t ∧ ∃ c last,lookup t.store k = some c ∧ c.mfaLastStep = some last ∧ i ≤ last := by
  have hinv : (Inv P t ∧ Migrated t.store) ∧ (SameEnrollment k h →
      ∃ c last,lookup t.store k = some c ∧ c.mfaLastStep = some last ∧ i ≤ last) := by
    refine hr.invariant (I := fun h t => (Inv P t ∧ Migrated t.store) ∧ (SameEnrollment k h →
      ∃ c last,lookup t.store k = some c ∧ c.mfaLastStep = some last ∧ i ≤ last))
      ⟨⟨hi,hm⟩,fun _ => hs⟩ ?_
    rintro h a y b ⟨⟨hia,hma⟩,hkept⟩ hstep
    refine ⟨⟨inv_step hia hstep,migrated_step hia hma hstep⟩,fun hsame => ?_⟩
    obtain ⟨c,last,hc,hl,hle⟩ := hkept fun z hz => hsame z (List.mem_append_left _ hz)
    obtain ⟨d,later,hd,hlater,hgrow⟩ := last_step_grows hia hma hstep hc hl
      (hsame y (List.mem_append_right _ (List.mem_singleton_self y)))
    exact ⟨d,later,hd,hlater,hle.trans hgrow⟩
  exact ⟨hinv.1.1,hinv.2 hsame⟩

/-- Every step accepted earlier in the enrolment is at most the stored one. -/
theorem accepted_le_last (hi : Inv P s) {h k : List (Option Commit)} {x : Commit} {i : ℤ}
    (hr : Run (Step P) s (h++some x::k) t) (hx : x.step = some i)
    (hsame : SameEnrollment x.account (some x::k)) :
    ∃ c last,lookup t.store x.account = some c ∧ c.mfaLastStep = some last ∧ i ≤ last := by
  obtain ⟨a,ha,hr⟩ := hr.split
  obtain ⟨b,hstep,hr⟩ := hr.head
  have hia := preserved_inv.run hi ha
  obtain ⟨hm,hash,call,c,w,hcom⟩ := step_commit hia hstep
  obtain ⟨d,hd,hl⟩ := hcom.stored hx (hsame _ List.mem_cons_self)
  exact (last_step_kept (inv_step hia hstep) (migrated_step hia hm hstep)
    ⟨d,i,hd,hl,le_rfl⟩ hr fun z hz => hsame z (List.mem_cons_of_mem _ hz)).2

/-- A login or reset commits with what its request proved. -/
theorem Committed.proven {x : Commit} {request : Operation} {hash : String} {call : Call}
    {c : Credential} {w : Write} (h : Committed P s t x hash call c w)
    (hok : CallOk P s.store request call) (hkind : x.kind = .login ∨ x.kind = .reset)
    (hdemo : demoRequest x.account request = false) :
    ∃ code,codeOf request = some code ∧ Proven P x.account code c x.step := by
  obtain ⟨k,kind,step⟩ := x
  obtain ⟨hat,hfound,hallowed,-,hstep,hkind'⟩ := h
  dsimp only at *
  have hplain : ∀ {r : LoginRequest} {phase : LoginPhase} {row : LoginRow},
      LoginOk P s.store request r phase → row ∈ rows phase → account row = k →
      isDemoLoginUser P row.user = false := by
    rintro r phase row hl hrow rfl
    rw [hl.request] at hdemo
    rw [← hdemo,isDemoLoginUser,hl.email row hrow]
    rfl
  cases hat with
  | failure | invite | enroll => cases hkind'
  | confirm | disable =>
      cases hkind'
      rcases hkind with hk | hk <;> cases hk
  | @decided r verifiable matched m c' step g hd =>
      have hmem : m.row ∈ rows (.verifying verifiable [] matched) :=
        List.mem_map_of_mem (chosen_mem hd.chosen)
      have hheld := held_of_decided hd (hplain hok hmem rfl)
      refine ⟨(r.totp,r.now),by rw [hok.request]; rfl,?_⟩
      rw [hstep]
      exact hheld.proven hfound (hallowed.generation g rfl)
  | @rehashed r row g step =>
      have hheld := hok.decided row g step rfl (hplain hok (List.mem_singleton_self row) rfl)
      refine ⟨(r.totp,r.now),by rw [hok.request]; rfl,?_⟩
      rw [hstep]
      exact hheld.proven hfound (hallowed.generation g rfl)
  | @reset token reset now g step enrollmentId =>
      obtain ⟨code,hcode,hheld⟩ := hok
      refine ⟨code,hcode,?_⟩
      rw [hstep]
      exact hheld.proven hfound (hallowed.generation g rfl)

end

theorem one_time_codes_used_once (T : Totp.Primitives) (Q : Platform) (s : Store) :
    SingleUse T (withTotp T Q) (Step (withTotp T Q)) ⟨s,[]⟩ := by
  have hstart : Inv (withTotp T Q) ⟨s,[]⟩ := ⟨Or.inl rfl,by simp⟩
  constructor
  · intro h x k y l t hr hkey hsame i j hx hy
    rw [← List.cons_append,← List.append_assoc] at hr
    obtain ⟨a,ha,hr⟩ := hr.split
    obtain ⟨b,hstep,-⟩ := hr.head
    obtain ⟨c,last,hc,hl,hle⟩ := accepted_le_last hstart ha hx hsame
    obtain ⟨-,hash,call,d,w,hcom⟩ := step_commit (preserved_inv.run hstart ha) hstep
    rw [hkey] at hc
    cases hc.symm.trans hcom.found
    exact hle.trans_lt (hcom.fresh hy hl)
  · intro h a hr clock index hash request call t y c hcall hstep hkind hdemo hc henrolled
    have hi := preserved_inv.run hstart hr
    have hres := resumed_of_step hi hcall hstep
    obtain ⟨d,w,hcom⟩ := hres.committed
    cases hc.symm.trans hcom.found
    have hok := hi.calls _ (List.mem_of_getElem? hcall)
    obtain ⟨code,hcode,hproven⟩ := hcom.proven hok hkind hdemo
    obtain ⟨i,secret,hi',hsecret,hv⟩ := hproven henrolled
    rw [verifyTotp_withTotp] at hv
    refine ⟨i,secret,code,hi',hcode,hsecret,Totp.matches_of_verifyTotp hv,
      fun last hl => hcom.fresh hi' hl,?_⟩
    rintro h₁ x k rfl hkey hsame j hx
    obtain ⟨d,last,hd,hl,hle⟩ := accepted_le_last hstart hr hx hsame
    rw [hkey] at hd
    cases hc.symm.trans hd
    exact hle.trans_lt (hcom.fresh hi' hl)

/-- The digests of the first counters under the key of twenty ASCII digits. -/
def sampleDigests : List (List ℕ) :=
  [[204,147,207,24,80,141,148,147,76,100,182,93,139,167,102,127,183,205,228,176],
    [117,164,138,25,212,203,225,0,100,78,138,193,57,126,234,116,122,45,51,171],
    [11,172,183,250,8,47,239,48,120,34,17,147,139,193,197,231,4,22,255,68]]

def samplePrimitives : Totp.Primitives where
  toUpperCase := fun cs => cs.map Char.toUpper
  isSpace := Char.isWhitespace
  hmacSha1 := fun _ counter => sampleDigests.getD (counter.getLastD 0) []
  currentStep := fun now => now/30000

/-- The platform keeps one secret. -/
def keyedPlatform : Platform :=
  withTotp samplePrimitives { plainPlatform with
    secretEncryptionKey := some "key"
    decryptSecret := fun _ _ _ _ _ => some "GEZDGNBVGY3TQOJQGEZDGNBVGY3TQOJQ" }

/-- One active account with a second factor. -/
def enrolledAccount : Store where
  users := [⟨"user","tenant","user@example.test",some .active⟩]
  userCredentials := [{ newCredential "tenant" "user" "hash" 0 with
    mfaSecretEnvelope := some "envelope"
    mfaEnrollmentId := some "enrollment"
    mfaEnrolledAt := some 0 }]
  userPasswordInvites := []
  userPasswordResets := []

def codeLogin (totp : String) (now : Time) : Operation := .login {
  email := "user@example.test"
  password := "hash"
  cleanPassword := "hash"
  tenantId := none
  totp := totp
  now := now
  clientAllowed := true
  emailAllowed := true }

/-- A login with the code of a step, one that repeats the code, and one with the next code that is
about to commit. -/
def threeLogins : List Operation :=
  [codeLogin "287082" 30000,.resume 0 "",.resume 0 "",.resume 0 "",.resume 0 "",
    codeLogin "287082" 40000,.resume 0 "",.resume 0 "",.resume 0 "",.resume 0 "",
    codeLogin "359152" 60000,.resume 0 "",.resume 0 "",.resume 0 ""]

def beforeLast : List (Option Commit) × Tracked :=
  follow (trackedStep keyedPlatform 0) ⟨enrolledAccount,[]⟩ threeLogins

/-- The repeated code is refused, and the next one is of a later step. -/
theorem repeated_code_refused :
    beforeLast.1 = List.replicate 4 none++
      some ⟨("tenant","user"),.login,some 1⟩::List.replicate 9 none ∧
    (trackedStep keyedPlatform 0 beforeLast.2 (.resume 0 "")).2 =
      some ⟨("tenant","user"),.login,some 2⟩ ∧
    ∃ secret,Totp.Matches samplePrimitives secret "359152" 60000 2 ∧ (1 : ℤ) < 2 := by
  have hrun : Run (Step keyedPlatform) ⟨enrolledAccount,[]⟩ beforeLast.1 beforeLast.2 :=
    @run_follow _ _ (Step keyedPlatform) _ (trackedStep keyedPlatform 0) (fun _ _ => True)
      (fun _ op _ => ⟨0,op,rfl⟩) ⟨enrolledAccount,[]⟩ threeLogins (by simp [Follows,threeLogins])
  have hsingle : SingleUse samplePrimitives keyedPlatform (Step keyedPlatform)
      ⟨enrolledAccount,[]⟩ := one_time_codes_used_once samplePrimitives _ _
  obtain ⟨hhistory,hlast,hcall,hrow⟩ : beforeLast.1 = List.replicate 4 none++
        some ⟨("tenant","user"),.login,some 1⟩::List.replicate 9 none ∧
      (trackedStep keyedPlatform 0 beforeLast.2 (.resume 0 "")).2 =
        some ⟨("tenant","user"),.login,some 2⟩ ∧
      (beforeLast.2.calls[0]?.any fun rc => codeOf rc.1 = some ("359152",60000) &&
        !demoRequest ("tenant","user") rc.1) = true ∧
      ((lookup beforeLast.2.store ("tenant","user")).any fun c => c.mfaEnrolledAt.isSome) =
        true := by decide +kernel
  have hstep : trackedStep keyedPlatform 0 beforeLast.2 (.resume 0 "") =
      ((trackedStep keyedPlatform 0 beforeLast.2 (.resume 0 "")).1,
        some ⟨("tenant","user"),.login,some 2⟩) := by rw [← hlast]
  obtain ⟨⟨request,call⟩,hwaits,hrequest⟩ := (Option.any_eq_true _ _).mp hcall
  obtain ⟨c,hc,henrolled⟩ := (Option.any_eq_true _ _).mp hrow
  rw [Bool.and_eq_true,decide_eq_true_eq,Bool.not_eq_true'] at hrequest
  obtain ⟨i,secret,code,hi,hcode,-,hmatches,-,hearlier⟩ := hsingle.necessary _ _ hrun 0 0 ""
    request call _ _ c hwaits hstep (.inl rfl) hrequest.2 hc henrolled
  cases hi
  cases hrequest.1.symm.trans hcode
  refine ⟨hhistory,hlast,secret,hmatches,?_⟩
  exact hearlier _ _ _ hhistory rfl (by unfold SameEnrollment; decide) 1 rfl

end AstraNull.SecondFactor

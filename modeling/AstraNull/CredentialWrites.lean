import Mathlib
import AstraNull.Tables
import AstraNull.Runs
import AstraNull.PasswordAuth
import AstraNull.SessionRevocation

/-!
# What a resumed call writes to a credential

Every call that resumes writes at most one credential row, under the checks of the repository.
`resume_writes` states the row, the write and the checks. A write that keeps the generation keeps
the password and the enrolment too, so a later check of the generation covers both.
-/
namespace AstraNull.CredentialWrites
open Tables PasswordAuth SessionRevocation

/-- Tenant and user. -/
abbrev Account := String × String

def lookup (s : Store) (k : Account) : Option Credential := credentialFor s k.1 k.2

def account (row : LoginRow) : Account := (row.user.tenantId,row.user.id)

inductive Write where
  | failure (now : Time) (lockUntil : Option Time) (maxAttempts : ℕ)
  | login (now : Time) (hash : Option String) (step : Option ℤ) (generation : ℕ)
  | invite (hash : String) (now : Time) (generation : ℕ)
  | reset (hash : String) (now : Time) (generation : ℕ) (step : Option ℤ)
      (enrollmentId : Option String)
  | enroll (envelope enrollmentId : String) (now : Time)
  | confirm (step : ℤ) (now : Time) (generation : ℕ)
  | disable (step : ℤ) (now : Time) (generation : ℕ)

namespace Write

def row : Write → Credential → Credential
  | .failure now lockUntil maxAttempts => failedRow now lockUntil maxAttempts
  | .login now hash step g => loggedInRow now hash step g
  | .invite hash now g => replacePassword hash now g
  | .reset hash now g step _ => resetRow hash now g step
  | .enroll envelope enrollmentId now => enrollingRow envelope enrollmentId now
  | .confirm step now g => enrolledRow step now g
  | .disable _ now g => disabledRow now g

/-- The generation the write was made for. -/
def generation : Write → Option ℕ
  | .failure _ _ _ => none
  | .login _ _ _ g => some g
  | .invite _ _ g => some g
  | .reset _ _ g _ _ => some g
  | .enroll _ _ _ => none
  | .confirm _ _ g => some g
  | .disable _ _ g => some g

/-- The step of the one-time code the write is made with. -/
def step : Write → Option ℤ
  | .login _ _ step _ => step
  | .reset _ _ _ step _ => step
  | .confirm step _ _ => some step
  | .disable step _ _ => some step
  | _ => none

def hash : Write → Option String
  | .login _ hash _ _ => hash
  | .invite hash _ _ => some hash
  | .reset hash _ _ _ _ => some hash
  | _ => none

/-- The checks of the repository on the row. -/
structure Allowed (w : Write) (c : Credential) : Prop where
  generation : ∀ g,w.generation = some g → normalizeSessionGeneration c.sessionGeneration = some g
  fresh : ∀ i,w.step = some i → (∃ now g,w = .confirm i now g) ∨ mfaStepOpen c i = true
  enroll : ∀ envelope enrollmentId now,w = .enroll envelope enrollmentId now →
    enrollmentFree c = true
  confirm : ∀ i now g,w = .confirm i now g → c.mfaEnrolledAt = none ∧ c.mfaLastStep = none
  reset : ∀ h now g enrollmentId,w = .reset h now g none enrollmentId → c.mfaEnrolledAt = none

/-- The answer of a call that made the write. -/
def Emits (k : Account) : Write → Event → Prop
  | .failure _ _ _,e => e = .quiet
  | .login _ hash _ g,e => e = .loggedIn k.1 k.2 (g+(if hash.isSome then 1 else 0))
  | .invite _ _ _,e => ∃ token,e = .passwordSet k.1 k.2 token
  | .reset _ _ _ _ _,e => ∃ token,e = .passwordReset k.1 k.2 token
  | .enroll _ _ _,e => e = .quiet
  | .confirm _ _ _,e => e = .mfaEnabled k.1 k.2
  | .disable _ _ _,e => e = .mfaDisabled k.1 k.2

theorem keepsKey (w : Write) : KeepsKey w.row := by
  cases w <;> exact fun _ => ⟨rfl,rfl⟩

section
variable {c : Credential} {now : Time} {g : ℕ}

theorem allowed_failure {lockUntil : Option Time} {maxAttempts : ℕ} :
    (Write.failure now lockUntil maxAttempts).Allowed c where
  generation := by rintro _ ⟨⟩
  fresh := by rintro _ ⟨⟩
  enroll := by rintro _ _ _ ⟨⟩
  confirm := by rintro _ _ _ ⟨⟩
  reset := by rintro _ _ _ _ ⟨⟩

theorem allowed_login {hash : Option String} {step : Option ℤ}
    (hgen : normalizeSessionGeneration c.sessionGeneration = some g)
    (hopen : ∀ i,step = some i → mfaStepOpen c i = true) :
    (Write.login now hash step g).Allowed c where
  generation := by
    rintro _ ⟨⟩
    exact hgen
  fresh := fun i hi => Or.inr (hopen i hi)
  enroll := by rintro _ _ _ ⟨⟩
  confirm := by rintro _ _ _ ⟨⟩
  reset := by rintro _ _ _ _ ⟨⟩

theorem allowed_invite {hash : String}
    (hgen : normalizeSessionGeneration c.sessionGeneration = some g) :
    (Write.invite hash now g).Allowed c where
  generation := by
    rintro _ ⟨⟩
    exact hgen
  fresh := by rintro _ ⟨⟩
  enroll := by rintro _ _ _ ⟨⟩
  confirm := by rintro _ _ _ ⟨⟩
  reset := by rintro _ _ _ _ ⟨⟩

theorem allowed_reset {hash : String} {step : Option ℤ} {enrollmentId : Option String}
    (hgen : normalizeSessionGeneration c.sessionGeneration = some g)
    (hopen : ∀ i,step = some i → mfaStepOpen c i = true)
    (hnone : step = none → c.mfaEnrolledAt = none) :
    (Write.reset hash now g step enrollmentId).Allowed c where
  generation := by
    rintro _ ⟨⟩
    exact hgen
  fresh := fun i hi => Or.inr (hopen i hi)
  enroll := by rintro _ _ _ ⟨⟩
  confirm := by rintro _ _ _ ⟨⟩
  reset := by
    rintro _ _ _ _ ⟨⟩
    exact hnone rfl

theorem allowed_enroll {envelope enrollmentId : String} (hfree : enrollmentFree c = true) :
    (Write.enroll envelope enrollmentId now).Allowed c where
  generation := by rintro _ ⟨⟩
  fresh := by rintro _ ⟨⟩
  enroll := fun _ _ _ _ => hfree
  confirm := by rintro _ _ _ ⟨⟩
  reset := by rintro _ _ _ _ ⟨⟩

theorem allowed_confirm {step : ℤ}
    (hgen : normalizeSessionGeneration c.sessionGeneration = some g)
    (hnone : c.mfaEnrolledAt = none ∧ c.mfaLastStep = none) :
    (Write.confirm step now g).Allowed c where
  generation := by
    rintro _ ⟨⟩
    exact hgen
  fresh := by
    rintro _ ⟨⟩
    exact Or.inl ⟨now,g,rfl⟩
  enroll := by rintro _ _ _ ⟨⟩
  confirm := fun _ _ _ _ => hnone
  reset := by rintro _ _ _ _ ⟨⟩

theorem allowed_disable {step : ℤ}
    (hgen : normalizeSessionGeneration c.sessionGeneration = some g)
    (hopen : mfaStepOpen c step = true) : (Write.disable step now g).Allowed c where
  generation := by
    rintro _ ⟨⟩
    exact hgen
  fresh := by
    rintro _ ⟨⟩
    exact Or.inr hopen
  enroll := by rintro _ _ _ ⟨⟩
  confirm := by rintro _ _ _ ⟨⟩
  reset := by rintro _ _ _ _ ⟨⟩

end

variable {w : Write} {c : Credential}

theorem Allowed.matches (h : w.Allowed c) {g : ℕ} (hg : w.generation = some g) :
    rowGeneration c = g ∧ 0 < g ∧ g ≤ maxSafeInteger :=
  normalize_eq_some.mp (h.generation g hg)

/-- A write keeps the generation, or raises one that can be used by 1. -/
theorem Allowed.raises (h : w.Allowed c) :
    rowGeneration (w.row c) = rowGeneration c ∨ rowGeneration (w.row c) = rowGeneration c+1 ∧
      0 < rowGeneration c ∧ rowGeneration c ≤ maxSafeInteger := by
  cases w with
  | failure | enroll => exact Or.inl rfl
  | login now hash step g =>
      obtain ⟨rfl,hpos,hmax⟩ := h.matches rfl
      cases hash with
      | none => exact Or.inl rfl
      | some hash => exact Or.inr ⟨rfl,hpos,hmax⟩
  | invite hash now g | reset hash now g step enrollmentId | confirm step now g
  | disable step now g =>
      obtain ⟨rfl,hpos,hmax⟩ := h.matches rfl
      exact Or.inr ⟨rfl,hpos,hmax⟩

theorem Allowed.generation_le (h : w.Allowed c) :
    rowGeneration c ≤ rowGeneration (w.row c) := by
  rcases h.raises with he | ⟨he,-,-⟩ <;> omega

/-- The password and the enrolment of two versions of a row agree. -/
structure SameSecrets (c d : Credential) : Prop where
  passwordHash : d.passwordHash = c.passwordHash
  enrolledAt : d.mfaEnrolledAt = c.mfaEnrolledAt
  envelope : c.mfaEnrolledAt.isSome → d.mfaSecretEnvelope = c.mfaSecretEnvelope
  enrollmentId : c.mfaEnrolledAt.isSome → d.mfaEnrollmentId = c.mfaEnrollmentId

theorem Allowed.sameSecrets (h : w.Allowed c) (hg : rowGeneration (w.row c) = rowGeneration c) :
    SameSecrets c (w.row c) := by
  cases w with
  | failure => exact ⟨rfl,rfl,fun _ => rfl,fun _ => rfl⟩
  | login now hash step g =>
      cases hash with
      | none => exact ⟨rfl,rfl,fun _ => rfl,fun _ => rfl⟩
      | some hash =>
          obtain ⟨rfl,-,-⟩ := h.matches rfl
          exact absurd hg (Nat.succ_ne_self _)
  | enroll envelope enrollmentId now =>
      have hfree := h.enroll _ _ _ rfl
      have hnone : c.mfaEnrolledAt.isSome = false := by
        simp only [enrollmentFree,Bool.and_eq_true] at hfree
        simpa using hfree.1.2
      exact ⟨rfl,rfl,by simp [hnone],by simp [hnone]⟩
  | invite hash now g | reset hash now g step enrollmentId | confirm step now g
  | disable step now g =>
      obtain ⟨rfl,-,-⟩ := h.matches rfl
      exact absurd hg (Nat.succ_ne_self _)

/-- Without a new hash the password stays. -/
theorem row_passwordHash (hw : w.hash = none) : (w.row c).passwordHash = c.passwordHash := by
  cases w with
  | login now hash step g =>
      cases hw
      rfl
  | failure | enroll | confirm | disable => rfl
  | invite | reset => cases hw

end Write

section
variable (P : Platform) (s : Store) (hash : String)

/-- The match a login goes on with: the active one, else the first. -/
def chosen (matched : List Match) : Option Match :=
  (matched.filter fun m => m.row.user.status = some .active).head?.or matched.head?

/-- What a login found out about the account it goes on with. -/
structure Decided (r : LoginRequest) (matched : List Match) (m : Match) (c : Credential)
    (step : Option ℤ) (g : ℕ) : Prop where
  chosen : chosen matched = some m
  credential : m.row.credential s = some c
  step : (if isDemoLoginUser P m.row.user then .ok none else matchMfaStep P
    "password_login_unavailable" m.row.user.tenantId m.row.user.id c r.totp r.now) = .ok step
  generation : normalizeSessionGeneration c.sessionGeneration = some g

/-- The account and the write of a call that resumes. -/
inductive Attempts : Call → Account → Write → Prop
  | failure {r : LoginRequest} {row : LoginRow} {rest : List LoginRow} (lockUntil : Option Time)
      (maxAttempts : ℕ) : Attempts (.login r (.failing (row::rest))) (account row)
      (.failure r.now lockUntil maxAttempts)
  | decided {r : LoginRequest} {verifiable : List LoginRow} {matched : List Match} {m : Match}
      {c : Credential} {step : Option ℤ} {g : ℕ} (h : Decided P s r matched m c step g) :
      Attempts (.login r (.verifying verifiable [] matched)) (account m.row)
        (.login r.now none step g)
  | rehashed {r : LoginRequest} {row : LoginRow} {g : ℕ} {step : Option ℤ} :
      Attempts (.login r (.hashing row g step)) (account row) (.login r.now (some hash) step g)
  | invite {token : String} {invite : TokenRow} {now : Time} (g : ℕ) :
      Attempts (.invite token invite now) (invite.tenantId,invite.userId) (.invite hash now g)
  | reset {token : String} {reset : TokenRow} {now : Time} {g : ℕ} {step : Option ℤ}
      {enrollmentId : Option String} :
      Attempts (.reset token reset now g step enrollmentId) (reset.tenantId,reset.userId)
        (.reset hash now g step enrollmentId)
  | enroll {tenantId userId envelope enrollmentId : String} {now : Time} :
      Attempts (.beginMfa tenantId userId envelope enrollmentId now) (tenantId,userId)
        (.enroll envelope enrollmentId now)
  | confirm {tenantId userId : String} {enrollmentId : Option String} {step : ℤ} {now : Time}
      (g : ℕ) : Attempts (.confirmMfa tenantId userId enrollmentId step now) (tenantId,userId)
      (.confirm step now g)
  | disable {tenantId userId : String} {enrollmentId : Option String} {step : ℤ} {now : Time}
      (g : ℕ) : Attempts (.disableMfa tenantId userId enrollmentId step now) (tenantId,userId)
      (.disable step now g)

/-- The credentials after a call. -/
inductive Writes (call : Call) (o : Outcome) : Prop
  | none (hs : o.store.userCredentials = s.userCredentials) (he : quiet o.event = true)
  | row (k : Account) (w : Write) (c : Credential) (ha : Attempts P s hash call k w)
      (hc : lookup s k = some c) (hw : w.Allowed c) (he : w.Emits k o.event)
      (hs : o.store.userCredentials = update (isFor k.1 k.2) w.row s.userCredentials)
  | created (k : Account) (token : String) (invite : TokenRow) (now : Time)
      (hcall : call = .invite token invite now) (hk : k = (invite.tenantId,invite.userId))
      (hc : lookup s k = none) (he : o.event = .passwordSet k.1 k.2 token)
      (hs : o.store.userCredentials = s.userCredentials++[newCredential k.1 k.2 hash now])

end

section
variable {P : Platform} {s : Store} {hash : String} {clock : Time}

theorem ensure_migrated (hm : Migrated s) (clock : Time) : ensurePasswordStore clock s = s := by
  have hfilter : s.userCredentials.filter (fun c => c.mfaSecret.isSome) = [] := by
    rw [List.filter_eq_nil_iff]
    intro c hc
    simp [hm c hc]
  have hmap : s.userCredentials.map (dropPlaintext clock) = s.userCredentials := by
    refine List.map_congr_left (g := id) (fun c hc => ?_) |>.trans (List.map_id _)
    simp [dropPlaintext,hm c hc]
  rw [ensurePasswordStore,hfilter,hmap]
  rfl

theorem lookup_of_credential {row : LoginRow} {c : Credential} (h : row.credential s = some c) :
    lookup s (account row) = some c := by
  unfold LoginRow.credential at h
  split_ifs at h
  exact h

theorem chosen_mem {matched : List Match} {m : Match} (h : chosen matched = some m) :
    m ∈ matched := by
  rcases Option.or_eq_some_iff.mp h with h | ⟨-,h⟩
  · exact List.mem_of_mem_filter (List.mem_of_head? h)
  · exact List.mem_of_head? h

theorem decideLogin_cases (P : Platform) (clock : Time) (r : LoginRequest) (matched : List Match) :
    (∃ error,decideLogin P clock s r matched = .refuse s error) ∨
    ∃ m c step g,Decided P s r matched m c step g ∧
      (decideLogin P clock s r matched = .wait s (.login r (.hashing m.row g step)) ∨
        decideLogin P clock s r matched = commitLogin P clock s m.row r.now none step g) := by
  unfold decideLogin
  dsimp only
  split_ifs with hmany
  · exact Or.inl ⟨_,rfl⟩
  · generalize hchosen : ((matched.filter fun m => m.row.user.status = some .active).head?).or
      matched.head? = found
    cases found with
    | none => exact Or.inl ⟨_,rfl⟩
    | some m =>
        dsimp only
        by_cases hinvited : m.row.user.status = some .invited
        · exact Or.inl ⟨_,if_pos hinvited⟩
        · rw [if_neg hinvited]
          by_cases hactive : m.row.user.status ≠ some .active
          · exact Or.inl ⟨_,if_pos hactive⟩
          · rw [if_neg hactive]
            cases hc : m.row.credential s with
            | none => exact Or.inl ⟨_,rfl⟩
            | some c =>
                dsimp only
                generalize hstep : (if isDemoLoginUser P m.row.user then
                  (.ok none : Except String (Option ℤ)) else matchMfaStep P
                  "password_login_unavailable" m.row.user.tenantId m.row.user.id c r.totp
                    r.now) = found
                by_cases hchange : isDemoLoginUser P m.row.user = false ∧ c.mustChange
                · exact Or.inl ⟨_,if_pos hchange⟩
                · rw [if_neg hchange]
                  cases found with
                  | error error => exact Or.inl ⟨_,rfl⟩
                  | ok step =>
                      dsimp only
                      cases hg : normalizeSessionGeneration c.sessionGeneration with
                      | none => exact Or.inl ⟨_,rfl⟩
                      | some g =>
                          refine Or.inr ⟨m,c,step,g,⟨hchosen,hc,hstep,hg⟩,?_⟩
                          dsimp only
                          split_ifs
                          · exact Or.inl rfl
                          · exact Or.inr rfl

/-- A login commits under its generation, or changes nothing. -/
theorem commitLogin_cases (P : Platform) (clock : Time) (hm : Migrated s) (row : LoginRow)
    (now : Time) (replacement : Option String) (step : Option ℤ) (g : ℕ) :
    (commitLogin P clock s row now replacement step g).call = none ∧
    ((commitLogin P clock s row now replacement step g).store = s ∧
      quiet (commitLogin P clock s row now replacement step g).event = true ∨
    ∃ c,lookup s (account row) = some c ∧ (Write.login now replacement step g).Allowed c ∧
      (Write.login now replacement step g).Emits (account row)
        (commitLogin P clock s row now replacement step g).event ∧
      (commitLogin P clock s row now replacement step g).store.userCredentials =
        update (isFor (account row).1 (account row).2)
          (Write.login now replacement step g).row s.userCredentials) := by
  unfold commitLogin
  dsimp only
  by_cases hmint : maxSafeInteger < g+(if replacement.isSome then 1 else 0) ∨
      P.mintsSessions = false
  · rw [if_pos hmint]
    exact ⟨rfl,Or.inl ⟨rfl,rfl⟩⟩
  · rw [if_neg hmint,ensure_migrated hm]
    cases hc : completeLogin s row.user.tenantId row.user.id now replacement step g with
    | none => exact ⟨rfl,Or.inl ⟨rfl,rfl⟩⟩
    | some s' =>
        refine ⟨rfl,Or.inr ?_⟩
        unfold completeLogin at hc
        cases hl : credentialFor s row.user.tenantId row.user.id with
        | none => simp [hl] at hc
        | some c =>
            simp only [hl] at hc
            split_ifs at hc with hgen hopen hhash
            all_goals
              cases Option.some.inj hc
              refine ⟨c,hl,Write.allowed_login (not_not.mp hgen) ?_,rfl,rfl⟩
              rintro i ⟨⟩
              simpa using hopen

theorem storedRow_key {rows : List TokenRow} {copy r : TokenRow} {tokenHash : String}
    (h : storedRow rows copy tokenHash = some r) :
    r.tenantId = copy.tenantId ∧ r.userId = copy.userId := by
  have := List.find?_some h
  simp only [Bool.and_eq_true,beq_iff_eq] at this
  exact ⟨this.1.1.2,this.1.2⟩

theorem login_writes (hm : Migrated s) (r : LoginRequest) (phase : LoginPhase) :
    Writes P s hash (.login r phase) (resumeLogin P clock s r hash phase) := by
  cases phase with
  | found rows =>
      simp only [resumeLogin,screenLogin]
      split_ifs <;> exact .none rfl rfl
  | comparing verifiable row passwordHash rest matched => exact .none rfl rfl
  | hashing row g step =>
      obtain ⟨-,⟨hs,he⟩ | ⟨c,hc,hw,he,hs⟩⟩ := commitLogin_cases P clock hm row r.now
        (some hash) step g
      · exact .none (congrArg Store.userCredentials hs) he
      · exact .row (account row) _ c .rehashed hc hw he hs
  | failing rest =>
      cases rest with
      | nil => exact .none rfl rfl
      | cons row rest =>
          simp only [resumeLogin,ensure_migrated hm]
          generalize (if isDemoLoginUser P row.user = true then none
            else some (r.now+lockoutMs)) = lockUntil
          generalize (if isDemoLoginUser P row.user = true then 999999
            else lockoutAttempts) = maxAttempts
          by_cases hh : row.hasCredential
          · cases hc : lookup s (account row) with
            | none =>
                refine .none ?_ rfl
                rw [if_pos hh]
                exact update_of_find?_none hc
            | some c =>
                refine .row (account row) (.failure r.now lockUntil maxAttempts) c
                  (.failure lockUntil maxAttempts) hc Write.allowed_failure rfl ?_
                rw [if_pos hh]
                rfl
          · refine .none ?_ rfl
            rw [if_neg hh]
            rfl
  | verifying verifiable rest matched =>
      cases rest with
      | cons row rest => exact .none rfl rfl
      | nil =>
          cases matched with
          | nil => exact .none rfl rfl
          | cons m ms =>
              rw [resumeLogin]
              rcases decideLogin_cases P clock r (m::ms) with
                ⟨error,he⟩ | ⟨m',c,step,g,hd,he | he⟩
              · rw [he]
                exact .none rfl rfl
              · rw [he]
                exact .none rfl rfl
              · rw [he]
                obtain ⟨-,⟨hs,he⟩ | ⟨c,hc,hw,he,hs⟩⟩ := commitLogin_cases P clock hm m'.row
                  r.now none step g
                · exact .none (congrArg Store.userCredentials hs) he
                · exact .row (account m'.row) _ c (.decided hd) hc hw he hs

theorem invite_writes (hm : Migrated s) (token : String) (invite : TokenRow) (now : Time) :
    Writes P s hash (.invite token invite now)
      (resumeCall P clock s hash (.invite token invite now)) := by
  simp only [resumeCall,ensure_migrated hm]
  cases ho : setPasswordFromInvite s invite hash (P.hashToken token) now with
  | error error => exact .none rfl rfl
  | ok t =>
      unfold setPasswordFromInvite at ho
      cases hr : storedRow s.userPasswordInvites invite (P.hashToken token) with
      | none => simp [hr] at ho
      | some stored =>
          obtain ⟨htenant,huser⟩ := storedRow_key hr
          simp only [hr] at ho
          by_cases hcon : stored.consumedAt.isSome
          · simp [hcon] at ho
          · by_cases hexp : stored.expiresAt ≤ now
            · simp [hcon,hexp] at ho
            · simp only [hcon,hexp,Bool.false_eq_true,if_false] at ho
              cases hu : userFor s stored.tenantId stored.userId with
              | none => simp [hu] at ho
              | some user =>
                  obtain ⟨hid,htid⟩ := userFor_key hu
                  rw [huser] at hid
                  rw [htenant] at htid
                  simp only [hu,hid,htid] at ho
                  by_cases hst : user.statusOrActive = .other
                  · simp [hst] at ho
                  · simp only [hst,if_false] at ho
                    cases hc : credentialFor s invite.tenantId invite.userId with
                    | none =>
                        simp only [hc,Except.ok.injEq] at ho
                        subst ho
                        exact .created _ token invite now rfl rfl hc rfl rfl
                    | some c =>
                        cases hg : normalizeSessionGeneration c.sessionGeneration with
                        | none => simp [hc,hg] at ho
                        | some g =>
                            simp only [hc,hg,Option.map_some,Except.ok.injEq] at ho
                            subst ho
                            exact .row _ _ c (.invite g) hc (Write.allowed_invite hg)
                              ⟨token,rfl⟩ rfl

theorem reset_writes (hm : Migrated s) (token : String) (reset : TokenRow) (now : Time) (g : ℕ)
    (step : Option ℤ) (enrollmentId : Option String) :
    Writes P s hash (.reset token reset now g step enrollmentId)
      (resumeCall P clock s hash (.reset token reset now g step enrollmentId)) := by
  simp only [resumeCall,ensure_migrated hm]
  cases ho : consumePasswordReset s reset hash (P.hashToken token) now g step enrollmentId with
  | error error => exact .none rfl rfl
  | ok t =>
      unfold consumePasswordReset at ho
      cases hr : storedRow s.userPasswordResets reset (P.hashToken token) with
      | none => simp [hr] at ho
      | some stored =>
          obtain ⟨htenant,huser⟩ := storedRow_key hr
          simp only [hr] at ho
          by_cases hcon : stored.consumedAt.isSome
          · simp [hcon] at ho
          · by_cases hexp : stored.expiresAt ≤ now
            · simp [hcon,hexp] at ho
            · simp only [hcon,hexp,Bool.false_eq_true,if_false] at ho
              cases hu : userFor s stored.tenantId stored.userId with
              | none => simp [hu] at ho
              | some user =>
                  obtain ⟨hid,htid⟩ := userFor_key hu
                  rw [huser] at hid
                  rw [htenant] at htid
                  simp only [hu,hid,htid] at ho
                  cases hc : credentialFor s reset.tenantId reset.userId with
                  | none => simp [hc] at ho
                  | some c =>
                      simp only [hc] at ho
                      split_ifs at ho with hst hgen hmfa hopen
                      cases ho
                      refine .row _ (.reset hash now g step enrollmentId) c .reset hc
                        (Write.allowed_reset (not_not.mp hgen) ?_ ?_) ⟨token,rfl⟩ rfl
                      · intro i hi
                        simp only [hi,Option.all_some,Bool.and_eq_true,
                          Bool.not_eq_false] at hopen
                        exact hopen.1
                      · intro he
                        simpa [he] using hmfa

theorem resume_writes (hm : Migrated s) (call : Call) :
    Writes P s hash call (resumeCall P clock s hash call) := by
  cases call with
  | login r phase => exact login_writes hm r phase
  | invite token invite now => exact invite_writes hm token invite now
  | requestReset record createdAt => exact .none rfl rfl
  | reset token reset now g step enrollmentId => exact reset_writes hm token reset now g step _
  | beginMfa tenantId userId envelope enrollmentId now =>
      simp only [resumeCall,ensure_migrated hm]
      cases hb : beginMfaEnrollment s tenantId userId envelope enrollmentId now with
      | none => exact .none rfl rfl
      | some t =>
          unfold beginMfaEnrollment at hb
          cases hc : credentialFor s tenantId userId with
          | none => simp [hc] at hb
          | some c =>
              simp only [hc] at hb
              split_ifs at hb with hfree
              cases hb
              exact .row _ _ c .enroll hc (Write.allowed_enroll hfree) rfl rfl
  | confirmMfa tenantId userId enrollmentId step now =>
      simp only [resumeCall,ensure_migrated hm]
      cases hb : confirmMfaEnrollment s tenantId userId enrollmentId step now with
      | none => exact .none rfl rfl
      | some t =>
          unfold confirmMfaEnrollment at hb
          cases hc : credentialFor s tenantId userId with
          | none => simp [hc] at hb
          | some c =>
              cases hg : normalizeSessionGeneration c.sessionGeneration with
              | none => simp [hc,hg] at hb
              | some g =>
                  simp only [hc,hg] at hb
                  split_ifs at hb with hopen
                  cases hb
                  refine .row _ (.confirm step now g) c (.confirm g) hc
                    (Write.allowed_confirm hg ?_) rfl rfl
                  exact ⟨Option.isNone_iff_eq_none.mp hopen.2.2.1,
                    Option.isNone_iff_eq_none.mp hopen.2.2.2.2⟩
  | disableMfa tenantId userId enrollmentId step now =>
      simp only [resumeCall,ensure_migrated hm]
      cases hb : disableMfa s tenantId userId enrollmentId step now with
      | none => exact .none rfl rfl
      | some t =>
          unfold disableMfa at hb
          cases hc : credentialFor s tenantId userId with
          | none => simp [hc] at hb
          | some c =>
              cases hg : normalizeSessionGeneration c.sessionGeneration with
              | none => simp [hc,hg] at hb
              | some g =>
                  simp only [hc,hg] at hb
                  split_ifs at hb with hopen
                  cases hb
                  exact .row _ (.disable step now g) c (.disable g) hc
                    (Write.allowed_disable hg hopen.1) rfl rfl

/-- The rows to compare are rows that were found. -/
theorem screenLogin_call {r : LoginRequest} {rows : List LoginRow} {call : Call}
    (hcall : (screenLogin P s r rows).call = some call) : ∃ verifiable rest,
      call = .login r (.verifying verifiable rest []) ∧ ∀ row,some row ∈ rest → row ∈ rows := by
  unfold screenLogin at hcall
  generalize hc : (if r.tenantId.isSome ∧ rows.length ≠ 1 then [] else rows) = candidates at hcall
  have hsub : ∀ row ∈ candidates,row ∈ rows := by
    intro row hrow
    rw [← hc] at hrow
    split_ifs at hrow
    · cases hrow
    · exact hrow
  dsimp only at hcall
  generalize hv : (candidates.filter fun row =>
    !isCredentialLocked P (row.credential s) r.now row.user) = verifiable at hcall
  have hmem : ∀ row ∈ verifiable,row ∈ rows := by
    intro row hrow
    rw [← hv] at hrow
    exact hsub row (List.mem_of_mem_filter hrow)
  generalize hrest : (if verifiable = [] then [none] else verifiable.map some) = rest at hcall
  split_ifs at hcall
  all_goals
    cases hcall
  refine ⟨verifiable,rest,rfl,fun row hrow => ?_⟩
  rw [← hrest] at hrow
  split_ifs at hrow
  · simp at hrow
  · obtain ⟨x,hx,rfl⟩ : ∃ x ∈ verifiable,x = row := by simpa using hrow
    exact hmem x hx

/-- The rows a login may still go on with. -/
def rows : LoginPhase → List LoginRow
  | .found rows => rows
  | .verifying _ rest matched => rest.filterMap id++matched.map Match.row
  | .comparing _ row _ rest matched => row.toList++(rest.filterMap id++matched.map Match.row)
  | .hashing row _ _ => [row]
  | .failing _ => []

theorem resumeLogin_rows (hm : Migrated s) {r : LoginRequest} {phase : LoginPhase} {next : Call}
    (h : (resumeLogin P clock s r hash phase).call = some next) :
    ∃ phase',next = .login r phase' ∧ ∀ row ∈ rows phase',row ∈ rows phase := by
  cases phase with
  | found found =>
      obtain ⟨verifiable,rest,rfl,hsub⟩ := screenLogin_call h
      refine ⟨_,rfl,fun row hrow => hsub row ?_⟩
      simpa [rows] using hrow
  | comparing verifiable row passwordHash rest matched =>
      cases h
      refine ⟨_,rfl,fun x hx => ?_⟩
      rcases List.mem_append.mp hx with hx | hx
      · exact List.mem_append_right _ (List.mem_append_left _ hx)
      · obtain ⟨m,hm,rfl⟩ := List.mem_map.mp hx
        cases row with
        | none => exact List.mem_append_right _ (List.mem_append_right _ (List.mem_map_of_mem hm))
        | some row =>
            split at hm
            · rename_i hrow hv
              cases hrow
              split_ifs at hm
              · rcases List.mem_append.mp hm with hm | hm
                · exact List.mem_append_right _ (List.mem_append_right _ (List.mem_map_of_mem hm))
                · cases List.mem_singleton.mp hm
                  exact List.mem_append_left _ (by simp)
              · exact List.mem_append_right _ (List.mem_append_right _ (List.mem_map_of_mem hm))
            · exact List.mem_append_right _ (List.mem_append_right _ (List.mem_map_of_mem hm))
  | hashing row g step =>
      cases (commitLogin_cases P clock hm row r.now (some hash) step g).1.symm.trans h
  | failing rest =>
      cases rest with
      | nil => cases h
      | cons row rest =>
          cases h
          exact ⟨_,rfl,fun x hx => hx⟩
  | verifying verifiable rest matched =>
      cases rest with
      | cons row rest =>
          cases h
          refine ⟨_,rfl,fun x hx => ?_⟩
          cases row with
          | none => simpa [rows] using hx
          | some row => simpa [rows] using hx
      | nil =>
          cases matched with
          | nil =>
              cases h
              exact ⟨_,rfl,fun x hx => by cases hx⟩
          | cons m ms =>
              rw [resumeLogin] at h
              rcases decideLogin_cases P clock r (m::ms) with
                ⟨error,he⟩ | ⟨m',c,step,g,hd,he | he⟩
              · rw [he] at h
                cases h
              · rw [he] at h
                cases h
                refine ⟨_,rfl,fun x hx => ?_⟩
                cases List.mem_singleton.mp hx
                exact List.mem_map_of_mem (chosen_mem hd.chosen)
              · rw [he,(commitLogin_cases P clock hm m'.row r.now none step g).1] at h
                cases h

/-- Only the decision of a login leads to the wait for a new hash. -/
theorem resumeLogin_hashing (hm : Migrated s) {r r' : LoginRequest} {phase : LoginPhase}
    {row : LoginRow} {g : ℕ} {step : Option ℤ}
    (h : (resumeLogin P clock s r hash phase).call = some (.login r' (.hashing row g step))) :
    ∃ verifiable matched m c,phase = .verifying verifiable [] matched ∧
      Decided P s r matched m c step g ∧ m.row = row := by
  cases phase with
  | found found =>
      obtain ⟨verifiable,rest,he,-⟩ := screenLogin_call h
      cases he
  | comparing => cases h
  | hashing row' g' step' =>
      cases (commitLogin_cases P clock hm row' r.now (some hash) step' g').1.symm.trans h
  | failing rest => cases rest <;> cases h
  | verifying verifiable rest matched =>
      cases rest with
      | cons => cases h
      | nil =>
          cases matched with
          | nil => cases h
          | cons m ms =>
              rw [resumeLogin] at h
              rcases decideLogin_cases P clock r (m::ms) with
                ⟨error,he⟩ | ⟨m',c,step',g',hd,he | he⟩
              · rw [he] at h
                cases h
              · rw [he] at h
                cases h
                exact ⟨verifiable,m::ms,m',c,rfl,hd,rfl⟩
              · rw [he,(commitLogin_cases P clock hm m'.row r.now none step' g').1] at h
                cases h

theorem lookup_update {t : Store} {k : Account} {w : Write}
    (hs : t.userCredentials = update (isFor k.1 k.2) w.row s.userCredentials) (a : Account) :
    lookup t a = if a = k then (lookup s a).map w.row else lookup s a := by
  have he : lookup t a = credentialFor (setCredential s k.1 k.2 w.row) a.1 a.2 := by
    simp only [lookup,credentialFor,setCredential,hs]
  rw [he]
  split_ifs with ha
  · rw [ha]
    exact credentialFor_set w.keepsKey
  · exact credentialFor_set_other w.keepsKey fun hk => ha (Prod.ext hk.2 hk.1)

/-- A row stays, or becomes what the call writes. -/
theorem Writes.evolves {call : Call} {o : Outcome} (h : Writes P s hash call o) {a : Account}
    {c : Credential} (hc : lookup s a = some c) : ∃ d,lookup o.store a = some d ∧
      (d = c ∨ ∃ w : Write,Attempts P s hash call a w ∧ w.Allowed c ∧ w.Emits a o.event ∧
        d = w.row c) := by
  cases h with
  | none hs he =>
      refine ⟨c,?_,Or.inl rfl⟩
      rw [← hc]
      simp only [lookup,credentialFor,hs]
  | row k w c' ha hc' hw he hs =>
      rw [lookup_update hs a]
      split_ifs with hk
      · subst hk
        cases hc'.symm.trans hc
        exact ⟨w.row c,by rw [hc]; rfl,Or.inr ⟨w,ha,hw,he,rfl⟩⟩
      · exact ⟨c,hc,Or.inl rfl⟩
  | created k token invite now hcall hk hc' he hs =>
      refine ⟨c,?_,Or.inl rfl⟩
      have hfind : s.userCredentials.find? (isFor a.1 a.2) = some c := hc
      simp only [lookup,credentialFor,hs]
      exact find?_append_of_some hfind

theorem mfaSecret_row (w : Write) (c : Credential) : (w.row c).mfaSecret = c.mfaSecret := by
  cases w <;> rfl

theorem Writes.migrated {call : Call} {o : Outcome} (hm : Migrated s)
    (h : Writes P s hash call o) : Migrated o.store := by
  cases h with
  | none hs he =>
      intro c hc
      rw [hs] at hc
      exact hm c hc
  | row k w c ha hc hw he hs =>
      rw [Migrated,hs]
      refine forall_update hm fun d hd => ?_
      rw [mfaSecret_row]
      exact hm d (List.mem_of_find?_eq_some hd)
  | created k token invite now hcall hk hc he hs =>
      intro c hmem
      rw [hs] at hmem
      rcases List.mem_append.mp hmem with hmem | hmem
      · exact hm c hmem
      · cases List.mem_singleton.mp hmem
        rfl

/-- A new call leaves the credentials. -/
theorem startCall_credentials (P : Platform) (s : Store) (op : Operation) :
    (startCall P s op).store.userCredentials = s.userCredentials := by
  cases op with
  | issueInvite record createdAt =>
      simp only [startCall,createPasswordInvite]
      split
      · rfl
      · rename_i hsome
        split_ifs at hsome
        cases hsome
        rfl
  | login | acceptInvite | requestReset | resetPassword | beginMfa | confirmMfa | disableMfa
  | validate | editUsers | resume =>
      simp only [startCall,readInvite,readResetRequest,readReset,readBeginMfa,readConfirmMfa,
        readDisableMfa]
      repeat' split
      all_goals rfl

/-- Only a login waits again. -/
theorem resumeCall_login {call next : Call} (h : (resumeCall P clock s hash call).call = some next) :
    ∃ r phase,call = .login r phase := by
  cases call with
  | login r phase => exact ⟨r,phase,rfl⟩
  | requestReset => cases h
  | invite | reset | beginMfa | confirmMfa | disableMfa =>
      simp only [resumeCall] at h
      split at h <;> cases h

theorem lookup_congr {t : Store} (h : t.userCredentials = s.userCredentials) (a : Account) :
    lookup t a = lookup s a := by
  simp only [lookup,credentialFor,h]

theorem migrated_congr {t : Store} (hm : Migrated s)
    (h : t.userCredentials = s.userCredentials) : Migrated t := by
  rw [Migrated,h]
  exact hm

end

end AstraNull.CredentialWrites

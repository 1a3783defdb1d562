import Mathlib
import AstraNull.Tables

/-!
# Password accounts of the development store

The tables of credentials, invitations and resets, the repository calls on them and the
service calls that are built from these. A repository call is one atomic step. A service
call is cut at its awaits: what it read stays with it as a call in flight, and a later step
resumes it. A login holds references to credential rows and reads them again each time it
resumes; every other call works on the copy it read.
-/
namespace AstraNull.PasswordAuth
open Tables

abbrev Time := ℤ

/-- Number.MAX_SAFE_INTEGER. -/
def maxSafeInteger : ℕ := 9007199254740991

def isSafeInteger (n : ℤ) : Bool := n.natAbs ≤ maxSafeInteger

inductive UserStatus where
  | invited
  | active
  | other
deriving DecidableEq

structure User where
  id : String
  tenantId : String
  email : String
  status : Option UserStatus
deriving DecidableEq

structure Credential where
  userId : String
  tenantId : String
  passwordHash : String
  passwordUpdatedAt : Option Time
  mustChange : Bool
  failedAttempts : ℕ
  lockedUntil : Option Time
  lastLoginAt : Option Time
  sessionGeneration : Option ℕ
  mfaSecretEnvelope : Option String
  mfaEnrollmentId : Option String
  mfaEnrolledAt : Option Time
  mfaLastStep : Option ℤ
  mfaPendingAt : Option Time
  mfaDisabledAt : Option Time
  /-- The plaintext an early draft stored. -/
  mfaSecret : Option String
deriving DecidableEq

/-- A row of userPasswordInvites or of userPasswordResets. -/
structure TokenRow where
  id : String
  tenantId : String
  userId : String
  tokenHash : String
  expiresAt : Time
  consumedAt : Option Time
deriving DecidableEq

structure Store where
  users : List User
  userCredentials : List Credential
  userPasswordInvites : List TokenRow
  userPasswordResets : List TokenRow
deriving DecidableEq

/-- The text and key functions the services call, and the configuration they run with. -/
structure Platform where
  /-- trim and toLowerCase -/
  foldEmail : String → String
  hashToken : String → String
  verifyPassword : String → String → Bool
  needsRehash : String → Bool
  assessPassword : String → String → Bool
  isDemoPassword : String → Bool
  secretEncryptionKey : Option String
  decryptSecret : String → String → String → String → String → Option String
  verifyTotp : String → String → Time → Option ℤ
  /-- The deployment can mint password sessions. -/
  mintsSessions : Bool

/-- sessionGeneration and normalizeSessionGeneration. -/
def normalizeSessionGeneration (value : Option ℕ) : Option ℕ :=
  let generation := value.getD 1
  if generation ≤ maxSafeInteger ∧ 0 < generation then some generation else none

def isFor (tenantId userId : String) (c : Credential) : Bool :=
  c.userId == userId && c.tenantId == tenantId

def credentialFor (s : Store) (tenantId userId : String) : Option Credential :=
  s.userCredentials.find? (isFor tenantId userId)

def userFor (s : Store) (tenantId userId : String) : Option User :=
  s.users.find? fun u => u.id == userId && u.tenantId == tenantId

/-- The status with the repository's default. -/
def User.statusOrActive (u : User) : UserStatus := u.status.getD .active

def outstanding (tenantId userId : String) (r : TokenRow) : Bool :=
  r.tenantId == tenantId && r.userId == userId && r.consumedAt.isNone

def consume (now : Time) (r : TokenRow) : TokenRow := { r with consumedAt := some now }

def consumeOutstandingCredentials (s : Store) (tenantId userId : String) (now : Time) : Store :=
  { s with
    userPasswordResets := updateAll (outstanding tenantId userId) (consume now)
      s.userPasswordResets
    userPasswordInvites := updateAll (outstanding tenantId userId) (consume now)
      s.userPasswordInvites }

/-- A credential with a plaintext secret loses it and every session with it. -/
def dropPlaintext (clock : Time) (c : Credential) : Credential :=
  if c.mfaSecret.isSome then
    { c with
      mfaSecret := none
      mustChange := true
      sessionGeneration := some ((normalizeSessionGeneration c.sessionGeneration).getD 1+1)
      mfaSecretEnvelope := none
      mfaEnrollmentId := none
      mfaEnrolledAt := none
      mfaLastStep := none
      mfaPendingAt := none
      mfaDisabledAt := some clock }
  else c

def ensurePasswordStore (clock : Time) (s : Store) : Store :=
  (s.userCredentials.filter fun c => c.mfaSecret.isSome).foldl
    (fun s c => consumeOutstandingCredentials s c.tenantId c.userId clock)
    { s with userCredentials := s.userCredentials.map (dropPlaintext clock) }

def setCredential (s : Store) (tenantId userId : String) (f : Credential → Credential) : Store :=
  { s with userCredentials := update (isFor tenantId userId) f s.userCredentials }

section
variable (P : Platform)

/-- A row of findUsersByEmail: the user as read and whether it came with a credential. -/
structure LoginRow where
  user : User
  hasCredential : Bool
deriving DecidableEq

def findUsersByEmail (s : Store) (email : String) (tenantId : Option String) : List LoginRow :=
  (s.users.filter fun u =>
      P.foldEmail u.email == email && tenantId.all fun t => u.tenantId == t).map fun u =>
    ⟨u,(credentialFor s u.tenantId u.id).isSome⟩

/-- The credential of a row, as it is now. -/
def LoginRow.credential (s : Store) (row : LoginRow) : Option Credential :=
  if row.hasCredential then credentialFor s row.user.tenantId row.user.id else none

def failedRow (now : Time) (lockUntil : Option Time) (maxAttempts : ℕ) (c : Credential) :
    Credential :=
  let lockExpired := c.lockedUntil.any fun t => t ≤ now
  let failed := if lockExpired then 1 else c.failedAttempts+1
  { c with
    failedAttempts := failed
    lockedUntil := if maxAttempts ≤ failed then lockUntil else none }

def recordLoginFailure (s : Store) (tenantId userId : String) (now : Time)
    (lockUntil : Option Time) (maxAttempts : ℕ) : Store :=
  setCredential s tenantId userId (failedRow now lockUntil maxAttempts)

/-- The guard of a one-time code: the enrolment is complete and the step is a later one. -/
def mfaStepOpen (c : Credential) (step : ℤ) : Bool :=
  c.mfaEnrolledAt.isSome && c.mfaSecretEnvelope.isSome && isSafeInteger step &&
    c.mfaLastStep.all fun last => last < step

def loggedInRow (now : Time) (passwordHash : Option String) (matchedMfaStep : Option ℤ)
    (expected : ℕ) (c : Credential) : Credential :=
  { c with
    mfaLastStep := matchedMfaStep.or c.mfaLastStep
    failedAttempts := 0
    lockedUntil := none
    lastLoginAt := some now
    passwordHash := passwordHash.getD c.passwordHash
    passwordUpdatedAt := if passwordHash.isSome then some now else c.passwordUpdatedAt
    sessionGeneration := if passwordHash.isSome then some (expected+1)
      else c.sessionGeneration }

/-- The final commit of a login, with its compare-and-set on the generation. -/
def completeLogin (s : Store) (tenantId userId : String) (now : Time)
    (passwordHash : Option String) (matchedMfaStep : Option ℤ) (expected : ℕ) : Option Store :=
  match credentialFor s tenantId userId with
  | none => none
  | some c =>
      if normalizeSessionGeneration c.sessionGeneration ≠ some expected then none
      else if matchedMfaStep.all (mfaStepOpen c) = false then none
      else
        let committed := setCredential s tenantId userId
          (loggedInRow now passwordHash matchedMfaStep expected)
        some <| if passwordHash.isSome then
            consumeOutstandingCredentials committed tenantId userId now
          else committed

def newCredential (tenantId userId passwordHash : String) (now : Time) : Credential where
  userId := userId
  tenantId := tenantId
  passwordHash := passwordHash
  passwordUpdatedAt := some now
  mustChange := false
  failedAttempts := 0
  lockedUntil := none
  lastLoginAt := none
  sessionGeneration := some 1
  mfaSecretEnvelope := none
  mfaEnrollmentId := none
  mfaEnrolledAt := none
  mfaLastStep := none
  mfaPendingAt := none
  mfaDisabledAt := none
  mfaSecret := none

/-- The assignment of a new password under a new generation. -/
def replacePassword (passwordHash : String) (now : Time) (generation : ℕ) (c : Credential) :
    Credential :=
  { c with
    passwordHash := passwordHash
    passwordUpdatedAt := some now
    mustChange := false
    failedAttempts := 0
    lockedUntil := none
    sessionGeneration := some (generation+1) }

def activate (s : Store) (tenantId userId : String) : Store :=
  { s with
    users := update (fun u => u.id == userId && u.tenantId == tenantId)
      (fun u => { u with status := some .active }) s.users }

/-- The stored row that a call's copy of it names. -/
def storedRow (rows : List TokenRow) (copy : TokenRow) (tokenHash : String) : Option TokenRow :=
  rows.find? fun r => r.id == copy.id && r.tenantId == copy.tenantId &&
    r.userId == copy.userId && r.tokenHash == tokenHash

def setPasswordFromInvite (s : Store) (invite : TokenRow) (passwordHash tokenHash : String)
    (now : Time) : Except String Store :=
  match storedRow s.userPasswordInvites invite tokenHash with
  | none => .error "invalid_invite"
  | some stored =>
      if stored.consumedAt.isSome then .error "invalid_invite"
      else if stored.expiresAt ≤ now then .error "invite_expired"
      else match userFor s stored.tenantId stored.userId with
        | none => .error "invalid_invite"
        | some user =>
            if user.statusOrActive = .other then .error "invalid_invite"
            else
              let written := match credentialFor s user.tenantId user.id with
                | some existing =>
                    (normalizeSessionGeneration existing.sessionGeneration).map fun g =>
                      setCredential s user.tenantId user.id (replacePassword passwordHash now g)
                | none => some { s with userCredentials := s.userCredentials++
                    [newCredential user.tenantId user.id passwordHash now] }
              match written with
              | none => .error "invalid_invite"
              | some s => .ok (activate
                  (consumeOutstandingCredentials s user.tenantId user.id now)
                  user.tenantId user.id)

/-- A row of a new token closes the open ones of its user. -/
def addTokenRow (rows : List TokenRow) (record : TokenRow) (createdAt : Time) : List TokenRow :=
  updateAll (outstanding record.tenantId record.userId) (consume createdAt) rows++[record]

def createPasswordInvite (s : Store) (record : TokenRow) (createdAt : Time) : Option Store :=
  if (userFor s record.tenantId record.userId).isSome then
    some { s with
      userPasswordInvites := addTokenRow s.userPasswordInvites record createdAt }
  else none

def createPasswordReset (s : Store) (record : TokenRow) (createdAt : Time) : Store :=
  { s with userPasswordResets := addTokenRow s.userPasswordResets record createdAt }

def resetRow (passwordHash : String) (now : Time) (expected : ℕ) (matchedMfaStep : Option ℤ)
    (c : Credential) : Credential :=
  { replacePassword passwordHash now expected c with
    mfaLastStep := matchedMfaStep.or c.mfaLastStep }

def consumePasswordReset (s : Store) (reset : TokenRow) (passwordHash tokenHash : String)
    (now : Time) (expected : ℕ) (matchedMfaStep : Option ℤ) (mfaEnrollmentId : Option String) :
    Except String Store :=
  match storedRow s.userPasswordResets reset tokenHash with
  | none => .error "invalid_reset_token"
  | some stored =>
      if stored.consumedAt.isSome then .error "invalid_reset_token"
      else if stored.expiresAt ≤ now then .error "reset_token_expired"
      else match userFor s stored.tenantId stored.userId with
        | none => .error "invalid_reset_token"
        | some user =>
            if user.statusOrActive ≠ .active then .error "invalid_reset_token"
            else match credentialFor s user.tenantId user.id with
              | none => .error "invalid_reset_token"
              | some c =>
                  if normalizeSessionGeneration c.sessionGeneration ≠ some expected then
                    .error "invalid_reset_token"
                  else if matchedMfaStep.isNone ∧ c.mfaEnrolledAt.isSome then
                    .error "invalid_reset_token"
                  else if matchedMfaStep.all (fun step =>
                      mfaStepOpen c step && c.mfaEnrollmentId == mfaEnrollmentId) = false then
                    .error "mfa_invalid"
                  else
                    let written := setCredential s user.tenantId user.id
                      (resetRow passwordHash now expected matchedMfaStep)
                    .ok (consumeOutstandingCredentials written user.tenantId user.id now)

def enrollmentFree (c : Credential) : Bool :=
  c.mfaSecretEnvelope.isNone && c.mfaEnrollmentId.isNone && c.mfaEnrolledAt.isNone &&
    c.mfaPendingAt.isNone

def enrollingRow (envelope enrollmentId : String) (now : Time) (c : Credential) : Credential :=
  { c with
    mfaSecretEnvelope := some envelope
    mfaEnrollmentId := some enrollmentId
    mfaPendingAt := some now
    mfaDisabledAt := none }

def beginMfaEnrollment (s : Store) (tenantId userId envelope enrollmentId : String)
    (now : Time) : Option Store :=
  match credentialFor s tenantId userId with
  | none => none
  | some c =>
      if enrollmentFree c then
        some (setCredential s tenantId userId (enrollingRow envelope enrollmentId now))
      else none

def enrolledRow (matchedStep : ℤ) (now : Time) (generation : ℕ) (c : Credential) : Credential :=
  { c with
    mfaEnrolledAt := some now
    mfaLastStep := some matchedStep
    mfaPendingAt := none
    sessionGeneration := some (generation+1) }

def confirmMfaEnrollment (s : Store) (tenantId userId : String) (enrollmentId : Option String)
    (matchedStep : ℤ) (now : Time) : Option Store :=
  match credentialFor s tenantId userId with
  | none => none
  | some c =>
      match normalizeSessionGeneration c.sessionGeneration with
      | none => none
      | some generation =>
          if c.mfaSecretEnvelope.isSome ∧ c.mfaEnrollmentId = enrollmentId ∧
              c.mfaEnrolledAt.isNone ∧ c.mfaPendingAt.isSome ∧ c.mfaLastStep.isNone then
            some (consumeOutstandingCredentials
              (setCredential s tenantId userId (enrolledRow matchedStep now generation))
              tenantId userId now)
          else none

def disabledRow (now : Time) (generation : ℕ) (c : Credential) : Credential :=
  { c with
    mfaSecretEnvelope := none
    mfaEnrollmentId := none
    mfaEnrolledAt := none
    mfaLastStep := none
    mfaPendingAt := none
    mfaDisabledAt := some now
    sessionGeneration := some (generation+1) }

def disableMfa (s : Store) (tenantId userId : String) (enrollmentId : Option String)
    (matchedStep : ℤ) (now : Time) : Option Store :=
  match credentialFor s tenantId userId with
  | none => none
  | some c =>
      match normalizeSessionGeneration c.sessionGeneration with
      | none => none
      | some generation =>
          if mfaStepOpen c matchedStep = true ∧ c.mfaEnrollmentId = enrollmentId then
            some (consumeOutstandingCredentials
              (setCredential s tenantId userId (disabledRow now generation))
              tenantId userId now)
          else none

/-- findCredential: the generation is the usable one, or null. -/
structure CredentialView where
  credential : Credential
  sessionGeneration : Option ℕ
  userStatus : UserStatus
  email : String

def findCredential (s : Store) (tenantId userId : String) : Option CredentialView :=
  match userFor s tenantId userId with
  | none => none
  | some user =>
      (credentialFor s tenantId userId).map fun c =>
        ⟨c,normalizeSessionGeneration c.sessionGeneration,user.statusOrActive,user.email⟩

def validatePasswordSession (s : Store) (tenantId userId : String)
    (sessionGeneration : Option ℕ) : Bool :=
  match normalizeSessionGeneration sessionGeneration with
  | none => false
  | some generation =>
      match findCredential s tenantId userId with
      | none => false
      | some view =>
          view.userStatus = .active ∧
            normalizeSessionGeneration view.sessionGeneration = some generation

def demoAccountTenantId : String := "Astra-D1TrtI4HMTSrwKRW-9"

def demoAdminEmail : String := "admin@demo.astranull.local"

def demoAccountPassword : String := "Astra-D1TrtI4HMTSrwKRW-9"

def dummyPasswordHash : String :=
  "scrypt$N=16384,r=8,p=1$MDEyMzQ1Njc4OWFiY2RlZg$VQ8aAxKFdgf274iBLzQxsBdq3Vseaw0jbGHTiToLo3g"

def lockoutAttempts : ℕ := 5

def lockoutMs : ℤ := 15*60000

def isDemoLoginUser (u : User) : Bool :=
  u.tenantId == demoAccountTenantId && P.foldEmail u.email == demoAdminEmail

def isCredentialLocked (c : Option Credential) (now : Time) (u : User) : Bool :=
  !isDemoLoginUser P u && c.any fun c => c.lockedUntil.any fun t => now < t

/-- A login request after normalizeLoginBody, with the answers of the two rate limiters. -/
structure LoginRequest where
  email : String
  password : String
  cleanPassword : String
  tenantId : Option String
  totp : String
  now : Time
  clientAllowed : Bool
  emailAllowed : Bool

structure Verified where
  password : String
  repairHash : Bool

/-- A row whose password was verified. -/
structure Match where
  row : LoginRow
  verified : Verified

inductive LoginPhase where
  | found (rows : List LoginRow)
  | verifying (verifiable : List LoginRow) (rest : List (Option LoginRow)) (matched : List Match)
  | comparing (verifiable : List LoginRow) (row : Option LoginRow) (passwordHash : String)
      (rest : List (Option LoginRow)) (matched : List Match)
  | hashing (row : LoginRow) (generation : ℕ) (matchedMfaStep : Option ℤ)
  | failing (rest : List LoginRow)

/-- A service call that waits at one of its awaits. -/
inductive Call where
  | login (request : LoginRequest) (phase : LoginPhase)
  | invite (token : String) (invite : TokenRow) (now : Time)
  | requestReset (record : TokenRow) (createdAt : Time)
  | reset (token : String) (reset : TokenRow) (now : Time) (expected : ℕ)
      (matchedMfaStep : Option ℤ) (mfaEnrollmentId : Option String)
  | beginMfa (tenantId userId envelope enrollmentId : String) (now : Time)
  | confirmMfa (tenantId userId : String) (enrollmentId : Option String) (matchedStep : ℤ)
      (now : Time)
  | disableMfa (tenantId userId : String) (enrollmentId : Option String) (matchedStep : ℤ)
      (now : Time)

inductive Event where
  /-- A login answered with a token of this generation. -/
  | loggedIn (tenantId userId : String) (generation : ℕ)
  | passwordSet (tenantId userId token : String)
  | passwordReset (tenantId userId token : String)
  | mfaEnabled (tenantId userId : String)
  | mfaDisabled (tenantId userId : String)
  | validated (tenantId userId : String) (generation : Option ℕ) (valid : Bool)
  | refused (error : String)
  | quiet
deriving DecidableEq

/-- What a resumed call leaves: the store, the call if it waits again, and the event. -/
structure Outcome where
  store : Store
  call : Option Call
  event : Event

def Outcome.refuse (s : Store) (error : String) : Outcome := ⟨s,none,.refused error⟩

def Outcome.wait (s : Store) (call : Call) : Outcome := ⟨s,some call,.quiet⟩

/-- decryptCredentialMfaSecret -/
def mfaSecretOf (tenantId userId : String) (envelope enrollmentId : Option String) :
    Option String := do
  let key ← P.secretEncryptionKey
  let envelope ← envelope
  let enrollmentId ← enrollmentId
  P.decryptSecret key envelope tenantId userId enrollmentId

/-- The one-time code of a login or a reset. -/
def matchMfaStep (unavailable tenantId userId : String) (c : Credential) (totp : String)
    (now : Time) : Except String (Option ℤ) :=
  if c.mfaEnrolledAt.isNone then .ok none
  else match mfaSecretOf P tenantId userId c.mfaSecretEnvelope c.mfaEnrollmentId with
    | none => .error unavailable
    | some secret =>
        match P.verifyTotp secret totp now with
        | none => .error (if totp = "" then "mfa_required" else "mfa_invalid")
        | some step =>
            if c.mfaLastStep.all fun last => last < step then .ok (some step)
            else .error "mfa_invalid"

/-- The part of a login between the read of the users and the password checks. -/
def screenLogin (s : Store) (r : LoginRequest) (users : List LoginRow) : Outcome :=
  let candidates := if r.tenantId.isSome ∧ users.length ≠ 1 then [] else users
  let isDemoAttempt := candidates.length = 1 ∧
    candidates.all fun row => isDemoLoginUser P row.user
  let locked := candidates.filter fun row =>
    isCredentialLocked P (row.credential s) r.now row.user
  let verifiable := candidates.filter fun row =>
    !isCredentialLocked P (row.credential s) r.now row.user
  if r.email = demoAdminEmail ∧ ¬ isDemoAttempt ∧ r.clientAllowed = false then
    .refuse s "rate_limited"
  else if candidates ≠ [] ∧ locked.length = candidates.length then .refuse s "account_locked"
  else if ¬ isDemoAttempt ∧ r.emailAllowed = false then .refuse s "rate_limited"
  else .wait s (.login r (.verifying verifiable
    (if verifiable = [] then [none] else verifiable.map some) []))

/-- What a row's password check found, with the hash read before the check. -/
def verifyRow (s : Store) (r : LoginRequest) (row : Option LoginRow) (passwordHash : String) :
    Option Verified :=
  if P.verifyPassword r.password passwordHash then some ⟨r.password,false⟩
  else if r.cleanPassword ≠ "" ∧ r.cleanPassword ≠ r.password ∧
      P.verifyPassword r.cleanPassword passwordHash = true then some ⟨r.cleanPassword,false⟩
  else match row with
    | none => none
    | some row =>
        if isDemoLoginUser P row.user ∧ P.isDemoPassword
            (if r.cleanPassword ≠ "" then r.cleanPassword else r.password) = true then
          some ⟨demoAccountPassword,match row.credential s with
            | none => true
            | some c => !P.verifyPassword demoAccountPassword c.passwordHash⟩
        else none

/-- Mint, then commit. A failed commit discards the token. -/
def commitLogin (clock : Time) (s : Store) (row : LoginRow) (now : Time)
    (replacementHash : Option String) (matchedMfaStep : Option ℤ) (generation : ℕ) : Outcome :=
  let minted := generation+(if replacementHash.isSome then 1 else 0)
  if maxSafeInteger < minted ∨ P.mintsSessions = false then
    .refuse s "password_login_unavailable"
  else
    let s := ensurePasswordStore clock s
    match completeLogin s row.user.tenantId row.user.id now replacementHash matchedMfaStep
        generation with
    | none => .refuse s (if matchedMfaStep.isNone then "invalid_credentials" else "mfa_invalid")
    | some s => ⟨s,none,.loggedIn row.user.tenantId row.user.id minted⟩

/-- The part of a login after the password checks. -/
def decideLogin (clock : Time) (s : Store) (r : LoginRequest) (matched : List Match) : Outcome :=
  let active := matched.filter fun m => m.row.user.status = some .active
  if 1 < active.length then .refuse s "tenant_required"
  else match active.head?.or matched.head? with
    | none => .refuse s "invalid_credentials"
    | some m =>
        let user := m.row.user
        if user.status = some .invited then .refuse s "password_setup_required"
        else if user.status ≠ some .active then .refuse s "account_disabled"
        else match m.row.credential s with
          | none => .refuse s "invalid_credentials"
          | some c =>
              let isDemo := isDemoLoginUser P user
              if isDemo = false ∧ c.mustChange then .refuse s "password_change_required"
              else match (if isDemo then .ok none else matchMfaStep P
                  "password_login_unavailable" user.tenantId user.id c r.totp r.now) with
                | .error error => .refuse s error
                | .ok step =>
                    match normalizeSessionGeneration c.sessionGeneration with
                    | none => .refuse s "password_login_unavailable"
                    | some generation =>
                        if P.needsRehash c.passwordHash ∨ (isDemo ∧ m.verified.repairHash) then
                          .wait s (.login r (.hashing m.row generation step))
                        else commitLogin P clock s m.row r.now none step generation

def resumeLogin (clock : Time) (s : Store) (r : LoginRequest) (hash : String) :
    LoginPhase → Outcome
  | .found rows => screenLogin P s r rows
  | .verifying verifiable [] [] => .wait s (.login r (.failing verifiable))
  | .verifying _ [] (m::ms) => decideLogin P clock s r (m::ms)
  | .verifying verifiable (row::rest) matched =>
      let hash := match row.bind (LoginRow.credential s) with
        | none => dummyPasswordHash
        | some c => c.passwordHash
      .wait s (.login r (.comparing verifiable row hash rest matched))
  | .comparing verifiable row passwordHash rest matched =>
      let matched := match row,verifyRow P s r row passwordHash with
        | some row,some verified =>
            if row.hasCredential then matched++[⟨row,verified⟩] else matched
        | _,_ => matched
      .wait s (.login r (.verifying verifiable rest matched))
  | .hashing row generation step => commitLogin P clock s row r.now (some hash) step generation
  | .failing [] => .refuse s "invalid_credentials"
  | .failing (row::rest) =>
      let s := ensurePasswordStore clock s
      let isDemo := isDemoLoginUser P row.user
      .wait (if row.hasCredential then
          recordLoginFailure s row.user.tenantId row.user.id r.now
            (if isDemo then none else some (r.now+lockoutMs))
            (if isDemo then 999999 else lockoutAttempts)
        else s) (.login r (.failing rest))

def resumeCall (clock : Time) (s : Store) (hash : String) : Call → Outcome
  | .login r phase => resumeLogin P clock s r hash phase
  | .invite token invite now =>
      let s := ensurePasswordStore clock s
      match setPasswordFromInvite s invite hash (P.hashToken token) now with
      | .error error => .refuse s error
      | .ok s => ⟨s,none,.passwordSet invite.tenantId invite.userId token⟩
  | .requestReset record createdAt =>
      ⟨createPasswordReset s record createdAt,none,.quiet⟩
  | .reset token reset now expected step enrollmentId =>
      let s := ensurePasswordStore clock s
      match consumePasswordReset s reset hash (P.hashToken token) now expected step
          enrollmentId with
      | .error error => .refuse s error
      | .ok s => ⟨s,none,.passwordReset reset.tenantId reset.userId token⟩
  | .beginMfa tenantId userId envelope enrollmentId now =>
      let s := ensurePasswordStore clock s
      match beginMfaEnrollment s tenantId userId envelope enrollmentId now with
      | none => .refuse s "mfa_enrollment_in_progress"
      | some s => ⟨s,none,.quiet⟩
  | .confirmMfa tenantId userId enrollmentId matchedStep now =>
      let s := ensurePasswordStore clock s
      match confirmMfaEnrollment s tenantId userId enrollmentId matchedStep now with
      | none => .refuse s "mfa_enrollment_changed"
      | some s => ⟨s,none,.mfaEnabled tenantId userId⟩
  | .disableMfa tenantId userId enrollmentId matchedStep now =>
      let s := ensurePasswordStore clock s
      match disableMfa s tenantId userId enrollmentId matchedStep now with
      | none => .refuse s "mfa_invalid"
      | some s => ⟨s,none,.mfaDisabled tenantId userId⟩

/-- The first part of setPasswordWithInvite. -/
def readInvite (s : Store) (token password : String) (now : Time) : Outcome :=
  match s.userPasswordInvites.find? fun r => r.tokenHash == P.hashToken token with
  | none => .refuse s "invalid_invite"
  | some invite =>
      match userFor s invite.tenantId invite.userId with
      | none => .refuse s "invalid_invite"
      | some user =>
          if invite.consumedAt.isSome ∨ user.statusOrActive = .other then
            .refuse s "invalid_invite"
          else if invite.expiresAt ≤ now then .refuse s "invite_expired"
          else if P.assessPassword password user.email = false then .refuse s "weak_password"
          else .wait s (.invite token invite now)

/-- The first part of resetPasswordWithToken. -/
def readReset (s : Store) (token password totp : String) (now : Time) : Outcome :=
  match s.userPasswordResets.find? fun r => r.tokenHash == P.hashToken token with
  | none => .refuse s "invalid_reset_token"
  | some reset =>
      match userFor s reset.tenantId reset.userId with
      | none => .refuse s "invalid_reset_token"
      | some user =>
          match credentialFor s user.tenantId user.id with
          | none => .refuse s "invalid_reset_token"
          | some c =>
              if reset.consumedAt.isSome ∨ user.statusOrActive ≠ .active then
                .refuse s "invalid_reset_token"
              else if reset.expiresAt ≤ now then .refuse s "reset_token_expired"
              -- the read hands out null for an unusable generation, which counts as 1 here
              else match normalizeSessionGeneration
                  (normalizeSessionGeneration c.sessionGeneration) with
                | none => .refuse s "password_login_unavailable"
                | some generation =>
                    match matchMfaStep P "mfa_unavailable" reset.tenantId reset.userId c totp
                        now with
                    | .error error => .refuse s error
                    | .ok step =>
                        if P.assessPassword password user.email = false then
                          .refuse s "weak_password"
                        else .wait s (.reset token reset now generation step c.mfaEnrollmentId)

/-- requestPasswordReset up to the enqueue of the message. -/
def readResetRequest (s : Store) (email : String) (record : TokenRow) (createdAt : Time) :
    Outcome :=
  match findUsersByEmail P s email none with
  | [row] =>
      if row.user.status = some .active ∧ row.hasCredential then
        .wait s (.requestReset { record with
          tenantId := row.user.tenantId
          userId := row.user.id
          consumedAt := none } createdAt)
      else ⟨s,none,.quiet⟩
  | _ => ⟨s,none,.quiet⟩

def readBeginMfa (s : Store) (tenantId userId envelope enrollmentId : String) (now : Time) :
    Outcome :=
  match findCredential s tenantId userId with
  | none => .refuse s "credential_required"
  | some view =>
      if view.credential.mfaEnrolledAt.isSome then .refuse s "mfa_already_enrolled"
      else if enrollmentFree view.credential = false then
        .refuse s "mfa_enrollment_in_progress"
      else if P.secretEncryptionKey.isNone then .refuse s "mfa_unavailable"
      else .wait s (.beginMfa tenantId userId envelope enrollmentId now)

def readConfirmMfa (s : Store) (tenantId userId code : String) (now : Time) : Outcome :=
  match findCredential s tenantId userId with
  | none => .refuse s "mfa_enrollment_not_started"
  | some view =>
      let c := view.credential
      if c.mfaEnrolledAt.isSome then .refuse s "mfa_already_enrolled"
      else if c.mfaSecretEnvelope.isNone ∨ c.mfaEnrollmentId.isNone ∨ c.mfaPendingAt.isNone then
        .refuse s "mfa_enrollment_not_started"
      else match mfaSecretOf P tenantId userId c.mfaSecretEnvelope c.mfaEnrollmentId with
        | none => .refuse s "mfa_unavailable"
        | some secret =>
            match P.verifyTotp secret code now with
            | none => .refuse s "mfa_invalid"
            | some step => .wait s (.confirmMfa tenantId userId c.mfaEnrollmentId step now)

def readDisableMfa (s : Store) (tenantId userId code : String) (now : Time) : Outcome :=
  match findCredential s tenantId userId with
  | none => .refuse s "mfa_not_enrolled"
  | some view =>
      let c := view.credential
      if c.mfaEnrolledAt.isNone ∨ c.mfaSecretEnvelope.isNone ∨ c.mfaEnrollmentId.isNone then
        .refuse s "mfa_not_enrolled"
      else match mfaSecretOf P tenantId userId c.mfaSecretEnvelope c.mfaEnrollmentId with
        | none => .refuse s "mfa_unavailable"
        | some secret =>
            match P.verifyTotp secret code now with
            | none => .refuse s "mfa_invalid"
            | some step =>
                if c.mfaLastStep.all fun last => last < step then
                  .wait s (.disableMfa tenantId userId c.mfaEnrollmentId step now)
                else .refuse s "mfa_invalid"

structure State where
  store : Store
  calls : List Call

inductive Operation where
  | login (request : LoginRequest)
  | issueInvite (record : TokenRow) (createdAt : Time)
  | acceptInvite (token password : String) (now : Time)
  | requestReset (email : String) (record : TokenRow) (createdAt : Time)
  | resetPassword (token password totp : String) (now : Time)
  | beginMfa (tenantId userId envelope enrollmentId : String) (now : Time)
  | confirmMfa (tenantId userId code : String) (now : Time)
  | disableMfa (tenantId userId code : String) (now : Time)
  | validate (tenantId userId : String) (generation : Option ℕ)
  /-- Another service edits the users. -/
  | editUsers (users : List User)
  /-- A waiting call goes on, with the hash it may have waited for. -/
  | resume (index : ℕ) (hash : String)

/-- A new call runs up to its first await. -/
def startCall (s : Store) : Operation → Outcome
  | .login r =>
      if r.email ≠ demoAdminEmail ∧ r.clientAllowed = false then .refuse s "rate_limited"
      else .wait s (.login r (.found (findUsersByEmail P s r.email r.tenantId)))
  | .issueInvite record createdAt =>
      match createPasswordInvite s { record with consumedAt := none } createdAt with
      | none => .refuse s "password invite user not found in tenant"
      | some s => ⟨s,none,.quiet⟩
  | .acceptInvite token password now => readInvite P s token password now
  | .requestReset email record createdAt => readResetRequest P s email record createdAt
  | .resetPassword token password totp now => readReset P s token password totp now
  | .beginMfa tenantId userId envelope enrollmentId now =>
      readBeginMfa P s tenantId userId envelope enrollmentId now
  | .confirmMfa tenantId userId code now => readConfirmMfa P s tenantId userId code now
  | .disableMfa tenantId userId code now => readDisableMfa P s tenantId userId code now
  | .validate tenantId userId generation =>
      ⟨s,none,.validated tenantId userId generation
        (validatePasswordSession s tenantId userId generation)⟩
  | .editUsers _ => ⟨s,none,.quiet⟩
  | .resume _ _ => ⟨s,none,.quiet⟩

def State.after (calls : List Call) (o : Outcome) : State × Event :=
  (⟨o.store,o.call.toList++calls⟩,o.event)

def step (clock : Time) (s : State) : Operation → State × Event
  | .resume index hash =>
      match s.calls[index]? with
      | none => (s,.quiet)
      | some call => State.after (s.calls.eraseIdx index) (resumeCall P clock s.store hash call)
  | .editUsers users => ({ s with store := { s.store with users := users } },.quiet)
  | op => State.after s.calls (startCall P (ensurePasswordStore clock s.store) op)

end

end AstraNull.PasswordAuth

import Mathlib
import AstraNull.Runs
import AstraNull.PasswordAuth
import AstraNull.SessionRevocation
import AstraNull.CredentialWrites

/-!
# The password a login proves

A login reads the hash of an account, waits for the comparison, and only then reads the
generation that its commit is checked against. A password that is replaced during the
comparison is not noticed: the generation that is read afterwards is the new one. Apart from
that window the commit proves the password that is stored.
-/
namespace AstraNull.LoginPasswords
open Tables PasswordAuth SessionRevocation CredentialWrites Runs

/-- The request's password, or its form without a label, matches the hash. -/
def presents (P : Platform) (r : LoginRequest) (passwordHash : String) : Bool :=
  P.verifyPassword r.password passwordHash ||
    decide (r.cleanPassword ≠ "" ∧ r.cleanPassword ≠ r.password) &&
      P.verifyPassword r.cleanPassword passwordHash

/-- The login is one of the demo account. -/
def demoLogin (k : Account) (r : LoginRequest) : Bool :=
  k.1 == demoAccountTenantId && r.email == demoAdminEmail

/-- The account whose password the waiting call is about to replace. -/
def rewrites : Call → Option Account
  | .login _ (.hashing row _ _) => some (account row)
  | .invite _ invite _ => some (invite.tenantId,invite.userId)
  | .reset _ reset _ _ _ _ => some (reset.tenantId,reset.userId)
  | _ => none

/-- The login has read a hash of the account that its password matches, and not yet the
generation. -/
def holds (P : Platform) (k : Account) : Call → Prop
  | .login _ (.verifying _ _ matched) => ∃ m ∈ matched,account m.row = k
  | .login r (.comparing _ row passwordHash _ matched) =>
      (∃ m ∈ matched,account m.row = k) ∨
        (row.map account = some k ∧ presents P r passwordHash = true)
  | _ => False

/-- A password is replaced only while no other login holds the old one. -/
def Undisturbed (P : Platform) (s : State) (op : Operation) : Prop :=
  ∀ index hash call k,op = .resume index hash → s.calls[index]? = some call →
    rewrites call = some k → ∀ other ∈ s.calls.eraseIdx index,¬ holds P k other

inductive Step (P : Platform) (s : State) (e : Event) (t : State) : Prop
  | mk (clock : Time) (op : Operation) (hstep : step P clock s op = (t,e))
      (hquiet : Undisturbed P s op)

/-- Where a login answers with a token, its password is the stored one. -/
def ProvesPassword (P : Platform) (R : State → Event → State → Prop) (s : State) : Prop :=
  ∀ h a,Run R s h a → ∀ clock index hash r phase t tenantId userId g,
    a.calls[index]? = some (.login r phase) →
    step P clock a (.resume index hash) = (t,.loggedIn tenantId userId g) →
    demoLogin (tenantId,userId) r = false →
    ∃ c,credentialFor a.store tenantId userId = some c ∧ presents P r c.passwordHash = true

section
variable (P : Platform) (s : Store) (r : LoginRequest)

structure RowOk (row : LoginRow) : Prop where
  email : P.foldEmail row.user.email = r.email
  stored : row.hasCredential = true → ∃ c,lookup s (account row) = some c

structure MatchOk (m : Match) : Prop where
  known : RowOk P s r m.row
  proven : demoLogin (account m.row) r = false →
    ∃ c,lookup s (account m.row) = some c ∧ presents P r c.passwordHash = true

/-- The hash being compared is the stored one, if it matches. -/
structure ReadOk (row : LoginRow) (passwordHash : String) : Prop where
  known : RowOk P s r row
  current : row.hasCredential = true → presents P r passwordHash = true →
    ∃ c,lookup s (account row) = some c ∧ c.passwordHash = passwordHash

/-- At the generation it was read with, the stored hash is proven. -/
def DecidedOk (row : LoginRow) (g : ℕ) : Prop :=
  demoLogin (account row) r = false → ∃ c,lookup s (account row) = some c ∧
    g ≤ rowGeneration c ∧ (rowGeneration c = g → presents P r c.passwordHash = true)

def LoginOk : LoginPhase → Prop
  | .found rows => ∀ row ∈ rows,RowOk P s r row
  | .verifying _ rest matched =>
      (∀ row,some row ∈ rest → RowOk P s r row) ∧ ∀ m ∈ matched,MatchOk P s r m
  | .comparing _ row passwordHash rest matched =>
      (∀ x,row = some x → ReadOk P s r x passwordHash) ∧
      (∀ row,some row ∈ rest → RowOk P s r row) ∧ ∀ m ∈ matched,MatchOk P s r m
  | .hashing row g _ => DecidedOk P s r row g
  | .failing _ => True

end

def CallOk (P : Platform) (s : Store) : Call → Prop
  | .login r phase => LoginOk P s r phase
  | _ => True

section
variable {P : Platform} {s t : Store} {r : LoginRequest} {clock : Time}

theorem RowOk.demo {row : LoginRow} (h : RowOk P s r row) :
    isDemoLoginUser P row.user = demoLogin (account row) r := by
  simp only [isDemoLoginUser,demoLogin,account,h.email]

/-- A password that is accepted for another than the demo account matches its hash. -/
theorem presents_of_verifyRow {row : LoginRow} {passwordHash : String} {v : Verified}
    (h : verifyRow P s r (some row) passwordHash = some v)
    (hd : isDemoLoginUser P row.user = false) : presents P r passwordHash = true := by
  simp only [verifyRow,hd,Bool.false_eq_true,false_and,if_false] at h
  simp only [presents,Bool.or_eq_true,Bool.and_eq_true,decide_eq_true_eq]
  split_ifs at h with hfull hclean
  · exact Or.inl hfull
  · exact Or.inr ⟨⟨hclean.1,hclean.2.1⟩,hclean.2.2⟩

/-- Rows stay; a password other than one that is held may change, under a new generation. -/
structure Drifts (P : Platform) (s t : Store) (call : Call) : Prop where
  row : ∀ k c,lookup s k = some c → ∃ d,lookup t k = some d ∧
    rowGeneration c ≤ rowGeneration d ∧
    (rowGeneration d = rowGeneration c → d.passwordHash = c.passwordHash) ∧
    (holds P k call → d.passwordHash = c.passwordHash)

theorem RowOk.drifts {call : Call} (hd : Drifts P s t call) {row : LoginRow}
    (h : RowOk P s r row) : RowOk P t r row := by
  refine ⟨h.email,fun hh => ?_⟩
  obtain ⟨c,hc⟩ := h.stored hh
  obtain ⟨d,hd',-⟩ := hd.row _ c hc
  exact ⟨d,hd'⟩

theorem MatchOk.drifts {call : Call} (hd : Drifts P s t call) {m : Match} (h : MatchOk P s r m)
    (hheld : holds P (account m.row) call) : MatchOk P t r m := by
  refine ⟨h.known.drifts hd,fun hdemo => ?_⟩
  obtain ⟨c,hc,hp⟩ := h.proven hdemo
  obtain ⟨d,hd',-,-,hsame⟩ := hd.row _ c hc
  exact ⟨d,hd',by rw [hsame hheld]; exact hp⟩

theorem CallOk.drifts {call : Call} (h : CallOk P s call) (hd : Drifts P s t call) :
    CallOk P t call := by
  cases call with
  | invite | requestReset | reset | beginMfa | confirmMfa | disableMfa => trivial
  | login r phase =>
      cases phase with
      | found rows => exact fun row hrow => (h row hrow).drifts hd
      | failing rest => trivial
      | verifying verifiable rest matched =>
          exact ⟨fun row hrow => (h.1 row hrow).drifts hd,
            fun m hm => (h.2 m hm).drifts hd ⟨m,hm,rfl⟩⟩
      | comparing verifiable row passwordHash rest matched =>
          refine ⟨fun x hx => ?_,fun row hrow => (h.2.1 row hrow).drifts hd,
            fun m hm => (h.2.2 m hm).drifts hd (Or.inl ⟨m,hm,rfl⟩)⟩
          have hread := h.1 x hx
          refine ⟨hread.known.drifts hd,fun hh hp => ?_⟩
          obtain ⟨c,hc,hsame⟩ := hread.current hh hp
          obtain ⟨d,hd',-,-,hkeep⟩ := hd.row _ c hc
          exact ⟨d,hd',(hkeep (Or.inr ⟨by rw [hx,Option.map_some],hp⟩)).trans hsame⟩
      | hashing row g step =>
          intro hdemo
          obtain ⟨c,hc,hle,hp⟩ := h hdemo
          obtain ⟨d,hd',hgen,hsame,-⟩ := hd.row _ c hc
          refine ⟨d,hd',hle.trans hgen,fun hg => ?_⟩
          have hgc : rowGeneration c = g := le_antisymm (hg ▸ hgen) hle
          rw [hsame (hg.trans hgc.symm)]
          exact hp hgc

theorem drifts_of_lookup (h : ∀ k,lookup t k = lookup s k) (call : Call) : Drifts P s t call :=
  ⟨fun k c hc => ⟨c,(h k).trans hc,le_rfl,fun _ => rfl,fun _ => rfl⟩⟩

theorem rewrites_of_attempts {call : Call} {hash : String} {k : Account} {w : Write}
    (h : Attempts P s hash call k w) (hw : w.hash ≠ none) : rewrites call = some k := by
  cases h with
  | rehashed | invite | reset => rfl
  | failure | decided | enroll | confirm | disable => exact absurd rfl hw

theorem drifts_of_writes {call other : Call} {hash : String} {o : Outcome}
    (h : Writes P s hash call o) (hquiet : ∀ k,rewrites call = some k → ¬ holds P k other) :
    Drifts P s o.store other := by
  refine ⟨fun k c hc => ?_⟩
  obtain ⟨d,hd,rfl | ⟨w,ha,hw,-,rfl⟩⟩ := h.evolves hc
  · exact ⟨d,hd,le_rfl,fun _ => rfl,fun _ => rfl⟩
  · refine ⟨_,hd,hw.generation_le,fun hg => (hw.sameSecrets hg).passwordHash,fun hheld => ?_⟩
    refine Write.row_passwordHash ?_
    by_contra hne
    exact hquiet k (rewrites_of_attempts ha hne) hheld

theorem resumeLogin_ok (hm : Migrated s) {hash : String} {phase : LoginPhase}
    (h : LoginOk P s r phase) {call : Call}
    (hcall : (resumeLogin P clock s r hash phase).call = some call) : CallOk P s call := by
  cases phase with
  | found rows =>
      obtain ⟨verifiable,rest,rfl,hsub⟩ := screenLogin_call hcall
      exact ⟨fun row hrow => h row (hsub row hrow),by simp⟩
  | comparing verifiable row passwordHash rest matched =>
      cases hcall
      refine ⟨h.2.1,fun m hmem => ?_⟩
      cases row with
      | none => exact h.2.2 m hmem
      | some x =>
          have hread := h.1 x rfl
          cases hv : verifyRow P s r (some x) passwordHash with
          | none =>
              simp only [hv] at hmem
              exact h.2.2 m hmem
          | some v =>
              simp only [hv] at hmem
              split_ifs at hmem with hh
              · rcases List.mem_append.mp hmem with hmem | hmem
                · exact h.2.2 m hmem
                · cases List.mem_singleton.mp hmem
                  refine ⟨hread.known,fun hdemo => ?_⟩
                  have hp := presents_of_verifyRow hv (hread.known.demo.trans hdemo)
                  obtain ⟨c,hc,hsame⟩ := hread.current hh hp
                  exact ⟨c,hc,by rw [hsame]; exact hp⟩
              · exact h.2.2 m hmem
  | hashing row g step =>
      have hnone := (commitLogin_cases P clock hm row r.now (some hash) step g).1
      cases hnone.symm.trans hcall
  | failing rest =>
      cases rest with
      | nil => cases hcall
      | cons row rest =>
          cases hcall
          trivial
  | verifying verifiable rest matched =>
      cases rest with
      | cons row rest =>
          cases hcall
          refine ⟨fun x hx => ?_,fun y hy => h.1 y (List.mem_cons_of_mem _ hy),h.2⟩
          subst hx
          have hrow := h.1 x List.mem_cons_self
          refine ⟨hrow,fun hh hp => ?_⟩
          obtain ⟨c,hc⟩ := hrow.stored hh
          refine ⟨c,hc,?_⟩
          have hcred : LoginRow.credential s x = some c := by
            rw [LoginRow.credential,if_pos hh]
            exact hc
          simp [hcred]
      | nil =>
          cases matched with
          | nil =>
              cases hcall
              trivial
          | cons m ms =>
              rw [resumeLogin] at hcall
              rcases decideLogin_cases P clock r (m::ms) with
                ⟨error,he⟩ | ⟨m',c,step,g,hd,he | he⟩
              · rw [he] at hcall
                cases hcall
              · rw [he] at hcall
                cases hcall
                intro hdemo
                obtain ⟨d,hl,hp⟩ := (h.2 m' (chosen_mem hd.chosen)).proven hdemo
                cases (lookup_of_credential hd.credential).symm.trans hl
                exact ⟨c,hl,(normalize_eq_some.mp hd.generation).1.ge,fun _ => hp⟩
              · rw [he,(commitLogin_cases P clock hm m'.row r.now none step g).1] at hcall
                cases hcall

theorem resumed_ok (hm : Migrated s) {call next : Call} {hash : String} (h : CallOk P s call)
    (hnext : (resumeCall P clock s hash call).call = some next) :
    rewrites call = none ∧ CallOk P s next := by
  obtain ⟨r,phase,rfl⟩ := resumeCall_login hnext
  refine ⟨?_,resumeLogin_ok hm h hnext⟩
  cases phase with
  | hashing row g step =>
      have hnone := (commitLogin_cases P clock hm row r.now (some hash) step g).1
      cases hnone.symm.trans hnext
  | found | verifying | comparing | failing => rfl

theorem startCall_login {op : Operation} {call : Call}
    (hcall : (startCall P s op).call = some call) :
    (∃ r,call = .login r (.found (findUsersByEmail P s r.email r.tenantId))) ∨
      ∀ r phase,call ≠ .login r phase := by
  cases op with
  | login r =>
      simp only [startCall] at hcall
      split_ifs at hcall
      · cases hcall
      · cases hcall
        exact Or.inl ⟨r,rfl⟩
  | issueInvite | acceptInvite | requestReset | resetPassword | beginMfa | confirmMfa
  | disableMfa | validate | editUsers | resume =>
      right
      simp only [startCall,readInvite,readResetRequest,readReset,readBeginMfa,readConfirmMfa,
        readDisableMfa] at hcall
      repeat' split at hcall
      all_goals
        cases hcall
      all_goals exact fun r phase hlogin => Call.noConfusion hlogin

theorem startCall_ok {op : Operation} {call : Call} (hcall : (startCall P s op).call = some call) :
    CallOk P s call := by
  rcases startCall_login hcall with ⟨r,rfl⟩ | hother
  · intro row hrow
    obtain ⟨u,hu,rfl⟩ := List.mem_map.mp hrow
    have hf := (List.mem_filter.mp hu).2
    simp only [Bool.and_eq_true,beq_iff_eq] at hf
    exact ⟨hf.1,fun hh => Option.isSome_iff_exists.mp hh⟩
  · cases call with
    | login r phase => exact absurd rfl (hother r phase)
    | invite | requestReset | reset | beginMfa | confirmMfa | disableMfa => trivial

end

section
variable {P : Platform} {s t : State} {e : Event}

structure Inv (P : Platform) (s : State) : Prop where
  migrated : s.calls = [] ∨ Migrated s.store
  calls : ∀ call ∈ s.calls,CallOk P s.store call

theorem CallOk.congr {call : Call} {a b : Store} (h : CallOk P a call)
    (hs : b.userCredentials = a.userCredentials) : CallOk P b call :=
  h.drifts (drifts_of_lookup (lookup_congr hs) call)

theorem inv_step (hi : Inv P s) (h : Step P s e t) : Inv P t := by
  obtain ⟨clock,op,hstep,hquiet⟩ := h
  have hstart : ∀ op,State.after s.calls
      (startCall P (ensurePasswordStore clock s.store) op) = (t,e) → Inv P t := by
    intro op ho
    cases ho
    have hcred := startCall_credentials P (ensurePasswordStore clock s.store) op
    refine ⟨Or.inr (migrated_congr (migrated_ensure s.store clock) hcred),fun call hcall => ?_⟩
    refine CallOk.congr ?_ hcred
    rcases List.mem_append.mp hcall with hcall | hcall
    · exact startCall_ok (Option.mem_toList.mp hcall)
    · rcases hi.migrated with hnil | hm
      · rw [hnil] at hcall
        cases hcall
      · rw [ensure_migrated hm]
        exact hi.calls call hcall
  cases op with
  | resume index hash =>
      simp only [step] at hstep
      cases hc : s.calls[index]? with
      | none =>
          simp only [hc,Prod.mk.injEq] at hstep
          obtain ⟨rfl,-⟩ := hstep
          exact hi
      | some call =>
          simp only [hc] at hstep
          cases hstep
          have hmem := List.mem_of_getElem? hc
          have hm : Migrated s.store := by
            rcases hi.migrated with hnil | hm
            · rw [hnil] at hmem
              cases hmem
            · exact hm
          have hw : Writes P s.store hash call (resumeCall P clock s.store hash call) :=
            resume_writes hm call
          refine ⟨Or.inr (hw.migrated hm),fun other hother => ?_⟩
          rcases List.mem_append.mp hother with hnew | hold
          · have hnew := Option.mem_toList.mp hnew
            obtain ⟨hnone,hok⟩ := resumed_ok hm (hi.calls call hmem) hnew
            refine hok.drifts (drifts_of_writes hw fun k hk => ?_)
            rw [hnone] at hk
            cases hk
          · have hok := hi.calls other (List.mem_of_mem_eraseIdx hold)
            exact hok.drifts (drifts_of_writes hw fun k hk =>
              hquiet index hash call k rfl hc hk other hold)
  | editUsers users =>
      cases hstep
      exact ⟨hi.migrated.imp id fun hm => migrated_congr hm rfl,
        fun call hcall => (hi.calls call hcall).congr rfl⟩
  | login | issueInvite | acceptInvite | requestReset | resetPassword | beginMfa | confirmMfa
  | disableMfa | validate => exact hstart _ hstep

/-- The commit of a login, in a state that keeps the invariant. -/
theorem commit_presents (hi : Inv P s) {clock : Time} {index : ℕ} {hash : String}
    {r : LoginRequest} {phase : LoginPhase} {tenantId userId : String} {g : ℕ}
    (hc : s.calls[index]? = some (.login r phase))
    (hstep : step P clock s (.resume index hash) = (t,.loggedIn tenantId userId g))
    (hdemo : demoLogin (tenantId,userId) r = false) :
    ∃ c,credentialFor s.store tenantId userId = some c ∧ presents P r c.passwordHash = true := by
  have hmem := List.mem_of_getElem? hc
  have hok := hi.calls _ hmem
  have hm : Migrated s.store := by
    rcases hi.migrated with hnil | hm
    · rw [hnil] at hmem
      cases hmem
    · exact hm
  simp only [step,hc] at hstep
  have hevent : (resumeCall P clock s.store hash (.login r phase)).event =
      .loggedIn tenantId userId g := congrArg Prod.snd hstep
  have hw : Writes P s.store hash (.login r phase)
      (resumeCall P clock s.store hash (.login r phase)) := resume_writes hm _
  cases hw with
  | none hs he =>
      rw [hevent] at he
      cases he
  | created k token invite now hcall => cases hcall
  | row k w c ha hl hwr he hs =>
      rw [hevent] at he
      cases ha with
      | failure => cases he
      | decided hd =>
          cases he
          obtain ⟨d,hl',hp⟩ := (hok.2 _ (chosen_mem hd.chosen)).proven hdemo
          exact ⟨d,hl',hp⟩
      | rehashed =>
          cases he
          obtain ⟨d,hl',-,hp⟩ := hok hdemo
          cases hl.symm.trans hl'
          exact ⟨c,hl,hp (hwr.matches rfl).1⟩

end

theorem login_proves_password_undisturbed (P : Platform) (s : Store) :
    ProvesPassword P (Step P) ⟨s,[]⟩ := by
  intro h a hr clock index hash r phase t tenantId userId g hc hstep hdemo
  have hi : Inv P a := by
    have hstart : Inv P ⟨s,[]⟩ := ⟨Or.inl rfl,by simp⟩
    exact hr.invariant (I := fun _ a => Inv P a) hstart fun _ _ _ _ hi hs => inv_step hi hs
  exact commit_presents hi hc hstep hdemo

/-- A call that waits alone disturbs no other. -/
theorem undisturbed_of_alone {P : Platform} {s : State} {op : Operation} (h : s.calls.length ≤ 1) :
    Undisturbed P s op := by
  intro index hash call k _ hcall _ other hother
  obtain ⟨hindex,-⟩ := List.getElem?_eq_some_iff.mp hcall
  have hlength := List.length_eraseIdx_of_lt hindex
  rw [List.eq_nil_of_length_eq_zero (by omega : (s.calls.eraseIdx index).length = 0)] at hother
  cases hother

/-- A login with a password and without a code. -/
def passwordLogin (password : String) : LoginRequest where
  email := "user@example.test"
  password := password
  cleanPassword := password
  tenantId := none
  totp := ""
  now := 1
  clientAllowed := true
  emailAllowed := true

/-- The invitation sets a new password, and a login with it is about to commit. -/
def invitedThenLogin : List Operation :=
  [.acceptInvite "token" "new" 1,.resume 0 "new",.login (passwordLogin "new"),.resume 0 "",
    .resume 0 "",.resume 0 ""]

theorem new_password_proven :
    (step plainPlatform 1 (follow (step plainPlatform 1) ⟨oneAccount 1,[]⟩ invitedThenLogin).2
      (.resume 0 "")).2 = .loggedIn "tenant" "user" 2 ∧
    ∃ c,credentialFor (follow (step plainPlatform 1) ⟨oneAccount 1,[]⟩ invitedThenLogin).2.store
        "tenant" "user" = some c ∧
      presents plainPlatform (passwordLogin "new") c.passwordHash = true := by
  have hrun := @run_follow _ _ (Step plainPlatform) _ (step plainPlatform 1)
    (fun s _ => s.calls.length ≤ 1) (fun s op halone => ⟨1,op,rfl,undisturbed_of_alone halone⟩)
    ⟨oneAccount 1,[]⟩ invitedThenLogin
    ⟨by decide,by decide,by decide,by decide,by decide,by decide,trivial⟩
  have hevent : (step plainPlatform 1
      (follow (step plainPlatform 1) ⟨oneAccount 1,[]⟩ invitedThenLogin).2 (.resume 0 "")).2 =
        .loggedIn "tenant" "user" 2 := by decide
  refine ⟨hevent,?_⟩
  exact login_proves_password_undisturbed plainPlatform (oneAccount 1) _ _ hrun 1 0 ""
    (passwordLogin "new") _ _ "tenant" "user" 2 rfl (Prod.ext rfl hevent) (by decide)

/-- The old password is compared while the invitation sets a new one. -/
def loginBesideInvite : List Operation :=
  [.login (passwordLogin "old"),.resume 0 "",.resume 0 "",.acceptInvite "token" "new" 1,
    .resume 0 "new",.resume 0 ""]

/-- The password is replaced while the old one is compared, and the login still succeeds. -/
theorem replaced_password_logs_in :
    ¬ ProvesPassword plainPlatform (AnyStep plainPlatform) ⟨oneAccount 1,[]⟩ := by
  intro hproves
  have hrun := @run_follow _ _ (AnyStep plainPlatform) _ (step plainPlatform 1) (fun _ _ => True)
    (fun _ op _ => ⟨1,op,rfl⟩) ⟨oneAccount 1,[]⟩ loginBesideInvite
    (by simp [Follows,loginBesideInvite])
  obtain ⟨c,hc,hp⟩ := hproves _ _ hrun 1 0 "" (passwordLogin "old") _ _ "tenant" "user" 2 rfl
    (Prod.ext rfl (by decide)) (by decide)
  have hnew : (credentialFor (follow (step plainPlatform 1) ⟨oneAccount 1,[]⟩
      loginBesideInvite).2.store "tenant" "user").map Credential.passwordHash = some "new" := by
    decide
  rw [hc] at hnew
  rw [Option.some.inj hnew] at hp
  exact absurd hp (by decide)

end AstraNull.LoginPasswords

import Mathlib
import AstraNull.Runs
import AstraNull.PasswordAuth

/-!
# Sessions end with the credential they were opened for

The generation of a credential over every interleaving of the account services, with calls
cut at their awaits. `Effect` states what one call can do to the tables; the results about
histories are read off it. A generation that is the last safe integer cannot be raised to a
usable one: the read side then hands out no generation, which the session check takes for 1.
-/
namespace AstraNull.SessionRevocation
open Tables PasswordAuth Runs

def rowGeneration (c : Credential) : ℕ := c.sessionGeneration.getD 1

/-- The current generation of a user, 0 before the first password. -/
def generation (s : Store) (tenantId userId : String) : ℕ :=
  match credentialFor s tenantId userId with
  | none => 0
  | some c => rowGeneration c

/-- A generation the services accept; the migration of a plaintext secret leaves room too. -/
structure Usable (c : Credential) : Prop where
  positive : 0 < rowGeneration c
  safe : rowGeneration c ≤ maxSafeInteger
  migrates : c.mfaSecret.isSome → rowGeneration c+1 < maxSafeInteger

def UsableStore (s : Store) : Prop := ∀ c ∈ s.userCredentials,Usable c

theorem normalize_eq_some {v : Option ℕ} {g : ℕ} :
    normalizeSessionGeneration v = some g ↔ v.getD 1 = g ∧ 0 < g ∧ g ≤ maxSafeInteger := by
  simp only [normalizeSessionGeneration]
  split
  · rename_i h
    constructor
    · intro he
      cases he
      exact ⟨rfl,h.2,h.1⟩
    · intro he
      rw [he.1]
  · rename_i h
    constructor
    · intro he
      cases he
    · intro he
      exact absurd ⟨he.1 ▸ he.2.2,he.1 ▸ he.2.1⟩ h

theorem Usable.normalize {c : Credential} (h : Usable c) :
    normalizeSessionGeneration c.sessionGeneration = some (rowGeneration c) :=
  normalize_eq_some.mpr ⟨rfl,h.positive,h.safe⟩

section
variable {s t : Store} {tenantId userId : String} {f : Credential → Credential}

def KeepsKey (f : Credential → Credential) : Prop :=
  ∀ c,(f c).userId = c.userId ∧ (f c).tenantId = c.tenantId

theorem isFor_iff {c : Credential} :
    isFor tenantId userId c = true ↔ c.userId = userId ∧ c.tenantId = tenantId := by
  simp [isFor]

theorem KeepsKey.isFor (hf : KeepsKey f) (c : Credential) :
    isFor tenantId userId (f c) = isFor tenantId userId c := by
  simp [PasswordAuth.isFor,(hf c).1,(hf c).2]

theorem credentialFor_set (hf : KeepsKey f) :
    credentialFor (setCredential s tenantId userId f) tenantId userId =
      (credentialFor s tenantId userId).map f :=
  find?_update fun c hc => (hf.isFor c).trans hc

theorem credentialFor_set_other (hf : KeepsKey f) {tenantId' userId' : String}
    (hne : ¬ (userId' = userId ∧ tenantId' = tenantId)) :
    credentialFor (setCredential s tenantId userId f) tenantId' userId' =
      credentialFor s tenantId' userId' := by
  refine find?_update_other fun c hc => ?_
  have hk := isFor_iff.mp hc
  have hno : isFor tenantId' userId' c = false := by
    by_contra h
    have hk' := isFor_iff.mp (by simpa using h)
    exact hne ⟨hk'.1.symm.trans hk.1,hk'.2.symm.trans hk.2⟩
  exact ⟨hno,(hf.isFor c).trans hno⟩

theorem mem_credentialFor {c : Credential} (h : credentialFor s tenantId userId = some c) :
    c ∈ s.userCredentials := List.mem_of_find?_eq_some h

theorem userFor_key {u : User} (h : userFor s tenantId userId = some u) :
    u.id = userId ∧ u.tenantId = tenantId := by
  have := List.find?_some h
  simpa using this

theorem generation_of {c : Credential} (h : credentialFor s tenantId userId = some c) :
    generation s tenantId userId = rowGeneration c := by
  simp [generation,h]

end

def hasHash (tokenHash : String) (r : TokenRow) : Bool := r.tokenHash == tokenHash

/-- The two rows are one invitation or one reset. -/
structure SameToken (r r' : TokenRow) : Prop where
  id : r'.id = r.id
  tenantId : r'.tenantId = r.tenantId
  userId : r'.userId = r.userId
  tokenHash : r'.tokenHash = r.tokenHash

/-- The first row of a hash stays the first one and stays consumed. -/
def Extends (rows rows' : List TokenRow) : Prop :=
  ∀ h r,rows.find? (hasHash h) = some r →
    ∃ r',rows'.find? (hasHash h) = some r' ∧ SameToken r r' ∧
      (r.consumedAt.isSome → r'.consumedAt.isSome)

theorem SameToken.refl (r : TokenRow) : SameToken r r := ⟨rfl,rfl,rfl,rfl⟩

theorem SameToken.trans {r r' r'' : TokenRow} (h : SameToken r r') (h' : SameToken r' r'') :
    SameToken r r'' :=
  ⟨h'.id.trans h.id,h'.tenantId.trans h.tenantId,h'.userId.trans h.userId,
    h'.tokenHash.trans h.tokenHash⟩

theorem Extends.refl (rows : List TokenRow) : Extends rows rows :=
  fun _ r hr => ⟨r,hr,.refl r,id⟩

theorem Extends.trans {rows rows' rows'' : List TokenRow} (h : Extends rows rows')
    (h' : Extends rows' rows'') : Extends rows rows'' := by
  intro k r hr
  obtain ⟨r',hr',hs,hc⟩ := h k r hr
  obtain ⟨r'',hr'',hs',hc'⟩ := h' k r' hr'
  exact ⟨r'',hr'',hs.trans hs',hc' ∘ hc⟩

theorem Extends.consume {rows : List TokenRow} (p : TokenRow → Bool) (now : Time) :
    Extends rows (updateAll p (consume now) rows) := by
  intro k r hr
  refine ⟨if p r then PasswordAuth.consume now r else r,?_,?_,?_⟩
  · have hk : ∀ x,hasHash k (PasswordAuth.consume now x) = hasHash k x := fun _ => rfl
    rw [find?_updateAll hk,hr]
    rfl
  · split
    · exact ⟨rfl,rfl,rfl,rfl⟩
    · exact .refl r
  · intro hc
    split
    · rfl
    · exact hc

theorem Extends.append {rows : List TokenRow} (added : List TokenRow) :
    Extends rows (rows++added) :=
  fun _ r hr => ⟨r,find?_append_of_some hr,.refl r,id⟩

/-- No generation falls and no token comes back. -/
structure Grows (s t : Store) : Prop where
  generation : ∀ tenantId userId,generation s tenantId userId ≤ generation t tenantId userId
  invites : Extends s.userPasswordInvites t.userPasswordInvites
  resets : Extends s.userPasswordResets t.userPasswordResets

theorem Grows.refl (s : Store) : Grows s s := ⟨fun _ _ => le_rfl,.refl _,.refl _⟩

theorem Grows.trans {s t u : Store} (h : Grows s t) (h' : Grows t u) : Grows s u :=
  ⟨fun a b => (h.generation a b).trans (h'.generation a b),h.invites.trans h'.invites,
    h.resets.trans h'.resets⟩

theorem grows_consume (s : Store) (tenantId userId : String) (now : Time) :
    Grows s (consumeOutstandingCredentials s tenantId userId now) :=
  ⟨fun _ _ => le_rfl,.consume _ _,.consume _ _⟩

section
variable {s : Store} {tenantId userId : String} {f : Credential → Credential}

theorem grows_set (hf : KeepsKey f)
    (hg : ∀ c,credentialFor s tenantId userId = some c →
      rowGeneration c ≤ rowGeneration (f c)) :
    Grows s (setCredential s tenantId userId f) := by
  refine ⟨fun a b => ?_,.refl _,.refl _⟩
  by_cases hk : b = userId ∧ a = tenantId
  · obtain ⟨rfl,rfl⟩ := hk
    unfold generation
    rw [credentialFor_set hf]
    cases hc : credentialFor s a b with
    | none => exact le_rfl
    | some c => exact hg c hc
  · unfold generation
    rw [credentialFor_set_other hf hk]

theorem usable_set (hs : UsableStore s)
    (hu : ∀ c,credentialFor s tenantId userId = some c → Usable (f c)) :
    UsableStore (setCredential s tenantId userId f) :=
  forall_update hs hu

end

theorem grows_users (s : Store) (users : List User) : Grows s { s with users := users } :=
  ⟨fun _ _ => le_rfl,.refl _,.refl _⟩

theorem grows_append (s : Store) (c : Credential) :
    Grows s { s with userCredentials := s.userCredentials++[c] } := by
  refine ⟨fun a b => ?_,.refl _,.refl _⟩
  unfold generation credentialFor
  rw [List.find?_append]
  cases hc : s.userCredentials.find? (isFor a b) with
  | none => exact Nat.zero_le _
  | some c => exact le_rfl

theorem dropPlaintext_keepsKey (clock : Time) : KeepsKey (dropPlaintext clock) := by
  intro c
  simp only [dropPlaintext]
  split <;> exact ⟨rfl,rfl⟩

theorem rowGeneration_dropPlaintext {c : Credential} (hc : Usable c) (clock : Time) :
    rowGeneration (dropPlaintext clock c) =
      if c.mfaSecret.isSome then rowGeneration c+1 else rowGeneration c := by
  simp only [dropPlaintext]
  split
  · simp [rowGeneration,hc.normalize]
  · rfl

theorem Usable.dropPlaintext {c : Credential} (hc : Usable c) (clock : Time) :
    Usable (dropPlaintext clock c) := by
  have hg := rowGeneration_dropPlaintext hc clock
  by_cases hl : c.mfaSecret.isSome
  · rw [if_pos hl] at hg
    have hm := hc.migrates hl
    refine ⟨by omega,by omega,?_⟩
    intro h
    simp [PasswordAuth.dropPlaintext,hl] at h
  · have he : PasswordAuth.dropPlaintext clock c = c := by simp [PasswordAuth.dropPlaintext,hl]
    rw [he]
    exact hc

theorem credentialFor_migrate (s : Store) (clock : Time) (tenantId userId : String) :
    credentialFor { s with userCredentials := s.userCredentials.map (dropPlaintext clock) }
      tenantId userId = (credentialFor s tenantId userId).map (dropPlaintext clock) := by
  have hk : isFor tenantId userId ∘ dropPlaintext clock = isFor tenantId userId :=
    funext fun c => (dropPlaintext_keepsKey clock).isFor c
  simp only [credentialFor,List.find?_map,hk]

theorem grows_consumeAll (clock : Time) (legacy : List Credential) (s : Store) :
    Grows s (legacy.foldl
      (fun s c => consumeOutstandingCredentials s c.tenantId c.userId clock) s) := by
  induction legacy generalizing s with
  | nil => exact .refl s
  | cons c cs ih => exact (grows_consume s _ _ clock).trans (ih _)

theorem credentials_consumeAll (clock : Time) (legacy : List Credential) (s : Store) :
    (legacy.foldl (fun s c => consumeOutstandingCredentials s c.tenantId c.userId clock)
      s).userCredentials = s.userCredentials := by
  induction legacy generalizing s with
  | nil => rfl
  | cons c cs ih => exact ih _

theorem credentials_ensure (s : Store) (clock : Time) :
    (ensurePasswordStore clock s).userCredentials =
      s.userCredentials.map (dropPlaintext clock) :=
  credentials_consumeAll _ _ _

theorem credentialFor_ensure (s : Store) (clock : Time) (tenantId userId : String) :
    credentialFor (ensurePasswordStore clock s) tenantId userId =
      (credentialFor s tenantId userId).map (dropPlaintext clock) := by
  rw [← credentialFor_migrate]
  unfold credentialFor
  rw [credentials_ensure]

theorem usable_ensure {s : Store} (hs : UsableStore s) (clock : Time) :
    UsableStore (ensurePasswordStore clock s) := by
  intro c hc
  rw [credentials_ensure] at hc
  obtain ⟨d,hd,rfl⟩ := List.mem_map.mp hc
  exact (hs d hd).dropPlaintext clock

theorem grows_ensure {s : Store} (hs : UsableStore s) (clock : Time) :
    Grows s (ensurePasswordStore clock s) := by
  refine Grows.trans (t := { s with
    userCredentials := s.userCredentials.map (dropPlaintext clock) })
    ⟨fun a b => ?_,.refl _,.refl _⟩ (grows_consumeAll clock _ _)
  unfold generation
  rw [credentialFor_migrate]
  cases hc : credentialFor s a b with
  | none => exact le_rfl
  | some c =>
      have hg := rowGeneration_dropPlaintext (hs c (mem_credentialFor hc)) clock
      simp only [Option.map_some,hg]
      split <;> omega

/-- The migration itself never reaches the last safe generation. -/
theorem ensure_below {s : Store} (hs : UsableStore s) (clock : Time) {tenantId userId : String}
    (h : generation s tenantId userId < maxSafeInteger) :
    generation (ensurePasswordStore clock s) tenantId userId < maxSafeInteger := by
  unfold generation at h ⊢
  rw [credentialFor_ensure]
  cases hc : credentialFor s tenantId userId with
  | none => simp [maxSafeInteger]
  | some c =>
      have hu := hs c (mem_credentialFor hc)
      rw [hc] at h
      simp only [Option.map_some,rowGeneration_dropPlaintext hu clock]
      split
      · exact hu.migrates ‹_›
      · exact h

/-- No plaintext secret is left. -/
def Migrated (s : Store) : Prop := ∀ c ∈ s.userCredentials,c.mfaSecret = none

theorem migrated_ensure (s : Store) (clock : Time) : Migrated (ensurePasswordStore clock s) := by
  intro c hc
  rw [credentials_ensure] at hc
  obtain ⟨d,-,rfl⟩ := List.mem_map.mp hc
  cases hd : d.mfaSecret with
  | none => simp [dropPlaintext,hd]
  | some text => simp [dropPlaintext,hd]

/-- The write raises the generation of one user. -/
structure Raises (s t : Store) (tenantId userId : String) : Prop where
  grows : Grows s t
  usable : UsableStore t
  raised : generation s tenantId userId < generation t tenantId userId

section
variable {s t : Store} {tenantId userId : String}

theorem raises_set {c : Credential} {f : Credential → Credential} (hs : UsableStore s)
    (hm : Migrated s) (hc : credentialFor s tenantId userId = some c)
    (hlt : rowGeneration c < maxSafeInteger) (hf : KeepsKey f)
    (hgen : (f c).sessionGeneration = some (rowGeneration c+1))
    (hsecret : (f c).mfaSecret = c.mfaSecret) :
    Raises s (setCredential s tenantId userId f) tenantId userId := by
  have hrow : rowGeneration (f c) = rowGeneration c+1 := by simp [rowGeneration,hgen]
  refine ⟨grows_set hf fun d hd => ?_,usable_set hs fun d hd => ?_,?_⟩
  · cases hc.symm.trans hd
    omega
  · cases hc.symm.trans hd
    refine ⟨by omega,by omega,fun hl => ?_⟩
    rw [hsecret,hm c (mem_credentialFor hc)] at hl
    cases hl
  · rw [generation_of hc,generation,credentialFor_set hf,hc]
    simp [hrow]

theorem Raises.consume (h : Raises s t tenantId userId) (a b : String) (now : Time) :
    Raises s (consumeOutstandingCredentials t a b now) tenantId userId :=
  ⟨h.grows.trans (grows_consume t a b now),h.usable,h.raised⟩

theorem Raises.users (h : Raises s t tenantId userId) (users : List User) :
    Raises s { t with users := users } tenantId userId :=
  ⟨h.grows.trans (grows_users t users),h.usable,h.raised⟩

theorem raises_append (passwordHash : String) (now : Time) (hs : UsableStore s)
    (hc : credentialFor s tenantId userId = none) :
    Raises s { s with
      userCredentials := s.userCredentials++[newCredential tenantId userId passwordHash now] }
      tenantId userId := by
  refine ⟨grows_append s _,?_,?_⟩
  · intro c hmem
    rcases List.mem_append.mp hmem with hmem | hmem
    · exact hs c hmem
    · cases List.mem_singleton.mp hmem
      exact ⟨by simp [rowGeneration,newCredential],
        by simp [rowGeneration,newCredential,maxSafeInteger],fun h => by cases h⟩
  · have hnone : s.userCredentials.find? (isFor tenantId userId) = none := hc
    simp [generation,credentialFor,List.find?_append,hnone,isFor,newCredential,rowGeneration]

end

/-- The row a token names is consumed. -/
def Consumed (rows : List TokenRow) (tokenHash : String) : Prop :=
  ∃ r,rows.find? (hasHash tokenHash) = some r ∧ r.consumedAt.isSome

theorem Consumed.extends {rows rows' : List TokenRow} {h : String} (hc : Consumed rows h)
    (hx : Extends rows rows') : Consumed rows' h := by
  obtain ⟨r,hr,hcon⟩ := hc
  obtain ⟨r',hr',-,hk⟩ := hx h r hr
  exact ⟨r',hr',hk hcon⟩

/-- A copy that a call holds is the first row of its hash. -/
def Names (rows : List TokenRow) (copy : TokenRow) (tokenHash : String) : Prop :=
  ∃ r,rows.find? (hasHash tokenHash) = some r ∧ SameToken copy r

theorem Names.extends {rows rows' : List TokenRow} {copy : TokenRow} {h : String}
    (hn : Names rows copy h) (hx : Extends rows rows') : Names rows' copy h := by
  obtain ⟨r,hr,hs⟩ := hn
  obtain ⟨r',hr',hs',-⟩ := hx h r hr
  exact ⟨r',hr',hs.trans hs'⟩

theorem storedRow_of_names {rows : List TokenRow} {copy : TokenRow} {h : String}
    (hn : Names rows copy h) :
    ∃ r,rows.find? (hasHash h) = some r ∧ storedRow rows copy h = some r ∧ SameToken copy r := by
  obtain ⟨r,hr,hs⟩ := hn
  have hh : r.tokenHash = h := by simpa [hasHash] using List.find?_some hr
  refine ⟨r,hr,find?_of_wider hr ?_ ?_,hs⟩
  · intro y hy
    simp only [Bool.and_eq_true] at hy
    exact hy.2
  · simp [hs.id,hs.tenantId,hs.userId,hh]

theorem consumed_consume {rows : List TokenRow} {r : TokenRow} {h : String} (now : Time)
    (hr : rows.find? (hasHash h) = some r) :
    Consumed (updateAll (outstanding r.tenantId r.userId) (consume now) rows) h := by
  have hk : ∀ x,hasHash h (consume now x) = hasHash h x := fun _ => rfl
  refine ⟨_,by rw [find?_updateAll hk,hr]; rfl,?_⟩
  by_cases ho : outstanding r.tenantId r.userId r = true
  · simp [ho,consume]
  · have hcon : r.consumedAt.isSome := by
      simpa [outstanding,Option.isSome_iff_ne_none] using ho
    simpa [ho] using hcon

/-- A session is valid only at the current generation. -/
theorem valid_generation {s : Store} (hs : UsableStore s) {tenantId userId : String}
    {g : Option ℕ} (h : validatePasswordSession s tenantId userId g = true) :
    g.getD 1 = generation s tenantId userId := by
  unfold validatePasswordSession at h
  cases hg : normalizeSessionGeneration g with
  | none => simp [hg] at h
  | some m =>
      simp only [hg,findCredential] at h
      cases hu : userFor s tenantId userId with
      | none => simp [hu] at h
      | some user =>
          cases hc : credentialFor s tenantId userId with
          | none => simp [hu,hc] at h
          | some c =>
              have hn := (hs c (mem_credentialFor hc)).normalize
              simp only [hu,hc,Option.map_some,hn,decide_eq_true_eq] at h
              rw [generation_of hc]
              exact (normalize_eq_some.mp hg).1.trans (normalize_eq_some.mp h.2).1.symm

/-- The event is a change of the user's password or second factor. -/
def changes (tenantId userId : String) : Event → Bool
  | .passwordSet t u _ => t == tenantId && u == userId
  | .passwordReset t u _ => t == tenantId && u == userId
  | .mfaEnabled t u => t == tenantId && u == userId
  | .mfaDisabled t u => t == tenantId && u == userId
  | _ => false

def usesInvite (token : String) : Event → Bool
  | .passwordSet _ _ k => k == token
  | _ => false

def usesReset (token : String) : Event → Bool
  | .passwordReset _ _ k => k == token
  | _ => false

/-- The event is none that the results below speak about. -/
def quiet : Event → Bool
  | .refused _ => true
  | .quiet => true
  | _ => false

/-- The copy a call holds names the first row of its token. -/
def CallOk (P : Platform) (s : Store) : Call → Prop
  | .invite token invite _ => Names s.userPasswordInvites invite (P.hashToken token)
  | .reset token reset _ _ _ _ => Names s.userPasswordResets reset (P.hashToken token)
  | _ => True

theorem CallOk.grows {P : Platform} {s t : Store} {call : Call} (h : CallOk P s call)
    (hg : Grows s t) : CallOk P t call := by
  cases call with
  | invite token invite now => exact Names.extends h hg.invites
  | reset token reset now expected step enrollmentId => exact Names.extends h hg.resets
  | login | requestReset | beginMfa | confirmMfa | disableMfa => trivial

structure Effect (P : Platform) (s : Store) (o : Outcome) : Prop where
  grows : Grows s o.store
  usable : UsableStore o.store
  raised : ∀ tenantId userId,changes tenantId userId o.event = true →
    generation s tenantId userId < generation o.store tenantId userId
  minted : ∀ tenantId userId g,o.event = .loggedIn tenantId userId g →
    generation o.store tenantId userId = g
  validated : ∀ tenantId userId g,o.event = .validated tenantId userId g true →
    g.getD 1 = generation o.store tenantId userId
  invite : ∀ token,usesInvite token o.event = true →
    ¬ Consumed s.userPasswordInvites (P.hashToken token) ∧
      Consumed o.store.userPasswordInvites (P.hashToken token)
  reset : ∀ token,usesReset token o.event = true →
    ¬ Consumed s.userPasswordResets (P.hashToken token) ∧
      Consumed o.store.userPasswordResets (P.hashToken token)
  call : ∀ call,o.call = some call → CallOk P o.store call

section
variable {P : Platform} {s t : Store} {o : Outcome}

theorem effect_quiet (hg : Grows s o.store) (hu : UsableStore o.store)
    (he : quiet o.event = true) (hcall : ∀ call,o.call = some call → CallOk P o.store call) :
    Effect P s o := by
  refine ⟨hg,hu,?_,?_,?_,?_,?_,hcall⟩
  all_goals cases hev : o.event <;> simp_all [quiet,changes,usesInvite,usesReset]

theorem effect_refuse (hg : Grows s t) (hu : UsableStore t) (error : String) :
    Effect P s (.refuse t error) :=
  effect_quiet hg hu rfl fun _ h => by cases h

theorem effect_wait (hg : Grows s t) (hu : UsableStore t) {call : Call} (hc : CallOk P t call) :
    Effect P s (.wait t call) :=
  effect_quiet hg hu rfl fun _ h => by
    cases h
    exact hc

theorem effect_done (hg : Grows s t) (hu : UsableStore t) : Effect P s ⟨t,none,.quiet⟩ :=
  effect_quiet hg hu rfl fun _ h => by cases h

theorem Effect.after (hg : Grows s t) (h : Effect P t o) : Effect P s o where
  grows := hg.trans h.grows
  usable := h.usable
  raised a b he := (hg.generation a b).trans_lt (h.raised a b he)
  minted := h.minted
  validated := h.validated
  invite token he := ⟨fun hc => (h.invite token he).1 (hc.extends hg.invites),
    (h.invite token he).2⟩
  reset token he := ⟨fun hc => (h.reset token he).1 (hc.extends hg.resets),
    (h.reset token he).2⟩
  call := h.call

end

section
variable {P : Platform} {s s' : Store} {tenantId userId : String}

theorem keeps_rowGeneration (tenantId userId : String) {f : Credential → Credential}
    (hs : UsableStore s) (hf : KeepsKey f)
    (hgen : ∀ c,(f c).sessionGeneration = c.sessionGeneration)
    (hsecret : ∀ c,(f c).mfaSecret = c.mfaSecret) :
    Grows s (setCredential s tenantId userId f) ∧
      UsableStore (setCredential s tenantId userId f) ∧
      generation (setCredential s tenantId userId f) tenantId userId =
        generation s tenantId userId := by
  have hrow : ∀ c,rowGeneration (f c) = rowGeneration c := by
    intro c
    simp [rowGeneration,hgen]
  refine ⟨grows_set hf fun c _ => (hrow c).ge,usable_set hs fun c hc => ?_,?_⟩
  · have hu := hs c (mem_credentialFor hc)
    refine ⟨by rw [hrow]; exact hu.positive,by rw [hrow]; exact hu.safe,fun hl => ?_⟩
    rw [hsecret] at hl
    rw [hrow]
    exact hu.migrates hl
  · unfold generation
    rw [credentialFor_set hf]
    cases credentialFor s tenantId userId with
    | none => rfl
    | some c => exact hrow c

theorem generation_set {f : Credential → Credential} {c : Credential} (hf : KeepsKey f)
    (hc : credentialFor s tenantId userId = some c) :
    generation (setCredential s tenantId userId f) tenantId userId = rowGeneration (f c) := by
  rw [generation,credentialFor_set hf,hc]
  rfl

theorem completeLogin_spec {now : Time} {passwordHash : Option String} {step : Option ℤ}
    {expected : ℕ} (hs : UsableStore s) (hm : Migrated s)
    (hsafe : expected+(if passwordHash.isSome then 1 else 0) ≤ maxSafeInteger)
    (h : completeLogin s tenantId userId now passwordHash step expected = some s') :
    Grows s s' ∧ UsableStore s' ∧
      generation s' tenantId userId = expected+(if passwordHash.isSome then 1 else 0) := by
  unfold completeLogin at h
  cases hc : credentialFor s tenantId userId with
  | none => simp [hc] at h
  | some c =>
      simp only [hc] at h
      have hkey : KeepsKey (loggedInRow now passwordHash step expected) := fun _ => ⟨rfl,rfl⟩
      by_cases hgen : normalizeSessionGeneration c.sessionGeneration = some expected
      · have hrow : rowGeneration c = expected := (normalize_eq_some.mp hgen).1
        by_cases hstep : step.all (mfaStepOpen c) = false
        · simp [hgen,hstep] at h
        · simp only [hgen,hstep,ne_eq,not_true_eq_false,if_false,Bool.true_eq_false,
            Option.some.injEq] at h
          by_cases hhash : passwordHash.isSome
          · rw [if_pos hhash] at h hsafe ⊢
            subst h
            have hr := raises_set (f := loggedInRow now passwordHash step expected) hs hm hc
              (by omega) hkey (by simp [loggedInRow,hhash,hrow]) rfl
            have hr := hr.consume tenantId userId now
            refine ⟨hr.grows,hr.usable,(generation_set hkey hc).trans ?_⟩
            simp [rowGeneration,loggedInRow,hhash]
          · rw [if_neg hhash] at h ⊢
            subst h
            obtain ⟨hg,hu,he⟩ := keeps_rowGeneration tenantId userId
              hs hkey (fun c => by simp [loggedInRow,hhash]) (fun _ => rfl)
            exact ⟨hg,hu,he.trans ((generation_of hc).trans (by omega))⟩
      · simp [hgen] at h

theorem confirmMfaEnrollment_spec {enrollmentId : Option String} {step : ℤ} {now : Time}
    (hs : UsableStore s) (hm : Migrated s)
    (hlt : generation s tenantId userId < maxSafeInteger)
    (h : confirmMfaEnrollment s tenantId userId enrollmentId step now = some s') :
    Raises s s' tenantId userId := by
  unfold confirmMfaEnrollment at h
  cases hc : credentialFor s tenantId userId with
  | none => simp [hc] at h
  | some c =>
      have hu := hs c (mem_credentialFor hc)
      simp only [hc,hu.normalize] at h
      split_ifs at h
      cases Option.some.inj h
      rw [generation_of hc] at hlt
      exact (raises_set (f := enrolledRow step now (rowGeneration c)) hs hm hc hlt
        (fun _ => ⟨rfl,rfl⟩) rfl rfl).consume tenantId userId now

theorem disableMfa_spec {enrollmentId : Option String} {step : ℤ} {now : Time}
    (hs : UsableStore s) (hm : Migrated s)
    (hlt : generation s tenantId userId < maxSafeInteger)
    (h : disableMfa s tenantId userId enrollmentId step now = some s') :
    Raises s s' tenantId userId := by
  unfold disableMfa at h
  cases hc : credentialFor s tenantId userId with
  | none => simp [hc] at h
  | some c =>
      have hu := hs c (mem_credentialFor hc)
      simp only [hc,hu.normalize] at h
      split_ifs at h
      cases Option.some.inj h
      rw [generation_of hc] at hlt
      exact (raises_set (f := disabledRow now (rowGeneration c)) hs hm hc hlt
        (fun _ => ⟨rfl,rfl⟩) rfl rfl).consume tenantId userId now

theorem beginMfaEnrollment_spec {envelope enrollmentId : String} {now : Time}
    (hs : UsableStore s)
    (h : beginMfaEnrollment s tenantId userId envelope enrollmentId now = some s') :
    Grows s s' ∧ UsableStore s' := by
  unfold beginMfaEnrollment at h
  cases hc : credentialFor s tenantId userId with
  | none => simp [hc] at h
  | some c =>
      simp only [hc] at h
      split_ifs at h
      cases Option.some.inj h
      obtain ⟨hg,hu,-⟩ := keeps_rowGeneration tenantId userId
        (f := enrollingRow envelope enrollmentId now) hs (fun _ => ⟨rfl,rfl⟩)
        (fun _ => rfl) (fun _ => rfl)
      exact ⟨hg,hu⟩

/-- What an accepted invitation does to the account and to its token. -/
theorem setPasswordFromInvite_spec {invite : TokenRow} {passwordHash tokenHash : String}
    {now : Time} (hs : UsableStore s) (hm : Migrated s)
    (hn : Names s.userPasswordInvites invite tokenHash)
    (hlt : generation s invite.tenantId invite.userId < maxSafeInteger)
    (h : setPasswordFromInvite s invite passwordHash tokenHash now = .ok s') :
    Raises s s' invite.tenantId invite.userId ∧ ¬ Consumed s.userPasswordInvites tokenHash ∧
      Consumed s'.userPasswordInvites tokenHash := by
  obtain ⟨r,hr,hstored,hsame⟩ := storedRow_of_names hn
  unfold setPasswordFromInvite at h
  simp only [hstored] at h
  by_cases hcon : r.consumedAt.isSome
  · simp [hcon] at h
  · simp only [hcon,Bool.false_eq_true,if_false] at h
    by_cases hexp : r.expiresAt ≤ now
    · simp [hexp] at h
    · simp only [hexp,if_false] at h
      cases hu : userFor s r.tenantId r.userId with
      | none => simp [hu] at h
      | some user =>
          obtain ⟨hid,htenant⟩ := userFor_key hu
          simp only [hu,hid,htenant] at h
          by_cases hst : user.statusOrActive = .other
          · simp [hst] at h
          · simp only [hst,if_false] at h
            rw [← hsame.tenantId,← hsame.userId] at hlt ⊢
            have hopen : ¬ Consumed s.userPasswordInvites tokenHash := by
              intro ⟨r',hr',hc'⟩
              cases hr.symm.trans hr'
              exact hcon hc'
            cases hc : credentialFor s r.tenantId r.userId with
            | none =>
                simp only [hc,Except.ok.injEq] at h
                subst h
                have hra := raises_append passwordHash now hs hc
                exact ⟨(hra.consume r.tenantId r.userId now).users _,hopen,
                  consumed_consume now hr⟩
            | some c =>
                have husable := hs c (mem_credentialFor hc)
                simp only [hc,husable.normalize,Option.map_some,Except.ok.injEq] at h
                subst h
                rw [generation_of hc] at hlt
                have hra := raises_set (f := replacePassword passwordHash now (rowGeneration c))
                  hs hm hc hlt (fun _ => ⟨rfl,rfl⟩) rfl rfl
                exact ⟨(hra.consume r.tenantId r.userId now).users _,hopen,
                  consumed_consume now hr⟩

/-- What a completed reset does to the account and to its token. -/
theorem consumePasswordReset_spec {reset : TokenRow} {passwordHash tokenHash : String}
    {now : Time} {expected : ℕ} {step : Option ℤ} {enrollmentId : Option String}
    (hs : UsableStore s) (hm : Migrated s)
    (hn : Names s.userPasswordResets reset tokenHash)
    (hlt : generation s reset.tenantId reset.userId < maxSafeInteger)
    (h : consumePasswordReset s reset passwordHash tokenHash now expected step enrollmentId =
      .ok s') :
    Raises s s' reset.tenantId reset.userId ∧ ¬ Consumed s.userPasswordResets tokenHash ∧
      Consumed s'.userPasswordResets tokenHash := by
  obtain ⟨r,hr,hstored,hsame⟩ := storedRow_of_names hn
  unfold consumePasswordReset at h
  simp only [hstored] at h
  by_cases hcon : r.consumedAt.isSome
  · simp [hcon] at h
  · simp only [hcon,Bool.false_eq_true,if_false] at h
    by_cases hexp : r.expiresAt ≤ now
    · simp [hexp] at h
    · simp only [hexp,if_false] at h
      cases hu : userFor s r.tenantId r.userId with
      | none => simp [hu] at h
      | some user =>
          obtain ⟨hid,htenant⟩ := userFor_key hu
          simp only [hu,hid,htenant] at h
          rw [← hsame.tenantId,← hsame.userId] at hlt ⊢
          cases hc : credentialFor s r.tenantId r.userId with
          | none => simp [hc] at h
          | some c =>
              simp only [hc] at h
              split_ifs at h with hst hgen hmfa hopen
              have hrow : rowGeneration c = expected :=
                (normalize_eq_some.mp (not_not.mp hgen)).1
              cases h
              rw [generation_of hc] at hlt
              have hra := raises_set (f := resetRow passwordHash now expected step) hs hm hc hlt
                (fun _ => ⟨rfl,rfl⟩) (by simp [resetRow,replacePassword,hrow]) rfl
              refine ⟨hra.consume r.tenantId r.userId now,?_,consumed_consume now hr⟩
              intro ⟨r',hr',hc'⟩
              cases hr.symm.trans hr'
              exact hcon hc'

end

/-- The account a waiting call is about to change. -/
def changedBy : Call → Option (String × String)
  | .invite _ invite _ => some (invite.tenantId,invite.userId)
  | .reset _ reset _ _ _ _ => some (reset.tenantId,reset.userId)
  | .confirmMfa tenantId userId _ _ _ => some (tenantId,userId)
  | .disableMfa tenantId userId _ _ _ => some (tenantId,userId)
  | _ => none

/-- The account has a generation left to be raised to. -/
def Below (s : Store) (call : Call) : Prop :=
  ∀ key,changedBy call = some key → generation s key.1 key.2 < maxSafeInteger

section
variable {P : Platform} {s : Store}

theorem effect_of_raises {s' : Store} {e : Event} {tenantId userId : String}
    (hr : Raises s s' tenantId userId)
    (hch : ∀ a b,changes a b e = true → a = tenantId ∧ b = userId)
    (hlogin : ∀ a b g,e ≠ .loggedIn a b g) (hvalid : ∀ a b g,e ≠ .validated a b g true)
    (hinvite : ∀ token,usesInvite token e = true →
      ¬ Consumed s.userPasswordInvites (P.hashToken token) ∧
        Consumed s'.userPasswordInvites (P.hashToken token))
    (hreset : ∀ token,usesReset token e = true →
      ¬ Consumed s.userPasswordResets (P.hashToken token) ∧
        Consumed s'.userPasswordResets (P.hashToken token)) :
    Effect P s ⟨s',none,e⟩ where
  grows := hr.grows
  usable := hr.usable
  raised a b he := by
    obtain ⟨rfl,rfl⟩ := hch a b he
    exact hr.raised
  minted a b g he := absurd he (hlogin a b g)
  validated a b g he := absurd he (hvalid a b g)
  invite := hinvite
  reset := hreset
  call _ h := by cases h

theorem changes_key {a b tenantId userId : String}
    (h : (tenantId == a && userId == b) = true) : a = tenantId ∧ b = userId := by
  simp only [Bool.and_eq_true,beq_iff_eq] at h
  exact ⟨h.1.symm,h.2.symm⟩

theorem commitLogin_effect (hs : UsableStore s) (clock : Time) (row : LoginRow) (now : Time)
    (hash : Option String) (step : Option ℤ) (g : ℕ) :
    Effect P s (commitLogin P clock s row now hash step g) := by
  simp only [commitLogin]
  by_cases hsafe : maxSafeInteger < g+(if hash.isSome then 1 else 0) ∨ P.mintsSessions = false
  · rw [if_pos hsafe]
    exact effect_refuse (.refl s) hs _
  · rw [if_neg hsafe]
    simp only [not_or,Nat.not_lt] at hsafe
    have hu := usable_ensure hs clock
    refine Effect.after (grows_ensure hs clock) ?_
    cases hc : completeLogin (ensurePasswordStore clock s) row.user.tenantId row.user.id now
        hash step g with
    | none => exact effect_refuse (.refl _) hu _
    | some s' =>
        obtain ⟨hg,hu',hgen⟩ := completeLogin_spec hu (migrated_ensure s clock) hsafe.1 hc
        refine ⟨hg,hu',fun a b he => (by cases he),fun a b m he => ?_,
          fun _ _ _ he => (by cases he),fun _ he => (by cases he),fun _ he => (by cases he),
          fun _ h => (by cases h)⟩
        cases he
        exact hgen

theorem decideLogin_effect (hs : UsableStore s) (clock : Time) (r : LoginRequest)
    (matched : List Match) : Effect P s (decideLogin P clock s r matched) := by
  unfold decideLogin
  dsimp only
  repeat' split
  all_goals first
    | exact effect_refuse (.refl s) hs _
    | exact effect_wait (.refl s) hs trivial
    | exact commitLogin_effect hs clock _ _ _ _ _

theorem failing_effect (hs : UsableStore s) (clock : Time) (r : LoginRequest) (row : LoginRow)
    (rest : List LoginRow) (hash : String) :
    Effect P s (resumeLogin P clock s r hash (.failing (row::rest))) := by
  have hu := usable_ensure hs clock
  refine Effect.after (grows_ensure hs clock) ?_
  simp only [resumeLogin]
  split
  · obtain ⟨hg,hu',-⟩ := keeps_rowGeneration row.user.tenantId row.user.id (f := failedRow r.now
        (if isDemoLoginUser P row.user then none else some (r.now+lockoutMs))
        (if isDemoLoginUser P row.user then 999999 else lockoutAttempts)) hu
      (fun _ => ⟨rfl,rfl⟩) (fun _ => rfl) (fun _ => rfl)
    exact effect_wait hg hu' trivial
  · exact effect_wait (.refl _) hu trivial

theorem resumeLogin_effect (hs : UsableStore s) (clock : Time) (r : LoginRequest)
    (hash : String) (phase : LoginPhase) : Effect P s (resumeLogin P clock s r hash phase) := by
  cases phase with
  | found rows =>
      simp only [resumeLogin,screenLogin]
      repeat' split
      all_goals first
        | exact effect_refuse (.refl s) hs _
        | exact effect_wait (.refl s) hs trivial
  | verifying verifiable rest matched =>
      cases rest with
      | nil =>
          cases matched with
          | nil => exact effect_wait (.refl s) hs trivial
          | cons m ms => exact decideLogin_effect hs clock r _
      | cons row rest => exact effect_wait (.refl s) hs trivial
  | comparing verifiable row hash rest matched => exact effect_wait (.refl s) hs trivial
  | hashing row g step => exact commitLogin_effect hs clock _ _ _ _ _
  | failing rest =>
      cases rest with
      | nil => exact effect_refuse (.refl s) hs _
      | cons row rest => exact failing_effect hs clock r row rest hash

theorem resumeCall_effect (hs : UsableStore s) (clock : Time) (hash : String) {call : Call}
    (hok : CallOk P s call) (hbelow : Below s call) :
    Effect P s (resumeCall P clock s hash call) := by
  have hu := usable_ensure hs clock
  have hg := grows_ensure hs clock
  have hm := migrated_ensure s clock
  cases call with
  | login r phase => exact resumeLogin_effect hs clock r hash phase
  | requestReset record createdAt =>
      exact effect_done ⟨fun _ _ => le_rfl,.refl _,(Extends.consume _ _).trans (.append _)⟩ hs
  | beginMfa tenantId userId envelope enrollmentId now =>
      refine Effect.after hg ?_
      simp only [resumeCall]
      split
      · exact effect_refuse (.refl _) hu _
      · rename_i hb
        obtain ⟨hg',hu'⟩ := beginMfaEnrollment_spec hu hb
        exact effect_done hg' hu'
  | confirmMfa tenantId userId enrollmentId step now =>
      refine Effect.after hg ?_
      simp only [resumeCall]
      split
      · exact effect_refuse (.refl _) hu _
      · rename_i hb
        have hr := confirmMfaEnrollment_spec hu hm (ensure_below hs clock (hbelow _ rfl)) hb
        exact effect_of_raises hr (fun _ _ he => changes_key he) nofun nofun nofun nofun
  | disableMfa tenantId userId enrollmentId step now =>
      refine Effect.after hg ?_
      simp only [resumeCall]
      split
      · exact effect_refuse (.refl _) hu _
      · rename_i hb
        have hr := disableMfa_spec hu hm (ensure_below hs clock (hbelow _ rfl)) hb
        exact effect_of_raises hr (fun _ _ he => changes_key he) nofun nofun nofun nofun
  | invite token invite now =>
      refine Effect.after hg ?_
      simp only [resumeCall]
      split
      · exact effect_refuse (.refl _) hu _
      · rename_i hb
        obtain ⟨hr,hopen,hcon⟩ := setPasswordFromInvite_spec hu hm (Names.extends hok hg.invites)
          (ensure_below hs clock (hbelow _ rfl)) hb
        refine effect_of_raises hr (fun _ _ he => changes_key he) nofun nofun
          (fun k he => ?_) nofun
        cases (beq_iff_eq.mp he : token = k)
        exact ⟨hopen,hcon⟩
  | reset token reset now expected step enrollmentId =>
      refine Effect.after hg ?_
      simp only [resumeCall]
      split
      · exact effect_refuse (.refl _) hu _
      · rename_i hb
        obtain ⟨hr,hopen,hcon⟩ := consumePasswordReset_spec hu hm (Names.extends hok hg.resets)
          (ensure_below hs clock (hbelow _ rfl)) hb
        refine effect_of_raises hr (fun _ _ he => changes_key he) nofun nofun nofun
          (fun k he => ?_)
        cases (beq_iff_eq.mp he : token = k)
        exact ⟨hopen,hcon⟩

theorem startCall_effect (hs : UsableStore s) (op : Operation) :
    Effect P s (startCall P s op) := by
  have hsame : Grows s s := .refl s
  cases op with
  | issueInvite record createdAt =>
      simp only [startCall,createPasswordInvite]
      split
      · rename_i hnone
        exact effect_refuse hsame hs _
      · rename_i s' hsome
        split_ifs at hsome
        cases Option.some.inj hsome
        exact effect_done ⟨fun _ _ => le_rfl,(Extends.consume _ _).trans (.append _),.refl _⟩ hs
  | acceptInvite token password now =>
      simp only [startCall,readInvite]
      cases hfind : s.userPasswordInvites.find? fun r => r.tokenHash == P.hashToken token with
      | none => exact effect_refuse hsame hs _
      | some invite =>
          have hnames : Names s.userPasswordInvites invite (P.hashToken token) :=
            ⟨invite,hfind,.refl _⟩
          dsimp only
          repeat' split
          all_goals first
            | exact effect_refuse hsame hs _
            | exact effect_wait hsame hs hnames
  | resetPassword token password totp now =>
      simp only [startCall,readReset]
      cases hfind : s.userPasswordResets.find? fun r => r.tokenHash == P.hashToken token with
      | none => exact effect_refuse hsame hs _
      | some reset =>
          have hnames : Names s.userPasswordResets reset (P.hashToken token) :=
            ⟨reset,hfind,.refl _⟩
          dsimp only
          repeat' split
          all_goals first
            | exact effect_refuse hsame hs _
            | exact effect_wait hsame hs hnames
  | validate tenantId userId g =>
      refine ⟨hsame,hs,fun _ _ he => (by cases he),fun _ _ _ he => (by cases he),
        fun a b m he => ?_,fun _ he => (by cases he),fun _ he => (by cases he),
        fun _ h => (by cases h)⟩
      simp only [startCall,Event.validated.injEq] at he
      obtain ⟨rfl,rfl,rfl,hv⟩ := he
      exact valid_generation hs hv
  | editUsers users => exact effect_done hsame hs
  | resume index hash => exact effect_done hsame hs
  | login r =>
      simp only [startCall]
      split
      · exact effect_refuse hsame hs _
      · exact effect_wait hsame hs trivial
  | requestReset email record createdAt =>
      simp only [startCall,readResetRequest]
      repeat' split
      all_goals first
        | exact effect_wait hsame hs trivial
        | exact effect_done hsame hs
  | beginMfa tenantId userId envelope enrollmentId now =>
      simp only [startCall,readBeginMfa]
      repeat' split
      all_goals first
        | exact effect_refuse hsame hs _
        | exact effect_wait hsame hs trivial
  | confirmMfa tenantId userId code now =>
      simp only [startCall,readConfirmMfa]
      repeat' split
      all_goals first
        | exact effect_refuse hsame hs _
        | exact effect_wait hsame hs trivial
  | disableMfa tenantId userId code now =>
      simp only [startCall,readDisableMfa]
      repeat' split
      all_goals first
        | exact effect_refuse hsame hs _
        | exact effect_wait hsame hs trivial

end

section
variable (P : Platform)

/-- A step at some clock reading. A change of an account finds room for its generation. -/
inductive Step (s : State) (e : Event) (t : State) : Prop
  | mk (clock : Time) (op : Operation) (hstep : step P clock s op = (t,e))
      (hbelow : ∀ index hash call,op = .resume index hash → s.calls[index]? = some call →
        Below s.store call)

/-- The same steps without the condition. -/
inductive AnyStep (s : State) (e : Event) (t : State) : Prop
  | mk (clock : Time) (op : Operation) (hstep : step P clock s op = (t,e))

structure Inv (s : State) : Prop where
  usable : UsableStore s.store
  calls : ∀ call ∈ s.calls,CallOk P s.store call

variable {P} {s t : State} {e : Event}

theorem step_spec (hi : Inv P s) (h : Step P s e t) :
    Inv P t ∧ ∃ o : Outcome,o.store = t.store ∧ o.event = e ∧ Effect P s.store o := by
  obtain ⟨clock,op,hstep,hbelow⟩ := h
  have hafter : ∀ (calls : List Call) (o : Outcome),(∀ call ∈ calls,call ∈ s.calls) →
      Effect P s.store o → State.after calls o = (t,e) →
      Inv P t ∧ ∃ o : Outcome,o.store = t.store ∧ o.event = e ∧ Effect P s.store o := by
    intro calls o hcalls heff ho
    cases ho
    refine ⟨⟨heff.usable,?_⟩,o,rfl,rfl,heff⟩
    intro call hcall
    rcases List.mem_append.mp hcall with hcall | hcall
    · exact heff.call call (Option.mem_toList.mp hcall)
    · exact (hi.calls call (hcalls call hcall)).grows heff.grows
  have hstart : ∀ op,State.after s.calls
      (startCall P (ensurePasswordStore clock s.store) op) = (t,e) →
      Inv P t ∧ ∃ o : Outcome,o.store = t.store ∧ o.event = e ∧ Effect P s.store o :=
    fun op ho => hafter _ _ (fun _ h => h) (Effect.after (grows_ensure hi.usable clock)
      (startCall_effect (usable_ensure hi.usable clock) op)) ho
  cases op with
  | resume index hash =>
      simp only [step] at hstep
      cases hc : s.calls[index]? with
      | none =>
          simp only [hc,Prod.mk.injEq] at hstep
          obtain ⟨rfl,rfl⟩ := hstep
          exact ⟨hi,⟨s.store,none,.quiet⟩,rfl,rfl,effect_done (.refl _) hi.usable⟩
      | some call =>
          simp only [hc] at hstep
          refine hafter _ _ (fun _ h => List.mem_of_mem_eraseIdx h) ?_ hstep
          exact resumeCall_effect hi.usable clock hash (hi.calls call (List.mem_of_getElem? hc))
            (hbelow index hash call rfl hc)
  | editUsers users =>
      cases hstep
      refine ⟨⟨hi.usable,fun call hcall => (hi.calls call hcall).grows (grows_users _ _)⟩,
        ⟨{ s.store with users := users },none,.quiet⟩,rfl,rfl,?_⟩
      exact effect_done (grows_users _ _) hi.usable
  | login | issueInvite | acceptInvite | requestReset | resetPassword | beginMfa | confirmMfa
  | disableMfa | validate => exact hstart _ hstep

theorem preserved_inv : Preserved (Step P) (Inv P) :=
  fun _ _ _ hi h => (step_spec hi h).1

theorem step_generation (hi : Inv P s) (h : Step P s e t) (tenantId userId : String) :
    generation s.store tenantId userId ≤ generation t.store tenantId userId := by
  obtain ⟨-,o,hst,-,heff⟩ := step_spec hi h
  rw [← hst]
  exact heff.grows.generation tenantId userId

theorem run_generation (hi : Inv P s) {h : List Event} (hr : Run (Step P) s h t)
    (tenantId userId : String) :
    generation s.store tenantId userId ≤ generation t.store tenantId userId := by
  refine (hr.invariant (I := fun _ t => Inv P t ∧
    generation s.store tenantId userId ≤ generation t.store tenantId userId)
    ⟨hi,le_rfl⟩ ?_).2
  intro _ u e v hu hstep
  exact ⟨preserved_inv _ _ _ hu.1 hstep,
    hu.2.trans (step_generation hu.1 hstep tenantId userId)⟩

theorem step_raised (hi : Inv P s) (h : Step P s e t) {tenantId userId : String}
    (he : changes tenantId userId e = true) :
    generation s.store tenantId userId < generation t.store tenantId userId := by
  obtain ⟨-,o,hst,rfl,heff⟩ := step_spec hi h
  rw [← hst]
  exact heff.raised tenantId userId he

theorem step_minted (hi : Inv P s) {tenantId userId : String} {g : ℕ}
    (h : Step P s (.loggedIn tenantId userId g) t) :
    generation t.store tenantId userId = g := by
  obtain ⟨-,o,hst,he,heff⟩ := step_spec hi h
  rw [← hst]
  exact heff.minted tenantId userId g he

theorem silences_invite (token : String) :
    Silences (Step P) (Inv P) (fun e => usesInvite token e = true)
      (fun s => Consumed s.store.userPasswordInvites (P.hashToken token)) where
  kept s e t hi hb h := by
    obtain ⟨-,o,hst,-,heff⟩ := step_spec hi h
    rw [← hst]
    exact hb.extends heff.grows.invites
  quiet s e t hi hb h he := by
    obtain ⟨-,o,-,rfl,heff⟩ := step_spec hi h
    exact (heff.invite token he).1 hb

theorem silences_reset (token : String) :
    Silences (Step P) (Inv P) (fun e => usesReset token e = true)
      (fun s => Consumed s.store.userPasswordResets (P.hashToken token)) where
  kept s e t hi hb h := by
    obtain ⟨-,o,hst,-,heff⟩ := step_spec hi h
    rw [← hst]
    exact hb.extends heff.grows.resets
  quiet s e t hi hb h he := by
    obtain ⟨-,o,-,rfl,heff⟩ := step_spec hi h
    exact (heff.reset token he).1 hb

theorem invite_at_most_once (hi : Inv P s) {h : List Event} (hr : Run (Step P) s h t)
    (token : String) : (h.filter fun e => usesInvite token e = true).length ≤ 1 := by
  refine (silences_invite token).at_most_once preserved_inv ?_ hi hr
  intro u e v hu hstep he
  obtain ⟨-,o,hst,rfl,heff⟩ := step_spec hu hstep
  rw [← hst]
  exact (heff.invite token he).2

theorem reset_at_most_once (hi : Inv P s) {h : List Event} (hr : Run (Step P) s h t)
    (token : String) : (h.filter fun e => usesReset token e = true).length ≤ 1 := by
  refine (silences_reset token).at_most_once preserved_inv ?_ hi hr
  intro u e v hu hstep he
  obtain ⟨-,o,hst,rfl,heff⟩ := step_spec hu hstep
  rw [← hst]
  exact (heff.reset token he).2

theorem step_valid (hi : Inv P s) {tenantId userId : String} {g : Option ℕ}
    (h : Step P s (.validated tenantId userId g true) t) :
    g.getD 1 = generation t.store tenantId userId := by
  obtain ⟨-,o,hst,he,heff⟩ := step_spec hi h
  rw [← hst]
  exact heff.validated tenantId userId g he

/-- A token from before a credential change is refused after it. -/
theorem stale_token (hi : Inv P s) {h k l : List Event} {tenantId userId : String} {g : ℕ}
    (hr : Run (Step P) s (h++.loggedIn tenantId userId g::(k++e::l)) t)
    (he : changes tenantId userId e = true) :
    .validated tenantId userId (some g) true ∉ l := by
  obtain ⟨a,ha,hr⟩ := hr.split
  have hia : Inv P a := preserved_inv.run hi ha
  obtain ⟨b,hlogin,hr⟩ := hr.head
  have hib : Inv P b := preserved_inv _ _ _ hia hlogin
  obtain ⟨c,hc,hr⟩ := hr.split
  have hic : Inv P c := preserved_inv.run hib hc
  obtain ⟨d,hchange,hr⟩ := hr.head
  have hid : Inv P d := preserved_inv _ _ _ hic hchange
  intro hmem
  obtain ⟨l₁,l₂,rfl⟩ := List.append_of_mem hmem
  obtain ⟨u,hu,hr⟩ := hr.split
  have hiu : Inv P u := preserved_inv.run hid hu
  obtain ⟨v,hv,-⟩ := hr.head
  have hlt : g < g := by
    calc g = generation b.store tenantId userId := (step_minted hia hlogin).symm
      _ ≤ generation c.store tenantId userId := run_generation hib hc tenantId userId
      _ < generation d.store tenantId userId := step_raised hic hchange he
      _ ≤ generation u.store tenantId userId := run_generation hid hu tenantId userId
      _ ≤ generation v.store tenantId userId := step_generation hiu hv tenantId userId
      _ = g := (step_valid hiu hv).symm
  exact absurd hlt (lt_irrefl g)

end

/-- What revocation means for every run from a state. -/
structure Revokes (R : State → Event → State → Prop) (s : State) : Prop where
  monotone : ∀ h a k t,Run R s h a → Run R a k t → ∀ tenantId userId,
    generation a.store tenantId userId ≤ generation t.store tenantId userId
  raised : ∀ h a e t,Run R s h a → R a e t → ∀ tenantId userId,
    changes tenantId userId e = true →
      generation a.store tenantId userId < generation t.store tenantId userId
  valid : ∀ h a t tenantId userId g,Run R s h a →
    R a (.validated tenantId userId (some g) true) t → g = generation t.store tenantId userId
  stale : ∀ h k l e t tenantId userId g,
    Run R s (h++.loggedIn tenantId userId g::(k++e::l)) t → changes tenantId userId e = true →
      .validated tenantId userId (some g) true ∉ l
  invite : ∀ h t,Run R s h t → ∀ token,
    (h.filter fun e => usesInvite token e = true).length ≤ 1
  reset : ∀ h t,Run R s h t → ∀ token,
    (h.filter fun e => usesReset token e = true).length ≤ 1

/-- Sessions end with their credential in every run that never changes an account at the
last safe generation. -/
theorem sessions_revoked_below_last_generation (P : Platform) (s : Store)
    (hs : UsableStore s) : Revokes (Step P) ⟨s,[]⟩ := by
  have hi : Inv P ⟨s,[]⟩ := ⟨hs,by simp⟩
  constructor
  · intro h a k t ha ht tenantId userId
    exact run_generation (preserved_inv.run hi ha) ht tenantId userId
  · intro h a e t ha hstep tenantId userId he
    exact step_raised (preserved_inv.run hi ha) hstep he
  · intro h a t tenantId userId g ha hstep
    exact step_valid (preserved_inv.run hi ha) hstep
  · intro h k l e t tenantId userId g hr he
    exact stale_token hi hr he
  · intro h t hr token
    exact invite_at_most_once hi hr token
  · intro h t hr token
    exact reset_at_most_once hi hr token

def plainPlatform : Platform where
  foldEmail := id
  hashToken := id
  verifyPassword password hash := password == hash
  needsRehash _ := false
  assessPassword _ _ := true
  isDemoPassword _ := false
  secretEncryptionKey := none
  decryptSecret _ _ _ _ _ := none
  verifyTotp _ _ _ := none
  mintsSessions := true

/-- One active account with an open invitation. -/
def oneAccount (g : ℕ) : Store where
  users := [⟨"user","tenant","user@example.test",some .active⟩]
  userCredentials := [{ newCredential "tenant" "user" "old" 0 with sessionGeneration := some g }]
  userPasswordInvites := [⟨"invite","tenant","user","token",10,none⟩]
  userPasswordResets := []

theorem one_account_revoked : UsableStore (oneAccount 1) ∧
    Revokes (Step plainPlatform) ⟨oneAccount 1,[]⟩ := by
  have hs : UsableStore (oneAccount 1) := by
    intro c hc
    cases List.mem_singleton.mp hc
    exact ⟨by decide,by decide,nofun⟩
  exact ⟨hs,sessions_revoked_below_last_generation plainPlatform _ hs⟩

/-- An account at the last safe generation takes a new password, and a session of
generation 1 is valid again. -/
theorem last_generation_not_revoked : UsableStore (oneAccount maxSafeInteger) ∧
    ¬ Revokes (AnyStep plainPlatform) ⟨oneAccount maxSafeInteger,[]⟩ := by
  constructor
  · intro c hc
    cases List.mem_singleton.mp hc
    exact ⟨by decide,by decide,nofun⟩
  · intro hrev
    let s₁ := (step plainPlatform 1 ⟨oneAccount maxSafeInteger,[]⟩
      (.acceptInvite "token" "new" 1)).1
    let s₂ := (step plainPlatform 1 s₁ (.resume 0 "hash")).1
    let s₃ := (step plainPlatform 1 s₂ (.validate "tenant" "user" (some 1))).1
    have h₁ : AnyStep plainPlatform ⟨oneAccount maxSafeInteger,[]⟩ .quiet s₁ :=
      ⟨1,_,Prod.ext rfl (by decide)⟩
    have h₂ : AnyStep plainPlatform s₁ (.passwordSet "tenant" "user" "token") s₂ :=
      ⟨1,_,Prod.ext rfl (by decide)⟩
    have h₃ : AnyStep plainPlatform s₂ (.validated "tenant" "user" (some 1) true) s₃ :=
      ⟨1,_,Prod.ext rfl (by decide)⟩
    have hbad := hrev.valid _ s₂ s₃ "tenant" "user" 1 (.step (.step .start h₁) h₂) h₃
    exact absurd hbad (by decide)

end AstraNull.SessionRevocation

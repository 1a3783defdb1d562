import Mathlib
import AstraNull.ScriptText

/-!
# Authentication of probe worker requests

The payload of `workerRequestSigningPayload` joins its components with line feeds.
Method, path, time stamp and the header values have no line break, the body is
arbitrary, and the perspective is an optional last line. The authentication
function is stated with every refusal it can answer before and after the
comparison of signatures.

`Number(timestamp)`, the perspective registry and the keyed digest are parameters:
the results hold for every conversion and every registry, and for every digest
that is injective in the message.
-/
namespace AstraNull.WorkerRequestSigning
open ScriptText

/-- Decoded text. Header values and decoded bodies have no unpaired surrogate. -/
abbrev Text := List Char

/-- The components of a request that enter the signature. -/
structure Request where
  method : Text
  path : Text
  timestamp : Text
  body : Text
  worker : Text
  tenant : Text
  perspective : Option Text
deriving DecidableEq

def lineFeed : Char := '\n'

def carriageReturn : Char := '\r'

/-- Neither line break character occurs. -/
def LineFree (s : Text) : Prop := lineFeed ∉ s ∧ carriageReturn ∉ s

instance (s : Text) : Decidable (LineFree s) := inferInstanceAs (Decidable (_ ∧ _))

def perspectiveTag : Text := "perspective:".toList

/-- The optional components are absent or empty alike. -/
def workerRequestSigningPayload (method path timestamp bodyText : Text)
    (tenantId : Option Text) (workerId : Text) (perspectiveId : Option Text) :
    Text :=
  let payload := "pw2".toList++lineFeed::(method++lineFeed::(path++lineFeed::(timestamp++
    lineFeed::(bodyText++lineFeed::workerId))))
  let payload := match tenantId with
    | none => payload
    | some t => if t = [] then payload else payload++lineFeed::t
  match perspectiveId with
  | none => payload
  | some p => if p = [] then payload else payload++lineFeed::(perspectiveTag++p)

/-- Lowercase letters, digits and hyphens, one to thirty-two of them. -/
def isValidPerspectiveId (value : Text) : Bool :=
  1 ≤ value.length && value.length ≤ 32 && value.all fun c =>
    let n := c.toNat
    (97 ≤ n && n ≤ 122) || (48 ≤ n && n ≤ 57) || n = 45

structure Headers where
  workerId : Option Text
  timestamp : Option Text
  signature : Option Text
  tenantId : Option Text
  perspectiveId : Option Text

structure RuntimeConfig where
  signedWorker : Bool
  probeWorkerSecret : Text

/-- The parts of the surroundings the function consults. -/
structure Environment where
  /-- `createHmac('sha256', secret).update(text, 'utf8').digest('base64url')` -/
  hmac : Text → ByteArray → Text
  /-- `Number(text)` when it is finite. -/
  number : Text → Option ℚ
  nowSec : ℤ
  /-- The secret of a perspective; the registry may be invalid. -/
  perspectiveWorkerSecret : Text → Except Unit (Option Text)

structure Refusal where
  status : ℕ
  error : String
  message : String
deriving DecidableEq

structure WorkerContext where
  workerId : Text
  tenantId : Text
  perspectiveId : Option Text
  perspectiveAuthenticated : Bool
deriving DecidableEq

def maxTimestampSkewSec : ℚ := 300

def signProbeWorkerRequest (env : Environment) (r : Request) (secret : Text) : Text :=
  env.hmac secret (String.ofList (workerRequestSigningPayload r.method r.path r.timestamp r.body
    (some r.tenant) r.worker r.perspective)).toUTF8

def trim (s : Text) : Text := trimBy (fun c => isWhiteSpace c.toNat) s

def safeEqualUtf8 (a b : Text) : Bool :=
  if a = [] ∨ b = [] then false
  else decide ((String.ofList a).toUTF8 = (String.ofList b).toUTF8)

/-- A header that is absent or empty. -/
def blank : Option Text → Bool
  | none => true
  | some s => s = []

def present (header : Option Text) : Option Text := if blank header then none else header

def authenticateProbeWorker (env : Environment) (config : RuntimeConfig) (headers : Headers)
    (method path bodyText : Text) : Except Refusal WorkerContext := do
  if !config.signedWorker then
    throw ⟨503,"probe_worker_unavailable","Probe worker mode is not enabled."⟩
  if config.probeWorkerSecret = [] then
    throw ⟨503,"probe_worker_unconfigured","Probe worker secret is not configured."⟩
  let perspective := present headers.perspectiveId
  if perspective.any fun p => !isValidPerspectiveId p then
    throw ⟨401,"unauthorized","Invalid x-probe-perspective-id."⟩
  if blank headers.workerId || blank headers.timestamp || blank headers.signature then
    throw ⟨401,"unauthorized","Missing probe worker authentication headers."⟩
  if trim (headers.tenantId.getD []) = [] then
    throw ⟨401,"unauthorized","Missing x-probe-tenant-id for signed probe worker requests."⟩
  let timestamp := headers.timestamp.getD []
  match env.number timestamp with
  | none => throw ⟨401,"unauthorized","Invalid probe worker timestamp."⟩
  | some ts =>
    if |(env.nowSec : ℚ)-ts| > maxTimestampSkewSec then
      throw ⟨401,"unauthorized","Probe worker timestamp is too old or too far in the future."⟩
    let perspectiveSecret ← match perspective with
      | none => pure none
      | some p => match env.perspectiveWorkerSecret p with
        | .ok s => pure s
        | .error _ => throw ⟨503,"probe_perspectives_unconfigured",
            "Probe perspective registry is invalid."⟩
    let request : Request := ⟨method,path,timestamp,bodyText,headers.workerId.getD [],
      headers.tenantId.getD [],perspective⟩
    let expected := signProbeWorkerRequest env request
      (perspectiveSecret.getD config.probeWorkerSecret)
    if safeEqualUtf8 (headers.signature.getD []) expected then
      pure ⟨request.worker,request.tenant,perspective,perspectiveSecret.any (· ≠ [])⟩
    else if perspectiveSecret.any (· ≠ []) then
      throw ⟨403,"probe_perspective_unauthenticated",
        "This probe perspective requires requests signed with its own worker secret."⟩
    else throw ⟨401,"unauthorized","Invalid probe worker signature."⟩

/-- The values a request can have when its signature is compared: header values,
method and path come without line breaks from the transport, the rest is checked. -/
structure Reaches (env : Environment) (r : Request) : Prop where
  method_line : LineFree r.method
  path_line : LineFree r.path
  timestamp_line : LineFree r.timestamp
  worker_line : LineFree r.worker
  tenant_line : LineFree r.tenant
  worker_ne : r.worker ≠ []
  timestamp_ne : r.timestamp ≠ []
  tenant_trim : trim r.tenant ≠ []
  timestamp_number : ∃ ts,env.number r.timestamp = some ts ∧
    |(env.nowSec : ℚ)-ts| ≤ maxTimestampSkewSec
  perspective_valid : ∀ p ∈ r.perspective,isValidPerspectiveId p

/-- The headers a client sends for a request. -/
def headersFor (r : Request) (signature : Text) : Headers :=
  ⟨some r.worker,some r.timestamp,some signature,some r.tenant,r.perspective⟩

def Accepted (env : Environment) (config : RuntimeConfig) (r : Request) (signature : Text) :
    Prop :=
  ∃ ctx,authenticateProbeWorker env config (headersFor r signature) r.method r.path r.body =
    .ok ctx

/-- The secret that signs a request, when its perspective resolves. -/
def secretFor (env : Environment) (config : RuntimeConfig) (r : Request) : Option Text :=
  match r.perspective with
  | none => some config.probeWorkerSecret
  | some p => match env.perspectiveWorkerSecret p with
    | .ok s => some (s.getD config.probeWorkerSecret)
    | .error _ => none

theorem valid_ne_nil {p : Text} (h : isValidPerspectiveId p) : p ≠ [] := by
  rintro rfl
  exact absurd h (by decide)

theorem present_eq {p : Option Text} (h : p ≠ some []) : present p = p := by
  unfold present
  split_ifs with hb
  · cases p with
    | none => rfl
    | some p => exact absurd (congrArg some (of_decide_eq_true hb)) h
  · rfl

/-- What an accepted request has passed: every check, and the comparison with the
signature of its own payload. -/
structure Passed (env : Environment) (config : RuntimeConfig) (r : Request) (signature : Text) :
    Prop where
  perspective_valid : ∀ p ∈ r.perspective,isValidPerspectiveId p
  worker_ne : r.worker ≠ []
  timestamp_ne : r.timestamp ≠ []
  tenant_trim : trim r.tenant ≠ []
  timestamp_number : ∃ ts,env.number r.timestamp = some ts ∧
    |(env.nowSec : ℚ)-ts| ≤ maxTimestampSkewSec
  compared : ∃ secret,secretFor env config r = some secret ∧
    safeEqualUtf8 signature (signProbeWorkerRequest env r secret) = true

/-- A refusal that was not taken. -/
theorem guard_passed {c : Prop} [Decidable c] {e : Refusal} {x : Except Refusal WorkerContext}
    {ctx : WorkerContext} (h : (if c then .error e else x) = .ok ctx) : ¬ c ∧ x = .ok ctx := by
  split_ifs at h with hc
  exact ⟨hc,h⟩

theorem Accepted.passed {env : Environment} {config : RuntimeConfig} {r : Request}
    {signature : Text} (h : Accepted env config r signature) (hp : r.perspective ≠ some []) :
    Passed env config r signature := by
  obtain ⟨ctx,h⟩ := h
  unfold authenticateProbeWorker at h
  simp only [headersFor,throw,throwThe,MonadExceptOf.throw,bind,Except.bind,pure,Except.pure,
    present_eq hp,Option.getD_some] at h
  obtain ⟨_,h⟩ := guard_passed h
  obtain ⟨_,h⟩ := guard_passed h
  obtain ⟨hvalid,h⟩ := guard_passed h
  obtain ⟨hheaders,h⟩ := guard_passed h
  obtain ⟨htenant,h⟩ := guard_passed h
  cases hts : env.number r.timestamp with
  | none => simp only [hts] at h; cases h
  | some ts =>
      simp only [hts] at h
      obtain ⟨hskew,h⟩ := guard_passed h
      have hcompared : ∃ secret,secretFor env config r = some secret ∧
          safeEqualUtf8 signature (signProbeWorkerRequest env r secret) = true := by
        rw [secretFor]
        split at h
        · split_ifs at h with heq
          exact ⟨config.probeWorkerSecret,rfl,heq⟩
        · split at h
          · next s hs =>
              split_ifs at h with heq
              exact ⟨s.getD config.probeWorkerSecret,rfl,heq⟩
          · cases h
      refine ⟨?_,?_,?_,htenant,⟨ts,hts,not_lt.mp hskew⟩,hcompared⟩
      · intro p hr
        rw [hr] at hvalid
        simpa using hvalid
      · intro hw
        simp [hw,blank] at hheaders
      · intro ht
        simp [ht,blank] at hheaders

/-- Over a transport without line breaks, acceptance implies the stated domain. -/
theorem Accepted.reaches {env : Environment} {config : RuntimeConfig} {r : Request}
    {signature : Text} (h : Accepted env config r signature) (hp : r.perspective ≠ some [])
    (hline : LineFree r.method ∧ LineFree r.path ∧ LineFree r.timestamp ∧ LineFree r.worker ∧
      LineFree r.tenant) : Reaches env r := by
  have hpass := h.passed hp
  obtain ⟨hm,hpath,ht,hw,htenant⟩ := hline
  exact ⟨hm,hpath,ht,hw,htenant,hpass.worker_ne,hpass.timestamp_ne,
    hpass.tenant_trim,hpass.timestamp_number,hpass.perspective_valid⟩

/-- A request in the domain is accepted with its own signature. -/
theorem accepted_own {env : Environment} {config : RuntimeConfig} {r : Request} {secret : Text}
    (h : Reaches env r) (hmode : config.signedWorker = true) (hc : config.probeWorkerSecret ≠ [])
    (hs : secretFor env config r = some secret) (hne : signProbeWorkerRequest env r secret ≠ []) :
    Accepted env config r (signProbeWorkerRequest env r secret) := by
  have hp : r.perspective ≠ some [] := by
    intro hp
    exact valid_ne_nil (h.perspective_valid [] hp) rfl
  have hvalid : ¬ (r.perspective.any fun p => !isValidPerspectiveId p) = true := by
    intro hany
    obtain ⟨p,hp,hbad⟩ := (Option.any_eq_true _ _).mp hany
    rw [h.perspective_valid p hp] at hbad
    cases hbad
  have hheaders : ¬ (blank (some r.worker) || blank (some r.timestamp) ||
      blank (some (signProbeWorkerRequest env r secret))) = true := by
    simp [blank,h.worker_ne,h.timestamp_ne,hne]
  have hself : safeEqualUtf8 (signProbeWorkerRequest env r secret)
      (signProbeWorkerRequest env r secret) = true := by
    rw [safeEqualUtf8,if_neg (by simp [hne])]
    exact decide_eq_true rfl
  obtain ⟨ts,hts,hskew⟩ := h.timestamp_number
  unfold Accepted authenticateProbeWorker
  simp only [headersFor,throw,throwThe,MonadExceptOf.throw,bind,Except.bind,pure,Except.pure,
    present_eq hp,Option.getD_some,hmode,Bool.not_true,Bool.false_eq_true,if_false,if_neg hc,
    if_neg hvalid,if_neg hheaders,if_neg h.tenant_trim,hts,if_neg (not_lt.mpr hskew)]
  rw [secretFor] at hs
  split at hs
  · cases Option.some.inj hs
    exact ⟨_,if_pos hself⟩
  · split at hs
    · cases Option.some.inj hs
      exact ⟨_,if_pos hself⟩
    · cases hs

/-- The signed text of a request. -/
def payload (r : Request) : Text :=
  workerRequestSigningPayload r.method r.path r.timestamp r.body (some r.tenant) r.worker
    r.perspective

/-- The part of the payload in which the body stands. -/
def tail (r : Request) : Text :=
  match r.perspective with
  | none => (r.body++lineFeed::r.worker)++lineFeed::r.tenant
  | some p => ((r.body++lineFeed::r.worker)++lineFeed::r.tenant)++lineFeed::(perspectiveTag++p)

theorem trim_nil : trim [] = [] := rfl

theorem Reaches.tenant_ne {env : Environment} {r : Request} (h : Reaches env r) :
    r.tenant ≠ [] := by
  intro hr
  have ht := h.tenant_trim
  rw [hr] at ht
  exact ht trim_nil

theorem payload_eq {env : Environment} {r : Request} (h : Reaches env r) :
    payload r = "pw2".toList++lineFeed::(r.method++lineFeed::(r.path++lineFeed::(r.timestamp++
      lineFeed::tail r))) := by
  unfold payload workerRequestSigningPayload tail
  simp only [if_neg h.tenant_ne]
  cases hr : r.perspective with
  | none => simp only [List.append_assoc,List.cons_append]
  | some p =>
      have hne := valid_ne_nil (h.perspective_valid p hr)
      simp only [if_neg hne,List.append_assoc,List.cons_append]

theorem payload_head {env : Environment} {r r' : Request} (h : Reaches env r)
    (h' : Reaches env r') (heq : payload r = payload r') :
    r.method = r'.method ∧ r.path = r'.path ∧ r.timestamp = r'.timestamp ∧ tail r = tail r' := by
  rw [payload_eq h,payload_eq h'] at heq
  have h0 := (List.cons.inj (List.append_cancel_left heq)).2
  obtain ⟨hm,h1⟩ := before_separator h.method_line.1 h'.method_line.1 h0
  obtain ⟨hp,h2⟩ := before_separator h.path_line.1 h'.path_line.1 h1
  obtain ⟨ht,h3⟩ := before_separator h.timestamp_line.1 h'.timestamp_line.1 h2
  exact ⟨hm,hp,ht,h3⟩

theorem perspective_line {p : Text} (h : isValidPerspectiveId p) :
    LineFree (perspectiveTag++p) := by
  simp only [isValidPerspectiveId,Bool.and_eq_true,List.all_eq_true] at h
  have hbad : ∀ c : Char,c.toNat < 45 → c ∉ p := by
    intro c hc hmem
    have := h.2 c hmem
    simp only [Bool.or_eq_true,Bool.and_eq_true,decide_eq_true_eq] at this
    omega
  refine ⟨?_,?_⟩
  · rw [List.mem_append,not_or]
    exact ⟨by decide,hbad _ (by decide)⟩
  · rw [List.mem_append,not_or]
    exact ⟨by decide,hbad _ (by decide)⟩

/-- Two requests without a perspective, or two with one, share no tail. -/
theorem tail_injective {env : Environment} {r r' : Request} (h : Reaches env r)
    (h' : Reaches env r') (hsame : r.perspective.isSome = r'.perspective.isSome)
    (heq : tail r = tail r') :
    r.body = r'.body ∧ r.worker = r'.worker ∧ r.tenant = r'.tenant ∧
      r.perspective = r'.perspective := by
  unfold tail at heq
  cases hp : r.perspective with
  | none =>
      cases hp' : r'.perspective with
      | none =>
          rw [hp,hp'] at heq
          obtain ⟨h1,ht⟩ := after_separator h.tenant_line.1 h'.tenant_line.1 heq
          obtain ⟨hb,hw⟩ := after_separator h.worker_line.1 h'.worker_line.1 h1
          exact ⟨hb,hw,ht,rfl⟩
      | some p' => rw [hp,hp'] at hsame; cases hsame
  | some p =>
      cases hp' : r'.perspective with
      | none => rw [hp,hp'] at hsame; cases hsame
      | some p' =>
          rw [hp,hp'] at heq
          obtain ⟨h1,h2⟩ := after_separator (perspective_line (h.perspective_valid p hp)).1
            (perspective_line (h'.perspective_valid p' hp')).1 heq
          obtain ⟨h3,ht⟩ := after_separator h.tenant_line.1 h'.tenant_line.1 h1
          obtain ⟨hb,hw⟩ := after_separator h.worker_line.1 h'.worker_line.1 h3
          rw [List.append_cancel_left h2]
          exact ⟨hb,hw,ht,rfl⟩

/-- A request with a perspective and one without it share their tail exactly when
the second reads the perspective line as its tenant. -/
theorem tail_collision {env : Environment} {r r' : Request} {p : Text} (h : Reaches env r)
    (h' : Reaches env r') (hp : r.perspective = some p) (hp' : r'.perspective = none) :
    tail r = tail r' ↔ r'.tenant = perspectiveTag++p ∧ r'.worker = r.tenant ∧
      r'.body = r.body++lineFeed::r.worker := by
  unfold tail
  rw [hp,hp']
  constructor
  · intro heq
    obtain ⟨h1,ht⟩ := after_separator (perspective_line (h.perspective_valid p hp)).1
      h'.tenant_line.1 heq
    obtain ⟨hb,hw⟩ := after_separator h.tenant_line.1 h'.worker_line.1 h1
    exact ⟨ht.symm,hw.symm,hb.symm⟩
  · rintro ⟨ht,hw,hb⟩
    rw [ht,hw,hb]

/-- The tenant header spells a perspective line, the worker header can stand for a
tenant, and the last line of the body can stand for a worker. -/
def Imitates (r : Request) : Prop :=
  ∃ p b w,isValidPerspectiveId p ∧ r.tenant = perspectiveTag++p ∧ r.body = b++lineFeed::w ∧
    w ≠ [] ∧ LineFree w ∧ trim r.worker ≠ []

/-- No other request has the payload of this one. -/
def Unambiguous (r : Request) : Prop := r.perspective = none ∧ ¬ Imitates r

/-- The request that reads a perspective line as its tenant. -/
def shifted (r : Request) (p : Text) : Request :=
  { r with
    body := r.body++lineFeed::r.worker
    worker := r.tenant
    tenant := perspectiveTag++p
    perspective := none }

theorem trim_tag (p : Text) : trim (perspectiveTag++p) ≠ [] :=
  trimBy_ne_nil (List.mem_append_left p (show 'p' ∈ perspectiveTag by decide)) (by decide)

theorem payload_of_tail {env : Environment} {r r' : Request} (h : Reaches env r)
    (h' : Reaches env r') (hm : r.method = r'.method) (hp : r.path = r'.path)
    (ht : r.timestamp = r'.timestamp) (heq : tail r = tail r') : payload r = payload r' := by
  rw [payload_eq h,payload_eq h',hm,hp,ht,heq]

theorem Reaches.shifted {env : Environment} {r : Request} {p : Text} (h : Reaches env r)
    (hp : r.perspective = some p) : Reaches env (shifted r p) :=
  ⟨h.method_line,h.path_line,h.timestamp_line,h.tenant_line,
    perspective_line (h.perspective_valid p hp),h.tenant_ne,
    h.timestamp_ne,trim_tag p,h.timestamp_number,by rintro q ⟨⟩⟩

theorem payload_shifted {env : Environment} {r : Request} {p : Text} (h : Reaches env r)
    (hp : r.perspective = some p) : payload r = payload (shifted r p) :=
  payload_of_tail h (h.shifted hp) rfl rfl rfl
    ((tail_collision h (h.shifted hp) hp rfl).mpr ⟨rfl,rfl,rfl⟩)

/-- A payload determines the request exactly for the unambiguous requests. -/
theorem payload_unique_iff {env : Environment} {r : Request} (h : Reaches env r) :
    (∀ r',Reaches env r' → payload r' = payload r → r' = r) ↔ Unambiguous r := by
  constructor
  · intro hall
    have hnone : r.perspective = none := by
      cases hp : r.perspective with
      | none => rfl
      | some p =>
          have heq := hall _ (h.shifted hp) (payload_shifted h hp).symm
          have hs : (shifted r p).perspective = r.perspective := by rw [heq]
          rw [hp] at hs
          cases hs
    refine ⟨hnone,?_⟩
    rintro ⟨p,b,w,hvalid,ht,hb,hw,hline,htrim⟩
    let r' : Request := ⟨r.method,r.path,r.timestamp,b,w,r.worker,some p⟩
    have h' : Reaches env r' := by
      refine ⟨h.method_line,h.path_line,h.timestamp_line,hline,h.worker_line,hw,h.timestamp_ne,htrim,
        h.timestamp_number,?_⟩
      rintro q hq
      cases Option.some.inj hq
      exact hvalid
    have htail := (tail_collision h' h rfl hnone).mpr ⟨ht,rfl,hb⟩
    have heq := hall r' h' (payload_of_tail h' h rfl rfl rfl htail)
    have hs : r'.perspective = r.perspective := by rw [heq]
    rw [hnone] at hs
    cases hs
  · rintro ⟨hnone,himit⟩ r' h' heq
    obtain ⟨hm,hp,ht,htail⟩ := payload_head h' h heq
    cases hp' : r'.perspective with
    | none =>
        obtain ⟨hb,hw,htenant,hpersp⟩ := tail_injective h' h (by rw [hnone,hp']) htail
        cases r
        cases r'
        simp_all
    | some p =>
        obtain ⟨h1,h2,h3⟩ := (tail_collision h' h hp' hnone).mp htail
        refine absurd ⟨p,r'.body,r'.worker,h'.perspective_valid p hp',h1,h3,h'.worker_ne,
          h'.worker_line,?_⟩ himit
        rw [h2]
        exact h'.tenant_trim

theorem safeEqualUtf8_eq {a b : Text} (h : safeEqualUtf8 a b = true) : a = b := by
  unfold safeEqualUtf8 at h
  split_ifs at h
  exact String.ofList_injective (String.toByteArray_inj.mp (of_decide_eq_true h))

/-- A request is bound by its signature exactly when it is unambiguous: no other
request has its payload, and no signature accepted for it is accepted for another
request under the same secret. -/
theorem request_bound_iff (env : Environment) (config : RuntimeConfig)
    (hinj : ∀ secret,Function.Injective (env.hmac secret)) (r : Request) (h : Reaches env r) :
    ((∀ r',Reaches env r' → payload r' = payload r → r' = r) ∧
      ∀ r' signature,Reaches env r' → secretFor env config r' = secretFor env config r →
        Accepted env config r signature → Accepted env config r' signature → r' = r) ↔
      Unambiguous r := by
  have hne : ∀ r',Reaches env r' → r'.perspective ≠ some [] := by
    intro r' h' hp
    exact valid_ne_nil (h'.perspective_valid [] hp) rfl
  rw [← payload_unique_iff h]
  refine ⟨fun hall => hall.1,fun hall => ⟨hall,?_⟩⟩
  intro r' signature h' hsecret ha ha'
  obtain ⟨s,hs,heq⟩ := (ha.passed (hne r h)).compared
  obtain ⟨s',hs',heq'⟩ := (ha'.passed (hne r' h')).compared
  rw [hsecret,hs] at hs'
  cases Option.some.inj hs'
  have hsig := (safeEqualUtf8_eq heq).symm.trans (safeEqualUtf8_eq heq')
  have hpay := String.ofList_injective (String.toByteArray_inj.mp (hinj s hsig))
  exact hall r' h' hpay.symm

/-- The numeric value of a plain digit string. -/
def digitNumber (t : Text) : Option ℚ :=
  if t ≠ [] ∧ t.all Char.isDigit then some (Nat.ofDigitChars 10 t 0 : ℕ) else none

/-- A digest that repeats its message, and the conversion of plain digit strings. -/
def sampleEnvironment : Environment where
  hmac secret message := secret++ '.'::message.data.toList.map fun b => Char.ofNat b.toNat
  number := digitNumber
  nowSec := 1700000000
  perspectiveWorkerSecret _ := .ok none

def sampleConfig : RuntimeConfig := ⟨true,"worker-secret".toList⟩

/-- A lease request of one worker, optionally from a perspective. -/
def leaseRequest (perspective : Option Text) : Request :=
  ⟨"POST".toList,"/internal/probe/jobs/lease".toList,"1700000000".toList,"body".toList,
    "worker-1".toList,"tenant-a".toList,perspective⟩

theorem sampleEnvironment_injective (secret : Text) :
    Function.Injective (sampleEnvironment.hmac secret) := by
  intro m n h
  have hl := (List.cons.inj (List.append_cancel_left h)).2
  have hb : Function.Injective fun b : UInt8 => Char.ofNat b.toNat := by
    intro a b hab
    have hn := congrArg Char.toNat hab
    have ha := a.toNat_lt
    have hb := b.toNat_lt
    simp only at hn
    rw [JsonText.toNat_ofNat (Or.inl (by omega)),JsonText.toNat_ofNat (Or.inl (by omega))] at hn
    exact UInt8.toNat_inj.mp hn
  exact ByteArray.ext (Array.toList_inj.mp (List.map_injective_iff.mpr hb hl))

theorem leaseRequest_reaches (perspective : Option Text)
    (h : ∀ p ∈ perspective,isValidPerspectiveId p) :
    Reaches sampleEnvironment (leaseRequest perspective) := by
  have hts : digitNumber "1700000000".toList = some 1700000000 := by
    have hv : Nat.ofDigitChars 10 "1700000000".toList 0 = 1700000000 := by decide
    rw [digitNumber,if_pos (by decide),hv]
    norm_num
  exact ⟨show LineFree "POST".toList by decide,
    show LineFree "/internal/probe/jobs/lease".toList by decide,
    show LineFree "1700000000".toList by decide,show LineFree "worker-1".toList by decide,
    show LineFree "tenant-a".toList by decide,show "worker-1".toList ≠ [] by decide,
    show "1700000000".toList ≠ [] by decide,
    trimBy_ne_nil (show 't' ∈ "tenant-a".toList by decide) (by decide),
    ⟨1700000000,hts,by norm_num [sampleEnvironment,maxTimestampSkewSec]⟩,h⟩

theorem lease_request_bound :
    (∀ r',Reaches sampleEnvironment r' → payload r' = payload (leaseRequest none) →
        r' = leaseRequest none) ∧
      ∀ r' signature,Reaches sampleEnvironment r' →
        secretFor sampleEnvironment sampleConfig r' =
          secretFor sampleEnvironment sampleConfig (leaseRequest none) →
        Accepted sampleEnvironment sampleConfig (leaseRequest none) signature →
        Accepted sampleEnvironment sampleConfig r' signature → r' = leaseRequest none := by
  refine (request_bound_iff sampleEnvironment sampleConfig sampleEnvironment_injective _
    (leaseRequest_reaches none (by rintro q ⟨⟩))).mpr ⟨rfl,?_⟩
  rintro ⟨p,b,w,-,ht,-⟩
  exact absurd (List.cons.inj ht).1 (by decide)

/-- The signature of a request from a perspective is accepted for a request of another
worker and another tenant. -/
theorem perspective_request_forged :
    Reaches sampleEnvironment (leaseRequest (some "eu-west".toList)) ∧
      Reaches sampleEnvironment (shifted (leaseRequest (some "eu-west".toList)) "eu-west".toList) ∧
      shifted (leaseRequest (some "eu-west".toList)) "eu-west".toList ≠
        leaseRequest (some "eu-west".toList) ∧
      payload (shifted (leaseRequest (some "eu-west".toList)) "eu-west".toList) =
        payload (leaseRequest (some "eu-west".toList)) ∧
      ∃ signature,
        Accepted sampleEnvironment sampleConfig (leaseRequest (some "eu-west".toList)) signature ∧
        Accepted sampleEnvironment sampleConfig
          (shifted (leaseRequest (some "eu-west".toList)) "eu-west".toList) signature := by
  have hr : Reaches sampleEnvironment (leaseRequest (some "eu-west".toList)) := by
    apply leaseRequest_reaches
    rintro q ⟨⟩
    decide
  have hs := hr.shifted rfl
  have hpay := payload_shifted hr rfl
  have hsig : ∀ r,signProbeWorkerRequest sampleEnvironment r sampleConfig.probeWorkerSecret ≠ [] :=
    fun r => List.append_ne_nil_of_left_ne_nil (by decide) _
  have hown := accepted_own hs rfl (show sampleConfig.probeWorkerSecret ≠ [] by decide) rfl (hsig _)
  have heq : signProbeWorkerRequest sampleEnvironment
        (shifted (leaseRequest (some "eu-west".toList)) "eu-west".toList)
        sampleConfig.probeWorkerSecret =
      signProbeWorkerRequest sampleEnvironment (leaseRequest (some "eu-west".toList))
        sampleConfig.probeWorkerSecret :=
    congrArg (fun t => sampleEnvironment.hmac _ (String.ofList t).toUTF8) hpay.symm
  rw [heq] at hown
  exact ⟨hr,hs,by decide,hpay.symm,_,accepted_own hr rfl (by decide) rfl (hsig _),hown⟩

end AstraNull.WorkerRequestSigning

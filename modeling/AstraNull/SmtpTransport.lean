import Mathlib
import AstraNull.ScriptValue

/-!
# Mail delivery over SMTP

`deliverEmail` with its line reader. The client is a state machine over the events of its
sockets: it reads reply lines, writes one command after each complete reply, and may replace
the socket by a TLS socket in between. Chunks are decoded one by one and cut into lines; the
lines of a burst are all queued before the client goes on, as the handler of the data event
returns first.

With STARTTLS nothing but the greeting and the upgrade request is written in plain text,
credentials are only ever written to the TLS socket, and after the upgrade the client is a
function of what arrives over TLS.
-/
namespace AstraNull.SmtpTransport
open JsonText ScriptText ScriptValue

/-- Decoding of a chunk, upper case and base64 as the platform has them. -/
structure Platform where
  decode : List UInt8 → JsString
  toUpperCase : JsString → JsString
  base64 : JsString → JsString

structure Envelope where
  sender : JsString
  recipient : JsString
  subject : JsString
  htmlBody : JsString

structure Options where
  smtpHost : JsString
  smtpStartTls : Bool
  smtpUsername : JsString
  smtpPassword : JsString

def lineBreaks : List UInt16 := [13,10,0]

def smtpEnvelopeIsSafe (envelope : Envelope) : Bool :=
  let plain := fun s : JsString => s.all fun u => !lineBreaks.contains u
  let address := fun s : JsString => plain s && !s.isEmpty &&
    s.all fun u => !isWhiteSpace u.toNat && u ≠ 60 && u ≠ 62
  address envelope.sender && address envelope.recipient && plain envelope.subject

inductive Socket where
  | plain
  | secure
deriving DecidableEq, Repr

inductive Command where
  | ehlo
  | startTls
  | auth
  | mailFrom
  | rcptTo
  | data
  | message
  | quit
deriving DecidableEq, Repr

/-- What is written, before the line end. -/
def Command.text (P : Platform) (options : Options) (envelope : Envelope) : Command → JsString
  | .ehlo => js "EHLO astranull.local"
  | .startTls => js "STARTTLS"
  | .auth => js "AUTH PLAIN "++P.base64 (0::options.smtpUsername++0::options.smtpPassword)
  | .mailFrom => js "MAIL FROM:<"++envelope.sender++js ">"
  | .rcptTo => js "RCPT TO:<"++envelope.recipient++js ">"
  | .data => js "DATA"
  | .message => [13,10].intercalate [js "From: "++envelope.sender,js "To: "++envelope.recipient,
      js "Subject: "++envelope.subject,js "MIME-Version: 1.0",
      js "Content-Type: text/html; charset=utf-8",[],envelope.htmlBody,js "."]
  | .quit => js "QUIT"

structure LineReader where
  buffer : JsString
  queue : List JsString

def LineReader.empty : LineReader := ⟨[],[]⟩

/-- Complete lines and the rest after the last line feed. -/
def cutLines : JsString → List JsString × JsString
  | [] => ([],[])
  | u::us =>
      let cut := cutLines us
      if u = 10 then ([]::cut.1,cut.2)
      else match cut.1 with
        | [] => ([],u::cut.2)
        | line::lines => ((u::line)::lines,cut.2)

/-- One carriage return at the end is dropped. -/
def dropReturn (line : JsString) : JsString :=
  if line.getLast? = some 13 then line.dropLast else line

def LineReader.onData (reader : LineReader) (text : JsString) : LineReader :=
  let cut := cutLines (reader.buffer++text)
  ⟨cut.2,reader.queue++cut.1.map dropReturn⟩

/-- `parseInt(text, 10)`, nothing for a result that is not a number. -/
def parseInt (text : JsString) : Option ℤ :=
  let text := text.dropWhile fun u => isWhiteSpace u.toNat
  let body := if text.head? = some 45 ∨ text.head? = some 43 then text.drop 1 else text
  let digits := body.takeWhile fun u => 48 ≤ u.toNat && u.toNat ≤ 57
  let value : ℤ := digits.foldl (fun acc u => acc*10+(u.toNat-48 : ℤ)) 0
  if digits = [] then none
  else some (if text.head? = some 45 then -value else value)

structure Response where
  code : ℤ
  text : JsString

/-- A hyphen after the code announces another line. -/
def continues (line : JsString) : Bool := (line.drop 3).head? = some 45

def smtpCapabilityLines (P : Platform) (response : Response) : List JsString :=
  ((response.text.splitOn 10).map fun line =>
    if 4 < line.length then P.toUpperCase (trim (line.drop 4)) else []).filter fun line =>
      !line.isEmpty

def smtpSupportsCapability (P : Platform) (response : Response) (capability : String) : Bool :=
  (smtpCapabilityLines P response).any fun line =>
    line = js capability || (js capability++[32]).isPrefixOf line

def smtpSupportsAuthMechanism (P : Platform) (response : Response) (mechanism : String) : Bool :=
  (smtpCapabilityLines P response).any fun line => (js "AUTH ").isPrefixOf line &&
    ((line.drop 5).splitOnP fun u => isWhiteSpace u.toNat).contains (js mechanism)

structure Delivery where
  status : String
  reason : JsString
  attemptNumber : Option ℕ
  maxAttempts : Option ℕ
  providerError : Option JsString
  exhausted : Option Bool

def webhookMaxAttempts : ℕ := 3

def Delivery.failure (message : JsString) : Delivery :=
  if 1 < webhookMaxAttempts then
    ⟨"provider_retry_scheduled",message,some 1,some webhookMaxAttempts,some message,some false⟩
  else ⟨"provider_failed_dlq",message,some 1,some webhookMaxAttempts,some message,some true⟩

def Delivery.invalidEnvelope : Delivery :=
  ⟨"provider_failed_dlq",js "smtp_envelope_invalid",none,none,some (js "smtp_envelope_invalid"),
    some true⟩

def Delivery.notConfigured : Delivery :=
  ⟨"queued_provider_not_configured",js "smtp_host_not_configured",none,none,none,none⟩

def Delivery.delivered : Delivery :=
  ⟨"delivered_provider",js "email_delivered",none,none,none,none⟩

/-- What the client waits for: the connection, the reply to its last command, or the
handshake. -/
inductive Phase where
  | connecting
  | greeting
  | ehlo
  | startTls
  | handshake
  | secureEhlo
  | auth
  | mailFrom
  | rcptTo
  | data
  | message
  | finished (delivery : Delivery)

def Phase.reading : Phase → Bool
  | .connecting => false
  | .handshake => false
  | .finished _ => false
  | _ => true

def Phase.expectedCodes : Phase → List ℤ
  | .greeting => [220]
  | .startTls => [220]
  | .auth => [235]
  | .rcptTo => [250,251]
  | .data => [354]
  | _ => [250]

structure Session where
  phase : Phase
  socket : Socket
  reader : LineReader
  lines : List JsString
  ehlo : Response
  tlsEstablished : Bool
  written : List (Socket × Command)

namespace Session

def write (s : Session) (command : Command) : Session :=
  { s with written := s.written++[(s.socket,command)] }

/-- Wait for the reply to the command just written. -/
def await (s : Session) (phase : Phase) : Session := { s with phase := phase, lines := [] }

def fail (s : Session) (message : JsString) : Session :=
  { s with phase := .finished (.failure message) }

/-- The TLS socket takes the place of the plain one, with a new reader. -/
def upgrade (s : Session) : Session :=
  ({ s with socket := .secure, tlsEstablished := true, reader := .empty }.write .ehlo).await
    .secureEhlo

end Session

section Client
variable (P : Platform) (options : Options) (envelope : Envelope)

/-- The part after the last greeting: log in when there are credentials, then the mail. -/
def authenticate (s : Session) : Session :=
  if options.smtpUsername ≠ [] then
    if !s.tlsEstablished then s.fail (js "smtp_auth_requires_tls")
    else if !smtpSupportsAuthMechanism P s.ehlo "PLAIN" then
      s.fail (js "smtp_auth_plain_not_supported")
    else (s.write .auth).await .auth
  else (s.write .mailFrom).await .mailFrom

/-- The client goes on after a complete reply with an expected code. -/
def proceed (s : Session) (response : Response) : Session :=
  match s.phase with
  | .greeting => (s.write .ehlo).await .ehlo
  | .ehlo =>
      let s := { s with ehlo := response }
      if options.smtpStartTls then
        if !smtpSupportsCapability P response "STARTTLS" then
          s.fail (js "smtp_starttls_required")
        else (s.write .startTls).await .startTls
      else authenticate P options s
  | .startTls => { s with phase := .handshake }
  | .secureEhlo => authenticate P options { s with ehlo := response }
  | .auth => (s.write .mailFrom).await .mailFrom
  | .mailFrom => (s.write .rcptTo).await .rcptTo
  | .rcptTo => (s.write .data).await .data
  | .data => (s.write .message).await .message
  | .message => (s.write .quit).await (.finished .delivered)
  | _ => s

def onLine (s : Session) (line : JsString) : Session :=
  let lines := s.lines++[line]
  if continues line then { s with lines := lines }
  else match parseInt (line.take 3) with
    | none => s.fail (js "smtp_invalid_response")
    | some code =>
        if code ∈ s.phase.expectedCodes then
          proceed P options s ⟨code,[10].intercalate lines⟩
        else s.fail (js "smtp_unexpected_response_"++js (toString code))

/-- The client reads queued lines as long as it waits for a reply. -/
def drain : List JsString → Session → Session
  | [],s => { s with reader := { s.reader with queue := [] } }
  | line::lines,s =>
      if s.phase.reading then drain lines (onLine P options s line)
      else { s with reader := { s.reader with queue := line::lines } }

/-- Chunks that arrive in one turn of the event loop. -/
def onBurst (s : Session) (chunks : List (List UInt8)) : Session :=
  let reader := chunks.foldl (fun reader chunk => reader.onData (P.decode chunk)) s.reader
  drain P options reader.queue { s with reader := reader }

inductive Event where
  | connected
  | secured
  | data (socket : Socket) (chunks : List (List UInt8))
  | failed (socket : Socket) (message : JsString)
  | closed (socket : Socket)
  | phaseTimeout
  | totalTimeout

def start : Session :=
  let idle : Session := ⟨.connecting,.plain,.empty,[],⟨0,[]⟩,false,[]⟩
  if !smtpEnvelopeIsSafe envelope then { idle with phase := .finished .invalidEnvelope }
  else if trim options.smtpHost = [] then { idle with phase := .finished .notConfigured }
  else if decide (options.smtpUsername = []) ≠ decide (options.smtpPassword = []) then
    idle.fail (js "smtp_auth_config_invalid")
  else idle

/-- Data of the plain socket is heard only while it is the client's socket and a reply is
awaited: its listeners are removed before the handshake. -/
def step (s : Session) : Event → Session
  | .connected =>
      match s.phase with
      | .connecting => { s with phase := .greeting, reader := .empty, lines := [] }
      | _ => s
  | .secured =>
      match s.phase with
      | .handshake => s.upgrade
      | _ => s
  | .data socket chunks =>
      if socket = s.socket ∧ s.phase.reading = true then onBurst P options s chunks else s
  | .failed socket message =>
      match s.phase with
      | .connecting => if socket = .plain then s.fail message else s
      | .handshake => if socket = .secure then s.fail message else s
      | .finished _ => s
      | _ => if socket = s.socket then s.fail message else s
  | .closed socket =>
      if socket = s.socket ∧ s.phase.reading = true then s.fail (js "smtp_connection_closed") else s
  | .phaseTimeout =>
      match s.phase with
      | .connecting => s.fail (js "smtp_connect_timeout")
      | .handshake => s.fail (js "smtp_tls_handshake_timeout")
      | _ => s
  | .totalTimeout => if s.phase.reading then s.fail (js "smtp_total_timeout") else s

def deliverEmail (events : List Event) : Session :=
  events.foldl (step P options) (start options envelope)

end Client

/-- A property that every part of a step keeps. -/
structure Preserved (P : Platform) (options : Options) (I : Session → Prop) : Prop where
  reader : ∀ {s} (reader : LineReader),I s → I { s with reader := reader }
  lines : ∀ {s} (lines : List JsString),I s → I { s with lines := lines }
  fail : ∀ {s} (message : JsString),I s → I (s.fail message)
  proceed : ∀ {s} (response : Response),I s → I (proceed P options s response)
  connected : ∀ {s},I s → s.phase = .connecting →
    I { s with phase := .greeting, reader := .empty, lines := [] }
  secured : ∀ {s},I s → s.phase = .handshake → I s.upgrade

namespace Preserved
variable {P : Platform} {options : Options} {I : Session → Prop} (h : Preserved P options I)
include h

theorem onLine {s : Session} (hs : I s) (line : JsString) :
    I (SmtpTransport.onLine P options s line) := by
  unfold SmtpTransport.onLine
  simp only
  split_ifs
  · exact h.lines _ hs
  · split
    · exact h.fail _ hs
    · split_ifs
      · exact h.proceed _ hs
      · exact h.fail _ hs

theorem drain {s : Session} (hs : I s) (lines : List JsString) :
    I (SmtpTransport.drain P options lines s) := by
  induction lines generalizing s with
  | nil => exact h.reader _ hs
  | cons line lines ih =>
      unfold SmtpTransport.drain
      split_ifs
      · exact ih (h.onLine hs line)
      · exact h.reader _ hs

theorem step {s : Session} (hs : I s) (event : Event) :
    I (SmtpTransport.step P options s event) := by
  cases event with
  | connected =>
      simp only [SmtpTransport.step]
      split
      · next hphase => exact h.connected hs hphase
      · exact hs
  | secured =>
      simp only [SmtpTransport.step]
      split
      · next hphase => exact h.secured hs hphase
      · exact hs
  | data socket chunks =>
      simp only [SmtpTransport.step]
      split_ifs
      · exact h.drain (h.reader _ hs) _
      · exact hs
  | failed socket message =>
      simp only [SmtpTransport.step]
      split
      · split_ifs
        · exact h.fail _ hs
        · exact hs
      · split_ifs
        · exact h.fail _ hs
        · exact hs
      · exact hs
      · split_ifs
        · exact h.fail _ hs
        · exact hs
  | closed socket =>
      simp only [SmtpTransport.step]
      split_ifs
      · exact h.fail _ hs
      · exact hs
  | phaseTimeout =>
      simp only [SmtpTransport.step]
      split
      · exact h.fail _ hs
      · exact h.fail _ hs
      · exact hs
  | totalTimeout =>
      simp only [SmtpTransport.step]
      split_ifs
      · exact h.fail _ hs
      · exact hs

theorem run {s : Session} (hs : I s) (events : List Event) :
    I (events.foldl (SmtpTransport.step P options) s) := by
  induction events generalizing s with
  | nil => exact hs
  | cons event events ih => exact ih (h.step hs event)

end Preserved

/-- The phases after the upgrade, when there is one. -/
def Phase.late : Phase → Bool
  | .secureEhlo => true
  | .auth => true
  | .mailFrom => true
  | .rcptTo => true
  | .data => true
  | .message => true
  | _ => false

/-- Credentials go to the TLS socket; with STARTTLS the plain socket carries nothing but the
greeting and the request to upgrade. -/
structure Permitted (options : Options) (entry : Socket × Command) : Prop where
  auth : entry.2 = .auth → entry.1 = .secure
  plain : options.smtpStartTls = true → entry.1 = .plain → entry.2 = .ehlo ∨ entry.2 = .startTls

structure Safe (options : Options) (s : Session) : Prop where
  established : s.tlsEstablished = true → s.socket = .secure
  upgraded : options.smtpStartTls = true → s.phase.late = true → s.socket = .secure
  written : ∀ entry ∈ s.written,Permitted options entry

section Safety
variable {P : Platform} {options : Options} {s : Session}

theorem Safe.fail (h : Safe options s) (message : JsString) : Safe options (s.fail message) :=
  ⟨h.established,nofun,h.written⟩

theorem Safe.write (h : Safe options s) (command : Command)
    (hp : Permitted options (s.socket,command)) : Safe options (s.write command) := by
  refine ⟨h.established,h.upgraded,fun entry hentry => ?_⟩
  rcases List.mem_append.mp hentry with hentry | hentry
  · exact h.written entry hentry
  · exact List.mem_singleton.mp hentry ▸ hp

theorem Safe.await (h : Safe options s) {phase : Phase}
    (hlate : options.smtpStartTls = true → phase.late = true → s.socket = .secure) :
    Safe options (s.await phase) :=
  ⟨h.established,hlate,h.written⟩

/-- On the TLS socket, and without STARTTLS, every command but the login is permitted. -/
theorem permitted_of_upgraded {socket : Socket} {command : Command}
    (hsocket : options.smtpStartTls = true → socket = .secure) (hauth : command ≠ .auth) :
    Permitted options (socket,command) where
  auth h := absurd h hauth
  plain hstart hplain := by
    rw [hsocket hstart] at hplain
    cases hplain

theorem safe_authenticate (h : Safe options s)
    (hsocket : options.smtpStartTls = true → s.socket = .secure) :
    Safe options (authenticate P options s) := by
  unfold authenticate
  split_ifs with huser htls hplain
  · exact h.fail _
  · exact h.fail _
  · have hsecure : s.socket = .secure := h.established (by simpa using htls)
    refine (h.write .auth ⟨fun _ => hsecure,fun _ hp => ?_⟩).await fun _ _ => hsecure
    rw [show s.socket = .plain from hp] at hsecure
    cases hsecure
  · exact (h.write .mailFrom (permitted_of_upgraded hsocket nofun)).await fun hstart _ =>
      hsocket hstart

theorem safe_proceed (h : Safe options s) (response : Response) :
    Safe options (proceed P options s response) := by
  have hlate : s.phase.late = true → options.smtpStartTls = true → s.socket = .secure :=
    fun hl hstart => h.upgraded hstart hl
  have hnext : ∀ (command : Command) (phase : Phase),s.phase.late = true → command ≠ .auth →
      Safe options ((s.write command).await phase) := by
    intro command phase hl hne
    exact (h.write command (permitted_of_upgraded (hlate hl) hne)).await fun hstart _ =>
      hlate hl hstart
  unfold proceed
  split
  · exact (h.write .ehlo ⟨nofun,fun _ _ => Or.inl rfl⟩).await nofun
  · have hehlo : Safe options { s with ehlo := response } := ⟨h.established,h.upgraded,h.written⟩
    simp only
    split_ifs with hstart hcap
    · exact hehlo.fail _
    · exact (hehlo.write .startTls ⟨nofun,fun _ _ => Or.inr rfl⟩).await nofun
    · exact safe_authenticate hehlo fun hs => absurd hs hstart
  · exact ⟨h.established,nofun,h.written⟩
  · next hphase =>
      exact safe_authenticate ⟨h.established,h.upgraded,h.written⟩ (hlate (by rw [hphase]; rfl))
  · next hphase => exact hnext _ _ (by rw [hphase]; rfl) (by decide)
  · next hphase => exact hnext _ _ (by rw [hphase]; rfl) (by decide)
  · next hphase => exact hnext _ _ (by rw [hphase]; rfl) (by decide)
  · next hphase => exact hnext _ _ (by rw [hphase]; rfl) (by decide)
  · next hphase => exact hnext _ _ (by rw [hphase]; rfl) (by decide)
  · exact h

theorem preserved_safe : Preserved P options (Safe options) where
  reader _ h := ⟨h.established,h.upgraded,h.written⟩
  lines _ h := ⟨h.established,h.upgraded,h.written⟩
  fail message h := h.fail message
  proceed response h := safe_proceed h response
  connected h _ := ⟨h.established,nofun,h.written⟩
  secured {s} h _ := by
    have hnew : Safe options { s with socket := .secure, tlsEstablished := true, reader := .empty } :=
      ⟨fun _ => rfl,fun _ _ => rfl,h.written⟩
    exact (hnew.write .ehlo ⟨nofun,nofun⟩).await fun _ _ => rfl

theorem safe_start (envelope : Envelope) : Safe options (start options envelope) := by
  unfold start
  simp only
  split_ifs
  all_goals exact ⟨nofun,nofun,nofun⟩

/-- What has been written while a phase of the plain connection lasts. -/
def Phase.plainWrites : Phase → Option (List (Socket × Command))
  | .connecting => some []
  | .greeting => some []
  | .ehlo => some [(.plain,.ehlo)]
  | .startTls => some [(.plain,.ehlo),(.plain,.startTls)]
  | .handshake => some [(.plain,.ehlo),(.plain,.startTls)]
  | _ => none

def Early (s : Session) : Prop :=
  ∀ writes,s.phase.plainWrites = some writes → s.written = writes ∧ s.socket = .plain

theorem early_of_none (h : s.phase.plainWrites = none) : Early s := by
  intro writes hw
  rw [h] at hw
  cases hw

theorem early_authenticate : Early (authenticate P options s) := by
  unfold authenticate
  split_ifs
  all_goals exact early_of_none rfl

theorem early_proceed (h : Early s) (response : Response) :
    Early (proceed P options s response) := by
  have hwrite : ∀ {command : Command} {before after : List (Socket × Command)} {phase : Phase},
      s.phase.plainWrites = some before → phase.plainWrites = some after →
      after = before++[(.plain,command)] → Early ((s.write command).await phase) := by
    intro command before after phase hb ha heq writes hw
    obtain ⟨hwritten,hsocket⟩ := h before hb
    cases ha.symm.trans hw
    refine ⟨?_,hsocket⟩
    change s.written++[(s.socket,command)] = _
    rw [hwritten,hsocket,heq]
  unfold proceed
  split
  · next hphase => exact hwrite (by rw [hphase]; rfl) rfl rfl
  · next hphase =>
      simp only
      split_ifs
      · exact early_of_none rfl
      · have hbefore : s.phase.plainWrites = some [(.plain,.ehlo)] := by rw [hphase]; rfl
        exact hwrite hbefore rfl rfl
      · exact early_authenticate
  · next hphase =>
      intro writes hw
      exact h writes (by rw [hphase]; exact hw)
  · exact early_authenticate
  · exact early_of_none rfl
  · exact early_of_none rfl
  · exact early_of_none rfl
  · exact early_of_none rfl
  · exact early_of_none rfl
  · exact h

theorem preserved_early : Preserved P options Early where
  reader _ h := h
  lines _ h := h
  fail _ _ := early_of_none rfl
  proceed response h := early_proceed h response
  connected h hphase writes hw := h writes (by rw [hphase]; exact hw)
  secured _ _ := early_of_none rfl

theorem early_start (envelope : Envelope) : Early (start options envelope) := by
  unfold start
  simp only
  split_ifs
  · exact early_of_none rfl
  · exact early_of_none rfl
  · exact early_of_none rfl
  · intro writes hw
    cases hw
    exact ⟨rfl,rfl⟩

/-- The TLS socket is in use for the rest of the session. -/
structure Secured (s : Session) : Prop where
  socket : s.socket = .secure
  phase : s.phase.late = true ∨ ∃ delivery,s.phase = .finished delivery

theorem secured_authenticate (h : s.socket = .secure) : Secured (authenticate P options s) := by
  unfold authenticate
  split_ifs
  · exact ⟨h,Or.inr ⟨_,rfl⟩⟩
  · exact ⟨h,Or.inr ⟨_,rfl⟩⟩
  · exact ⟨h,Or.inl rfl⟩
  · exact ⟨h,Or.inl rfl⟩

theorem Secured.no_early (h : Secured s) (hlate : s.phase.late = false)
    (hopen : ∀ delivery,s.phase ≠ .finished delivery) : False := by
  rcases h.phase with hp | ⟨delivery,hp⟩
  · rw [hlate] at hp
    cases hp
  · exact hopen delivery hp

theorem secured_proceed (h : Secured s) (response : Response) :
    Secured (proceed P options s response) := by
  unfold proceed
  split
  · next hphase => exact (h.no_early (by rw [hphase]; rfl) (by simp [hphase])).elim
  · next hphase => exact (h.no_early (by rw [hphase]; rfl) (by simp [hphase])).elim
  · next hphase => exact (h.no_early (by rw [hphase]; rfl) (by simp [hphase])).elim
  · exact secured_authenticate h.socket
  · exact ⟨h.socket,Or.inl rfl⟩
  · exact ⟨h.socket,Or.inl rfl⟩
  · exact ⟨h.socket,Or.inl rfl⟩
  · exact ⟨h.socket,Or.inl rfl⟩
  · exact ⟨h.socket,Or.inr ⟨_,rfl⟩⟩
  · exact h

theorem preserved_secured : Preserved P options Secured where
  reader _ h := ⟨h.socket,h.phase⟩
  lines _ h := ⟨h.socket,h.phase⟩
  fail _ h := ⟨h.socket,Or.inr ⟨_,rfl⟩⟩
  proceed response h := secured_proceed h response
  connected h hphase := (h.no_early (by rw [hphase]; rfl) (by simp [hphase])).elim
  secured h hphase := (h.no_early (by rw [hphase]; rfl) (by simp [hphase])).elim

/-- Events of the TLS socket and the timers. -/
def Event.overTls : Event → Bool
  | .data .plain _ => false
  | .failed .plain _ => false
  | .closed .plain => false
  | _ => true

/-- The plain socket is not heard any more. -/
theorem step_plain (h : Secured s) {event : Event} (hevent : event.overTls = false) :
    step P options s event = s := by
  have hsocket : Socket.plain ≠ s.socket := by
    rw [h.socket]
    decide
  cases event with
  | connected => cases hevent
  | secured => cases hevent
  | phaseTimeout => cases hevent
  | totalTimeout => cases hevent
  | data socket chunks =>
      cases socket with
      | secure => cases hevent
      | plain => simp [step,hsocket]
  | closed socket =>
      cases socket with
      | secure => cases hevent
      | plain => simp [step,hsocket]
  | failed socket message =>
      cases socket with
      | secure => cases hevent
      | plain =>
          simp only [step]
          split
          · next hphase => exact (h.no_early (by rw [hphase]; rfl) (by simp [hphase])).elim
          · rfl
          · rfl
          · rw [if_neg hsocket]

theorem run_overTls (h : Secured s) (events : List Event) :
    events.foldl (step P options) s = (events.filter Event.overTls).foldl (step P options) s := by
  induction events generalizing s with
  | nil => rfl
  | cons event events ih =>
      cases hevent : event.overTls with
      | true =>
          rw [List.filter_cons_of_pos hevent]
          exact ih (preserved_secured.step h event)
      | false =>
          rw [List.filter_cons_of_neg (by simp [hevent]),List.foldl_cons,step_plain h hevent]
          exact ih h

/-- The reply to the first greeting is not read again: it is replaced before the next use. -/
def SameButEhlo (s t : Session) : Prop := ∃ ehlo,t = { s with ehlo := ehlo }

theorem sameButEhlo_refl (s : Session) : SameButEhlo s s := ⟨s.ehlo,rfl⟩

theorem SameButEhlo.proceed {t : Session} (h : SameButEhlo s t) (response : Response) :
    SameButEhlo (proceed P options s response) (proceed P options t response) := by
  obtain ⟨ehlo,rfl⟩ := h
  unfold SmtpTransport.proceed
  simp only
  split
  · exact ⟨ehlo,rfl⟩
  · exact sameButEhlo_refl _
  · exact ⟨ehlo,rfl⟩
  · exact sameButEhlo_refl _
  · exact ⟨ehlo,rfl⟩
  · exact ⟨ehlo,rfl⟩
  · exact ⟨ehlo,rfl⟩
  · exact ⟨ehlo,rfl⟩
  · exact ⟨ehlo,rfl⟩
  · exact ⟨ehlo,rfl⟩

theorem SameButEhlo.onLine {t : Session} (h : SameButEhlo s t) (line : JsString) :
    SameButEhlo (onLine P options s line) (onLine P options t line) := by
  have hproceed : ∀ response,SameButEhlo (SmtpTransport.proceed P options s response)
      (SmtpTransport.proceed P options t response) := h.proceed
  obtain ⟨ehlo,rfl⟩ := h
  unfold SmtpTransport.onLine
  simp only
  split_ifs
  · exact ⟨ehlo,rfl⟩
  · split
    · exact ⟨ehlo,rfl⟩
    · split_ifs
      · exact hproceed _
      · exact ⟨ehlo,rfl⟩

theorem SameButEhlo.drain {t : Session} (h : SameButEhlo s t) (lines : List JsString) :
    SameButEhlo (drain P options lines s) (drain P options lines t) := by
  induction lines generalizing s t with
  | nil =>
      obtain ⟨ehlo,rfl⟩ := h
      exact ⟨ehlo,rfl⟩
  | cons line lines ih =>
      have hline : SameButEhlo
          (SmtpTransport.drain P options lines (SmtpTransport.onLine P options s line))
          (SmtpTransport.drain P options lines (SmtpTransport.onLine P options t line)) :=
        ih (h.onLine line)
      obtain ⟨ehlo,rfl⟩ := h
      unfold SmtpTransport.drain
      simp only
      split_ifs
      · exact hline
      · exact ⟨ehlo,rfl⟩

theorem SameButEhlo.step {t : Session} (h : SameButEhlo s t) (event : Event) :
    SameButEhlo (step P options s event) (step P options t event) := by
  obtain ⟨ehlo,rfl⟩ := h
  cases event with
  | data socket chunks =>
      simp only [SmtpTransport.step]
      split_ifs
      · exact SameButEhlo.drain ⟨ehlo,rfl⟩ _
      · exact ⟨ehlo,rfl⟩
  | connected =>
      simp only [SmtpTransport.step]
      split <;> exact ⟨ehlo,rfl⟩
  | secured =>
      simp only [SmtpTransport.step]
      split <;> exact ⟨ehlo,rfl⟩
  | failed socket message =>
      simp only [SmtpTransport.step]
      split
      · split_ifs <;> exact ⟨ehlo,rfl⟩
      · split_ifs <;> exact ⟨ehlo,rfl⟩
      · exact ⟨ehlo,rfl⟩
      · split_ifs <;> exact ⟨ehlo,rfl⟩
  | closed socket =>
      simp only [SmtpTransport.step]
      split_ifs <;> exact ⟨ehlo,rfl⟩
  | phaseTimeout =>
      simp only [SmtpTransport.step]
      split <;> exact ⟨ehlo,rfl⟩
  | totalTimeout =>
      simp only [SmtpTransport.step]
      split_ifs <;> exact ⟨ehlo,rfl⟩

theorem SameButEhlo.run {t : Session} (h : SameButEhlo s t) (events : List Event) :
    SameButEhlo (events.foldl (SmtpTransport.step P options) s)
      (events.foldl (SmtpTransport.step P options) t) := by
  induction events generalizing s t with
  | nil => exact h
  | cons event events ih => exact ih (h.step event)

theorem secured_upgrade (s : Session) : Secured s.upgrade := ⟨rfl,Or.inl rfl⟩

theorem sameButEhlo_upgrade {t : Session} (h : s.written = t.written) :
    SameButEhlo s.upgrade t.upgrade := by
  refine ⟨t.ehlo,?_⟩
  simp only [Session.upgrade,Session.write,Session.await,h]

end Safety

/-- With STARTTLS the plain socket carries the greeting and the upgrade request only, and
credentials go to the TLS socket alone. Two sessions that upgrade, whatever they received
before, write and end the same when they see the same events over TLS. -/
theorem smtp_transport_safety (P : Platform) (options : Options) (envelope : Envelope) :
    (options.smtpStartTls = true → ∀ events command,
      (Socket.plain,command) ∈ (deliverEmail P options envelope events).written →
        command = .ehlo ∨ command = .startTls) ∧
    (∀ events socket,(socket,Command.auth) ∈ (deliverEmail P options envelope events).written →
      socket = .secure) ∧
    ∀ before before' after after',
      (deliverEmail P options envelope before).phase = .handshake →
      (deliverEmail P options envelope before').phase = .handshake →
      after.filter Event.overTls = after'.filter Event.overTls →
      (deliverEmail P options envelope (before++.secured::after)).written =
          (deliverEmail P options envelope (before'++.secured::after')).written ∧
        (deliverEmail P options envelope (before++.secured::after)).phase =
          (deliverEmail P options envelope (before'++.secured::after')).phase := by
  have hsafe : ∀ events,Safe options (deliverEmail P options envelope events) :=
    fun events => preserved_safe.run (safe_start envelope) events
  refine ⟨fun hstart events command hmem => ((hsafe events).written _ hmem).plain hstart rfl,
    fun events socket hmem => ((hsafe events).written _ hmem).auth rfl,?_⟩
  intro before before' after after' hphase hphase' hafter
  have hrun : ∀ before after,(deliverEmail P options envelope before).phase = .handshake →
      deliverEmail P options envelope (before++.secured::after) =
        (after.filter Event.overTls).foldl (step P options)
          (deliverEmail P options envelope before).upgrade := by
    intro before after hphase
    unfold deliverEmail at hphase ⊢
    rw [List.foldl_append,List.foldl_cons]
    simp only [step,hphase]
    exact run_overTls (secured_upgrade _) after
  have hwritten : ∀ before,(deliverEmail P options envelope before).phase = .handshake →
      (deliverEmail P options envelope before).written = [(.plain,.ehlo),(.plain,.startTls)] := by
    intro before hphase
    have hearly : Early (deliverEmail P options envelope before) :=
      preserved_early.run (early_start envelope) before
    exact (hearly _ (by rw [hphase]; rfl)).1
  have hsame : SameButEhlo (deliverEmail P options envelope before).upgrade
      (deliverEmail P options envelope before').upgrade :=
    sameButEhlo_upgrade ((hwritten before hphase).trans (hwritten before' hphase').symm)
  have hend : SameButEhlo (deliverEmail P options envelope (before++.secured::after))
      (deliverEmail P options envelope (before'++.secured::after')) := by
    rw [hrun before after hphase,hrun before' after' hphase',hafter]
    exact hsame.run _
  obtain ⟨ehlo,heq⟩ := hend
  rw [heq]
  exact ⟨rfl,rfl⟩

def asciiPlatform : Platform where
  decode chunk := chunk.map fun b => UInt16.ofNat b.toNat
  toUpperCase s := s
  base64 s := s

def sampleOptions : Options := ⟨js "mail",true,js "u",js "p"⟩

def sampleEnvelope : Envelope := ⟨js "a",js "b",[],[]⟩

def reply (text : String) : List UInt8 := text.toList.map fun c => UInt8.ofNat c.toNat

/-- The server offers the upgrade; after its consent it sends the given bytes in the same
chunk. -/
def beforeUpgrade (injected : String) : List Event :=
  [.connected,.data .plain [reply "220\n"],.data .plain [reply "250-x\n250 ST",reply "ARTTLS\r\n"],
    .data .plain [reply "220\n"++reply injected]]

/-- Over TLS no login mechanism is offered. -/
def afterUpgrade : List Event := [.data .secure [reply "250 SIZE\n"]]

theorem injected_login_ignored :
    (Socket.secure,Command.auth) ∉ (deliverEmail asciiPlatform sampleOptions sampleEnvelope
      (beforeUpgrade "250 AUTH PLAIN\n"++.secured::afterUpgrade)).written := by
  have hspec := (smtp_transport_safety asciiPlatform sampleOptions sampleEnvelope).2.2
    (beforeUpgrade "250 AUTH PLAIN\n") (beforeUpgrade "") afterUpgrade afterUpgrade
    rfl rfl rfl
  rw [hspec.1]
  decide

end AstraNull.SmtpTransport

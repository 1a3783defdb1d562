import Mathlib
import AstraNull.ScriptText
import AstraNull.IpText

/-!
# The destination gate

`classifyRoutableIp` and `assertProbeDestinationAllowed` of `probeEndpoint.mjs`, on
address texts. The version test of the platform is a parameter with its documented
behaviour.

The hextet parser works on the text with its zone. A zone may contain colons, and
then its parts are read as groups of the address: the gate is sound exactly for zones
without a colon.
-/
namespace AstraNull.ProbeEndpoint
open JsonText ScriptText IpText

/-- Accepted, or refused with a message. -/
abbrev Verdict := Except String Unit

def parseOctet (part : Text) : Option ℕ :=
  if 1 ≤ part.length ∧ part.length ≤ 3 ∧ part.all Char.isDigit then
    let n := Nat.ofDigitChars 10 part 0
    if 255 < n then none else some n
  else none

def parseIpv4Octets (ip : Text) : Option (List ℕ) :=
  let parts := ip.splitOn '.'
  if parts.length ≠ 4 then none else parts.mapM parseOctet

def octet (octets : List ℕ) (i : ℕ) : ℕ := octets.getD i 0

def ipv4IsUnspecified (octets : List ℕ) : Bool := octet octets 0 = 0

def ipv4IsLoopback (octets : List ℕ) : Bool := octet octets 0 = 127

def ipv4IsLinkLocal (octets : List ℕ) : Bool := octet octets 0 = 169 && octet octets 1 = 254

def ipv4IsMetadata (ip : Text) : Bool := ip = "169.254.169.254".toList

def ipv4IsCgnat (octets : List ℕ) : Bool := octet octets 0 = 100 && octet octets 1 &&& 0xc0 = 64

def ipv4IsMulticast (octets : List ℕ) : Bool := 224 ≤ octet octets 0 && octet octets 0 ≤ 239

def ipv4IsBroadcast (octets : List ℕ) : Bool := octets.all (· = 255)

def ipv4IsReserved (octets : List ℕ) : Bool := 240 ≤ octet octets 0 && octet octets 0 ≤ 255

def ipv4IsPrivate (octets : List ℕ) : Bool :=
  octet octets 0 = 10 || (octet octets 0 = 172 && 16 ≤ octet octets 1 && octet octets 1 ≤ 31) ||
    (octet octets 0 = 192 && octet octets 1 = 168)

def classifyIpv4 (ip : Text) (allowPrivate : Bool) : Verdict :=
  match parseIpv4Octets ip with
  | none => .error "invalid IPv4 literal"
  | some octets =>
      if ipv4IsUnspecified octets then .error "unspecified IPv4 address"
      else if ipv4IsLoopback octets then .error "loopback IPv4 address"
      else if ipv4IsBroadcast octets then .error "broadcast IPv4 address"
      else if ipv4IsReserved octets then .error "reserved IPv4 address"
      else if ipv4IsMulticast octets then .error "multicast IPv4 address"
      else if ipv4IsCgnat octets then .error "cgnat IPv4 address"
      else if ipv4IsMetadata ip then .error "cloud metadata IPv4 address"
      else if ipv4IsLinkLocal octets then .error "link-local IPv4 address"
      else if !allowPrivate && ipv4IsPrivate octets then .error "private IPv4 address"
      else .ok ()

/-- `parseInt(text, 16)`, nothing for a result that is not a number. -/
def parseIntHex (text : Text) : Option ℤ :=
  let text := text.dropWhile fun c => isWhiteSpace c.toNat
  let signed := match text with
    | '-' :: cs => (true,cs)
    | '+' :: cs => (false,cs)
    | cs => (false,cs)
  let body := match signed.2 with
    | '0' :: 'x' :: cs => cs
    | '0' :: 'X' :: cs => cs
    | cs => cs
  let digits := body.takeWhile isHex
  if digits = [] then none
  else some (if signed.1 then -(hexNumber digits : ℤ) else hexNumber digits)

inductive Parsed where
  | mapped (octets : List ℕ) (embedded : Text)
  | hextets (hextets : List ℕ)

/-- One to three digits four times, between points. -/
def isQuadShape (s : Text) : Bool :=
  let parts := s.splitOn '.'
  parts.length = 4 && parts.all fun p => 1 ≤ p.length && p.length ≤ 3 && p.all Char.isDigit

/-- The rest of a text after a constant, when it has the shape of a quad. -/
def quadAfter (start : String) (s : Text) : Option Text :=
  if start.toList.isPrefixOf s ∧ isQuadShape (s.drop start.length) then
    some (s.drop start.length)
  else none

/-- The text before the first two colons and the rest after them. -/
def breakDouble : Text → Option (Text × Text)
  | [] => none
  | ':' :: ':' :: s => some ([],s)
  | c::s => (breakDouble s).map fun p => (c::p.1,p.2)

/-- The numbers of the parts, nothing when one is not a group. -/
def groupNumbers (parts : List Text) : Option (List ℕ) :=
  parts.mapM fun part => do
    let n ← parseIntHex part
    if n < 0 ∨ 0xffff < n then none else some n.toNat

def allZero (hextets : List ℕ) : Bool := hextets.all (· = 0)

/-- The last two groups as four octets. -/
def lastOctets (hextets : List ℕ) : List ℕ :=
  [octet hextets 6/256,octet hextets 6%256,octet hextets 7/256,octet hextets 7%256]

def embedLast (hextets : List ℕ) : Parsed :=
  .mapped (lastOctets hextets) (quadText (lastOctets hextets))

/-- Mapped, translated and compatible forms are read as IPv4. -/
def readHextets (hextets : List ℕ) : Parsed :=
  if allZero (hextets.take 5) && octet hextets 5 = 0xffff then embedLast hextets
  else if allZero (hextets.take 4) && octet hextets 4 = 0xffff && octet hextets 5 = 0 then
    embedLast hextets
  else if allZero (hextets.take 6) &&
      !(octet hextets 6 = 0 && (octet hextets 7 = 0 || octet hextets 7 = 1)) then
    embedLast hextets
  else .hextets hextets

/-- The groups on both sides of the gap. A second gap ends the right side. -/
def expandGap (left rest : Text) : Option (List ℕ) :=
  let right := match breakDouble rest with
    | some (part,_) => part
    | none => rest
  let head := if left = [] then [] else (left.splitOn ':').filter fun s => s ≠ []
  let tail := if right = [] then [] else right.splitOn ':'
  if 8 < head.length+tail.length then none
  else do
    let headNumbers ← groupNumbers head
    let tailNumbers ← groupNumbers tail
    some (headNumbers++(List.replicate (8-head.length-tail.length) 0++tailNumbers))

def expandHextets (lowered : Text) : Option (List ℕ) :=
  match breakDouble lowered with
  | some (left,rest) => expandGap left rest
  | none =>
      let segments := lowered.splitOn ':'
      if segments.length ≠ 8 then none else groupNumbers segments

def parseIpv6Hextets (net : NetIsIP) (ip : Text) : Option Parsed :=
  let lowered := lower ip
  if net.isIP lowered ≠ 6 then none
  else match quadAfter "::ffff:" lowered,quadAfter "::ffff:0:" lowered,quadAfter "::" lowered with
    | some quad,_,_ => (parseIpv4Octets quad).map fun octets => .mapped octets quad
    | none,some quad,_ => (parseIpv4Octets quad).map fun octets => .mapped octets quad
    | none,none,some quad => (parseIpv4Octets quad).map fun octets => .mapped octets quad
    | none,none,none => (expandHextets lowered).map readHextets

def ipv6IsUnspecified (hextets : List ℕ) : Bool := allZero hextets

def ipv6IsLoopback (hextets : List ℕ) : Bool :=
  allZero (hextets.take 7) && octet hextets 7 = 1

def ipv6IsLinkLocal (hextets : List ℕ) : Bool := octet hextets 0 &&& 0xffc0 = 0xfe80

def ipv6IsUla (hextets : List ℕ) : Bool := octet hextets 0 &&& 0xfe00 = 0xfc00

def ipv6IsMulticast (hextets : List ℕ) : Bool := octet hextets 0 &&& 0xff00 = 0xff00

def ipv6IsSiteLocal (hextets : List ℕ) : Bool := octet hextets 0 &&& 0xffc0 = 0xfec0

def ipv6IsTeredo (hextets : List ℕ) : Bool := octet hextets 0 = 0x2001 && octet hextets 1 = 0

def ipv6Is6to4 (hextets : List ℕ) : Bool := octet hextets 0 = 0x2002

def ipv6IsNat64 (hextets : List ℕ) : Bool :=
  (octet hextets 0 = 0x64 && octet hextets 1 = 0xff9b && octet hextets 2 = 0 &&
    octet hextets 3 = 0 && octet hextets 4 = 0 && octet hextets 5 = 0) ||
    (octet hextets 0 = 0x64 && octet hextets 1 = 0xff9b && octet hextets 2 = 1)

def classifyHextets (hextets : List ℕ) (allowPrivate : Bool) : Verdict :=
  if ipv6IsUnspecified hextets then .error "unspecified IPv6 address"
  else if ipv6IsLoopback hextets then .error "loopback IPv6 address"
  else if ipv6IsMulticast hextets then .error "multicast IPv6 address"
  else if ipv6IsSiteLocal hextets then .error "site-local IPv6 address"
  else if ipv6IsTeredo hextets then .error "teredo IPv6 address"
  else if ipv6Is6to4 hextets then .error "6to4 IPv6 address"
  else if ipv6IsNat64 hextets then .error "nat64 IPv6 address"
  else if ipv6IsLinkLocal hextets then .error "link-local IPv6 address"
  else if !allowPrivate && ipv6IsUla hextets then .error "ULA IPv6 address"
  else .ok ()

/-- The recursive call on an embedded text. It is a dotted quad or no address at all, so
it never takes the IPv6 branch. -/
def classifyEmbedded (net : NetIsIP) (embedded : Text) (allowPrivate : Bool) : Verdict :=
  if net.isIP embedded = 4 then classifyIpv4 embedded allowPrivate
  else .error "invalid IP literal"

def classifyParsed (net : NetIsIP) (parsed : Parsed) (allowPrivate : Bool) : Verdict :=
  match parsed with
  | .mapped _ embedded => classifyEmbedded net embedded allowPrivate
  | .hextets hextets => classifyHextets hextets allowPrivate

def classifyRoutableIp (net : NetIsIP) (ip : Text) (allowPrivate : Bool) : Verdict :=
  if net.isIP ip = 0 then .error "invalid IP literal"
  else if net.isIP ip = 4 then classifyIpv4 ip allowPrivate
  else match parseIpv6Hextets net ip with
    | none => .error "invalid IPv6 literal"
    | some parsed => classifyParsed net parsed allowPrivate

structure Options where
  allowPrivate : Bool := false
  allowLoopback : Bool := false

def loopbackMessages : List String :=
  ["loopback IPv4 address","loopback IPv6 address","unspecified IPv4 address",
    "unspecified IPv6 address"]

def assertProbeDestinationAllowed (net : NetIsIP) (ip : Text) (options : Options) : Verdict :=
  if net.isIP ip = 0 then .error "invalid IP literal"
  else match classifyRoutableIp net ip options.allowPrivate with
    | .ok _ => .ok ()
    | .error message =>
        if options.allowLoopback ∧ message ∈ loopbackMessages then .ok () else .error message

/-- A text without a colon is classified as the recursive call classifies it. -/
theorem classifyRoutableIp_embedded {net : NetIsIP} {embedded : Text} (h : ':' ∉ embedded)
    (allowPrivate : Bool) :
    classifyRoutableIp net embedded allowPrivate = classifyEmbedded net embedded allowPrivate := by
  have hsix : net.isIP embedded ≠ 6 := by
    intro h6
    obtain ⟨l,zone,_,rfl⟩ := (net.isIP_six _).mp h6
    exact h (List.mem_append_left _ l.colon_mem)
  unfold classifyRoutableIp classifyEmbedded
  rcases net.isIP_other embedded with h4 | h6 | h0
  · rw [if_neg (by omega),if_pos h4,if_pos h4]
  · exact absurd h6 hsix
  · rw [if_pos h0,if_neg (by omega)]

theorem and_mask {h k n : ℕ} (hk : k ≤ n) (hh : h < 2^n) : h &&& (2^n-2^k) = 2^k*(h/2^k) := by
  have hmask : 2^n-2^k = 2^k*(2^(n-k)-1) := by
    rw [Nat.mul_sub,mul_one,← pow_add,Nat.add_sub_cancel' hk]
  have hlt : h/2^k < 2^(n-k) := by
    rw [Nat.div_lt_iff_lt_mul (by positivity),← pow_add,Nat.sub_add_cancel hk]
    exact hh
  have hdiv : (h &&& (2^n-2^k))/2^k = h/2^k := by
    rw [Nat.and_div_two_pow,hmask,Nat.mul_div_cancel_left _ (by positivity),
      Nat.and_two_pow_sub_one_eq_mod,Nat.mod_eq_of_lt hlt]
  have hmod : (h &&& (2^n-2^k))%2^k = 0 := by
    rw [Nat.and_mod_two_pow,hmask,Nat.mul_mod_right,Nat.and_zero]
  calc h &&& (2^n-2^k) = 2^k*((h &&& (2^n-2^k))/2^k)+(h &&& (2^n-2^k))%2^k :=
        (Nat.div_add_mod _ _).symm
    _ = 2^k*(h/2^k) := by rw [hdiv,hmod,add_zero]

theorem cgnat_mask {h : ℕ} (hh : h < 256) : (h &&& 0xc0 = 64) ↔ 64 ≤ h ∧ h ≤ 127 := by
  have := and_mask (h := h) (k := 6) (n := 8) (by norm_num) hh
  norm_num at this
  omega

theorem linkLocal_mask {h : ℕ} (hh : h < 65536) :
    (h &&& 0xffc0 = 0xfe80) ↔ 0xfe80 ≤ h ∧ h ≤ 0xfebf := by
  have := and_mask (h := h) (k := 6) (n := 16) (by norm_num) hh
  norm_num at this
  omega

theorem siteLocal_mask {h : ℕ} (hh : h < 65536) :
    (h &&& 0xffc0 = 0xfec0) ↔ 0xfec0 ≤ h ∧ h ≤ 0xfeff := by
  have := and_mask (h := h) (k := 6) (n := 16) (by norm_num) hh
  norm_num at this
  omega

theorem ula_mask {h : ℕ} (hh : h < 65536) : (h &&& 0xfe00 = 0xfc00) ↔ 0xfc00 ≤ h ∧ h ≤ 0xfdff := by
  have := and_mask (h := h) (k := 9) (n := 16) (by norm_num) hh
  norm_num at this
  omega

theorem multicast_mask {h : ℕ} (hh : h < 65536) : (h &&& 0xff00 = 0xff00) ↔ 0xff00 ≤ h := by
  have := and_mask (h := h) (k := 8) (n := 16) (by norm_num) hh
  norm_num at this
  omega

theorem parseOctet_digits {n : ℕ} (h : n < 256) : parseOctet (Nat.toDigits 10 n) = some n := by
  obtain ⟨h1,h3⟩ := octet_text_length h
  have hall : (Nat.toDigits 10 n).all Char.isDigit = true := List.all_eq_true.mpr (octet_digits n)
  simp only [parseOctet]
  rw [if_pos ⟨h1,h3,hall⟩,Nat.ofDigitChars_ten_toDigits,if_neg (by omega)]

theorem parseIpv4Octets_quad {a b c d : ℕ} (ha : a < 256) (hb : b < 256) (hc : c < 256)
    (hd : d < 256) : parseIpv4Octets (quadText [a,b,c,d]) = some [a,b,c,d] := by
  simp only [parseIpv4Octets]
  rw [splitOn_quadText (by simp)]
  simp [parseOctet_digits ha,parseOctet_digits hb,parseOctet_digits hc,parseOctet_digits hd]

theorem check_passed {p : Bool} {message : String} {x : Verdict}
    (h : (if p = true then .error message else x) = .ok ()) : p = false ∧ x = .ok () := by
  cases p with
  | true => cases h
  | false => exact ⟨rfl,h⟩

/-- The IPv4 classifier accepts no special address. -/
theorem classifyIpv4_sound {a b c d : ℕ} (ha : a < 256) (hb : b < 256) (hc : c < 256)
    (hd : d < 256) (h : classifyIpv4 (quadText [a,b,c,d]) false = .ok ()) : ¬ Forbidden4 a b := by
  unfold classifyIpv4 at h
  rw [parseIpv4Octets_quad ha hb hc hd] at h
  obtain ⟨hunspecified,h⟩ := check_passed h
  obtain ⟨hloopback,h⟩ := check_passed h
  obtain ⟨_,h⟩ := check_passed h
  obtain ⟨hreserved,h⟩ := check_passed h
  obtain ⟨hmulticast,h⟩ := check_passed h
  obtain ⟨hcgnat,h⟩ := check_passed h
  obtain ⟨_,h⟩ := check_passed h
  obtain ⟨hlinkLocal,h⟩ := check_passed h
  obtain ⟨hprivate,_⟩ := check_passed h
  intro hf
  cases hf with
  | unspecified => cases hunspecified
  | loopback => cases hloopback
  | private10 => cases hprivate
  | private172 h1 h2 => simp [ipv4IsPrivate,octet,h1,h2] at hprivate
  | private192 => cases hprivate
  | carrierGrade h1 h2 => simp [ipv4IsCgnat,octet,(cgnat_mask hb).mpr ⟨h1,h2⟩] at hcgnat
  | linkLocal => cases hlinkLocal
  | multicast h1 h2 => simp [ipv4IsMulticast,octet,h1,h2] at hmulticast
  | reserved h1 => simp [ipv4IsReserved,octet,h1,Nat.lt_succ_iff.mp ha] at hreserved

theorem quad_text {a b c d : ℕ} (ha : a < 256) (hb : b < 256) (hc : c < 256) (hd : d < 256) :
    DottedQuad (quadText [a,b,c,d]) := ⟨⟨⟨a,ha⟩,⟨b,hb⟩,⟨c,hc⟩,⟨d,hd⟩⟩,rfl⟩

theorem classifyEmbedded_sound {net : NetIsIP} {a b c d : ℕ} (ha : a < 256) (hb : b < 256)
    (hc : c < 256) (hd : d < 256)
    (h : classifyEmbedded net (quadText [a,b,c,d]) false = .ok ()) : ¬ Forbidden4 a b := by
  unfold classifyEmbedded at h
  rw [if_pos ((net.isIP_four _).mpr (quad_text ha hb hc hd))] at h
  exact classifyIpv4_sound ha hb hc hd h

/-- The first group of an accepted address is in no special range. -/
theorem classifyHextets_first {g : ℕ} {gs : List ℕ} (hg : g < 65536)
    (h : classifyHextets (g::gs) false = .ok ()) :
    g < 0xfe80 ∧ (g < 0xfc00 ∨ 0xfe00 ≤ g) ∧ ¬ (g = 0x2001 ∧ octet gs 0 = 0) ∧ g ≠ 0x2002 ∧
      ¬ (g = 0x64 ∧ octet gs 0 = 0xff9b ∧ (octet gs 1 = 1 ∨
        octet gs 1 = 0 ∧ octet gs 2 = 0 ∧ octet gs 3 = 0 ∧ octet gs 4 = 0)) := by
  unfold classifyHextets at h
  obtain ⟨_,h⟩ := check_passed h
  obtain ⟨_,h⟩ := check_passed h
  obtain ⟨hmulticast,h⟩ := check_passed h
  obtain ⟨hsite,h⟩ := check_passed h
  obtain ⟨hteredo,h⟩ := check_passed h
  obtain ⟨hsix,h⟩ := check_passed h
  obtain ⟨hnat,h⟩ := check_passed h
  obtain ⟨hlink,h⟩ := check_passed h
  obtain ⟨hula,_⟩ := check_passed h
  have hoctet : ∀ i,octet (g::gs) (i+1) = octet gs i := fun _ => rfl
  have hfirst : octet (g::gs) 0 = g := rfl
  simp only [ipv6IsMulticast,ipv6IsSiteLocal,ipv6IsTeredo,ipv6Is6to4,ipv6IsNat64,
    ipv6IsLinkLocal,ipv6IsUla,hfirst,hoctet,decide_eq_false_iff_not,multicast_mask hg,
    siteLocal_mask hg,linkLocal_mask hg,ula_mask hg,Bool.not_false,Bool.true_and,
    Bool.and_eq_false_iff,Bool.or_eq_false_iff] at hmulticast hsite hteredo hsix hnat hlink hula
  refine ⟨by omega,by omega,by omega,hsix,?_⟩
  rintro ⟨h0,h1,h2⟩
  rcases h2 with h2 | ⟨h2,h3,h4,h5⟩
  · simp [h0,h1,h2] at hnat
  · simp [h0,h1,h2,h3,h4,h5] at hnat

theorem allZero_cons {g : ℕ} {gs : List ℕ} (hg : g ≠ 0) : allZero (g::gs) = false := by
  simp [allZero,hg]

/-- An address that starts with a nonzero group embeds no IPv4 address. -/
theorem readHextets_first {g : ℕ} {gs : List ℕ} (hg : g ≠ 0) :
    readHextets (g::gs) = .hextets (g::gs) := by
  simp [readHextets,allZero_cons hg]

/-- An accepted address is not special by its first groups. -/
theorem first_sound {net : NetIsIP} {g : ℕ} {gs : List ℕ} (hg : g < 65536) (h0 : g ≠ 0)
    (h : classifyParsed net (readHextets (g::gs)) false = .ok ()) :
    g < 0xfe80 ∧ (g < 0xfc00 ∨ 0xfe00 ≤ g) ∧ ¬ (g = 0x2001 ∧ octet gs 0 = 0) ∧ g ≠ 0x2002 ∧
      ¬ (g = 0x64 ∧ octet gs 0 = 0xff9b ∧ (octet gs 1 = 1 ∨
        octet gs 1 = 0 ∧ octet gs 2 = 0 ∧ octet gs 3 = 0 ∧ octet gs 4 = 0)) := by
  rw [readHextets_first h0] at h
  exact classifyHextets_first hg h

theorem embedLast_sound {net : NetIsIP} {hextets : List ℕ} (h6 : octet hextets 6 < 65536)
    (h7 : octet hextets 7 < 65536)
    (h : classifyParsed net (embedLast hextets) false = .ok ()) :
    ¬ Forbidden4 (octet hextets 6/256) (octet hextets 6%256) :=
  classifyEmbedded_sound (by omega) (by omega) (by omega) (by omega) h

/-- Reading the eight groups of an address is sound. -/
theorem groups_sound {net : NetIsIP} {gs : List ℕ} (hlt : ∀ g ∈ gs,g < 65536)
    (h : classifyParsed net (readHextets gs) false = .ok ()) : ¬ Forbidden6 gs := by
  have hembed : ∀ g h : ℕ,∀ pre : List ℕ,pre.length = 6 → gs = pre++[g,h] →
      readHextets gs = embedLast gs → ¬ Forbidden4 (g/256) (g%256) := by
    rintro g k pre hpre rfl hread
    have h6 : octet (pre++[g,k]) 6 = g := by simp [octet,hpre]
    have h7 : octet (pre++[g,k]) 7 = k := by simp [octet,hpre]
    rw [hread] at h
    have hs := embedLast_sound (by rw [h6]; exact hlt g (by simp))
      (by rw [h7]; exact hlt k (by simp)) h
    rwa [h6] at hs
  intro hf
  cases hf with
  | unspecified => cases h
  | loopback => cases h
  | linkLocal h1 h2 =>
      have := first_sound (hlt _ (by simp)) (by omega) h
      omega
  | multicast h1 =>
      have := first_sound (hlt _ (by simp)) (by omega) h
      omega
  | uniqueLocal h1 h2 =>
      have := first_sound (hlt _ (by simp)) (by omega) h
      omega
  | siteLocal h1 h2 =>
      have := first_sound (hlt _ (by simp)) (by omega) h
      omega
  | teredo => exact (first_sound (by decide) (by decide) h).2.2.1 ⟨rfl,rfl⟩
  | sixToFour => exact (first_sound (by decide) (by decide) h).2.2.2.1 rfl
  | nat64 =>
      exact (first_sound (by decide) (by decide) h).2.2.2.2
        ⟨rfl,rfl,Or.inr ⟨rfl,rfl,rfl,rfl⟩⟩
  | localNat64 =>
      exact (first_sound (by decide) (by decide) h).2.2.2.2 ⟨rfl,rfl,Or.inl rfl⟩
  | mapped hf => exact hembed _ _ [0,0,0,0,0,0xffff] rfl rfl rfl hf
  | translated hf => exact hembed _ _ [0,0,0,0,0xffff,0] rfl rfl rfl hf
  | compatible hf =>
      rename_i g k
      by_cases hlow : g = 0 ∧ (k = 0 ∨ k = 1)
      · obtain ⟨rfl,rfl | rfl⟩ := hlow
        · cases h
        · cases h
      · refine hembed _ _ [0,0,0,0,0,0] rfl rfl ?_ hf
        have hcond : (!(octet [0,0,0,0,0,0,g,k] 6 = 0 &&
            (octet [0,0,0,0,0,0,g,k] 7 = 0 || octet [0,0,0,0,0,0,g,k] 7 = 1))) = true := by
          simp only [octet,List.getD_cons_succ,List.getD_cons_zero,Bool.not_eq_true',
            Bool.and_eq_false_iff,Bool.or_eq_false_iff,decide_eq_false_iff_not]
          omega
        simp only [readHextets]
        rw [hcond]
        rfl

/-- A quad that is counted as one group moves the groups before it by one place. The
address stays special when the place was in the gap. -/
theorem forbidden_shift {P : List ℕ} (hlen : P.length = 6) {k : ℕ} (hk1 : 1 ≤ k) (hk6 : k ≤ 6)
    (hz : octet P (k-1) = 0) {g h x : ℕ} (hf : Forbidden6 (P++[g,h])) :
    Forbidden6 (P.take k++0::(P.drop k++[x])) := by
  match P,hlen with
  | [p0,p1,p2,p3,p4,p5],_ =>
      have hlow : Forbidden4 (0/256) (0%256) := .unspecified
      have hhigh : Forbidden4 (0xffff/256) (0xffff%256) := .reserved (by decide)
      cases hf with
      | unspecified => interval_cases k <;> exact .compatible hlow
      | loopback => interval_cases k <;> exact .compatible hlow
      | linkLocal h1 h2 => interval_cases k <;> exact .linkLocal h1 h2
      | multicast h1 => interval_cases k <;> exact .multicast h1
      | uniqueLocal h1 h2 => interval_cases k <;> exact .uniqueLocal h1 h2
      | siteLocal h1 h2 => interval_cases k <;> exact .siteLocal h1 h2
      | teredo => interval_cases k <;> exact .teredo
      | sixToFour => interval_cases k <;> exact .sixToFour
      | nat64 => interval_cases k <;> first | exact .nat64 | cases hz
      | localNat64 => interval_cases k <;> first | exact .localNat64 | cases hz
      | mapped _ => interval_cases k <;> first | exact .compatible hhigh | cases hz
      | compatible _ => interval_cases k <;> exact .compatible hlow
      | translated _ =>
          interval_cases k <;> first | exact .mapped hlow | exact .translated hlow

theorem breakDouble_append {p s : Text} (hp : ':' ∉ p) :
    breakDouble (p++s) = (breakDouble s).map fun r => (p++r.1,r.2) := by
  induction p with
  | nil =>
      rw [List.nil_append]
      cases breakDouble s <;> rfl
  | cons c p ih =>
      have hc : c ≠ ':' := fun h => hp (by simp [h])
      have hp' : ':' ∉ p := fun h => hp (List.mem_cons_of_mem _ h)
      rw [List.cons_append,breakDouble]
      · rw [ih hp']
        cases breakDouble s <;> rfl
      · rintro s' rfl _
        exact hc rfl

theorem breakDouble_single {c : Char} {s : Text} (hc : c ≠ ':') :
    breakDouble (':'::c::s) = (breakDouble (c::s)).map fun r => (':'::r.1,r.2) := by
  rw [breakDouble]
  rintro s' _ h
  exact hc (List.cons.inj h).1

/-- Joined pieces contain no two colons in a row: the search goes on after them. -/
theorem breakDouble_join {ps : List Text} {s : Text} (hne : ∀ p ∈ ps,p ≠ [])
    (hcolon : ∀ p ∈ ps,':' ∉ p) :
    breakDouble ([':'].intercalate ps++s) =
      (breakDouble s).map fun r => ([':'].intercalate ps++r.1,r.2) := by
  induction ps with
  | nil =>
      simp only [List.intercalate_nil,List.nil_append]
      cases breakDouble s <;> rfl
  | cons p ps ih =>
      have hp := hcolon p (by simp)
      cases ps with
      | nil =>
          rw [List.intercalate_singleton]
          exact breakDouble_append hp
      | cons q qs =>
          obtain ⟨c,cs,hq⟩ := List.exists_cons_of_ne_nil (hne q (by simp))
          have hc : c ≠ ':' := by
            rintro rfl
            exact hcolon q (by simp) (by simp [hq])
          have ih' := ih (fun r hr => hne r (List.mem_cons_of_mem _ hr))
            (fun r hr => hcolon r (List.mem_cons_of_mem _ hr))
          obtain ⟨t,ht⟩ : ∃ t,[':'].intercalate (q::qs)++s = c::t := by
            cases qs with
            | nil => exact ⟨cs++s,by rw [List.intercalate_singleton,hq]; rfl⟩
            | cons r rs =>
                refine ⟨cs++([':']++([':'].intercalate (r::rs)++s)),?_⟩
                rw [List.intercalate_cons_cons,hq]
                simp
          have hsplit : [':'].intercalate (p::q::qs)++s = p++(':'::c::t) := by
            rw [List.intercalate_cons_cons,← ht]
            simp
          rw [hsplit,breakDouble_append hp,breakDouble_single hc,← ht,ih',
            List.intercalate_cons_cons]
          cases breakDouble s <;> simp

theorem hex_not_blank {c : Char} (h : isHex c = true) :
    isWhiteSpace c.toNat = false ∧ c ≠ '-' ∧ c ≠ '+' := by
  refine ⟨?_,?_,?_⟩
  · have hr : (48 ≤ c.toNat ∧ c.toNat ≤ 57) ∨ (97 ≤ c.toNat ∧ c.toNat ≤ 102) ∨
        (65 ≤ c.toNat ∧ c.toNat ≤ 70) := by
      unfold isHex hexValue at h
      split_ifs at h with h1 h2 h3
      · exact Or.inl ⟨UInt32.le_iff_toNat_le.mp h1.1,UInt32.le_iff_toNat_le.mp h1.2⟩
      · exact Or.inr (Or.inl ⟨UInt32.le_iff_toNat_le.mp h2.1,UInt32.le_iff_toNat_le.mp h2.2⟩)
      · exact Or.inr (Or.inr ⟨UInt32.le_iff_toNat_le.mp h3.1,UInt32.le_iff_toNat_le.mp h3.2⟩)
      · cases h
    generalize c.toNat = n at hr
    rcases hr with ⟨h1,h2⟩ | ⟨h1,h2⟩ | ⟨h1,h2⟩ <;> interval_cases n <;> rfl
  · rintro rfl
    cases h
  · rintro rfl
    cases h

/-- The rest of a piece after its digits: empty, a zone or the rest of a quad. -/
def EndsNumber : Text → Prop
  | [] => True
  | c::_ => isHex c = false ∧ c ≠ 'x' ∧ c ≠ 'X'

theorem takeWhile_hex {ds rest : Text} (hds : ∀ c ∈ ds,isHex c = true) (hrest : EndsNumber rest) :
    (ds++rest).takeWhile isHex = ds := by
  rw [List.takeWhile_append_of_pos hds]
  cases rest with
  | nil => simp
  | cons c cs => rw [List.takeWhile_cons_of_neg (by simp [hrest.1]),List.append_nil]

theorem parseIntHex_digits {ds rest : Text} (hne : ds ≠ []) (hds : ∀ c ∈ ds,isHex c = true)
    (hrest : EndsNumber rest) : parseIntHex (ds++rest) = some (hexNumber ds : ℤ) := by
  obtain ⟨d,ds',rfl⟩ := List.exists_cons_of_ne_nil hne
  obtain ⟨hblank,hminus,hplus⟩ := hex_not_blank (hds d (by simp))
  have htake := takeWhile_hex hds hrest
  have hsecond : ∀ c cs,ds'++rest = c::cs → c ≠ 'x' ∧ c ≠ 'X' := by
    intro c cs hcs
    cases ds' with
    | nil =>
        rw [List.nil_append] at hcs
        subst hcs
        exact hrest.2
    | cons e es =>
        obtain ⟨rfl,_⟩ := List.cons.inj hcs
        have he := hds e (by simp)
        refine ⟨(isHex_ne he).2.2.2,?_⟩
        rintro rfl
        cases he
  rw [List.cons_append] at htake ⊢
  unfold parseIntHex
  rw [List.dropWhile_cons_of_neg (by simp [hblank])]
  have hsigned : (match d::(ds'++rest) with
      | '-' :: cs => (true,cs)
      | '+' :: cs => (false,cs)
      | cs => (false,cs)) = (false,d::(ds'++rest)) := by
    split
    · next h => exact absurd (List.cons.inj h).1 hminus
    · next h => exact absurd (List.cons.inj h).1 hplus
    · rfl
  have hbody : (match d::(ds'++rest) with
      | '0' :: 'x' :: cs => cs
      | '0' :: 'X' :: cs => cs
      | cs => cs) = d::(ds'++rest) := by
    split
    · next h => exact absurd rfl (hsecond _ _ (List.cons.inj h).2).1
    · next h => exact absurd rfl (hsecond _ _ (List.cons.inj h).2).2
    · rfl
  simp only [hsigned,hbody,htake]
  simp

/-- The zone belongs to the last piece of a split text. -/
def attach (ps : List Text) (zone : Text) : List Text := ps.dropLast++[ps.getLastD []++zone]

theorem attach_concat (ps : List Text) (p zone : Text) : attach (ps++[p]) zone = ps++[p++zone] := by
  simp [attach]

theorem intercalate_concat (ps : List Text) (p zone : Text) :
    [':'].intercalate (ps++[p])++zone = [':'].intercalate (ps++[p++zone]) := by
  induction ps with
  | nil => simp
  | cons q ps ih =>
      obtain ⟨r,rs,hr⟩ := List.exists_cons_of_ne_nil (l := ps++[p]) (by simp)
      obtain ⟨r',rs',hr'⟩ := List.exists_cons_of_ne_nil (l := ps++[p++zone]) (by simp)
      rw [List.cons_append,List.cons_append,hr,hr',List.intercalate_cons_cons,
        List.intercalate_cons_cons,← hr,← hr',List.append_assoc,ih]

theorem splitOn_attach {ps : List Text} {zone : Text} (hps : ∀ p ∈ ps,':' ∉ p)
    (hzone : ':' ∉ zone) : ([':'].intercalate ps++zone).splitOn ':' = attach ps zone := by
  rcases List.eq_nil_or_concat ps with rfl | ⟨qs,q,rfl⟩
  · rw [List.intercalate_nil,List.nil_append]
    have hsingle : [':'].intercalate [zone] = zone := List.intercalate_singleton
    rw [← hsingle,List.splitOn_intercalate ':' (by simpa using hzone) (by simp),hsingle]
    rfl
  · rw [List.concat_eq_append] at hps ⊢
    rw [intercalate_concat,attach_concat]
    refine List.splitOn_intercalate ':' ?_ (by simp)
    intro p hp hcolon
    rcases List.mem_append.mp hp with hp | hp
    · exact hps p (by simp [hp]) hcolon
    · rw [List.mem_singleton] at hp
      subst hp
      rcases List.mem_append.mp hcolon with hc | hc
      · exact hps q (by simp) hc
      · exact hzone hc

theorem pieces_ne {gs : List Hextet} {quad : Option Quad} : ∀ p ∈ Literal.pieces gs quad,p ≠ [] := by
  intro p hp
  rcases List.mem_append.mp hp with hp | hp
  · obtain ⟨h,_,rfl⟩ := List.mem_map.mp hp
    exact h.digits_ne
  · obtain ⟨q,_,rfl⟩ := List.mem_map.mp hp
    have : '.' ∈ q.text := by simp [Quad.text,Quad.octets,quadText]
    rintro h
    simp [h] at this

theorem pieces_no_colon {gs : List Hextet} {quad : Option Quad} :
    ∀ p ∈ Literal.pieces gs quad,':' ∉ p := by
  intro p hp
  rcases List.mem_append.mp hp with hp | hp
  · obtain ⟨h,_,rfl⟩ := List.mem_map.mp hp
    exact h.no_colon
  · obtain ⟨q,_,rfl⟩ := List.mem_map.mp hp
    exact quadText_no_colon _

theorem groupNumbers_append (ps qs : List Text) :
    groupNumbers (ps++qs) =
      (groupNumbers ps).bind fun xs => (groupNumbers qs).bind fun ys => some (xs++ys) := by
  simp only [groupNumbers,List.mapM_append]
  rfl

theorem groupNumbers_piece {ds rest : Text} (hne : ds ≠ []) (hds : ∀ c ∈ ds,isHex c = true)
    (hlen : ds.length ≤ 4) (hrest : EndsNumber rest) :
    groupNumbers [ds++rest] = some [hexNumber ds] := by
  have hlt : hexNumber ds < 65536 :=
    lt_of_lt_of_le (hexNumber_lt ds) (Nat.pow_le_pow_right (by decide) hlen)
  have hrange : ¬ ((hexNumber ds : ℤ) < 0 ∨ 0xffff < (hexNumber ds : ℤ)) := by omega
  simp only [groupNumbers,List.mapM_cons,List.mapM_nil,parseIntHex_digits hne hds hrest,
    Option.bind_eq_bind,Option.bind_some,if_neg hrange,Option.pure_def,Int.toNat_natCast]

theorem groupNumbers_hextets (gs : List Hextet) :
    groupNumbers (gs.map Hextet.digits) = some (gs.map Hextet.value) := by
  induction gs with
  | nil => rfl
  | cons g gs ih =>
      have hg : groupNumbers [g.digits++[]] = some [hexNumber g.digits] :=
        groupNumbers_piece g.digits_ne g.digits_hex g.digits_length trivial
      rw [List.append_nil] at hg
      rw [List.map_cons,← List.singleton_append,groupNumbers_append,hg,ih]
      rfl

theorem zone_ends (zone : Option Text) : EndsNumber (zoneText zone) := by
  cases zone with
  | none => trivial
  | some z => exact ⟨rfl,by decide,by decide⟩

/-- Pieces without a quad are read as their groups, whatever the zone. -/
theorem groupNumbers_plain {gs : List Hextet} (hne : gs ≠ []) (zone : Option Text) :
    groupNumbers (attach (gs.map Hextet.digits) (zoneText zone)) = some (gs.map Hextet.value) := by
  rcases List.eq_nil_or_concat gs with rfl | ⟨hs,h,rfl⟩
  · exact absurd rfl hne
  · rw [List.concat_eq_append,List.map_append,List.map_append,List.map_singleton,
      List.map_singleton,attach_concat,groupNumbers_append,groupNumbers_hextets,
      groupNumbers_piece h.digits_ne h.digits_hex h.digits_length (zone_ends zone)]
    rfl

/-- A quad after hextets is read as one group: its first octet, in hexadecimal. -/
theorem groupNumbers_quad (gs : List Hextet) (q : Quad) (zone : Option Text) :
    ∃ x < 65536,groupNumbers (attach (Literal.pieces gs (some q)) (zoneText zone)) =
      some (gs.map Hextet.value++[x]) := by
  have hlen := octet_text_length q.a.isLt
  refine ⟨hexNumber (Nat.toDigits 10 q.a),?_,?_⟩
  · exact lt_of_lt_of_le (hexNumber_lt _)
      (Nat.pow_le_pow_right (n := 16) (j := 4) (by decide) (by omega))
  · have htext : q.text++zoneText zone = Nat.toDigits 10 q.a++('.'::
        (quadText [q.b,q.c,q.d]++zoneText zone)) := by
      simp [Quad.text,Quad.octets,quadText,List.intercalate_cons_cons]
    have hpieces : Literal.pieces gs (some q) = gs.map Hextet.digits++[q.text] := rfl
    have hfirst : groupNumbers [Nat.toDigits 10 q.a++('.'::
        (quadText [q.b,q.c,q.d]++zoneText zone))] = some [hexNumber (Nat.toDigits 10 q.a)] :=
      groupNumbers_piece Nat.toDigits_ne_nil
        (fun c hc => (digit_ne (octet_digits _ c hc)).2.2.2.2) (by omega)
        ⟨rfl,by decide,by decide⟩
    rw [hpieces,attach_concat,groupNumbers_append,groupNumbers_hextets,htext,hfirst]
    rfl

theorem breakDouble_none {s : Text} (h : ':' ∉ s) : breakDouble s = none := by
  have := breakDouble_append (s := []) h
  rwa [List.append_nil] at this

/-- No gap is found in joined pieces and a zone without a colon. -/
theorem breakDouble_pieces {gs : List Hextet} {quad : Option Quad} {zone : Text}
    (hzone : ':' ∉ zone) :
    breakDouble ([':'].intercalate (Literal.pieces gs quad)++zone) = none := by
  rw [breakDouble_join pieces_ne pieces_no_colon,breakDouble_none hzone]
  rfl

theorem breakDouble_gap {l : Literal} (hgap : l.gap = true) (zone : Text) :
    breakDouble (l.text++zone) = some ([':'].intercalate (l.head.map Hextet.digits),
      [':'].intercalate (Literal.pieces l.tail l.quad)++zone) := by
  have hpieces : l.head.map Hextet.digits = Literal.pieces l.head none :=
    (List.append_nil _).symm
  rw [Literal.text,if_pos hgap,List.append_assoc,hpieces,
    breakDouble_join pieces_ne pieces_no_colon,List.cons_append,List.cons_append,breakDouble,
    Option.map_some,List.append_nil]

theorem intercalate_eq_nil {ps : List Text} (hne : ∀ p ∈ ps,p ≠ [])
    (h : [':'].intercalate ps = []) : ps = [] := by
  cases ps with
  | nil => rfl
  | cons p ps =>
      cases ps with
      | nil =>
          rw [List.intercalate_singleton] at h
          exact absurd h (hne p (by simp))
      | cons q ps => simp [List.intercalate_cons_cons] at h

/-- The left side of the gap is split into its groups. -/
theorem split_left (gs : List Hextet) :
    (if [':'].intercalate (gs.map Hextet.digits) = [] then []
      else (([':'].intercalate (gs.map Hextet.digits)).splitOn ':').filter fun s => s ≠ []) =
      gs.map Hextet.digits := by
  have hne : ∀ p ∈ gs.map Hextet.digits,p ≠ [] := by
    intro p hp
    obtain ⟨g,_,rfl⟩ := List.mem_map.mp hp
    exact g.digits_ne
  split_ifs with h
  · exact (intercalate_eq_nil hne h).symm
  · rw [List.splitOn_intercalate ':']
    · refine List.filter_eq_self.mpr fun p hp => ?_
      simpa using hne p hp
    · intro p hp
      obtain ⟨g,_,rfl⟩ := List.mem_map.mp hp
      exact g.no_colon
    · rintro hnil
      rw [hnil] at h
      exact h rfl

theorem attach_length {ps : List Text} (hne : ps ≠ []) (zone : Text) :
    (attach ps zone).length = ps.length := by
  have := List.length_pos_iff.mpr hne
  simp only [attach,List.length_append,List.length_dropLast,List.length_singleton]
  omega

/-- The right side of the gap is split into its pieces, the zone in the last one. -/
theorem split_right {gs : List Hextet} {quad : Option Quad} {zone : Text} (hzone : ':' ∉ zone)
    (hne : Literal.pieces gs quad ≠ [] ∨ zone ≠ []) :
    (if [':'].intercalate (Literal.pieces gs quad)++zone = [] then []
      else ([':'].intercalate (Literal.pieces gs quad)++zone).splitOn ':') =
      attach (Literal.pieces gs quad) zone := by
  rw [if_neg,splitOn_attach pieces_no_colon hzone]
  intro h
  obtain ⟨h1,h2⟩ := List.append_eq_nil_iff.mp h
  exact hne.elim (fun h => h (intercalate_eq_nil pieces_ne h1)) (fun h => h h2)

/-- What the parser may make of a literal: groups of sixteen bits, special if the
address is. -/
def Reads (l : Literal) (gs : List ℕ) : Prop :=
  (∀ g ∈ gs,g < 65536) ∧ (Forbidden6 l.groups → Forbidden6 gs)

theorem values_lt (gs : List Hextet) : ∀ x ∈ gs.map Hextet.value,x < 65536 := by
  intro x hx
  obtain ⟨g,_,rfl⟩ := List.mem_map.mp hx
  exact g.value_lt

theorem reads_groups {l : Literal} (hquad : l.quad = none) : Reads l l.groups := by
  refine ⟨?_,id⟩
  intro x hx
  simp only [Literal.groups,hquad,List.mem_append,List.mem_replicate] at hx
  rcases hx with hx | hx | hx | hx
  · exact values_lt _ x hx
  · omega
  · exact values_lt _ x hx
  · cases hx

/-- A quad after a gap is counted as one group. -/
theorem reads_quad {l : Literal} (hgap : l.gap = true) {q : Quad} (hquad : l.quad = some q)
    {x : ℕ} (hx : x < 65536) :
    Reads l (l.head.map Hextet.value++(List.replicate (8-l.head.length-(l.tail.length+1)) 0++
      (l.tail.map Hextet.value++[x]))) := by
  have hlen := l.gapped hgap
  rw [hquad] at hlen
  simp only [width] at hlen
  obtain ⟨n,hn⟩ : ∃ n,8-l.head.length-(l.tail.length+1) = n+2 :=
    ⟨5-l.head.length-l.tail.length,by omega⟩
  constructor
  · intro y hy
    simp only [List.mem_append,List.mem_replicate,List.mem_singleton] at hy
    rcases hy with hy | hy | hy | rfl
    · exact values_lt _ y hy
    · omega
    · exact values_lt _ y hy
    · exact hx
  · intro hf
    have hzeros : 8-l.head.length-l.tail.length-2 = n+1 := by omega
    have hgroups : l.groups = (l.head.map Hextet.value++List.replicate (n+1) 0++
        l.tail.map Hextet.value)++q.groups := by
      simp [Literal.groups,hquad,width,hzeros]
    have hk : (l.head.map Hextet.value++List.replicate (n+1) 0).length = 6-l.tail.length := by
      simp only [List.length_append,List.length_map,List.length_replicate]
      omega
    rw [hgroups] at hf
    have hshift := forbidden_shift (k := 6-l.tail.length) (x := x) ?_ ?_ ?_ ?_ hf
    · rw [List.take_left' hk,List.drop_left' hk] at hshift
      rw [hn,List.replicate_succ']
      simpa using hshift
    · simp only [List.length_append,List.length_map,List.length_replicate]
      omega
    · omega
    · omega
    · have hlast : 6-l.tail.length-1 = l.head.length+n := by omega
      rw [hlast,octet,List.getD_eq_getElem?_getD,List.append_assoc,
        List.getElem?_append_right (by simp),List.getElem?_append_left (by simp)]
      simp

theorem expandGap_reads {l : Literal} (hgap : l.gap = true) {zone : Option Text}
    (hzone : ':' ∉ zoneText zone) {gs : List ℕ}
    (h : expandGap ([':'].intercalate (l.head.map Hextet.digits))
      ([':'].intercalate (Literal.pieces l.tail l.quad)++zoneText zone) = some gs) :
    Reads l gs := by
  unfold expandGap at h
  simp only [breakDouble_pieces hzone,split_left] at h
  cases hquad : l.quad with
  | some q =>
      have hpieces : Literal.pieces l.tail l.quad ≠ [] := by simp [Literal.pieces,hquad]
      rw [split_right hzone (Or.inl hpieces)] at h
      obtain ⟨x,hx,hnumbers⟩ := groupNumbers_quad l.tail q zone
      rw [← hquad] at hnumbers
      rw [attach_length hpieces,groupNumbers_hextets,hnumbers] at h
      have hlen : (Literal.pieces l.tail l.quad).length = l.tail.length+1 := by
        simp [Literal.pieces,hquad]
      rw [hlen,List.length_map] at h
      split_ifs at h
      cases h
      exact reads_quad hgap hquad hx
  | none =>
      have hpieces : Literal.pieces l.tail none = l.tail.map Hextet.digits := List.append_nil _
      have hgroups : l.groups = l.head.map Hextet.value++
          (List.replicate (8-l.head.length-l.tail.length) 0++l.tail.map Hextet.value) := by
        simp [Literal.groups,hquad,width]
      rw [hquad] at h
      by_cases htail : l.tail = []
      · cases zone with
        | none =>
            rw [hpieces,htail] at h
            simp only [List.map_nil,zoneText,List.intercalate_nil,List.append_nil,if_true,
              groupNumbers_hextets,List.length_map,List.length_nil] at h
            split_ifs at h
            cases h
            rw [htail] at hgroups
            exact hgroups ▸ reads_groups hquad
        | some z =>
            -- The zone alone is not a number.
            have hnone : groupNumbers ['%'::z] = none := rfl
            rw [split_right hzone (Or.inr (by simp [zoneText])),hpieces,htail,
              groupNumbers_hextets] at h
            simp only [List.map_nil,attach,List.dropLast_nil,List.getLastD_nil,List.nil_append,
              zoneText,hnone] at h
            split_ifs at h
            cases h
      · have hne : l.tail.map Hextet.digits ≠ [] := by simpa using htail
        rw [split_right hzone (Or.inl (hpieces ▸ hne)),hpieces,attach_length hne,
          groupNumbers_hextets,groupNumbers_plain htail,List.length_map,List.length_map] at h
        split_ifs at h
        cases h
        exact hgroups ▸ reads_groups hquad

theorem expandHextets_reads {l : Literal} {zone : Option Text} (hzone : ':' ∉ zoneText zone)
    {gs : List ℕ} (h : expandHextets (l.text++zoneText zone) = some gs) : Reads l gs := by
  unfold expandHextets at h
  cases hgap : l.gap with
  | true =>
      rw [breakDouble_gap hgap] at h
      exact expandGap_reads hgap hzone h
  | false =>
      obtain ⟨htail,hlen⟩ := l.full hgap
      have htext : l.text = [':'].intercalate (Literal.pieces l.head l.quad) := by
        simp [Literal.text,hgap]
      rw [htext,breakDouble_pieces hzone] at h
      simp only [splitOn_attach pieces_no_colon hzone] at h
      cases hquad : l.quad with
      | some q =>
          rw [hquad] at h hlen
          simp only [width] at hlen
          rw [attach_length (by simp [Literal.pieces])] at h
          have hseven : (Literal.pieces l.head (some q)).length ≠ 8 := by
            simp [Literal.pieces]
            omega
          rw [if_pos hseven] at h
          cases h
      | none =>
          rw [hquad] at h hlen
          simp only [width,add_zero] at hlen
          have hpieces : Literal.pieces l.head none = l.head.map Hextet.digits := List.append_nil _
          have hne : l.head ≠ [] := by
            intro h0
            simp [h0] at hlen
          rw [hpieces,groupNumbers_plain hne] at h
          split_ifs at h
          cases h
          have hgroups : l.groups = l.head.map Hextet.value := by
            simp [Literal.groups,hquad,htail,width,hlen]
          exact hgroups ▸ reads_groups hquad

theorem quadShape_chars {s : Text} (h : isQuadShape s = true) :
    '.' ∈ s ∧ ∀ c ∈ s,c = '.' ∨ c.isDigit = true := by
  simp only [isQuadShape,Bool.and_eq_true,decide_eq_true_eq,List.all_eq_true] at h
  obtain ⟨hlen,hall⟩ := h
  constructor
  · by_contra hdot
    have hsingle : ['.'].intercalate [s] = s := List.intercalate_singleton
    rw [← hsingle,List.splitOn_intercalate '.' (by simpa using hdot) (by simp)] at hlen
    cases hlen
  · have hjoin : ['.'].intercalate (s.splitOn '.') = s := List.intercalate_splitOn '.'
    rw [← hjoin]
    intro c hc
    rcases mem_intercalate hc with hc | ⟨p,hp,hc⟩
    · exact Or.inl (List.mem_singleton.mp hc)
    · exact Or.inr ((hall p hp).2 c hc)

/-- A text that starts with the gap is a literal whose pieces are those after the gap. -/
theorem literal_of_gap {l : Literal} {zone : Option Text} {ps : List Text}
    (hzone : ':' ∉ zoneText zone) (hps : ∀ p ∈ ps,':' ∉ p) (hne : ps ≠ [])
    (h : l.text++zoneText zone = ':' :: ':' :: [':'].intercalate ps) :
    l.gap = true ∧ l.head = [] ∧ attach (Literal.pieces l.tail l.quad) (zoneText zone) = ps := by
  cases hgap : l.gap with
  | false =>
      have hnone : breakDouble (l.text++zoneText zone) = none := by
        have htext : l.text = [':'].intercalate (Literal.pieces l.head l.quad) := by
          simp [Literal.text,hgap]
        rw [htext]
        exact breakDouble_pieces hzone
      rw [h,breakDouble] at hnone
      cases hnone
  | true =>
      have hbreak := breakDouble_gap hgap (zoneText zone)
      rw [h,breakDouble] at hbreak
      obtain ⟨hhead,htail⟩ := Prod.mk.inj (Option.some.inj hbreak)
      refine ⟨rfl,?_,?_⟩
      · have := intercalate_eq_nil (by
          intro p hp
          obtain ⟨g,_,rfl⟩ := List.mem_map.mp hp
          exact g.digits_ne) hhead.symm
        simpa using this
      · rw [← splitOn_attach pieces_no_colon hzone,← htail,List.splitOn_intercalate ':' hps hne]

/-- A last piece with points and without a zone is the quad of the literal. -/
theorem last_piece_quad {gs : List Hextet} {quad : Option Quad} {zone : Option Text}
    {ps : List Text} {X : Text} (hdot : '.' ∈ X) (hchars : ∀ c ∈ X,c = '.' ∨ c.isDigit = true)
    (h : attach (Literal.pieces gs quad) (zoneText zone) = ps++[X]) :
    ∃ q,quad = some q ∧ X = q.text ∧ gs.map Hextet.digits = ps := by
  have hpercent : '%' ∉ X := by
    intro hc
    rcases hchars _ hc with h | h
    · cases h
    · exact (digit_ne h).2.2.1 rfl
  have hnone : ∀ s,s++zoneText zone = X → zone = none := by
    rintro s rfl
    cases zone with
    | none => rfl
    | some z => exact absurd (by simp [zoneText]) hpercent
  cases quad with
  | some q =>
      have hpieces : Literal.pieces gs (some q) = gs.map Hextet.digits++[q.text] := rfl
      rw [hpieces,attach_concat] at h
      obtain ⟨hps,hlast⟩ := List.append_inj' h rfl
      rw [List.singleton_inj] at hlast
      have hzone := hnone _ hlast
      rw [hzone,zoneText,List.append_nil] at hlast
      exact ⟨q,rfl,hlast.symm,hps⟩
  | none =>
      have hlast : ∃ p,'.' ∉ p ∧ p++zoneText zone = X := by
        rcases List.eq_nil_or_concat gs with rfl | ⟨hs,g,rfl⟩
        · have h' : ([] : List Text)++[zoneText zone] = ps++[X] := h
          exact ⟨[],by simp,List.singleton_inj.mp (List.append_inj' h' rfl).2⟩
        · have hpieces : Literal.pieces (hs.concat g) none =
              hs.map Hextet.digits++[g.digits] := by simp [Literal.pieces]
          rw [hpieces,attach_concat] at h
          refine ⟨g.digits,?_,List.singleton_inj.mp (List.append_inj' h rfl).2⟩
          exact fun hc => (isHex_ne (g.digits_hex _ hc)).2.1 rfl
      obtain ⟨p,hp,hX⟩ := hlast
      have hzone := hnone p hX
      rw [hzone,zoneText,List.append_nil] at hX
      exact absurd (hX ▸ hdot) hp

theorem quadAfter_some {start : String} {s X : Text} (h : quadAfter start s = some X) :
    s = start.toList++X ∧ isQuadShape X = true := by
  unfold quadAfter at h
  split_ifs at h with hc
  obtain ⟨hstart,hshape⟩ := hc
  cases h
  obtain ⟨t,rfl⟩ := List.isPrefixOf_iff_prefix.mp hstart
  rw [← String.length_toList,List.drop_left] at hshape ⊢
  exact ⟨rfl,hshape⟩

/-- The first of the embedded octets is in the seventh group. -/
theorem forbidden_embedded {p q g h : ℕ} (hpq : (p,q) = (0,0xffff) ∨ (p,q) = (0xffff,0) ∨
    (p,q) = (0,0)) (hf : Forbidden6 [0,0,0,0,p,q,g,h]) : Forbidden4 (g/256) (g%256) := by
  cases hf with
  | unspecified => exact .unspecified
  | loopback => exact .unspecified
  | linkLocal h1 h2 => omega
  | multicast h1 => omega
  | uniqueLocal h1 h2 => omega
  | siteLocal h1 h2 => omega
  | mapped hf => exact hf
  | compatible hf => exact hf
  | translated hf => exact hf

/-- The forms the patterns recognise are classified by their quad. -/
theorem quadAfter_sound {net : NetIsIP} {l : Literal} {zone : Option Text} {ps : List Text}
    {X : Text} (hzone : ':' ∉ zoneText zone) (hshape : isQuadShape X = true)
    (hps : (ps = ["ffff".toList] ∨ ps = ["ffff".toList,"0".toList]) ∨ ps = [])
    (htext : l.text++zoneText zone = ':' :: ':' :: [':'].intercalate (ps++[X]))
    (h : classifyEmbedded net X false = .ok ()) : ¬ Forbidden6 l.groups := by
  obtain ⟨hdot,hchars⟩ := quadShape_chars hshape
  have hconst : ∀ p ∈ ps,':' ∉ p := by
    rcases hps with (rfl | rfl) | rfl <;> decide
  have hcolon : ∀ p ∈ ps++[X],':' ∉ p := by
    intro p hp
    rcases List.mem_append.mp hp with hp | hp
    · exact hconst p hp
    · rw [List.mem_singleton] at hp
      subst hp
      intro hc
      rcases hchars _ hc with h | h
      · cases h
      · exact (digit_ne h).1 rfl
  obtain ⟨_,hhead,hattach⟩ := literal_of_gap hzone hcolon (by simp) htext
  obtain ⟨q,hquad,rfl,hdigits⟩ := last_piece_quad hdot hchars hattach
  have hsafe := classifyEmbedded_sound q.a.isLt q.b.isLt q.c.isLt q.d.isLt h
  have hvalues : l.tail.map Hextet.value = ps.map hexNumber := by
    rw [← hdigits,List.map_map]
    rfl
  have hlen : l.tail.length = ps.length := by rw [← hdigits,List.length_map]
  have hgroups : l.groups =
      List.replicate (6-ps.length) 0++(ps.map hexNumber++q.groups) := by
    simp only [Literal.groups,hhead,hquad,hvalues,hlen,width,List.map_nil,List.nil_append,
      List.length_nil,Option.map_some,Option.getD_some]
    congr 2
    omega
  intro hf
  rw [hgroups] at hf
  have hq : (q.a*256+q.b : ℕ)/256 = q.a ∧ (q.a*256+q.b : ℕ)%256 = q.b := by omega
  have hforbidden : Forbidden4 ((q.a*256+q.b : ℕ)/256) ((q.a*256+q.b : ℕ)%256) := by
    rcases hps with (rfl | rfl) | rfl
    · exact forbidden_embedded (Or.inl rfl) hf
    · exact forbidden_embedded (Or.inr (Or.inl rfl)) hf
    · exact forbidden_embedded (Or.inr (Or.inr rfl)) hf
  rw [hq.1,hq.2] at hforbidden
  exact hsafe hforbidden

/-- A parsed address that is accepted is not special, for a zone without a colon. -/
theorem parse_sound {net : NetIsIP} {l : Literal} {zone : Option Text} {parsed : Parsed}
    (hzone : ':' ∉ zoneText zone) (hparse : parseIpv6Hextets net (l.text++zoneText zone) = some parsed)
    (h : classifyParsed net parsed false = .ok ()) : ¬ Forbidden6 l.groups := by
  have hzone' : ':' ∉ zoneText (zone.map lower) := lower_zone zone ▸ lower_no_colon hzone
  have hmapped : ∀ {X : Text},
      (parseIpv4Octets X).map (fun octets => Parsed.mapped octets X) = some parsed →
      classifyEmbedded net X false = .ok () := by
    intro X hX
    obtain ⟨octets,_,rfl⟩ := Option.map_eq_some_iff.mp hX
    exact h
  unfold parseIpv6Hextets at hparse
  simp only [lower_append,Literal.lower_text,lower_zone] at hparse
  rw [← Literal.lower_groups]
  split_ifs at hparse
  cases hmap : quadAfter "::ffff:" (l.lower.text++zoneText (zone.map lower)) with
  | some X =>
      obtain ⟨htext,hshape⟩ := quadAfter_some hmap
      rw [hmap] at hparse
      refine quadAfter_sound hzone' hshape (Or.inl (Or.inl rfl)) ?_ (hmapped hparse)
      rw [htext]
      simp [List.intercalate_cons_cons]
  | none =>
      cases htranslated : quadAfter "::ffff:0:" (l.lower.text++zoneText (zone.map lower)) with
      | some X =>
          obtain ⟨htext,hshape⟩ := quadAfter_some htranslated
          rw [hmap,htranslated] at hparse
          refine quadAfter_sound hzone' hshape (Or.inl (Or.inr rfl)) ?_ (hmapped hparse)
          rw [htext]
          simp [List.intercalate_cons_cons]
      | none =>
          cases hcompatible : quadAfter "::" (l.lower.text++zoneText (zone.map lower)) with
          | some X =>
              obtain ⟨htext,hshape⟩ := quadAfter_some hcompatible
              rw [hmap,htranslated,hcompatible] at hparse
              refine quadAfter_sound hzone' hshape (Or.inr rfl) ?_ (hmapped hparse)
              rw [htext,List.nil_append,List.intercalate_singleton]
              rfl
          | none =>
              rw [hmap,htranslated,hcompatible] at hparse
              obtain ⟨gs,hgs,rfl⟩ := Option.map_eq_some_iff.mp hparse
              obtain ⟨hlt,hforbidden⟩ := expandHextets_reads hzone' hgs
              exact fun hf => groups_sound hlt h (hforbidden hf)

theorem assert_ok {net : NetIsIP} {s : Text} (h : assertProbeDestinationAllowed net s {} = .ok ()) :
    classifyRoutableIp net s false = .ok () := by
  unfold assertProbeDestinationAllowed at h
  split_ifs at h
  revert h
  cases classifyRoutableIp net s false with
  | ok u => exact fun _ => rfl
  | error message => exact fun h => h

/-- The gate lets no special address through when the zone has no colon. -/
theorem gate_sound {net : NetIsIP} {s : Text}
    (h : assertProbeDestinationAllowed net s {} = .ok ()) : ¬ DenotesForbidden (· ≠ ':') s := by
  have hclass := assert_ok h
  unfold classifyRoutableIp at hclass
  intro hf
  cases hf with
  | quad hf =>
      rename_i q
      have hfour : net.isIP q.text = 4 := (net.isIP_four _).mpr ⟨q,rfl⟩
      rw [if_neg (by omega),if_pos hfour] at hclass
      exact classifyIpv4_sound q.a.isLt q.b.isLt q.c.isLt q.d.isLt hclass hf
  | literal hover hf =>
      rename_i l zone
      have hzone : ':' ∉ zoneText zone := by
        cases zone with
        | none => simp [zoneText]
        | some z =>
            simp only [zoneText,List.mem_cons,not_or]
            exact ⟨by decide,fun hc => (hover.2 _ hc).2 rfl⟩
      have hover' : ZoneOver (fun _ => True) zone := by
        cases zone with
        | none => trivial
        | some z => exact ⟨hover.1,fun c hc => ⟨(hover.2 c hc).1,trivial⟩⟩
      have hsix : net.isIP (l.text++zoneText zone) = 6 :=
        (net.isIP_six _).mpr ⟨l,zone,hover',rfl⟩
      rw [if_neg (by omega),if_neg (by omega)] at hclass
      cases hparse : parseIpv6Hextets net (l.text++zoneText zone) with
      | none =>
          rw [hparse] at hclass
          cases hclass
      | some parsed =>
          rw [hparse] at hclass
          exact parse_sound hzone hparse hclass hf

def zeroHextet : Hextet := ⟨['0'],nofun,by decide,by simp [isHex,hexValue]⟩

def onesHextet : Hextet := ⟨['f','f','f','f'],ones_ne,ones_length,ones_hex⟩

/-- A loopback address in the mapped form, all groups written. -/
def zonedLoopback : Literal where
  head := [zeroHextet,zeroHextet,zeroHextet,zeroHextet,zeroHextet,onesHextet]
  gap := false
  tail := []
  quad := some ⟨127,0,0,1⟩
  full := fun _ => ⟨rfl,rfl⟩
  gapped := nofun

theorem zonedLoopback_forbidden : Forbidden6 zonedLoopback.groups := .mapped .loopback

theorem zonedLoopback_text :
    zonedLoopback.text++zoneText (some [':',':']) = "0:0:0:0:0:ffff:127.0.0.1%::".toList := by
  decide

/-- The part before the zone has seven pieces, and the colons of the zone are read as the
gap: the quad becomes the group 0x127. -/
theorem zonedLoopback_expand : expandHextets "0:0:0:0:0:ffff:127.0.0.1%::".toList =
    some [0,0,0,0,0,0xffff,0x127,0] := by
  decide

theorem zonedLoopback_accepted (net : NetIsIP) :
    assertProbeDestinationAllowed net "0:0:0:0:0:ffff:127.0.0.1%::".toList {} = .ok () := by
  have hsix : net.isIP "0:0:0:0:0:ffff:127.0.0.1%::".toList = 6 := by
    refine (net.isIP_six _).mpr ⟨zonedLoopback,some [':',':'],⟨nofun,?_⟩,zonedLoopback_text.symm⟩
    intro c hc
    have : c = ':' := by simpa using hc
    exact ⟨this ▸ rfl,trivial⟩
  have hlower : lower "0:0:0:0:0:ffff:127.0.0.1%::".toList =
      "0:0:0:0:0:ffff:127.0.0.1%::".toList := by decide
  have hparse : parseIpv6Hextets net "0:0:0:0:0:ffff:127.0.0.1%::".toList =
      some (embedLast [0,0,0,0,0,0xffff,0x127,0]) := by
    have hmap : quadAfter "::ffff:" "0:0:0:0:0:ffff:127.0.0.1%::".toList = none := by
      decide
    have htranslated : quadAfter "::ffff:0:" "0:0:0:0:0:ffff:127.0.0.1%::".toList = none := by
      decide
    have hcompatible : quadAfter "::" "0:0:0:0:0:ffff:127.0.0.1%::".toList = none := by
      decide
    simp only [parseIpv6Hextets,hlower,hsix,hmap,htranslated,hcompatible,zonedLoopback_expand]
    rfl
  have hfour : net.isIP (quadText [1,39,0,0]) = 4 :=
    (net.isIP_four _).mpr (quad_text (by decide) (by decide) (by decide) (by decide))
  have hclass : classifyParsed net (embedLast [0,0,0,0,0,0xffff,0x127,0]) false = .ok () := by
    have hipv4 : classifyIpv4 (quadText [1,39,0,0]) false = .ok () := by
      unfold classifyIpv4
      rw [parseIpv4Octets_quad (by decide) (by decide) (by decide) (by decide)]
      decide
    change classifyEmbedded net (quadText [1,39,0,0]) false = .ok ()
    rw [classifyEmbedded,if_pos hfour,hipv4]
  have hroutable : classifyRoutableIp net "0:0:0:0:0:ffff:127.0.0.1%::".toList false = .ok () := by
    rw [classifyRoutableIp,if_neg (by omega),if_neg (by omega),hparse]
    exact hclass
  rw [assertProbeDestinationAllowed,if_neg (by omega)]
  simp only [hroutable]

/-- For zones over a set of characters, the gate lets no special address through if and
only if the colon is not one of them. -/
theorem gate_sound_iff (net : NetIsIP) (allowed : Char → Prop) :
    (∀ s,assertProbeDestinationAllowed net s {} = .ok () → ¬ DenotesForbidden allowed s) ↔
      ¬ allowed ':' := by
  constructor
  · intro hsound hcolon
    refine hsound _ (zonedLoopback_accepted net) ?_
    rw [← zonedLoopback_text]
    refine .literal ⟨nofun,?_⟩ zonedLoopback_forbidden
    intro c hc
    have : c = ':' := by simpa using hc
    exact ⟨this ▸ rfl,this ▸ hcolon⟩
  · intro hcolon s hs hf
    refine gate_sound hs ?_
    cases hf with
    | quad hf => exact .quad hf
    | literal hover hf =>
        rename_i l zone
        refine .literal ?_ hf
        cases zone with
        | none => trivial
        | some z =>
            refine ⟨hover.1,fun c hc => ⟨(hover.2 c hc).1,?_⟩⟩
            rintro rfl
            exact hcolon (hover.2 _ hc).2

/-- Under the documented version test a loopback address passes the gate. -/
theorem zoned_loopback_passes : ¬ ∀ (net : NetIsIP) (s : Text),
    assertProbeDestinationAllowed net s {} = .ok () → ¬ DenotesForbidden (fun _ => True) s := by
  intro h
  refine h netIsIP _ (zonedLoopback_accepted netIsIP) ?_
  rw [← zonedLoopback_text]
  refine .literal ⟨nofun,?_⟩ zonedLoopback_forbidden
  intro c hc
  have : c = ':' := by simpa using hc
  exact ⟨this ▸ rfl,trivial⟩

end AstraNull.ProbeEndpoint

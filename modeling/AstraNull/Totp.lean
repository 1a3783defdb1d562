import Mathlib
import AstraNull.PasswordAuth

/-!
# Time-based one-time codes

`lib/totp.mjs`: the code of a step is cut from a keyed digest of the step, and a presented code
is compared with the codes of the steps around the current one.
-/
namespace AstraNull.Totp
open PasswordAuth

/-- What the platform computes for the code. -/
structure Primitives where
  toUpperCase : List Char → List Char
  isSpace : Char → Bool
  hmacSha1 : List ℕ → List ℕ → List ℕ
  /-- `Math.floor(nowMs / 1000 / stepSeconds)` -/
  currentStep : Time → ℤ

def totpDigits : ℕ := 6

def totpDefaultWindow : ℕ := 1

def base32Alphabet : List Char := "ABCDEFGHIJKLMNOPQRSTUVWXYZ234567".toList

section
variable (T : Primitives)

/-- The loop over the characters: the bits read so far and how many are left over. -/
def decodeBits : List Char → ℕ → ℕ → List ℕ
  | [],_,_ => []
  | c::cs,value,bits =>
      let value := (value*32+base32Alphabet.idxOf c)%2^32
      if 8 ≤ bits+5 then value/2^(bits+5-8)%256::decodeBits cs value (bits+5-8)
      else decodeBits cs value (bits+5)

def base32Decode (input : String) : Option (List ℕ) :=
  let clean := (T.toUpperCase input.toList).filter fun c => !(T.isSpace c || c == '=')
  if clean = [] ∨ clean.any (fun c => !base32Alphabet.contains c) then none
  else some (decodeBits clean 0 0)

/-- `writeBigUInt64BE` -/
def bigEndian (counter : ℕ) : List ℕ := (List.range 8).reverse.map fun k => counter/256^k%256

def padStart (width : ℕ) (text : String) : String :=
  String.ofList (List.replicate (width-text.length) '0'++text.toList)

def hotp (secretBytes : List ℕ) (counter : ℤ) : Option String :=
  if isSafeInteger counter = false ∨ counter < 0 then none
  else
    let digest := T.hmacSha1 secretBytes (bigEndian counter.toNat)
    let offset := digest.getLastD 0%16
    let code := (digest.getD offset 0%128*2^24+digest.getD (offset+1) 0*2^16+
      digest.getD (offset+2) 0*2^8+digest.getD (offset+3) 0)%10^totpDigits
    some (padStart totpDigits (toString code))

def normalizeToken (token : String) : String :=
  String.ofList (token.toList.filter fun c => !T.isSpace c)

/-- The steps that are compared, the earliest first. -/
def candidates (now : Time) : List ℤ :=
  (List.range (2*totpDefaultWindow+1)).map fun k => T.currentStep now+(k-totpDefaultWindow)

def verifyTotp (secret token : String) (now : Time) : Option ℤ :=
  let normalized := normalizeToken T token
  if ¬ (normalized.length = totpDigits ∧ normalized.toList.all Char.isDigit) then none
  else match base32Decode T secret with
    | none => none
    | some secretBytes =>
        if secretBytes = [] then none
        else if isSafeInteger (T.currentStep now) = false ∨ T.currentStep now < 0 then none
        else (candidates T now).find? fun step => hotp T secretBytes step == some normalized

/-- The presented code is the one of a step around the current one. -/
structure Matches (secret token : String) (now : Time) (step : ℤ) : Prop where
  window : step ∈ candidates T now
  code : ∃ secretBytes,base32Decode T secret = some secretBytes ∧ secretBytes ≠ [] ∧
    hotp T secretBytes step = some (normalizeToken T token)

theorem matches_of_verifyTotp {T : Primitives} {secret token : String} {now : Time} {step : ℤ}
    (h : verifyTotp T secret token now = some step) : Matches T secret token now step := by
  unfold verifyTotp at h
  dsimp only at h
  cases hb : base32Decode T secret with
  | none => simp [hb] at h
  | some secretBytes =>
      simp only [hb] at h
      split_ifs at h with hdigits hempty hrange
      refine ⟨List.mem_of_find?_eq_some h,secretBytes,hb,hempty,?_⟩
      simpa using List.find?_some h

end

end AstraNull.Totp

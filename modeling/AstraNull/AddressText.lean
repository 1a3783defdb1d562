import Mathlib
import AstraNull.ScriptText
import AstraNull.IpText

/-!
# Addresses by their value

`parseIpAddress`, which `edgeFingerprint.mjs` and `asnLookup.mjs` share: an address text becomes a
version and a number. An IPv6 text of the form `::ffff:0:0/96`, in either spelling, is taken for the
IPv4 address it embeds.
-/
namespace AstraNull.AddressText
open JsonText ScriptText IpText

inductive Version
  | v4
  | v6
deriving DecidableEq

structure Address where
  version : Version
  value : ℕ
deriving DecidableEq

/-- `Number` of a text of decimal digits. -/
def decimalNumber (part : JsString) : ℕ := Nat.ofDigitChars 10 (chars part) 0

def mergeOctets (parts : List ℕ) : ℕ :=
  parts.getD 0 0<<<24 ||| parts.getD 1 0<<<16 ||| parts.getD 2 0<<<8 ||| parts.getD 3 0

/-- `split('::')`. -/
def splitDouble : JsString → List JsString
  | [] => [[]]
  | [u] => [[u]]
  | u::v::rest =>
      if u = 58 ∧ v = 58 then []::splitDouble rest
      else (splitDouble (v::rest)).modifyHead (u::·)

/-- `/^[0-9a-f]{1,4}$/`. -/
def isGroupToken (token : JsString) : Bool :=
  1 ≤ token.length && token.length ≤ 4 && token.all fun u =>
    (48 ≤ u.toNat && u.toNat ≤ 57) || (97 ≤ u.toNat && u.toNat ≤ 102)

section
variable (net : NetIsIP) (toLowerCase : JsString → JsString)

def ipv4ToBigint (ip : JsString) : Option ℕ :=
  if net.isIP (chars ip) ≠ 4 then none
  else some (mergeOctets ((ip.splitOn 46).map decimalNumber))

/-- The loop over the tokens of one side; a dotted quad is taken at the end only. -/
def tokenGroups : List JsString → Option (List ℕ)
  | [] => some []
  | token::tokens =>
      if token.contains 46 then
        if tokens ≠ [] then none
        else (ipv4ToBigint net token).map fun ipv4 => [ipv4>>>16 &&& 0xffff,ipv4 &&& 0xffff]
      else if !isGroupToken token then none
      else (tokenGroups tokens).map (hexNumber (chars token)::·)

def parseSide (text : JsString) : Option (List ℕ) :=
  if text = [] then some [] else tokenGroups net (text.splitOn 58)

def ipv6Groups (ip : JsString) : Option (List ℕ) :=
  if net.isIP (chars ip) ≠ 6 ∨ 2 < (splitDouble ip).length then none
  else
    let sides := splitDouble (toLowerCase ip)
    match parseSide net (sides.getD 0 []),parseSide net (sides.getD 1 []) with
    | some head,some tail =>
        if (splitDouble ip).length ≤ 1 then
          if head.length = 8 then some head else none
        else if 8 < head.length+tail.length+1 then none
        else some (head++List.replicate (8-head.length-tail.length) 0++tail)
    | _,_ => none

def groupsAddress (groups : List ℕ) : Address :=
  if (groups.take 5).all (· == 0) && groups[5]? == some 0xffff then
    ⟨.v4,groups.getD 6 0<<<16 ||| groups.getD 7 0⟩
  else ⟨.v6,groups.foldl (fun numeric group => numeric<<<16 ||| group) 0⟩

def parseIpAddress (ip : Option JsString) : Option Address :=
  let value := trim (ip.getD [])
  match ipv4ToBigint net value with
  | some v4 => some ⟨.v4,v4⟩
  | none => (ipv6Groups net toLowerCase value).map groupsAddress

end

end AstraNull.AddressText

import Mathlib
import AstraNull.ScriptText
import AstraNull.ScriptValue

/-!
# The key of a client

`deriveClientKey` of `lib/rateLimit.mjs`: behind trusted proxies the key is the entry that many
places from the right of the forwarded chain, otherwise the address of the socket. What a client
writes in front of the entries of the proxies does not reach it.
-/
namespace AstraNull.ClientKey
open JsonText ScriptText ScriptValue

/-- The header `x-forwarded-for`: a repeated one arrives as a list of lines. -/
inductive Forwarded where
  | absent
  | one (text : JsString)
  | repeated (lines : List JsString)

/-- The whole chain, from left to right. -/
def Forwarded.chain : Forwarded → JsString
  | .absent => []
  | .one text => text
  | .repeated lines => [44].intercalate lines

structure Request where
  forwarded : Forwarded
  remoteAddress : Option JsString

structure Options where
  trustProxyHeaders : Bool
  trustedProxyHops : Numeric

/-- The number of trusted hops; one when it is no positive integer. -/
def hops (o : Options) : ℕ :=
  match o.trustedProxyHops with
  | .finite n => if (rational n).den = 1 ∧ 1 ≤ rational n then (rational n).num.toNat else 1
  | _ => 1

/-- The entries of a chain that are not blank. -/
def entries (chain : JsString) : List JsString :=
  ((chain.splitOn 44).map trim).filter fun entry => entry ≠ []

def socketKey (req : Request) : JsString :=
  js "ip:"++req.remoteAddress.getD (js "unknown")

/-- The entry of the outermost trusted proxy, if the chain is long enough. -/
def trustedEntry (o : Options) (list : List JsString) : Option JsString :=
  if hops o ≤ list.length then
    list[list.length-hops o]?.filter fun entry => entry ≠ []
  else none

def forwardedKey (req : Request) (o : Options) : Option JsString :=
  match req.forwarded with
  | .absent => none
  | .one [] => none
  | forwarded => (trustedEntry o (entries forwarded.chain)).map fun entry => js "ip:"++entry

def deriveClientKey (req : Request) (o : Options) : JsString :=
  if o.trustProxyHeaders then (forwardedKey req o).getD (socketKey req) else socketKey req

/-- The chain ends in the given entries, after anything that a client may have sent. -/
def EndsIn (forwarded : Forwarded) (last : List JsString) : Prop :=
  forwarded.chain = [44].intercalate last ∨
    ∃ before,forwarded.chain = before++44::[44].intercalate last

section Entries
variable {last : List JsString} (hcomma : ∀ entry ∈ last,44 ∉ entry)
  (hblank : ∀ entry ∈ last,trim entry ≠ [])
include hcomma hblank

theorem entries_last (hne : last ≠ []) : entries ([44].intercalate last) = last.map trim := by
  rw [entries,List.splitOn_intercalate 44 hcomma hne,List.filter_eq_self]
  intro entry hentry
  obtain ⟨e,he,rfl⟩ := List.mem_map.mp hentry
  simpa using hblank e he

theorem entries_endsIn {forwarded : Forwarded} (hne : last ≠ []) (h : EndsIn forwarded last) :
    ∃ front,entries forwarded.chain = front++last.map trim := by
  rcases h with h | ⟨before,h⟩
  · exact ⟨[],by rw [h,entries_last hcomma hblank hne]; rfl⟩
  · refine ⟨entries before,?_⟩
    have hlast := entries_last hcomma hblank hne
    rw [entries] at hlast
    rw [h,entries,List.splitOn_append_cons_self,List.map_append,List.filter_append,hlast]
    rfl

end Entries

theorem trustedEntry_append {o : Options} {front last : List JsString} {entry : JsString}
    {rest : List JsString} (hlast : last = entry::rest) (hcount : last.length = hops o)
    (hentry : entry ≠ []) : trustedEntry o (front++last) = some entry := by
  subst hlast
  have hindex : (front++entry::rest).length-hops o = front.length := by
    rw [List.length_append,← hcount]
    omega
  rw [trustedEntry,if_pos (by rw [List.length_append,← hcount]; omega),hindex,
    List.getElem?_append_right (le_refl _),Nat.sub_self]
  simp [hentry]

theorem hops_pos (o : Options) : 1 ≤ hops o := by
  rw [hops]
  split
  · rename_i n hn
    split_ifs with h
    · have hnum : 1 ≤ (rational n).num := by
        rw [← Rat.coe_int_num_of_den_eq_one h.1] at h
        exact_mod_cast h.2
      omega
    · exact le_refl 1
  · exact le_refl 1

theorem hops_natNumber {o : Options} {h : ℕ} (hpos : 1 ≤ h) (hsmall : h < 2^53)
    (ho : o.trustedProxyHops = natNumber h) : hops o = h := by
  obtain ⟨x,hx,hof⟩ := NumberText.Number.exists_natural hpos hsmall
  have hvalue : rational (.nonzero false x) = h := hx
  have hone : 1 ≤ rational (.nonzero false x) := by
    rw [hvalue]
    exact_mod_cast hpos
  rw [hops,ho,natNumber,ofNonneg,hof]
  simp only
  rw [if_pos ⟨by rw [hvalue]; exact Rat.den_natCast h,hone⟩,hvalue,Rat.num_natCast,
    Int.toNat_natCast]

/-- Behind trusted proxies the key is the first of their entries. -/
theorem forwardedKey_eq {req : Request} {o : Options} {last : List JsString}
    (hcount : last.length = hops o) (hcomma : ∀ entry ∈ last,44 ∉ entry)
    (hblank : ∀ entry ∈ last,trim entry ≠ []) (h : EndsIn req.forwarded last) :
    forwardedKey req o = some (js "ip:"++trim (last.headD [])) := by
  obtain ⟨entry,rest,rfl⟩ := List.exists_cons_of_length_pos (hcount ▸ hops_pos o)
  obtain ⟨front,hfront⟩ := entries_endsIn hcomma hblank (List.cons_ne_nil _ _) h
  have hentry := hblank entry List.mem_cons_self
  have hkey : (trustedEntry o (entries req.forwarded.chain)).map (fun e => js "ip:"++e) =
      some (js "ip:"++trim entry) := by
    rw [hfront,trustedEntry_append (List.map_cons) (by rw [List.length_map,hcount]) hentry]
    rfl
  have hchain : entries req.forwarded.chain ≠ [] := by
    rw [hfront]
    simp
  rw [forwardedKey]
  split
  · rename_i hforwarded
    rw [hforwarded] at hchain
    exact absurd rfl hchain
  · rename_i hforwarded
    rw [hforwarded] at hchain
    exact absurd rfl hchain
  · exact hkey

/-- The key of a client behind trusted proxies is the same whatever the client sends in front of
their entries; without them it depends on the address of the socket alone. -/
theorem client_key_noninterference :
    (∀ req req' o last,o.trustProxyHeaders = true → last.length = hops o →
      (∀ entry ∈ last,44 ∉ entry) → (∀ entry ∈ last,trim entry ≠ []) →
      EndsIn req.forwarded last → EndsIn req'.forwarded last →
      deriveClientKey req o = deriveClientKey req' o) ∧
    ∀ req req' o,o.trustProxyHeaders = false → req.remoteAddress = req'.remoteAddress →
      deriveClientKey req o = deriveClientKey req' o := by
  constructor
  · intro req req' o last htrust hcount hcomma hblank h h'
    rw [deriveClientKey,deriveClientKey,if_pos htrust,if_pos htrust,
      forwardedKey_eq hcount hcomma hblank h,forwardedKey_eq hcount hcomma hblank h']
    rfl
  · intro req req' o htrust haddress
    rw [deriveClientKey,deriveClientKey,htrust,if_neg Bool.false_ne_true,
      if_neg Bool.false_ne_true,socketKey,socketKey,haddress]

/-- One trusted hop. -/
def oneHop : Options := ⟨true,natNumber 1⟩

theorem hops_oneHop : hops oneHop = 1 := hops_natNumber (le_refl 1) (by norm_num) rfl

theorem one_hop_ignores_client :
    deriveClientKey ⟨.one (js "1.1.1.1,,  ,2.2.2.2"),none⟩ oneHop =
      deriveClientKey ⟨.repeated [js "x",js "2.2.2.2"],none⟩ oneHop := by
  refine client_key_noninterference.1 _ _ oneHop [js "2.2.2.2"] rfl hops_oneHop.symm ?_ ?_
    (.inr ⟨js "1.1.1.1,,  ",by decide⟩) (.inr ⟨js "x",by decide⟩)
  · decide
  · decide

/-- An entry of blanks alone is skipped, so that the entry before it is read. -/
theorem blank_entry_shifts :
    (∀ entry ∈ [js " "],entry ≠ [] ∧ 44 ∉ entry) ∧ [js " "].length = hops oneHop ∧
      EndsIn (.one (js "a, ")) [js " "] ∧ EndsIn (.one (js "b, ")) [js " "] ∧
      deriveClientKey ⟨.one (js "a, "),none⟩ oneHop = js "ip:a" ∧
      deriveClientKey ⟨.one (js "b, "),none⟩ oneHop = js "ip:b" := by
  have hkey : ∀ text entry,entries text = [entry] → entry ≠ [] → text ≠ [] →
      deriveClientKey ⟨.one text,none⟩ oneHop = js "ip:"++entry := by
    intro text entry hentries hentry htext
    have hfirst : trustedEntry oneHop (entries text) = some entry := by
      rw [hentries]
      exact @trustedEntry_append oneHop [] [entry] entry [] rfl hops_oneHop.symm hentry
    obtain ⟨u,us,rfl⟩ := List.exists_cons_of_ne_nil htext
    simp only [deriveClientKey,forwardedKey,Forwarded.chain,hfirst]
    rfl
  refine ⟨by decide,hops_oneHop.symm,.inr ⟨js "a",by decide⟩,.inr ⟨js "b",by decide⟩,?_,?_⟩
  · exact hkey _ (js "a") (by decide) (by decide) (by decide)
  · exact hkey _ (js "b") (by decide) (by decide) (by decide)

end AstraNull.ClientKey

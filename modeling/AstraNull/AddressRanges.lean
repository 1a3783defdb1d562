import Mathlib
import AstraNull.ProbeEndpoint

/-!
# The address classifier against the ranges of IPv6

A literal denotes a number of 128 bits. The classifier accepts a literal without a quad
and without a zone exactly when its number is outside the refused ranges, so the spelling
of an address does not matter.
-/
namespace AstraNull.AddressRanges
open JsonText ScriptText IpText ProbeEndpoint

/-- The number of a list of groups, the first one the most significant. -/
def addressValue (groups : List ℕ) : ℕ := groups.foldl (fun acc g => acc*65536+g) 0

/-- The number has the first `bits` bits of the given address. -/
def Within (groups : List ℕ) (bits v : ℕ) : Prop :=
  v/2^(128-bits) = addressValue groups/2^(128-bits)

/-- The places of an IPv4 address inside the IPv6 space. -/
def embeddings : List (List ℕ) := [[0,0,0,0,0,0xffff],[0,0,0,0,0xffff,0],[0,0,0,0,0,0]]

inductive Refused (net : NetIsIP) (allowPrivate : Bool) (v : ℕ) : Prop
  | unspecified : Within [0,0,0,0,0,0,0,0] 128 v → Refused net allowPrivate v
  | loopback : Within [0,0,0,0,0,0,0,1] 128 v → Refused net allowPrivate v
  | multicast : Within [0xff00,0,0,0,0,0,0,0] 8 v → Refused net allowPrivate v
  | siteLocal : Within [0xfec0,0,0,0,0,0,0,0] 10 v → Refused net allowPrivate v
  | teredo : Within [0x2001,0,0,0,0,0,0,0] 32 v → Refused net allowPrivate v
  | sixToFour : Within [0x2002,0,0,0,0,0,0,0] 16 v → Refused net allowPrivate v
  | nat64 : Within [0x64,0xff9b,0,0,0,0,0,0] 96 v → Refused net allowPrivate v
  | localNat64 : Within [0x64,0xff9b,1,0,0,0,0,0] 48 v → Refused net allowPrivate v
  | linkLocal : Within [0xfe80,0,0,0,0,0,0,0] 10 v → Refused net allowPrivate v
  | uniqueLocal : allowPrivate = false → Within [0xfc00,0,0,0,0,0,0,0] 7 v →
      Refused net allowPrivate v
  | embedded (start : List ℕ) (q : Quad) : start ∈ embeddings →
      classifyRoutableIp net q.text allowPrivate ≠ .ok () →
      v = addressValue (start++q.groups) → Refused net allowPrivate v

theorem pieces_none (gs : List Hextet) : Literal.pieces gs none = gs.map Hextet.digits :=
  List.append_nil _

theorem splitOn_pieces {gs : List Hextet} (hne : gs ≠ []) :
    ([':'].intercalate (gs.map Hextet.digits)).splitOn ':' = gs.map Hextet.digits := by
  apply List.splitOn_intercalate
  · intro p hp
    exact @pieces_no_colon gs none p (by rwa [pieces_none])
  · simpa using hne

theorem breakDouble_hextets (gs : List Hextet) :
    breakDouble ([':'].intercalate (gs.map Hextet.digits)) = none := by
  have h := @breakDouble_pieces gs none [] (by simp)
  rwa [List.append_nil,pieces_none] at h

/-- Both sides of the gap are read and the groups between them are zero. -/
theorem expandGap_groups (head tail : List Hextet) (hlen : head.length+tail.length ≤ 7) :
    expandGap ([':'].intercalate (head.map Hextet.digits))
      ([':'].intercalate (tail.map Hextet.digits)) =
      some (head.map Hextet.value++(List.replicate (8-head.length-tail.length) 0++
        tail.map Hextet.value)) := by
  have htail : (if [':'].intercalate (tail.map Hextet.digits) = [] then []
      else ([':'].intercalate (tail.map Hextet.digits)).splitOn ':') =
      tail.map Hextet.digits := by
    split_ifs with h
    · exact (intercalate_eq_nil (fun p hp => @pieces_ne tail none p (by rwa [pieces_none])) h).symm
    · apply splitOn_pieces
      rintro rfl
      exact h rfl
  simp only [expandGap,breakDouble_hextets,split_left,htail,List.length_map]
  rw [if_neg (by omega),groupNumbers_hextets,groupNumbers_hextets]
  rfl

theorem expandHextets_groups {l : Literal} (hquad : l.quad = none) :
    expandHextets l.text = some l.groups := by
  unfold expandHextets
  cases hgap : l.gap with
  | true =>
      have hlen := l.gapped hgap
      have hbreak := breakDouble_gap hgap []
      rw [hquad] at hlen
      rw [List.append_nil,List.append_nil,hquad,pieces_none] at hbreak
      rw [hbreak]
      simp only [expandGap_groups l.head l.tail hlen,Literal.groups,hquad,width,Option.map_none,
        Option.getD_none,List.append_nil,Nat.sub_zero]
  | false =>
      obtain ⟨htail,hlen⟩ := l.full hgap
      rw [hquad] at hlen
      have hne : l.head ≠ [] := by
        intro h0
        simp [h0,width] at hlen
      have htext : l.text = [':'].intercalate (l.head.map Hextet.digits) := by
        simp [Literal.text,hgap,hquad,pieces_none]
      simp only [htext,breakDouble_hextets,splitOn_pieces hne,List.length_map]
      rw [if_neg (by simpa [width] using hlen),groupNumbers_hextets]
      simp only [width,add_zero] at hlen
      simp [Literal.groups,hquad,htail,width,hlen]

/-- Without a quad there is no point in the text, and no pattern of a quad matches. -/
theorem quadAfter_none {l : Literal} (hquad : l.quad = none) (start : String) :
    quadAfter start l.text = none := by
  cases h : quadAfter start l.text with
  | none => rfl
  | some X =>
      obtain ⟨htext,hshape⟩ := quadAfter_some h
      have hdot : '.' ∈ l.text := htext ▸ List.mem_append_right _ (quadShape_chars hshape).1
      have hgroups : ∀ gs : List Hextet,'.' ∉ [':'].intercalate (gs.map Hextet.digits) := by
        intro gs hmem
        rcases mem_intercalate hmem with hmem | ⟨p,hp,hmem⟩
        · cases List.mem_singleton.mp hmem
        · obtain ⟨g,_,rfl⟩ := List.mem_map.mp hp
          exact (isHex_ne (g.digits_hex _ hmem)).2.1 rfl
      rw [Literal.text,hquad,pieces_none,pieces_none] at hdot
      split_ifs at hdot with hgap
      · rcases List.mem_append.mp hdot with hdot | hdot
        · exact absurd hdot (hgroups _)
        · simp only [List.mem_cons] at hdot
          rcases hdot with hdot | hdot | hdot
          · cases hdot
          · cases hdot
          · exact absurd hdot (hgroups _)
      · exact absurd hdot (hgroups _)

theorem isIP_literal (net : NetIsIP) (l : Literal) : net.isIP l.text = 6 :=
  (net.isIP_six _).mpr ⟨l,none,trivial,(List.append_nil _).symm⟩

theorem parseIpv6Hextets_groups (net : NetIsIP) {l : Literal} (hquad : l.quad = none) :
    parseIpv6Hextets net l.text = some (readHextets l.groups) := by
  have hlower : l.lower.quad = none := hquad
  unfold parseIpv6Hextets
  simp only [Literal.lower_text,isIP_literal,quadAfter_none hlower,expandHextets_groups hlower,
    Literal.lower_groups]
  rfl

/-- The verdict depends on the groups alone. -/
theorem classify_groups (net : NetIsIP) (allowPrivate : Bool) {l : Literal} (hquad : l.quad = none) :
    classifyRoutableIp net l.text allowPrivate =
      classifyParsed net (readHextets l.groups) allowPrivate := by
  have hsix := isIP_literal net l
  rw [classifyRoutableIp,if_neg (by omega),if_neg (by omega),parseIpv6Hextets_groups net hquad]

/-- Eight groups of an address. -/
structure Groups (a b c d e f g h : ℕ) : Prop where
  first : a < 65536
  second : b < 65536
  third : c < 65536
  fourth : d < 65536
  fifth : e < 65536
  sixth : f < 65536
  seventh : g < 65536
  eighth : h < 65536

theorem length_eight {l : List ℕ} (h : l.length = 8) :
    ∃ a b c d e f g h : ℕ,l = [a,b,c,d,e,f,g,h] := by
  obtain ⟨a,b,c,d,hfst⟩ := List.length_eq_four.mp
    (show (l.take 4).length = 4 by rw [List.length_take,h]; rfl)
  obtain ⟨e,f,g,k,hsnd⟩ := List.length_eq_four.mp
    (show (l.drop 4).length = 4 by rw [List.length_drop,h])
  refine ⟨a,b,c,d,e,f,g,k,?_⟩
  rw [← List.take_append_drop 4 l,hfst,hsnd]
  rfl

theorem groups_shape {l : Literal} (hquad : l.quad = none) :
    ∃ a b c d e f g h : ℕ,l.groups = [a,b,c,d,e,f,g,h] ∧ Groups a b c d e f g h := by
  have hlt := (reads_groups hquad).1
  have hlen : l.groups.length = 8 := by
    simp only [Literal.groups,hquad,width,List.length_append,List.length_map,
      List.length_replicate,Option.map_none,Option.getD_none,List.length_nil]
    cases hgap : l.gap with
    | true =>
        have := l.gapped hgap
        rw [hquad] at this
        simp only [width] at this
        omega
    | false =>
        obtain ⟨htail,hlen⟩ := l.full hgap
        rw [hquad] at hlen
        simp only [width] at hlen
        simp only [htail,List.length_nil]
        omega
  obtain ⟨a,b,c,d,e,f,g,h,hgs⟩ := length_eight hlen
  rw [hgs] at hlt
  simp only [List.mem_cons,List.not_mem_nil,or_false,forall_eq_or_imp,forall_eq] at hlt
  obtain ⟨h1,h2,h3,h4,h5,h6,h7,h8⟩ := hlt
  exact ⟨a,b,c,d,e,f,g,h,hgs,h1,h2,h3,h4,h5,h6,h7,h8⟩

theorem addressValue_eight (a b c d e f g h : ℕ) :
    addressValue [a,b,c,d,e,f,g,h] =
      ((((((a*65536+b)*65536+c)*65536+d)*65536+e)*65536+f)*65536+g)*65536+h := by
  simp [addressValue]

theorem groups_of_value {l m : Literal} (hl : l.quad = none) (hm : m.quad = none)
    (h : addressValue l.groups = addressValue m.groups) : l.groups = m.groups := by
  obtain ⟨a,b,c,d,e,f,g,k,hgl,⟨_,_,_,_,_,_,_,_⟩⟩ := groups_shape hl
  obtain ⟨a',b',c',d',e',f',g',k',hgm,⟨_,_,_,_,_,_,_,_⟩⟩ := groups_shape hm
  rw [hgl,hgm] at h ⊢
  rw [addressValue_eight,addressValue_eight] at h
  have hk : k = k' := by omega
  have hg : g = g' := by omega
  have hf : f = f' := by omega
  have he : e = e' := by omega
  have hd : d = d' := by omega
  have hc : c = c' := by omega
  have hb : b = b' := by omega
  have ha : a = a' := by omega
  rw [ha,hb,hc,hd,he,hf,hg,hk]

/-- The ranges that embed no IPv4 address, read off the groups. -/
inductive Listed (allowPrivate : Bool) : List ℕ → Prop
  | unspecified : Listed allowPrivate [0,0,0,0,0,0,0,0]
  | loopback : Listed allowPrivate [0,0,0,0,0,0,0,1]
  | multicast {a : ℕ} {gs : List ℕ} : 0xff00 ≤ a → Listed allowPrivate (a::gs)
  | siteLocal {a : ℕ} {gs : List ℕ} : 0xfec0 ≤ a → a ≤ 0xfeff → Listed allowPrivate (a::gs)
  | teredo {gs : List ℕ} : Listed allowPrivate (0x2001::0::gs)
  | sixToFour {gs : List ℕ} : Listed allowPrivate (0x2002::gs)
  | nat64 {gs : List ℕ} : Listed allowPrivate (0x64::0xff9b::0::0::0::0::gs)
  | localNat64 {gs : List ℕ} : Listed allowPrivate (0x64::0xff9b::1::gs)
  | linkLocal {a : ℕ} {gs : List ℕ} : 0xfe80 ≤ a → a ≤ 0xfebf → Listed allowPrivate (a::gs)
  | uniqueLocal {a : ℕ} {gs : List ℕ} : allowPrivate = false → 0xfc00 ≤ a → a ≤ 0xfdff →
      Listed allowPrivate (a::gs)

/-- The octets of the last two groups. -/
def quadOf (g h : ℕ) : Text := quadText [g/256,g%256,h/256,h%256]

section Ranges
variable {net : NetIsIP} {allowPrivate : Bool} {a b c d e f g h : ℕ}

theorem classifyHextets_iff (ha : a < 65536) :
    classifyHextets [a,b,c,d,e,f,g,h] allowPrivate = .ok () ↔
      ¬ Listed allowPrivate [a,b,c,d,e,f,g,h] := by
  constructor
  · intro hok
    unfold classifyHextets at hok
    obtain ⟨hunspecified,hok⟩ := check_passed hok
    obtain ⟨hloopback,hok⟩ := check_passed hok
    obtain ⟨hmulticast,hok⟩ := check_passed hok
    obtain ⟨hsiteLocal,hok⟩ := check_passed hok
    obtain ⟨hteredo,hok⟩ := check_passed hok
    obtain ⟨h6to4,hok⟩ := check_passed hok
    obtain ⟨hnat64,hok⟩ := check_passed hok
    obtain ⟨hlinkLocal,hok⟩ := check_passed hok
    obtain ⟨hula,_⟩ := check_passed hok
    intro hlisted
    cases hlisted with
    | unspecified => cases hunspecified
    | loopback => cases hloopback
    | multicast h1 => simp [ipv6IsMulticast,octet,(multicast_mask ha).mpr h1] at hmulticast
    | siteLocal h1 h2 => simp [ipv6IsSiteLocal,octet,(siteLocal_mask ha).mpr ⟨h1,h2⟩] at hsiteLocal
    | teredo => cases hteredo
    | sixToFour => cases h6to4
    | nat64 => cases hnat64
    | localNat64 => cases hnat64
    | linkLocal h1 h2 => simp [ipv6IsLinkLocal,octet,(linkLocal_mask ha).mpr ⟨h1,h2⟩] at hlinkLocal
    | uniqueLocal hp h1 h2 => simp [ipv6IsUla,octet,hp,(ula_mask ha).mpr ⟨h1,h2⟩] at hula
  · intro hlisted
    have hunspecified : ¬ ipv6IsUnspecified [a,b,c,d,e,f,g,h] = true := by
      intro hc
      simp only [ipv6IsUnspecified,allZero,List.all_cons,List.all_nil,Bool.and_eq_true,
        decide_eq_true_eq] at hc
      obtain ⟨rfl,rfl,rfl,rfl,rfl,rfl,rfl,rfl,_⟩ := hc
      exact hlisted .unspecified
    have hloopback : ¬ ipv6IsLoopback [a,b,c,d,e,f,g,h] = true := by
      intro hc
      simp only [ipv6IsLoopback,allZero,octet,List.take_succ_cons,List.take_zero,List.all_cons,
        List.all_nil,Bool.and_eq_true,decide_eq_true_eq] at hc
      obtain ⟨⟨rfl,rfl,rfl,rfl,rfl,rfl,rfl,_⟩,h1⟩ := hc
      have hone : h = 1 := of_decide_eq_true h1
      exact hlisted (hone ▸ .loopback)
    have hmulticast : ¬ ipv6IsMulticast [a,b,c,d,e,f,g,h] = true := fun hc =>
      hlisted (.multicast ((multicast_mask ha).mp (of_decide_eq_true hc)))
    have hsiteLocal : ¬ ipv6IsSiteLocal [a,b,c,d,e,f,g,h] = true := by
      intro hc
      obtain ⟨h1,h2⟩ := (siteLocal_mask ha).mp (of_decide_eq_true hc)
      exact hlisted (.siteLocal h1 h2)
    have hteredo : ¬ ipv6IsTeredo [a,b,c,d,e,f,g,h] = true := by
      intro hc
      simp only [ipv6IsTeredo,octet,List.getD_cons_zero,List.getD_cons_succ,Bool.and_eq_true,
        decide_eq_true_eq] at hc
      obtain ⟨rfl,rfl⟩ := hc
      exact hlisted .teredo
    have h6to4 : ¬ ipv6Is6to4 [a,b,c,d,e,f,g,h] = true := by
      intro hc
      have hfirst : a = 0x2002 := of_decide_eq_true hc
      exact hlisted (hfirst ▸ .sixToFour)
    have hnat64 : ¬ ipv6IsNat64 [a,b,c,d,e,f,g,h] = true := by
      intro hc
      simp only [ipv6IsNat64,octet,List.getD_cons_zero,List.getD_cons_succ,Bool.or_eq_true,
        Bool.and_eq_true,decide_eq_true_eq] at hc
      rcases hc with ⟨⟨⟨⟨⟨rfl,rfl⟩,rfl⟩,rfl⟩,rfl⟩,rfl⟩ | ⟨⟨rfl,rfl⟩,rfl⟩
      · exact hlisted .nat64
      · exact hlisted .localNat64
    have hlinkLocal : ¬ ipv6IsLinkLocal [a,b,c,d,e,f,g,h] = true := by
      intro hc
      obtain ⟨h1,h2⟩ := (linkLocal_mask ha).mp (of_decide_eq_true hc)
      exact hlisted (.linkLocal h1 h2)
    have hula : ¬ (!allowPrivate && ipv6IsUla [a,b,c,d,e,f,g,h]) = true := by
      intro hc
      obtain ⟨hp,hc⟩ := Bool.and_eq_true _ _ ▸ hc
      obtain ⟨h1,h2⟩ := (ula_mask ha).mp (of_decide_eq_true hc)
      exact hlisted (.uniqueLocal (by simpa using hp) h1 h2)
    rw [classifyHextets,if_neg hunspecified,if_neg hloopback,if_neg hmulticast,if_neg hsiteLocal,
      if_neg hteredo,if_neg h6to4,if_neg hnat64,if_neg hlinkLocal,if_neg hula]

/-- An embedded address is classified as its dotted quad. -/
theorem classify_embedLast (start : List ℕ) (hstart : start.length = 6) :
    classifyParsed net (embedLast (start++[g,h])) allowPrivate =
      classifyRoutableIp net (quadOf g h) allowPrivate := by
  have h6 : octet (start++[g,h]) 6 = g := by simp [octet,hstart]
  have h7 : octet (start++[g,h]) 7 = h := by simp [octet,hstart]
  rw [embedLast,classifyParsed,lastOctets,h6,h7,quadOf,
    classifyRoutableIp_embedded (quadText_no_colon _)]

/-- The two lowest addresses. -/
def Lowest (groups : List ℕ) : Prop :=
  groups = [0,0,0,0,0,0,0,0] ∨ groups = [0,0,0,0,0,0,0,1]

/-- Either the first six groups place an IPv4 address, or the groups stay as they are. The
two lowest addresses stay groups. -/
theorem readHextets_cases :
    ([a,b,c,d,e,f] ∈ embeddings ∧ ¬ Lowest [a,b,c,d,e,f,g,h] ∧
        readHextets [a,b,c,d,e,f,g,h] = embedLast [a,b,c,d,e,f,g,h]) ∨
      (([a,b,c,d,e,f] ∈ embeddings → Lowest [a,b,c,d,e,f,g,h]) ∧
        readHextets [a,b,c,d,e,f,g,h] = .hextets [a,b,c,d,e,f,g,h]) := by
  unfold readHextets
  split_ifs with h1 h2 h3
  · left
    simp only [allZero,octet,List.take_succ_cons,List.take_zero,List.all_cons,
      List.all_nil,Bool.and_eq_true,decide_eq_true_eq] at h1
    obtain ⟨⟨rfl,rfl,rfl,rfl,rfl,_⟩,h1⟩ := h1
    obtain rfl : f = 0xffff := of_decide_eq_true h1
    exact ⟨by decide,by simp [Lowest],rfl⟩
  · left
    simp only [allZero,octet,List.take_succ_cons,List.take_zero,List.all_cons,
      List.all_nil,Bool.and_eq_true,decide_eq_true_eq] at h2
    obtain ⟨⟨⟨rfl,rfl,rfl,rfl,_⟩,h2⟩,h3⟩ := h2
    obtain rfl : e = 0xffff := of_decide_eq_true h2
    obtain rfl : f = 0 := of_decide_eq_true h3
    exact ⟨by decide,by simp [Lowest],rfl⟩
  · left
    simp only [allZero,List.take_succ_cons,List.take_zero,List.all_cons,
      List.all_nil,Bool.and_eq_true,decide_eq_true_eq] at h3
    obtain ⟨⟨rfl,rfl,rfl,rfl,rfl,rfl,_⟩,h3⟩ := h3
    refine ⟨by decide,?_,rfl⟩
    rintro (hlow | hlow)
    · obtain ⟨rfl,rfl⟩ : g = 0 ∧ h = 0 := by simpa using hlow
      exact absurd h3 (by decide)
    · obtain ⟨rfl,rfl⟩ : g = 0 ∧ h = 1 := by simpa using hlow
      exact absurd h3 (by decide)
  · refine Or.inr ⟨?_,rfl⟩
    intro hmem
    simp only [embeddings,List.mem_cons,List.not_mem_nil,or_false,List.cons.injEq,and_true] at hmem
    rcases hmem with ⟨rfl,rfl,rfl,rfl,rfl,rfl⟩ | ⟨rfl,rfl,rfl,rfl,rfl,rfl⟩ |
      ⟨rfl,rfl,rfl,rfl,rfl,rfl⟩
    · exact absurd rfl h1
    · exact absurd rfl h2
    · have hlow : g = 0 ∧ (h = 0 ∨ h = 1) := by
        simpa [allZero,octet,or_iff_not_imp_left] using h3
      obtain ⟨rfl,rfl | rfl⟩ := hlow
      · exact Or.inl rfl
      · exact Or.inr rfl

theorem Lowest.listed (hlow : Lowest [a,b,c,d,e,f,g,h]) :
    Listed allowPrivate [a,b,c,d,e,f,g,h] := by
  rcases hlow with hlow | hlow
  · exact hlow ▸ .unspecified
  · exact hlow ▸ .loopback

/-- The other listed ranges start with a group that places no IPv4 address. -/
theorem Listed.lowest (hlisted : Listed allowPrivate [a,b,c,d,e,f,g,h])
    (hmem : [a,b,c,d,e,f] ∈ embeddings) : Lowest [a,b,c,d,e,f,g,h] := by
  have hfirst : a = 0 := by
    simp only [embeddings,List.mem_cons,List.not_mem_nil,or_false,List.cons.injEq] at hmem
    rcases hmem with hmem | hmem | hmem
    · exact hmem.1
    · exact hmem.1
    · exact hmem.1
  cases hlisted with
  | unspecified => exact Or.inl rfl
  | loopback => exact Or.inr rfl
  | multicast h1 => omega
  | siteLocal h1 h2 => omega
  | teredo => cases hfirst
  | sixToFour => cases hfirst
  | nat64 => cases hfirst
  | localNat64 => cases hfirst
  | linkLocal h1 h2 => omega
  | uniqueLocal hp h1 h2 => omega

theorem Listed.refused (hlt : Groups a b c d e f g h)
    (hlisted : Listed allowPrivate [a,b,c,d,e,f,g,h]) :
    Refused net allowPrivate (addressValue [a,b,c,d,e,f,g,h]) := by
  obtain ⟨_,_,_,_,_,_,_,_⟩ := hlt
  have hrange : ∀ (groups : List ℕ) (bits : ℕ),
      (((((((a*65536+b)*65536+c)*65536+d)*65536+e)*65536+f)*65536+g)*65536+h)/2^(128-bits) =
        addressValue groups/2^(128-bits) →
      Within groups bits (addressValue [a,b,c,d,e,f,g,h]) := by
    intro groups bits heq
    rwa [Within,addressValue_eight]
  cases hlisted with
  | unspecified => exact .unspecified rfl
  | loopback => exact .loopback rfl
  | multicast h1 => exact .multicast (hrange _ _ (by norm_num [addressValue]; omega))
  | siteLocal h1 h2 => exact .siteLocal (hrange _ _ (by norm_num [addressValue]; omega))
  | teredo => exact .teredo (hrange _ _ (by norm_num [addressValue]; omega))
  | sixToFour => exact .sixToFour (hrange _ _ (by norm_num [addressValue]; omega))
  | nat64 => exact .nat64 (hrange _ _ (by norm_num [addressValue]; omega))
  | localNat64 => exact .localNat64 (hrange _ _ (by norm_num [addressValue]; omega))
  | linkLocal h1 h2 => exact .linkLocal (hrange _ _ (by norm_num [addressValue]; omega))
  | uniqueLocal hp h1 h2 => exact .uniqueLocal hp (hrange _ _ (by norm_num [addressValue]; omega))

theorem quad_group_lt (x y : Fin 256) : (x*256+y : ℕ) < 65536 := by omega

/-- An embedded address determines the quad. -/
theorem quad_of_value (hlt : Groups a b c d e f g h) {start : List ℕ} {q : Quad}
    (hstart : start ∈ embeddings)
    (hvalue : addressValue [a,b,c,d,e,f,g,h] = addressValue (start++q.groups)) :
    [a,b,c,d,e,f] = start ∧ quadOf g h = q.text := by
  obtain ⟨_,_,_,_,_,_,_,_⟩ := hlt
  have hab := quad_group_lt q.a q.b
  have hcd := quad_group_lt q.c q.d
  have hlast : ∀ p5 p6 : ℕ,(p5 = 0 ∨ p5 = 0xffff) → (p6 = 0 ∨ p6 = 0xffff) →
      addressValue [a,b,c,d,e,f,g,h] = addressValue ([0,0,0,0,p5,p6]++q.groups) →
      [a,b,c,d,e,f] = [0,0,0,0,p5,p6] ∧ quadOf g h = q.text := by
    intro p5 p6 h5 h6 heq
    rw [Quad.groups,List.cons_append,List.cons_append,List.cons_append,List.cons_append,
      List.cons_append,List.cons_append,List.nil_append,addressValue_eight,addressValue_eight] at heq
    have h8 : h = q.c*256+q.d := by omega
    have h7 : g = q.a*256+q.b := by omega
    have hf : f = p6 := by omega
    have he : e = p5 := by omega
    have hd : d = 0 := by omega
    have hc : c = 0 := by omega
    have hb : b = 0 := by omega
    have ha : a = 0 := by omega
    have h71 : g/256 = q.a := by omega
    have h72 : g%256 = q.b := by omega
    have h81 : h/256 = q.c := by omega
    have h82 : h%256 = q.d := by omega
    refine ⟨by rw [ha,hb,hc,hd,he,hf],?_⟩
    rw [quadOf,h71,h72,h81,h82]
    rfl
  simp only [embeddings,List.mem_cons,List.not_mem_nil,or_false] at hstart
  rcases hstart with rfl | rfl | rfl
  · exact hlast 0 0xffff (Or.inl rfl) (Or.inr rfl) hvalue
  · exact hlast 0xffff 0 (Or.inr rfl) (Or.inl rfl) hvalue
  · exact hlast 0 0 (Or.inl rfl) (Or.inl rfl) hvalue

theorem listed_of_refused (hlt : Groups a b c d e f g h)
    (hrefused : Refused net allowPrivate (addressValue [a,b,c,d,e,f,g,h])) :
    Listed allowPrivate [a,b,c,d,e,f,g,h] ∨ ([a,b,c,d,e,f] ∈ embeddings ∧
      classifyRoutableIp net (quadOf g h) allowPrivate ≠ .ok ()) := by
  have hgroups := hlt
  obtain ⟨_,_,_,_,_,_,_,_⟩ := hlt
  cases hrefused with
  | embedded start q hstart hq hvalue =>
      obtain ⟨hgs,htext⟩ := quad_of_value hgroups hstart hvalue
      exact Or.inr ⟨hgs ▸ hstart,htext ▸ hq⟩
  | unspecified hw =>
      rw [Within,addressValue_eight] at hw
      norm_num [addressValue] at hw
      obtain ⟨⟨⟨⟨⟨⟨⟨rfl,rfl⟩,rfl⟩,rfl⟩,rfl⟩,rfl⟩,rfl⟩,rfl⟩ := hw
      exact Or.inl .unspecified
  | loopback hw =>
      rw [Within,addressValue_eight] at hw
      norm_num [addressValue] at hw
      obtain ⟨rfl,rfl⟩ : g = 0 ∧ h = 1 := by omega
      obtain ⟨rfl,rfl,rfl⟩ : d = 0 ∧ e = 0 ∧ f = 0 := by omega
      obtain ⟨rfl,rfl,rfl⟩ : a = 0 ∧ b = 0 ∧ c = 0 := by omega
      exact Or.inl .loopback
  | multicast hw =>
      rw [Within,addressValue_eight] at hw
      norm_num [addressValue] at hw
      exact Or.inl (.multicast (by omega))
  | siteLocal hw =>
      rw [Within,addressValue_eight] at hw
      norm_num [addressValue] at hw
      exact Or.inl (.siteLocal (by omega) (by omega))
  | teredo hw =>
      rw [Within,addressValue_eight] at hw
      norm_num [addressValue] at hw
      obtain ⟨rfl,rfl⟩ : a = 0x2001 ∧ b = 0 := by omega
      exact Or.inl .teredo
  | sixToFour hw =>
      rw [Within,addressValue_eight] at hw
      norm_num [addressValue] at hw
      obtain rfl : a = 0x2002 := by omega
      exact Or.inl .sixToFour
  | nat64 hw =>
      rw [Within,addressValue_eight] at hw
      norm_num [addressValue] at hw
      obtain ⟨rfl,rfl,rfl⟩ : d = 0 ∧ e = 0 ∧ f = 0 := by omega
      obtain ⟨rfl,rfl,rfl⟩ : a = 0x64 ∧ b = 0xff9b ∧ c = 0 := by omega
      exact Or.inl .nat64
  | localNat64 hw =>
      rw [Within,addressValue_eight] at hw
      norm_num [addressValue] at hw
      obtain ⟨rfl,rfl,rfl⟩ : a = 0x64 ∧ b = 0xff9b ∧ c = 1 := by omega
      exact Or.inl .localNat64
  | linkLocal hw =>
      rw [Within,addressValue_eight] at hw
      norm_num [addressValue] at hw
      exact Or.inl (.linkLocal (by omega) (by omega))
  | uniqueLocal hp hw =>
      rw [Within,addressValue_eight] at hw
      norm_num [addressValue] at hw
      exact Or.inl (.uniqueLocal hp (by omega) (by omega))

theorem refused_of_quad (hlt : Groups a b c d e f g h) (hmem : [a,b,c,d,e,f] ∈ embeddings)
    (hq : classifyRoutableIp net (quadOf g h) allowPrivate ≠ .ok ()) :
    Refused net allowPrivate (addressValue [a,b,c,d,e,f,g,h]) := by
  have hg := hlt.seventh
  have hh := hlt.eighth
  refine .embedded [a,b,c,d,e,f]
    ⟨⟨g/256,by omega⟩,⟨g%256,by omega⟩,⟨h/256,by omega⟩,⟨h%256,by omega⟩⟩ hmem hq ?_
  have hgroups : g/256*256+g%256 = g ∧ h/256*256+h%256 = h := by omega
  simp only [Quad.groups,List.cons_append,List.nil_append,hgroups.1,hgroups.2]

theorem classifyParsed_iff (hlt : Groups a b c d e f g h) :
    classifyParsed net (readHextets [a,b,c,d,e,f,g,h]) allowPrivate = .ok () ↔
      ¬ Refused net allowPrivate (addressValue [a,b,c,d,e,f,g,h]) := by
  rcases readHextets_cases (a := a) (b := b) (c := c) (d := d) (e := e) (f := f) (g := g) (h := h)
    with ⟨hmem,hlow,hread⟩ | ⟨hlow,hread⟩
  · have hquad : classifyParsed net (embedLast [a,b,c,d,e,f,g,h]) allowPrivate =
        classifyRoutableIp net (quadOf g h) allowPrivate := classify_embedLast [a,b,c,d,e,f] rfl
    rw [hread,hquad]
    constructor
    · intro hok hrefused
      rcases listed_of_refused hlt hrefused with hlisted | ⟨_,hbad⟩
      · exact hlow (hlisted.lowest hmem)
      · exact hbad hok
    · intro hrefused
      by_contra hbad
      exact hrefused (refused_of_quad hlt hmem hbad)
  · rw [hread]
    refine (classifyHextets_iff hlt.first).trans (not_congr ⟨fun hlisted => hlisted.refused hlt,?_⟩)
    intro hrefused
    rcases listed_of_refused hlt hrefused with hlisted | ⟨hmem,_⟩
    · exact hlisted
    · exact (hlow hmem).listed

end Ranges

/-- A literal without a quad is accepted exactly when its number is in no refused range,
and two spellings of one address get the same verdict. -/
theorem ipv6_classifier_exact (net : NetIsIP) (allowPrivate : Bool) {l : Literal}
    (hquad : l.quad = none) :
    (classifyRoutableIp net l.text allowPrivate = .ok () ↔
      ¬ Refused net allowPrivate (addressValue l.groups)) ∧
    ∀ m : Literal,m.quad = none → addressValue m.groups = addressValue l.groups →
      classifyRoutableIp net m.text allowPrivate = classifyRoutableIp net l.text allowPrivate := by
  constructor
  · obtain ⟨a,b,c,d,e,f,g,h,hgroups,hlt⟩ := groups_shape hquad
    rw [classify_groups net allowPrivate hquad,hgroups]
    exact classifyParsed_iff hlt
  · intro m hm hvalue
    rw [classify_groups net allowPrivate hquad,classify_groups net allowPrivate hm,
      groups_of_value hm hquad hvalue]

def group (digits : Text) (hne : digits ≠ []) (hlen : digits.length ≤ 4)
    (hhex : digits.all isHex = true) : Hextet := ⟨digits,hne,hlen,List.all_eq_true.mp hhex⟩

/-- A documentation address with a gap and capital letters. -/
def shortLiteral : Literal where
  head := [group ['2','0','0','1'] nofun (by decide) (by decide),
    group ['D','B','8'] nofun (by decide) (by decide)]
  gap := true
  tail := [group ['1'] nofun (by decide) (by decide)]
  quad := none
  full := nofun
  gapped := fun _ => by decide

/-- The same address, all groups written with leading zeros. -/
def longLiteral : Literal where
  head := [group ['2','0','0','1'] nofun (by decide) (by decide),
    group ['0','d','b','8'] nofun (by decide) (by decide),zeroHextet,zeroHextet,zeroHextet,
    zeroHextet,zeroHextet,group ['0','0','0','1'] nofun (by decide) (by decide)]
  gap := false
  tail := []
  quad := none
  full := fun _ => ⟨rfl,rfl⟩
  gapped := nofun

theorem documentation_not_refused :
    ¬ Refused netIsIP false (addressValue shortLiteral.groups) := by
  have hvalue : addressValue shortLiteral.groups =
      addressValue [0x2001,0xdb8,0,0,0,0,0,1] := by decide
  rw [hvalue]
  intro hrefused
  rcases listed_of_refused (by constructor <;> norm_num) hrefused with hlisted | ⟨hmem,_⟩
  · cases hlisted with
    | multicast h1 => omega
    | siteLocal h1 h2 => omega
    | linkLocal h1 h2 => omega
    | uniqueLocal _ h1 h2 => omega
  · exact absurd hmem (by decide)

theorem documentation_spellings_accepted :
    classifyRoutableIp netIsIP shortLiteral.text false = .ok () ∧
      classifyRoutableIp netIsIP longLiteral.text false = .ok () := by
  have hshort := ipv6_classifier_exact netIsIP false (l := shortLiteral) rfl
  have hok := hshort.1.mpr documentation_not_refused
  exact ⟨hok,(hshort.2 longLiteral rfl (by decide)).trans hok⟩

end AstraNull.AddressRanges

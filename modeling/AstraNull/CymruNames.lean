import Mathlib
import AstraNull.AddressText
import AstraNull.TextPieces

/-!
# Names of AS queries

`formatCymruDnsQuery` of `asnLookup.mjs` writes the name of a query for an address. The name of an
IPv6 address is written from its value; that of an IPv4 address is the text of the address turned
around at its dots, so it is the name of the address only where that text is the dotted one.
-/
namespace AstraNull.CymruNames
open JsonText ScriptText IpText AddressText TextPieces

/-- The code units of ASCII text. -/
def asciiUnits (text : Text) : JsString := text.map fun c => UInt16.ofNat c.toNat

/-- `value.toString(16).padStart(32, '0')`. -/
def paddedHex (value : ℕ) : Text :=
  List.replicate (32-(Nat.toDigits 16 value).length) '0'++Nat.toDigits 16 value

section
variable (net : NetIsIP) (toLowerCase : JsString → JsString)

def formatCymruDnsQuery (ip : Option JsString) : Option JsString :=
  match parseIpAddress net toLowerCase ip with
  | none => none
  | some ⟨.v4,_⟩ =>
      some ([46].intercalate ((trim (ip.getD [])).splitOn 46).reverse++js ".origin.asn.cymru.com")
  | some ⟨.v6,value⟩ =>
      some ([46].intercalate ((asciiUnits (paddedHex value)).reverse.map fun u => [u])++
        js ".origin6.asn.cymru.com")

/-- The text is an IPv6 spelling of an address under `::ffff:0:0/96`. -/
def IsMapped (ip : Option JsString) : Prop :=
  ∃ groups,ipv6Groups net toLowerCase (trim (ip.getD [])) = some groups ∧
    (groups.take 5).all (· == 0) = true ∧ groups[5]? = some 0xffff

end

/-- The octets from the last one on. -/
def reversedOctets (value : ℕ) : List ℕ :=
  [value%256,value/256%256,value/65536%256,value/16777216%256]

def nibbleUnit (value i : ℕ) : UInt16 := UInt16.ofNat (Nat.digitChar (value/16^i%16)).toNat

/-- The reversed octets or the thirty-two reversed nibbles, and the zone of the service. -/
def cymruName (a : Address) : JsString :=
  match a.version with
  | .v4 => [46].intercalate ((reversedOctets a.value).map fun n => asciiUnits (Nat.toDigits 10 n))++
      js ".origin.asn.cymru.com"
  | .v6 => [46].intercalate ((List.range 32).map fun i => [nibbleUnit a.value i])++
      js ".origin6.asn.cymru.com"

theorem replacement_not_ascii : 128 ≤ (Char.ofNat 0xFFFD).toNat := by
  rw [toNat_ofNat (by norm_num [Nat.isValidChar])]
  norm_num

theorem pairChar_not_ascii {u v : UInt16} (h : isHigh u ∧ isLow v) :
    128 ≤ (pairChar u v).toNat := by
  simp only [isHigh,isLow,Bool.and_eq_true,decide_eq_true_eq] at h
  rw [pairChar,toNat_ofNat (.inr (by omega))]
  omega

theorem char_cases (s : JsString) : ∀ c ∈ chars s,
    (∃ u ∈ s,c = Char.ofNat u.toNat ∧ ¬ isHigh u ∧ ¬ isLow u) ∨ 128 ≤ c.toNat := by
  induction s using chars.induct with
  | case1 => simp [chars]
  | case2 u hs =>
      intro c hc
      rw [chars,if_pos hs,List.mem_singleton] at hc
      subst hc
      exact .inr replacement_not_ascii
  | case3 u hs =>
      intro c hc
      rw [chars,if_neg hs,List.mem_singleton] at hc
      exact .inl ⟨u,List.mem_singleton_self u,hc,not_or.mp hs⟩
  | case4 u v us hs ih =>
      intro c hc
      rw [chars,if_pos hs,List.mem_cons] at hc
      rcases hc with hc | hc
      · rw [hc]
        exact .inr (pairChar_not_ascii hs)
      · rcases ih c hc with ⟨w,hw,hcw⟩ | hbig
        · exact .inl ⟨w,by simp [hw],hcw⟩
        · exact .inr hbig
  | case5 u v us hs ih =>
      intro c hc
      rw [chars,if_neg hs,List.mem_cons] at hc
      rcases hc with rfl | hc
      · split_ifs with hsur
        · exact .inr replacement_not_ascii
        · exact .inl ⟨u,List.mem_cons_self,rfl,not_or.mp hsur⟩
      · rcases ih c hc with ⟨w,hw,hcw⟩ | hbig
        · exact .inl ⟨w,List.mem_cons_of_mem u hw,hcw⟩
        · exact .inr hbig

theorem unit_mem_of_mem_chars {s : JsString} {c : Char} (hc : c ∈ chars s) (hlt : c.toNat < 128) :
    UInt16.ofNat c.toNat ∈ s := by
  rcases char_cases s c hc with ⟨u,hu,rfl,hhigh,hlow⟩ | hbig
  · simp only [isHigh,isLow,Bool.and_eq_true,decide_eq_true_eq,not_and] at hhigh hlow
    have hvalid := u.toNat_lt
    rw [toNat_ofNat (by omega),UInt16.ofNat_toNat]
    exact hu
  · omega

theorem single_lt {u : UInt16} (hsur : ¬ (isHigh u ∨ isLow u))
    (h : (Char.ofNat u.toNat).toNat < 128) : u.toNat < 0xD800 := by
  simp only [isHigh,isLow,Bool.and_eq_true,decide_eq_true_eq,not_or,not_and] at hsur
  have hvalid := u.toNat_lt
  rw [toNat_ofNat (by omega)] at h
  omega

theorem plain_of_ascii {s : JsString} (h : ∀ c ∈ chars s,c.toNat < 128) :
    ∀ u ∈ s,u.toNat < 0xD800 := by
  induction s using chars.induct with
  | case1 => simp
  | case2 u hs =>
      rw [chars,if_pos hs] at h
      exact absurd (h _ (List.mem_singleton_self _)) (not_lt.mpr replacement_not_ascii)
  | case3 u hs =>
      rw [chars,if_neg hs] at h
      intro w hw
      rw [List.mem_singleton.mp hw]
      exact single_lt hs (h _ (List.mem_singleton_self _))
  | case4 u v us hs ih =>
      rw [chars,if_pos hs,List.forall_mem_cons] at h
      exact absurd h.1 (not_lt.mpr (pairChar_not_ascii hs))
  | case5 u v us hs ih =>
      rw [chars,if_neg hs,List.forall_mem_cons] at h
      refine List.forall_mem_cons.mpr ⟨?_,ih h.2⟩
      split_ifs at h with hsur
      · exact absurd h.1 (not_lt.mpr replacement_not_ascii)
      · exact single_lt hsur h.1

/-- A string with ASCII characters only is given by them. -/
theorem eq_asciiUnits {s : JsString} (h : ∀ c ∈ chars s,c.toNat < 128) :
    s = asciiUnits (chars s) := by
  have hplain : ∀ u ∈ s,u.toNat < 0xD800 := plain_of_ascii h
  rw [asciiUnits,chars_plain hplain,List.map_map]
  conv_lhs => rw [← List.map_id s]
  refine List.map_congr_left fun u hu => ?_
  rw [Function.comp_apply,toNat_ofNat (.inl (hplain u hu)),UInt16.ofNat_toNat]
  rfl

theorem chars_asciiUnits {text : Text} (h : ∀ c ∈ text,c.toNat < 128) :
    chars (asciiUnits text) = text := by
  have hunit : ∀ c ∈ text,(UInt16.ofNat c.toNat).toNat = c.toNat := by
    intro c hc
    have := h c hc
    rw [UInt16.toNat_ofNat']
    omega
  have hplain : ∀ u ∈ asciiUnits text,u.toNat < 0xD800 := by
    intro u hu
    obtain ⟨c,hc,rfl⟩ := List.mem_map.mp hu
    have := h c hc
    rw [hunit c hc]
    omega
  rw [chars_plain hplain,asciiUnits,List.map_map]
  conv_rhs => rw [← List.map_id text]
  refine List.map_congr_left fun c hc => ?_
  rw [Function.comp_apply,hunit c hc,Char.ofNat_toNat]
  rfl

theorem digits_reverse {k n : ℕ} (h : n < 16^(k+1)) :
    (List.replicate (k+1-(Nat.toDigits 16 n).length) '0'++Nat.toDigits 16 n).reverse =
      (List.range (k+1)).map fun i => Nat.digitChar (n/16^i%16) := by
  induction k generalizing n with
  | zero =>
      have hn : n < 16 := by simpa using h
      rw [Nat.toDigits_of_lt_base hn]
      simp [Nat.mod_eq_of_lt hn]
  | succ k ih =>
      rw [List.range_succ_eq_map,List.map_cons,List.map_map]
      by_cases hn : n < 16
      · rw [Nat.toDigits_of_lt_base hn]
        have hzero : ∀ i ∈ List.range (k+1),
            ((fun i => Nat.digitChar (n/16^i%16)) ∘ Nat.succ) i = '0' := by
          intro i _
          have : n/16^(i+1) = 0 := by
            refine Nat.div_eq_of_lt (hn.trans_le ?_)
            exact Nat.le_self_pow (by omega) 16
          simp [this]
        rw [List.map_congr_left hzero]
        simp [Nat.mod_eq_of_lt hn,List.map_const']
      · have hq : n/16 < 16^(k+1) := by
          rw [Nat.div_lt_iff_lt_mul (by norm_num),← pow_succ]
          exact h
        have hshift : ((fun i => Nat.digitChar (n/16^i%16)) ∘ Nat.succ) =
            fun i => Nat.digitChar (n/16/16^i%16) := by
          funext i
          rw [Function.comp_apply,Nat.succ_eq_add_one,pow_succ',Nat.div_div_eq_div_mul]
        rw [Nat.toDigits_of_base_le (by norm_num) (by omega),hshift,← ih hq]
        simp [Nat.add_sub_add_right]

theorem paddedHex_reverse {value : ℕ} (h : value < 16^32) :
    (asciiUnits (paddedHex value)).reverse = (List.range 32).map (nibbleUnit value) := by
  rw [asciiUnits,← List.map_reverse,paddedHex,digits_reverse h,List.map_map]
  rfl

theorem shiftLeft_or {x y k : ℕ} (h : y < 2^k) : x<<<k ||| y = x*2^k+y := by
  rw [← Nat.shiftLeft_add_eq_or_of_lt h,Nat.shiftLeft_eq]

theorem mergeOctets_eq {a b c d : ℕ} (hb : b < 256) (hc : c < 256) (hd : d < 256) :
    mergeOctets [a,b,c,d] = a*16777216+b*65536+c*256+d := by
  have hab : a<<<24 ||| b<<<16 = (a*256+b)<<<16 := by
    rw [shiftLeft_or (by rw [Nat.shiftLeft_eq]; omega),Nat.shiftLeft_eq,Nat.shiftLeft_eq]
    omega
  have habc : (a*256+b)<<<16 ||| c<<<8 = (a*65536+b*256+c)<<<8 := by
    rw [shiftLeft_or (by rw [Nat.shiftLeft_eq]; omega),Nat.shiftLeft_eq,Nat.shiftLeft_eq]
    omega
  show a<<<24 ||| b<<<16 ||| c<<<8 ||| d = _
  rw [hab,habc,shiftLeft_or (by omega)]
  omega

theorem isGroupToken_lt {token : JsString} (h : isGroupToken token = true) :
    hexNumber (chars token) < 65536 := by
  simp only [isGroupToken,Bool.and_eq_true,decide_eq_true_eq,List.all_eq_true,Bool.or_eq_true] at h
  have hplain : ∀ u ∈ token,u.toNat < 0xD800 := by
    intro u hu
    have := h.2 u hu
    omega
  have hlength : (chars token).length = token.length := by
    rw [chars_plain hplain,List.length_map]
  calc hexNumber (chars token) < 16^(chars token).length := hexNumber_lt _
    _ ≤ 16^4 := Nat.pow_le_pow_right (by norm_num) (by omega)
    _ = 65536 := by norm_num

section
variable {net : NetIsIP} {toLowerCase : JsString → JsString}

theorem tokenGroups_lt {tokens : List JsString} {groups : List ℕ}
    (h : tokenGroups net tokens = some groups) : ∀ g ∈ groups,g < 65536 := by
  induction tokens generalizing groups with
  | nil =>
      cases h
      simp
  | cons token tokens ih =>
      rw [tokenGroups] at h
      split_ifs at h with hdot hlast htoken
      · obtain ⟨ipv4,-,rfl⟩ := Option.map_eq_some_iff.mp h
        have hlow : ∀ n : ℕ,n &&& 0xffff < 65536 := fun n => Nat.and_lt_two_pow (n := 16) n (by norm_num)
        simp [hlow]
      · obtain ⟨rest,hrest,rfl⟩ := Option.map_eq_some_iff.mp h
        exact List.forall_mem_cons.mpr ⟨isGroupToken_lt (by simpa using htoken),ih hrest⟩

theorem parseSide_lt {text : JsString} {groups : List ℕ} (h : parseSide net text = some groups) :
    ∀ g ∈ groups,g < 65536 := by
  rw [parseSide] at h
  split_ifs at h
  · cases h
    simp
  · exact tokenGroups_lt h

/-- Eight groups of sixteen bits. -/
theorem ipv6Groups_shape {ip : JsString} {groups : List ℕ}
    (h : ipv6Groups net toLowerCase ip = some groups) :
    net.isIP (chars ip) = 6 ∧ groups.length = 8 ∧ ∀ g ∈ groups,g < 65536 := by
  by_cases hsix : net.isIP (chars ip) ≠ 6 ∨ 2 < (splitDouble ip).length
  · rw [ipv6Groups,if_pos hsix] at h
    cases h
  rw [ipv6Groups,if_neg hsix] at h
  rw [not_or,not_not] at hsix
  refine ⟨hsix.1,?_⟩
  dsimp only at h
  split at h
  · rename_i head tail hhead htail
    have hheadlt := parseSide_lt hhead
    have htaillt := parseSide_lt htail
    split_ifs at h with hone height hroom
    · cases h
      exact ⟨height,hheadlt⟩
    · cases h
      constructor
      · simp only [List.length_append,List.length_replicate]
        omega
      · intro g hg
        rw [List.mem_append,List.mem_append] at hg
        rcases hg with (hg | hg) | hg
        · exact hheadlt g hg
        · rw [List.eq_of_mem_replicate hg]
          norm_num
        · exact htaillt g hg
  · cases h

theorem fold_groups_lt {groups : List ℕ} (h : ∀ g ∈ groups,g < 65536) (n : ℕ) :
    groups.foldl (fun numeric group => numeric<<<16 ||| group) n <
      (n+1)*65536^groups.length := by
  induction groups generalizing n with
  | nil => simp
  | cons g groups ih =>
      rw [List.forall_mem_cons] at h
      rw [List.foldl_cons,shiftLeft_or (show g < 2^16 from h.1)]
      calc _ < (n*2^16+g+1)*65536^groups.length := ih h.2 _
        _ ≤ ((n+1)*65536)*65536^groups.length := Nat.mul_le_mul_right _ (by have := h.1; omega)
        _ = (n+1)*65536^(g::groups).length := by rw [List.length_cons,pow_succ']; ring

theorem parseIpAddress_v6 {ip : Option JsString} {value : ℕ}
    (h : parseIpAddress net toLowerCase ip = some ⟨.v6,value⟩) :
    value < 16^32 ∧ ¬ IsMapped net toLowerCase ip := by
  rw [parseIpAddress] at h
  split at h
  · cases h
  · obtain ⟨groups,hgroups,haddress⟩ := Option.map_eq_some_iff.mp h
    obtain ⟨-,hlength,hlt⟩ := ipv6Groups_shape hgroups
    rw [groupsAddress] at haddress
    split_ifs at haddress with hmapped
    · cases haddress
    · cases haddress
      have hbound := fold_groups_lt hlt 0
      rw [hlength] at hbound
      refine ⟨hbound.trans_eq (by norm_num),?_⟩
      rintro ⟨groups',hgroups',hzero,hffff⟩
      cases hgroups.symm.trans hgroups'
      exact hmapped (by rw [hzero,hffff]; rfl)

/-- An IPv4 address was written as one, or in a mapped spelling. -/
theorem parseIpAddress_v4 {ip : Option JsString} {value : ℕ}
    (h : parseIpAddress net toLowerCase ip = some ⟨.v4,value⟩) :
    ipv4ToBigint net (trim (ip.getD [])) = some value ∧ ¬ IsMapped net toLowerCase ip ∨
      IsMapped net toLowerCase ip ∧ net.isIP (chars (trim (ip.getD []))) = 6 := by
  rw [parseIpAddress] at h
  cases hquad : ipv4ToBigint net (trim (ip.getD [])) with
  | some v4 =>
      rw [hquad] at h
      cases h
      refine .inl ⟨rfl,?_⟩
      rintro ⟨groups,hgroups,-⟩
      have hsix := (ipv6Groups_shape hgroups).1
      rw [ipv4ToBigint] at hquad
      split_ifs at hquad with hfour
      rw [not_not,hsix] at hfour
      exact absurd hfour (by decide)
  | none =>
      rw [hquad] at h
      obtain ⟨groups,hgroups,haddress⟩ := Option.map_eq_some_iff.mp h
      rw [groupsAddress] at haddress
      split_ifs at haddress with hmapped
      · rw [Bool.and_eq_true,beq_iff_eq] at hmapped
        exact .inr ⟨⟨groups,hgroups,hmapped.1,hmapped.2⟩,(ipv6Groups_shape hgroups).1⟩
      · cases haddress

theorem digit_ascii {c : Char} (h : c.isDigit = true) : 48 ≤ c.toNat ∧ c.toNat ≤ 57 := by
  simpa [Char.isDigit,UInt32.le_iff_toNat_le] using h

theorem quadText_ascii {octets : List ℕ} : ∀ c ∈ quadText octets,c.toNat < 128 := by
  intro c hc
  rcases quadText_chars c hc with rfl | hdigit
  · decide
  · have := digit_ascii hdigit
    omega

theorem decimalNumber_digits (n : ℕ) : decimalNumber (asciiUnits (Nat.toDigits 10 n)) = n := by
  rw [decimalNumber,chars_asciiUnits,Nat.ofDigitChars_ten_toDigits]
  intro c hc
  have := digit_ascii (octet_digits n c hc)
  omega

theorem splitOn_quad {value : JsString} {q : Quad} (h : chars value = q.text) :
    value.splitOn 46 = q.octets.map fun n => asciiUnits (Nat.toDigits 10 n) := by
  have hascii : ∀ c ∈ q.text,c.toNat < 128 := quadText_ascii
  have hunits : value = asciiUnits q.text := by
    rw [← h]
    exact eq_asciiUnits (h ▸ hascii)
  have hdot : ∀ c ∈ q.text,UInt16.ofNat c.toNat = 46 ↔ c = '.' := by
    intro c hc
    have hlt := hascii c hc
    rw [← UInt16.toNat_inj,UInt16.toNat_ofNat',← Char.toNat_inj]
    have h46 : (46 : UInt16).toNat = 46 := rfl
    have hpoint : '.'.toNat = 46 := rfl
    omega
  rw [hunits,asciiUnits,splitOn_map hdot,Quad.text,splitOn_quadText (by simp [Quad.octets]),
    List.map_map]
  rfl

/-- A dotted text turned around is the name of its address. -/
theorem dotted_name {value : JsString} {v : ℕ} (h : ipv4ToBigint net value = some v) :
    [46].intercalate (value.splitOn 46).reverse++js ".origin.asn.cymru.com" =
      cymruName ⟨.v4,v⟩ := by
  rw [ipv4ToBigint] at h
  split_ifs at h with hfour
  rw [not_not,net.isIP_four] at hfour
  obtain ⟨q,hq⟩ := hfour
  rw [splitOn_quad hq,List.map_map] at h
  have hnumbers : (decimalNumber ∘ fun n => asciiUnits (Nat.toDigits 10 n)) = id :=
    funext decimalNumber_digits
  rw [hnumbers,List.map_id,Quad.octets,mergeOctets_eq q.b.isLt q.c.isLt q.d.isLt] at h
  have hreversed : reversedOctets v = q.octets.reverse := by
    have ha := q.a.isLt
    have hb := q.b.isLt
    have hc := q.c.isLt
    have hd := q.d.isLt
    cases h
    simp only [reversedOctets,Quad.octets,List.reverse_cons,List.reverse_nil,List.nil_append,
      List.cons_append,List.cons.injEq,and_true]
    omega
  rw [splitOn_quad hq,cymruName,hreversed,← List.map_reverse]

theorem nibble_name {value : ℕ} (h : value < 16^32) :
    [46].intercalate ((asciiUnits (paddedHex value)).reverse.map fun u => [u])++
      js ".origin6.asn.cymru.com" = cymruName ⟨.v6,value⟩ := by
  rw [paddedHex_reverse h,List.map_map]
  rfl

theorem colon_notMem_dotted (v : ℕ) : (58 : UInt16) ∉ cymruName ⟨.v4,v⟩ := by
  have hdigits : ∀ n : ℕ,∀ u ∈ asciiUnits (Nat.toDigits 10 n),u ≠ 58 := by
    rintro n u hu rfl
    obtain ⟨c,hc,hcu⟩ := List.mem_map.mp hu
    have hrange := digit_ascii (octet_digits n c hc)
    have hunit := congrArg UInt16.toNat hcu
    have h58 : (58 : UInt16).toNat = 58 := rfl
    rw [UInt16.toNat_ofNat'] at hunit
    omega
  intro hmem
  rw [cymruName,List.mem_append] at hmem
  rcases hmem with hmem | hmem
  · refine @forall_mem_intercalate _ 46 (fun u => u ≠ 58) (by decide) _ ?_ 58 hmem rfl
    intro piece hpiece
    obtain ⟨n,-,rfl⟩ := List.mem_map.mp hpiece
    exact hdigits n
  · exact absurd hmem (by decide)

/-- An IPv6 text turned around still has a colon. -/
theorem colon_mem_name {value : JsString} (h : net.isIP (chars value) = 6) (suffix : JsString) :
    58 ∈ [46].intercalate (value.splitOn 46).reverse++suffix := by
  obtain ⟨l,zone,-,htext⟩ := (net.isIP_six _).mp h
  have hcolon : ':' ∈ chars value := by
    rw [htext]
    exact List.mem_append_left _ l.colon_mem
  have hunit : (58 : UInt16) ∈ value := unit_mem_of_mem_chars hcolon (by decide)
  obtain ⟨piece,hpiece,hmem⟩ := @exists_mem_splitOn _ _ _ 46 _ _ hunit (by decide)
  exact List.mem_append_left _ (mem_intercalate_of_mem (List.mem_reverse.mpr hpiece) hmem)

theorem formatCymruDnsQuery_iff {ip : Option JsString} {a : Address}
    (h : parseIpAddress net toLowerCase ip = some a) :
    formatCymruDnsQuery net toLowerCase ip = some (cymruName a) ↔
      ¬ IsMapped net toLowerCase ip := by
  obtain ⟨version,value⟩ := a
  rw [formatCymruDnsQuery,h]
  cases version with
  | v4 =>
      rcases parseIpAddress_v4 h with ⟨hquad,hplain⟩ | ⟨hmapped,hsix⟩
      · exact iff_of_true (congrArg some (dotted_name hquad)) hplain
      · refine iff_of_false ?_ (not_not.mpr hmapped)
        intro hname
        have hmem := colon_mem_name hsix (js ".origin.asn.cymru.com")
        rw [Option.some.inj hname] at hmem
        exact colon_notMem_dotted value hmem
  | v6 =>
      obtain ⟨hbound,hplain⟩ := parseIpAddress_v6 h
      exact iff_of_true (congrArg some (nibble_name hbound)) hplain

/-- Two texts of one address get its name exactly when neither is a mapped spelling. -/
theorem cymru_names_agree_iff (net : NetIsIP) (toLowerCase : JsString → JsString)
    (ip ip' : Option JsString) (a : Address) (h : parseIpAddress net toLowerCase ip = some a)
    (h' : parseIpAddress net toLowerCase ip' = some a) :
    (formatCymruDnsQuery net toLowerCase ip = formatCymruDnsQuery net toLowerCase ip' ∧
      formatCymruDnsQuery net toLowerCase ip = some (cymruName a)) ↔
    ¬ IsMapped net toLowerCase ip ∧ ¬ IsMapped net toLowerCase ip' := by
  rw [← formatCymruDnsQuery_iff h,← formatCymruDnsQuery_iff h']
  constructor
  · rintro ⟨hsame,hname⟩
    exact ⟨hname,hsame.symm.trans hname⟩
  · rintro ⟨hname,hname'⟩
    exact ⟨hname.trans hname'.symm,hname⟩

end

def mappedText : JsString := js "::ffff:808:808"

def dottedText : JsString := js "8.8.8.8"

def onesGroup : Hextet := ⟨['f','f','f','f'],ones_ne,ones_length,ones_hex⟩

def eightsGroup : Hextet := ⟨['8','0','8'],nofun,by decide,by simp [isHex,hexValue]⟩

def mappedLiteral : Literal where
  head := []
  gap := true
  tail := [onesGroup,eightsGroup,eightsGroup]
  quad := none
  full := nofun
  gapped := fun _ => by decide

theorem mappedText_version (net : NetIsIP) : net.isIP (chars mappedText) = 6 :=
  (net.isIP_six _).mpr ⟨mappedLiteral,none,trivial,by decide⟩

theorem dottedText_version (net : NetIsIP) : net.isIP (chars dottedText) = 4 :=
  (net.isIP_four _).mpr ⟨⟨8,8,8,8⟩,by decide⟩

theorem parse_dottedText {ip : JsString} (h : trim ip = dottedText) :
    parseIpAddress netIsIP id (some ip) = some ⟨.v4,0x08080808⟩ := by
  have hvalue : mergeOctets ((dottedText.splitOn 46).map decimalNumber) = 0x08080808 := by decide
  simp only [parseIpAddress,Option.getD_some,h,ipv4ToBigint,dottedText_version,hvalue,ne_eq,
    not_true_eq_false,if_false]

theorem parse_mappedText :
    parseIpAddress netIsIP id (some mappedText) = some ⟨.v4,0x08080808⟩ := by
  have htrim : trim mappedText = mappedText := by decide
  have hsplit : splitDouble mappedText = [[],js "ffff:808:808"] := by decide
  have htokens : tokenGroups netIsIP ((js "ffff:808:808").splitOn 58) =
      some [0xffff,0x808,0x808] := by
    have hpieces : (js "ffff:808:808").splitOn 58 = [js "ffff",js "808",js "808"] := by decide
    have hdots : (js "ffff").contains 46 = false ∧ (js "808").contains 46 = false := by decide
    have hgroups : isGroupToken (js "ffff") = true ∧ isGroupToken (js "808") = true := by decide
    have hvalues : hexNumber (chars (js "ffff")) = 0xffff ∧
        hexNumber (chars (js "808")) = 0x808 := by decide
    simp only [hpieces,tokenGroups,hdots.1,hdots.2,hgroups.1,hgroups.2,hvalues.1,hvalues.2]
    rfl
  have hgroups : ipv6Groups netIsIP id mappedText = some [0,0,0,0,0,0xffff,0x808,0x808] := by
    have hside : parseSide netIsIP (js "ffff:808:808") = some [0xffff,0x808,0x808] := by
      rw [parseSide,if_neg (by decide),htokens]
    have hempty : parseSide netIsIP [] = some [] := by
      rw [parseSide,if_pos rfl]
    have hhead : ([[],js "ffff:808:808"] : List JsString).getD 0 [] = [] := rfl
    have htail : ([[],js "ffff:808:808"] : List JsString).getD 1 [] = js "ffff:808:808" := rfl
    simp only [ipv6Groups,mappedText_version,id,hsplit,hhead,htail,hempty,hside]
    rfl
  have hfour : ipv4ToBigint netIsIP mappedText = none := by
    rw [ipv4ToBigint,if_pos (by rw [mappedText_version]; decide)]
  simp only [parseIpAddress,Option.getD_some,htrim,hfour,hgroups,Option.map_some]
  decide

theorem not_mapped_dotted {ip : JsString} (h : trim ip = dottedText) :
    ¬ IsMapped netIsIP id (some ip) := by
  rintro ⟨groups,hgroups,-⟩
  have hsix := (ipv6Groups_shape hgroups).1
  rw [Option.getD_some,h,dottedText_version] at hsix
  exact absurd hsix (by decide)

theorem cymru_names_dotted :
    formatCymruDnsQuery netIsIP id (some (js " 8.8.8.8")) =
      formatCymruDnsQuery netIsIP id (some dottedText) ∧
    formatCymruDnsQuery netIsIP id (some (js " 8.8.8.8")) = some (cymruName ⟨.v4,0x08080808⟩) :=
  (cymru_names_agree_iff netIsIP id (some (js " 8.8.8.8")) (some dottedText) _
    (parse_dottedText (by decide)) (parse_dottedText (by decide))).mpr
    ⟨not_mapped_dotted (by decide),not_mapped_dotted (by decide)⟩

theorem mapped_name_differs :
    parseIpAddress netIsIP id (some mappedText) = some ⟨.v4,0x08080808⟩ ∧
    parseIpAddress netIsIP id (some dottedText) = some ⟨.v4,0x08080808⟩ ∧
    formatCymruDnsQuery netIsIP id (some mappedText) ≠
      formatCymruDnsQuery netIsIP id (some dottedText) ∧
    formatCymruDnsQuery netIsIP id (some mappedText) ≠ some (cymruName ⟨.v4,0x08080808⟩) := by
  have hdotted := @parse_dottedText dottedText (by decide)
  refine ⟨parse_mappedText,hdotted,?_,?_⟩
  · rw [formatCymruDnsQuery,formatCymruDnsQuery,parse_mappedText,hdotted]
    decide
  · rw [formatCymruDnsQuery,parse_mappedText]
    decide

end AstraNull.CymruNames

import Mathlib
import AstraNull.ScriptText
import AstraNull.Totp

/-!
# Base 32

`base32Encode` of `lib/totp.mjs` and its inverse. The accumulators of both loops are 32-bit
patterns from which the high bits fall off; only the bits that are still owed are ever read. The
encoder owes at most four bits and the decoder the rest of the byte that they belong to.
-/
namespace AstraNull.Base32
open ScriptText Totp

/-- The character of the low five bits. -/
def symbol (v : ℕ) : Char := base32Alphabet.getD (v%32) 'A'

/-- The inner loop: the symbols that are complete, and the number of bits left. -/
def drain (value bits : ℕ) : List Char × ℕ :=
  if 5 ≤ bits then
    let rest := drain value (bits-5)
    (symbol (value/2^(bits-5))::rest.1,rest.2)
  else ([],bits)
termination_by bits

/-- The loop over the bytes, from an accumulator and its number of bits. -/
def encodeBits : List ℕ → ℕ → ℕ → List Char
  | [],value,bits => if 0 < bits then [symbol (value*2^(5-bits))] else []
  | byte::bytes,value,bits =>
      let value := (value*256+byte)%2^32
      let emitted := drain value (bits+8)
      emitted.1++encodeBits bytes value emitted.2

def base32Encode (bytes : List ℕ) : List Char := encodeBits bytes 0 0

theorem drain_short {value bits : ℕ} (h : bits < 5) : drain value bits = ([],bits) := by
  rw [drain,if_neg (by omega)]

theorem drain_long {value bits : ℕ} (h : 5 ≤ bits) : drain value bits =
    (symbol (value/2^(bits-5))::(drain value (bits-5)).1,(drain value (bits-5)).2) := by
  rw [drain,if_pos h]

theorem idxOf_symbol (v : ℕ) : base32Alphabet.idxOf (symbol v) = v%32 := by
  have hall : ∀ k < 32,base32Alphabet.idxOf (base32Alphabet.getD k 'A') = k := by decide
  exact hall _ (Nat.mod_lt _ (by norm_num))

/-- A symbol that does not complete a byte. -/
theorem decodeBits_short {bits : ℕ} (h : bits < 3) (v value : ℕ) (cs : List Char) :
    decodeBits (symbol v::cs) value bits = decodeBits cs ((value*32+v%32)%2^32) (bits+5) := by
  rw [decodeBits,idxOf_symbol]
  exact if_neg (by omega)

/-- A symbol that completes one. -/
theorem decodeBits_long {bits : ℕ} (h : 3 ≤ bits) (v value : ℕ) (cs : List Char) :
    decodeBits (symbol v::cs) value bits = (value*32+v%32)%2^32/2^(bits-3)%256::
      decodeBits cs ((value*32+v%32)%2^32) (bits-3) := by
  rw [decodeBits,idxOf_symbol]
  exact if_pos (by omega)

/-- The byte whose bits are split between the two accumulators. -/
def pending (owed encoded decoded : ℕ) : List ℕ :=
  if owed = 0 then [] else [decoded%2^(8-owed)*2^owed+encoded%2^owed]

/-- The decoder on what the encoder still writes: it finishes the byte they share and then gives
the bytes that are left. -/
theorem decodeBits_encodeBits {bytes : List ℕ} (hbytes : ∀ b ∈ bytes,b < 256) {owed : ℕ}
    (howed : owed < 5) (encoded decoded : ℕ) :
    decodeBits (encodeBits bytes encoded owed) decoded ((8-owed)%8) =
      pending owed encoded decoded++bytes := by
  induction bytes generalizing owed encoded decoded with
  | nil =>
      rw [encodeBits,List.append_nil]
      interval_cases owed
      · rfl
      all_goals
        rw [if_pos (by norm_num),decodeBits_long (by norm_num),decodeBits]
        refine congrArg (fun b => [b]) ?_
        simp only [Nat.reduceSub,Nat.reduceMod,Nat.reducePow]
        omega
  | cons b bytes ih =>
      rw [List.forall_mem_cons] at hbytes
      have hb := hbytes.1
      rw [encodeBits]
      generalize hv : (encoded*256+b)%2^32 = v
      -- the accumulator keeps 24 bits of what was owed before the byte
      have hlow : v%256 = b := by omega
      have hhigh : v/256 = encoded%2^24 := by omega
      interval_cases owed
      · rw [drain_long (by norm_num),drain_short (by norm_num)]
        change decodeBits (symbol (v/2^3)::encodeBits bytes v 3) decoded 0 = b::bytes
        rw [decodeBits_short (by norm_num)]
        refine (ih hbytes.2 (by norm_num) _ _).trans ?_
        refine congrArg (fun b => b::bytes) ?_
        omega
      · rw [drain_long (by norm_num),drain_short (by norm_num)]
        change decodeBits (symbol (v/2^4)::encodeBits bytes v 4) decoded 7 =
          (decoded%2^7*2^1+encoded%2^1)::b::bytes
        rw [decodeBits_long (by norm_num)]
        refine congrArg₂ List.cons (by omega) ((ih hbytes.2 (by norm_num) _ _).trans ?_)
        refine congrArg (fun b => b::bytes) ?_
        omega
      · rw [drain_long (by norm_num),drain_long (by norm_num),drain_short (by norm_num)]
        change decodeBits (symbol (v/2^5)::symbol (v/2^0)::encodeBits bytes v 0) decoded 6 =
          (decoded%2^6*2^2+encoded%2^2)::b::bytes
        rw [decodeBits_long (by norm_num),decodeBits_long (by norm_num)]
        refine congrArg₂ List.cons (by omega) (congrArg₂ List.cons (by omega) ?_)
        exact ih hbytes.2 (by norm_num) _ _
      · rw [drain_long (by norm_num),drain_long (by norm_num),drain_short (by norm_num)]
        change decodeBits (symbol (v/2^6)::symbol (v/2^1)::encodeBits bytes v 1) decoded 5 =
          (decoded%2^5*2^3+encoded%2^3)::b::bytes
        rw [decodeBits_long (by norm_num),decodeBits_short (by norm_num)]
        refine congrArg₂ List.cons (by omega) ((ih hbytes.2 (by norm_num) _ _).trans ?_)
        refine congrArg (fun b => b::bytes) ?_
        omega
      · rw [drain_long (by norm_num),drain_long (by norm_num),drain_short (by norm_num)]
        change decodeBits (symbol (v/2^7)::symbol (v/2^2)::encodeBits bytes v 2) decoded 4 =
          (decoded%2^4*2^4+encoded%2^4)::b::bytes
        rw [decodeBits_long (by norm_num),decodeBits_short (by norm_num)]
        refine congrArg₂ List.cons (by omega) ((ih hbytes.2 (by norm_num) _ _).trans ?_)
        refine congrArg (fun b => b::bytes) ?_
        omega

theorem decodeBits_base32Encode {bytes : List ℕ} (hbytes : ∀ b ∈ bytes,b < 256) :
    decodeBits (base32Encode bytes) 0 0 = bytes :=
  decodeBits_encodeBits hbytes (by norm_num : (0 : ℕ) < 5) 0 0

theorem symbol_mem (v : ℕ) : symbol v ∈ base32Alphabet := by
  have hall : ∀ k < 32,base32Alphabet.getD k 'A' ∈ base32Alphabet := by decide
  exact hall _ (Nat.mod_lt _ (by norm_num))

theorem drain_mem (value bits : ℕ) : ∀ c ∈ (drain value bits).1,c ∈ base32Alphabet := by
  induction bits using Nat.strong_induction_on with
  | _ bits ih =>
      by_cases h : 5 ≤ bits
      · rw [drain_long h]
        intro c hc
        rcases List.mem_cons.mp hc with rfl | hc
        · exact symbol_mem _
        · exact ih (bits-5) (by omega) c hc
      · rw [drain_short (by omega)]
        simp

theorem encodeBits_mem (bytes : List ℕ) (value bits : ℕ) :
    ∀ c ∈ encodeBits bytes value bits,c ∈ base32Alphabet := by
  induction bytes generalizing value bits with
  | nil =>
      rw [encodeBits]
      split_ifs
      · intro c hc
        rw [List.mem_singleton.mp hc]
        exact symbol_mem _
      · simp
  | cons b bytes ih =>
      intro c hc
      rcases List.mem_append.mp hc with hc | hc
      · exact drain_mem _ _ c hc
      · exact ih _ _ c hc

theorem base32Encode_ne_nil {bytes : List ℕ} (h : bytes ≠ []) : base32Encode bytes ≠ [] := by
  obtain ⟨b,bytes,rfl⟩ := List.exists_cons_of_ne_nil h
  rw [base32Encode,encodeBits,drain_long (by norm_num)]
  simp

/-- A text that spells an encoding: letters of either case, white space and `=` anywhere. -/
inductive Spells : List Char → List Char → Prop where
  | done : Spells [] []
  | upper {encoded text : List Char} (c : Char) :
      Spells encoded text → Spells (c::encoded) (c::text)
  | lower {encoded text : List Char} (c : Char) :
      Spells encoded text → Spells (c::encoded) (c.toLower::text)
  | space {encoded text : List Char} (c : Char) (h : isWhiteSpace c.toNat = true) :
      Spells encoded text → Spells encoded (c::text)
  | padding {encoded text : List Char} : Spells encoded text → Spells encoded ('='::text)

/-- What the platform's functions do on such texts. -/
structure Standard (T : Primitives) : Prop where
  isSpace : ∀ c,T.isSpace c = isWhiteSpace c.toNat
  toUpperCase : ∀ cs,(∀ c ∈ cs,c.toNat < 128 ∨ isWhiteSpace c.toNat = true) →
    T.toUpperCase cs = cs.map Char.toUpper

theorem alphabet_char {c : Char} (hc : c ∈ base32Alphabet) :
    c.toNat < 128 ∧ c.toLower.toNat < 128 ∧ isWhiteSpace c.toNat = false ∧ c ≠ '=' ∧
      c.toUpper = c ∧ c.toLower.toUpper = c := by
  have hall : ∀ k < 32,(base32Alphabet.getD k 'A').toNat < 128 ∧
      (base32Alphabet.getD k 'A').toLower.toNat < 128 ∧
      isWhiteSpace (base32Alphabet.getD k 'A').toNat = false ∧ base32Alphabet.getD k 'A' ≠ '=' ∧
      (base32Alphabet.getD k 'A').toUpper = base32Alphabet.getD k 'A' ∧
      (base32Alphabet.getD k 'A').toLower.toUpper = base32Alphabet.getD k 'A' := by
    decide
  obtain ⟨k,hk,rfl⟩ := List.getElem_of_mem hc
  have h := hall k hk
  rwa [List.getD_eq_getElem _ _ hk] at h

theorem toUpper_space {c : Char} (h : isWhiteSpace c.toNat = true) : c.toUpper = c := by
  have hnot : ¬ (97 ≤ c.toNat ∧ c.toNat ≤ 122) := by
    simp only [isWhiteSpace,Bool.or_eq_true,Bool.and_eq_true,decide_eq_true_eq] at h
    omega
  rw [Char.toUpper]
  refine dif_neg fun hrange => hnot ?_
  exact ⟨hrange.1,hrange.2⟩

theorem Spells.ascii {encoded text : List Char} (h : Spells encoded text)
    (hencoded : ∀ c ∈ encoded,c ∈ base32Alphabet) :
    ∀ c ∈ text,c.toNat < 128 ∨ isWhiteSpace c.toNat = true := by
  induction h with
  | done => simp
  | upper c _ ih =>
      rw [List.forall_mem_cons] at hencoded ⊢
      exact ⟨.inl (alphabet_char hencoded.1).1,ih hencoded.2⟩
  | lower c _ ih =>
      rw [List.forall_mem_cons] at hencoded ⊢
      exact ⟨.inl (alphabet_char hencoded.1).2.1,ih hencoded.2⟩
  | space c hspace _ ih =>
      rw [List.forall_mem_cons]
      exact ⟨.inr hspace,ih hencoded⟩
  | padding _ ih =>
      rw [List.forall_mem_cons]
      exact ⟨.inl (by decide),ih hencoded⟩

/-- White space and padding are dropped and the letters come out as they were written. -/
theorem Spells.clean {encoded text : List Char} (h : Spells encoded text)
    (hencoded : ∀ c ∈ encoded,c ∈ base32Alphabet) :
    (text.map Char.toUpper).filter (fun c => !(isWhiteSpace c.toNat || c == '=')) = encoded := by
  induction h with
  | done => rfl
  | upper c _ ih =>
      rw [List.forall_mem_cons] at hencoded
      obtain ⟨-,-,hspace,hpad,hupper,-⟩ := alphabet_char hencoded.1
      rw [List.map_cons,hupper,List.filter_cons_of_pos (by simp [hspace,hpad]),ih hencoded.2]
  | lower c _ ih =>
      rw [List.forall_mem_cons] at hencoded
      obtain ⟨-,-,hspace,hpad,-,hupper⟩ := alphabet_char hencoded.1
      rw [List.map_cons,hupper,List.filter_cons_of_pos (by simp [hspace,hpad]),ih hencoded.2]
  | space c hspace _ ih =>
      rw [List.map_cons,toUpper_space hspace,List.filter_cons_of_neg (by simp [hspace]),
        ih hencoded]
  | padding _ ih =>
      rw [List.map_cons,List.filter_cons_of_neg (by decide),ih hencoded]

/-- Bytes come back from every spelling of their encoding; no bytes encode to the empty text, of
which every spelling is refused. -/
theorem base32_round_trip {T : Primitives} (hT : Standard T) {bytes : List ℕ}
    (hbytes : ∀ b ∈ bytes,b < 256) {text : List Char} (htext : Spells (base32Encode bytes) text) :
    (bytes ≠ [] → base32Decode T (String.ofList text) = some bytes) ∧
    (bytes = [] → base32Encode bytes = [] ∧ base32Decode T (String.ofList text) = none) := by
  have halphabet := encodeBits_mem bytes 0 0
  have hclean : (T.toUpperCase (String.ofList text).toList).filter
      (fun c => !(T.isSpace c || c == '=')) = base32Encode bytes := by
    rw [String.toList_ofList,hT.toUpperCase text (htext.ascii halphabet)]
    simp only [hT.isSpace]
    exact htext.clean halphabet
  have hplain : (base32Encode bytes).any (fun c => !base32Alphabet.contains c) ≠ true := by
    intro hother
    obtain ⟨c,hc,hnot⟩ := List.any_eq_true.mp hother
    have hin : base32Alphabet.contains c = true := List.contains_iff_mem.mpr (halphabet c hc)
    rw [hin] at hnot
    cases hnot
  rw [base32Decode]
  simp only [hclean]
  refine ⟨fun hne => ?_,fun hnil => ?_⟩
  · rw [if_neg (not_or.mpr ⟨base32Encode_ne_nil hne,hplain⟩),decodeBits_base32Encode hbytes]
  · subst hnil
    exact ⟨rfl,if_pos (.inl rfl)⟩

def plainPrimitives : Primitives where
  toUpperCase := fun cs => cs.map Char.toUpper
  isSpace := fun c => isWhiteSpace c.toNat
  hmacSha1 := fun _ _ => []
  currentStep := fun _ => 0

theorem two_bytes_spelled : base32Decode plainPrimitives (String.ofList "vx Ya=".toList) =
    some [173,240] := by
  have hencode : base32Encode [173,240] = ['V','X','Y','A'] := by
    rw [base32Encode,encodeBits,drain_long (by norm_num),drain_short (by norm_num),encodeBits,
      drain_long (by norm_num),drain_long (by norm_num),drain_short (by norm_num),encodeBits]
    decide
  refine (base32_round_trip ⟨fun _ => rfl,fun _ _ => rfl⟩ (by decide) ?_).1 (by decide)
  rw [hencode]
  exact .lower 'V' (.lower 'X' (.space ' ' (by decide) (.upper 'Y' (.lower 'A' (.padding .done)))))

/-- No bytes encode to the empty text, which is refused. -/
theorem no_bytes_refused :
    base32Encode [] = [] ∧
      base32Decode plainPrimitives (String.ofList (base32Encode [])) = none := by
  decide

end AstraNull.Base32

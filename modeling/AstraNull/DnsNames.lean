import Mathlib
import AstraNull.DnsTcp
import AstraNull.ScriptText

/-!
# Names of a DNS message

`parseDnsName` of `dnsTcpWire.mjs` follows the labels and compression pointers of a name
through the message. Every read is a partial operation whose failure is a fault of its own, so
that a read outside the buffer would be seen in the result.

A name is described apart from the parser by `Resolves`: the pieces met from an offset on, the
targets of the pointers among them, the labels, and the offset after the name's own bytes. The
parser accepts exactly the names with few distinct pointer targets and at most 255 octets; its
limit on the number of labels is never what rejects a name.
-/
namespace AstraNull.DnsNames
open DnsTcp (Bytes uint16)
open JsonText

/-- A range error with its text, or a read that leaves the buffer. -/
inductive Fault
  | range (text : String)
  | outside
deriving DecidableEq

def byteAt (message : Bytes) (i : ℕ) : Except Fault ℕ :=
  match message[i]? with
  | some b => .ok b.toNat
  | none => .error .outside

def readUInt16BE (message : Bytes) (i : ℕ) : Except Fault ℕ := do
  let high ← byteAt message i
  let low ← byteAt message (i+1)
  pure (high*256+low)

def readUInt32BE (message : Bytes) (i : ℕ) : Except Fault ℕ := do
  let high ← readUInt16BE message i
  let low ← readUInt16BE message (i+2)
  pure (high*65536+low)

def subarray (message : Bytes) (start stop : ℕ) : Except Fault Bytes :=
  if start ≤ stop ∧ stop ≤ message.length then .ok ((message.drop start).take (stop-start))
  else .error .outside

theorem byteAt_eq {message : Bytes} {i : ℕ} (h : i < message.length) :
    byteAt message i = .ok (message.getD i 0).toNat := by
  simp [byteAt,h]

theorem readUInt16BE_eq {message : Bytes} {i : ℕ} (h : i+2 ≤ message.length) :
    readUInt16BE message i = .ok (uint16 message i) := by
  have hi : i < message.length := by omega
  have hs : i+1 < message.length := by omega
  simp only [readUInt16BE,byteAt_eq hi,byteAt_eq hs]
  rfl

theorem readUInt32BE_eq {message : Bytes} {i : ℕ} (h : i+4 ≤ message.length) :
    readUInt32BE message i = .ok (uint16 message i*65536+uint16 message (i+2)) := by
  have hi : i+2 ≤ message.length := by omega
  have hs : i+2+2 ≤ message.length := by omega
  simp only [readUInt32BE,readUInt16BE_eq hi,readUInt16BE_eq hs]
  rfl

/-- `toString('ascii')`: the top bit of every byte is dropped. -/
def asciiText (bytes : Bytes) : JsString := bytes.map fun b => UInt16.ofNat (b.toNat%128)

/-- `labels.join('.').toLowerCase()`. -/
def nameText (toLowerCase : JsString → JsString) (labels : List Bytes) : JsString :=
  toLowerCase ((labels.map asciiText).intersperse [46]).flatten

def maxDnsNamePointerHops : ℕ := 32
def maxDnsNameComponents : ℕ := 128

structure ParsedName where
  nextOffset : ℕ
  name : JsString
deriving DecidableEq

/-- The variables of the loop of `parseDnsName`. -/
structure NameState where
  cursor : ℕ
  nextOffset : Option ℕ := none
  pointerHops : ℕ := 0
  components : ℕ := 0
  expandedLength : ℕ := 1
  visitedPointers : List ℕ := []
  labels : List Bytes := []

/-- One round of the loop: a new state, or the parsed name. The two top bits of a length byte
are its quotient by 64. -/
def nameStep (toLowerCase : JsString → JsString) (message : Bytes) (s : NameState) :
    Except Fault (NameState ⊕ ParsedName) :=
  if message.length ≤ s.cursor then .error (.range "Malformed DNS name.")
  else do
    let length ← byteAt message s.cursor
    if length/64 = 3 then
      if message.length ≤ s.cursor+1 then .error (.range "Malformed DNS name.")
      else
        let low ← byteAt message (s.cursor+1)
        let pointer := length%64*256+low
        if message.length ≤ pointer ∨ maxDnsNamePointerHops ≤ s.pointerHops ∨
            pointer ∈ s.visitedPointers then
          .error (.range "Malformed DNS compression pointer.")
        else
          pure (.inl { s with
            cursor := pointer, nextOffset := some (s.nextOffset.getD (s.cursor+2)),
            pointerHops := s.pointerHops+1, visitedPointers := pointer::s.visitedPointers })
    else if length/64 ≠ 0 ∨ 63 < length then .error (.range "Malformed DNS label.")
    else if length = 0 then
      pure (.inr ⟨s.nextOffset.getD (s.cursor+1),nameText toLowerCase s.labels⟩)
    else if message.length < s.cursor+1+length then .error (.range "Malformed DNS label.")
    else
      let label ← subarray message (s.cursor+1) (s.cursor+1+length)
      if 255 < s.expandedLength+(length+1) then .error (.range "DNS name exceeds wire limit.")
      else
        pure (.inl { s with
          cursor := s.cursor+1+length, expandedLength := s.expandedLength+(length+1),
          components := s.components+1, labels := s.labels++[label] })

inductive Piece
  | root
  | label (bytes : Bytes)
  | pointer (target : ℕ)
deriving DecidableEq

/-- The piece of a name at an offset, when there is a complete one with a target inside the
message. -/
def pieceAt (message : Bytes) (c : ℕ) : Option Piece :=
  match message[c]? with
  | none => none
  | some b =>
      if b.toNat/64 = 3 then
        match message[c+1]? with
        | none => none
        | some low =>
            if b.toNat%64*256+low.toNat < message.length then
              some (.pointer (b.toNat%64*256+low.toNat))
            else none
      else if b.toNat/64 ≠ 0 then none
      else if b.toNat = 0 then some .root
      else if c+1+b.toNat ≤ message.length then
        some (.label ((message.drop (c+1)).take b.toNat))
      else none

theorem pieceAt_lt {message : Bytes} {c : ℕ} {piece : Piece}
    (h : pieceAt message c = some piece) : c < message.length := by
  by_contra hc
  simp [pieceAt,List.getElem?_eq_none (Nat.le_of_not_lt hc)] at h

theorem pieceAt_label {message : Bytes} {c : ℕ} {label : Bytes}
    (h : pieceAt message c = some (.label label)) :
    1 ≤ label.length ∧ label.length ≤ 63 ∧ c+1+label.length ≤ message.length ∧
      message[c]? = some (UInt8.ofNat label.length) ∧
      label = (message.drop (c+1)).take label.length := by
  unfold pieceAt at h
  cases hb : message[c]? with
  | none => simp [hb] at h
  | some b =>
      simp only [hb] at h
      split at h
      · split at h
        · simp at h
        · split at h <;> simp at h
      · split_ifs at h with _ hzero hend
        · cases h
        · cases h
          have hlen : ((message.drop (c+1)).take b.toNat).length = b.toNat := by
            rw [List.length_take,List.length_drop]
            omega
          rw [hlen]
          exact ⟨by omega,by omega,hend,by simp,rfl⟩

theorem pieceAt_pointer {message : Bytes} {c t : ℕ}
    (h : pieceAt message c = some (.pointer t)) :
    c+2 ≤ message.length ∧ t < message.length := by
  unfold pieceAt at h
  cases hb : message[c]? with
  | none => simp [hb] at h
  | some b =>
      simp only [hb] at h
      split at h
      · cases hlow : message[c+1]? with
        | none => simp [hlow] at h
        | some low =>
            have hlt : c+1 < message.length := (List.getElem?_eq_some_iff.mp hlow).1
            simp only [hlow] at h
            split_ifs at h with ht
            have : b.toNat%64*256+low.toNat = t := by simpa using h
            omega
      · split_ifs at h <;> simp at h

section Step
variable {toLowerCase : JsString → JsString} {message : Bytes} {s : NameState}

/-- The texts a round can fail with when no limit is at stake. -/
theorem nameStep_none (h : pieceAt message s.cursor = none) :
    ∃ text ∈ ["Malformed DNS name.","Malformed DNS compression pointer.","Malformed DNS label."],
      nameStep toLowerCase message s = .error (.range text) := by
  by_cases hc : message.length ≤ s.cursor
  · exact ⟨"Malformed DNS name.",by simp,by rw [nameStep,if_pos hc]⟩
  · have hb := List.getElem?_eq_getElem (Nat.lt_of_not_le hc)
    generalize message[s.cursor] = b at hb
    have hbyte : byteAt message s.cursor = .ok b.toNat := by simp [byteAt,hb]
    simp only [pieceAt,hb] at h
    simp only [nameStep,if_neg hc,hbyte]
    by_cases htop : b.toNat/64 = 3
    · rw [if_pos htop] at h
      cases hlow : message[s.cursor+1]? with
      | none =>
          have hend := List.getElem?_eq_none_iff.mp hlow
          exact ⟨"Malformed DNS name.",by simp,by simp [htop,hend,bind,Except.bind]⟩
      | some low =>
          have hlt : ¬ message.length ≤ s.cursor+1 :=
            Nat.not_le.mpr (List.getElem?_eq_some_iff.mp hlow).1
          have hread : byteAt message (s.cursor+1) = .ok low.toNat := by simp [byteAt,hlow]
          simp only [hlow] at h
          have ht : message.length ≤ b.toNat%64*256+low.toNat := by
            by_contra hn
            rw [if_pos (Nat.lt_of_not_le hn)] at h
            cases h
          exact ⟨"Malformed DNS compression pointer.",by simp,by simp [htop,hlt,hread,ht,bind,Except.bind]⟩
    · rw [if_neg htop] at h
      by_cases hhigh : b.toNat/64 ≠ 0
      · exact ⟨"Malformed DNS label.",by simp,by simp [htop,hhigh,bind,Except.bind]⟩
      · rw [if_neg hhigh] at h
        split_ifs at h with hzero hend
        refine ⟨"Malformed DNS label.",by simp,?_⟩
        have hover : message.length < s.cursor+1+b.toNat := by omega
        simp [htop,hzero,hover,bind,Except.bind]

theorem nameStep_root (h : pieceAt message s.cursor = some .root) :
    nameStep toLowerCase message s =
      .ok (.inr ⟨s.nextOffset.getD (s.cursor+1),nameText toLowerCase s.labels⟩) := by
  have hc : ¬ message.length ≤ s.cursor := Nat.not_le.mpr (pieceAt_lt h)
  have hb := List.getElem?_eq_getElem (Nat.lt_of_not_le hc)
  generalize message[s.cursor] = b at hb
  have hbyte : byteAt message s.cursor = .ok b.toNat := by simp [byteAt,hb]
  simp only [pieceAt,hb] at h
  have hzero : b.toNat = 0 := by
    split at h
    · split at h
      · cases h
      · split at h <;> cases h
    · split_ifs at h with _ hzero
      · exact hzero
      · cases h
  simp only [nameStep,if_neg hc,hbyte,hzero]
  rfl

/-- The state after a label. -/
def NameState.labelled (s : NameState) (label : Bytes) : NameState :=
  { s with
    cursor := s.cursor+1+label.length, expandedLength := s.expandedLength+(label.length+1),
    components := s.components+1, labels := s.labels++[label] }

/-- The state after a pointer. -/
def NameState.jumped (s : NameState) (target : ℕ) : NameState :=
  { s with
    cursor := target, nextOffset := some (s.nextOffset.getD (s.cursor+2)),
    pointerHops := s.pointerHops+1, visitedPointers := target::s.visitedPointers }

theorem nameStep_label {label : Bytes} (h : pieceAt message s.cursor = some (.label label)) :
    nameStep toLowerCase message s =
      if 255 < s.expandedLength+(label.length+1) then .error (.range "DNS name exceeds wire limit.")
      else .ok (.inl (s.labelled label)) := by
  obtain ⟨hpos,hle,hend,hbyte,hlabel⟩ := pieceAt_label h
  have hc : ¬ message.length ≤ s.cursor := by omega
  have hto : (UInt8.ofNat label.length).toNat = label.length := by
    rw [UInt8.toNat_ofNat']
    omega
  have hread : byteAt message s.cursor = .ok label.length := by simp [byteAt,hbyte,hto]
  have hsub : subarray message (s.cursor+1) (s.cursor+1+label.length) = .ok label := by
    have hin : s.cursor+1 ≤ s.cursor+1+label.length ∧
        s.cursor+1+label.length ≤ message.length := by omega
    rw [subarray,if_pos hin,Nat.add_sub_cancel_left,← hlabel]
  have htop : ¬ label.length/64 = 3 := by omega
  have hlow : ¬ (label.length/64 ≠ 0 ∨ 63 < label.length) := by omega
  have hzero : ¬ label.length = 0 := by omega
  have hin : ¬ message.length < s.cursor+1+label.length := by omega
  simp only [nameStep,if_neg hc,hread,bind,Except.bind,if_neg htop,if_neg hlow,if_neg hzero,
    if_neg hin,hsub]
  rfl

theorem nameStep_pointer {t : ℕ} (h : pieceAt message s.cursor = some (.pointer t)) :
    nameStep toLowerCase message s =
      if maxDnsNamePointerHops ≤ s.pointerHops ∨ t ∈ s.visitedPointers then
        .error (.range "Malformed DNS compression pointer.")
      else .ok (.inl (s.jumped t)) := by
  obtain ⟨hend,ht⟩ := pieceAt_pointer h
  have hc : ¬ message.length ≤ s.cursor := by omega
  have hs : ¬ message.length ≤ s.cursor+1 := by omega
  have hb := List.getElem?_eq_getElem (Nat.lt_of_not_le hc)
  have hlow := List.getElem?_eq_getElem (Nat.lt_of_not_le hs)
  generalize message[s.cursor] = b at hb
  generalize message[s.cursor+1] = low at hlow
  have hbyte : byteAt message s.cursor = .ok b.toNat := by simp [byteAt,hb]
  have hread : byteAt message (s.cursor+1) = .ok low.toNat := by simp [byteAt,hlow]
  simp only [pieceAt,hb,hlow] at h
  split at h
  next htop =>
    split_ifs at h with hin
    have htarget : b.toNat%64*256+low.toNat = t := by simpa using h
    have hout : ¬ message.length ≤ t := by omega
    simp only [nameStep,if_neg hc,hbyte,bind,Except.bind,if_pos htop,if_neg hs,hread,htarget,
      hout,false_or]
    rfl
  next htop => split_ifs at h <;> cases h

/-- What a round that goes on can have done. -/
theorem nameStep_next {s' : NameState} (h : nameStep toLowerCase message s = .ok (.inl s')) :
    (∃ label,pieceAt message s.cursor = some (.label label) ∧
        s.expandedLength+(label.length+1) ≤ 255 ∧ s' = s.labelled label) ∨
      ∃ t,pieceAt message s.cursor = some (.pointer t) ∧ s.pointerHops < maxDnsNamePointerHops ∧
        t ∉ s.visitedPointers ∧ s' = s.jumped t := by
  cases hp : pieceAt message s.cursor with
  | none =>
      obtain ⟨text,_,he⟩ := @nameStep_none toLowerCase _ _ hp
      rw [he] at h
      cases h
  | some piece =>
      cases piece with
      | root =>
          rw [nameStep_root hp] at h
          cases h
      | label label =>
          rw [nameStep_label hp] at h
          split_ifs at h with hlimit
          refine .inl ⟨label,rfl,by omega,?_⟩
          simpa using h.symm
      | pointer t =>
          rw [nameStep_pointer hp] at h
          split_ifs at h with hlimit
          have hno : s.pointerHops < maxDnsNamePointerHops ∧ t ∉ s.visitedPointers := by
            push Not at hlimit
            exact hlimit
          refine .inr ⟨t,rfl,hno.1,hno.2,?_⟩
          simpa using h.symm

end Step

/-- Every round uses up a label or a hop. -/
def NameState.budget (s : NameState) : ℕ :=
  (maxDnsNamePointerHops-s.pointerHops)+(maxDnsNameComponents-s.components)

theorem nameStep_budget {toLowerCase : JsString → JsString} {message : Bytes} {s s' : NameState}
    (hc : s.components < maxDnsNameComponents)
    (h : nameStep toLowerCase message s = .ok (.inl s')) : s'.budget < s.budget := by
  unfold maxDnsNameComponents at hc
  rcases nameStep_next h with ⟨label,_,_,rfl⟩ | ⟨t,_,hhops,_,rfl⟩
  · simp only [NameState.budget,NameState.labelled,maxDnsNamePointerHops,maxDnsNameComponents]
    omega
  · unfold maxDnsNamePointerHops at hhops
    simp only [NameState.budget,NameState.jumped,maxDnsNamePointerHops,maxDnsNameComponents]
    omega

def tooManyComponents : Fault := .range "DNS name has too many components."

/-- The `while` loop of `parseDnsName`. -/
def nameLoop (toLowerCase : JsString → JsString) (message : Bytes) (s : NameState) :
    Except Fault ParsedName :=
  if _hc : s.components < maxDnsNameComponents then
    match _h : nameStep toLowerCase message s with
    | .error fault => .error fault
    | .ok (.inr parsed) => .ok parsed
    | .ok (.inl s') => nameLoop toLowerCase message s'
  else .error tooManyComponents
termination_by s.budget
decreasing_by exact nameStep_budget _hc _h

def parseDnsName (toLowerCase : JsString → JsString) (message : Bytes) (startOffset : ℕ) :
    Except Fault ParsedName :=
  if message.length ≤ startOffset then .error (.range "Malformed DNS name.")
  else nameLoop toLowerCase message { cursor := startOffset }

/-- What the loop does after a step. -/
def afterStep (toLowerCase : JsString → JsString) (message : Bytes) :
    Except Fault (NameState ⊕ ParsedName) → Except Fault ParsedName
  | .error fault => .error fault
  | .ok (.inr parsed) => .ok parsed
  | .ok (.inl s) => nameLoop toLowerCase message s

theorem nameLoop_eq {toLowerCase : JsString → JsString} {message : Bytes} {s : NameState}
    (hc : s.components < maxDnsNameComponents) : nameLoop toLowerCase message s =
      afterStep toLowerCase message (nameStep toLowerCase message s) := by
  rw [nameLoop,dif_pos hc]
  split
  · next h => rw [h,afterStep]
  · next h => rw [h,afterStep]
  · next h => rw [h,afterStep]

/-- From offset `c` on, the message holds a name whose own bytes end before `e`, whose pointers
lead to the targets in turn, and whose labels are the given ones. -/
inductive Resolves (message : Bytes) : ℕ → ℕ → List ℕ → List Bytes → Prop
  | root {c : ℕ} : pieceAt message c = some .root → Resolves message c (c+1) [] []
  | label {c e : ℕ} {targets : List ℕ} {label : Bytes} {labels : List Bytes} :
      pieceAt message c = some (.label label) →
      Resolves message (c+1+label.length) e targets labels →
      Resolves message c e targets (label::labels)
  | pointer {c e t : ℕ} {targets : List ℕ} {labels : List Bytes} :
      pieceAt message c = some (.pointer t) → Resolves message t e targets labels →
      Resolves message c (c+2) (t::targets) labels

/-- Octets of an uncompressed name: a length byte for every label and one for the root. -/
def octets (labels : List Bytes) : ℕ := (labels.map fun label => label.length+1).sum+1

/-- A name as a message may hold it. -/
structure IsName (message : Bytes) (c e : ℕ) (labels : List Bytes) : Prop where
  resolves : ∃ targets,Resolves message c e targets labels ∧
    targets.length ≤ maxDnsNamePointerHops ∧ targets.Nodup
  sized : ∀ label ∈ labels,1 ≤ label.length ∧ label.length ≤ 63
  short : octets labels ≤ 255

theorem Resolves.bounds {message : Bytes} {c e : ℕ} {targets : List ℕ} {labels : List Bytes}
    (h : Resolves message c e targets labels) : c < e ∧ e ≤ message.length := by
  induction h with
  | root hp =>
      have := pieceAt_lt hp
      omega
  | label hp _ ih => omega
  | pointer hp _ _ =>
      have := pieceAt_pointer hp
      omega

theorem Resolves.label_lengths {message : Bytes} {c e : ℕ} {targets : List ℕ}
    {labels : List Bytes} (h : Resolves message c e targets labels) :
    ∀ label ∈ labels,1 ≤ label.length ∧ label.length ≤ 63 := by
  induction h with
  | root _ => simp
  | label hp _ ih =>
      intro l hl
      rcases List.mem_cons.mp hl with rfl | hl
      · exact ⟨(pieceAt_label hp).1,(pieceAt_label hp).2.1⟩
      · exact ih l hl
  | pointer _ _ ih => exact ih

theorem IsName.bounds {message : Bytes} {c e : ℕ} {labels : List Bytes}
    (h : IsName message c e labels) : c < e ∧ e ≤ message.length := by
  obtain ⟨targets,hr,_⟩ := h.resolves
  exact hr.bounds

section Loop
variable {toLowerCase : JsString → JsString} {message : Bytes}

theorem nameStep_done {s : NameState} {r : ParsedName}
    (h : nameStep toLowerCase message s = .ok (.inr r)) :
    pieceAt message s.cursor = some .root ∧
      r = ⟨s.nextOffset.getD (s.cursor+1),nameText toLowerCase s.labels⟩ := by
  cases hp : pieceAt message s.cursor with
  | none =>
      obtain ⟨text,_,he⟩ := @nameStep_none toLowerCase _ _ hp
      rw [he] at h
      cases h
  | some piece =>
      cases piece with
      | root =>
          rw [nameStep_root hp] at h
          refine ⟨rfl,?_⟩
          simpa using h.symm
      | label label =>
          rw [nameStep_label hp] at h
          split_ifs at h
          cases h
      | pointer t =>
          rw [nameStep_pointer hp] at h
          split_ifs at h
          cases h

theorem nameStep_fault {s : NameState} {fault : Fault}
    (h : nameStep toLowerCase message s = .error fault) :
    fault ≠ .outside ∧ fault ≠ tooManyComponents := by
  cases hp : pieceAt message s.cursor with
  | none =>
      obtain ⟨text,ht,he⟩ := @nameStep_none toLowerCase _ _ hp
      rw [he] at h
      cases h
      simp only [List.mem_cons,List.not_mem_nil,or_false] at ht
      rcases ht with rfl | rfl | rfl <;> decide
  | some piece =>
      cases piece with
      | root =>
          rw [nameStep_root hp] at h
          cases h
      | label label =>
          rw [nameStep_label hp] at h
          split_ifs at h
          cases h
          decide
      | pointer t =>
          rw [nameStep_pointer hp] at h
          split_ifs at h
          cases h
          decide

theorem nameLoop_sound (s : NameState) {r : ParsedName}
    (hhops : s.pointerHops ≤ maxDnsNamePointerHops) (hshort : s.expandedLength ≤ 255)
    (h : nameLoop toLowerCase message s = .ok r) :
    ∃ e targets labels,Resolves message s.cursor e targets labels ∧
      r = ⟨s.nextOffset.getD e,nameText toLowerCase (s.labels++labels)⟩ ∧
      s.pointerHops+targets.length ≤ maxDnsNamePointerHops ∧ targets.Nodup ∧
      (∀ t ∈ targets,t ∉ s.visitedPointers) ∧
      s.expandedLength+(labels.map fun label => label.length+1).sum ≤ 255 := by
  induction s using nameLoop.induct toLowerCase message with
  | case1 s hc fault hstep =>
      rw [nameLoop_eq hc,hstep,afterStep] at h
      cases h
  | case2 s hc parsed hstep =>
      have hr : nameLoop toLowerCase message s = .ok parsed := by
        rw [nameLoop_eq hc,hstep,afterStep]
      obtain ⟨hp,hparsed⟩ := nameStep_done hstep
      refine ⟨s.cursor+1,[],[],.root hp,?_,by simpa using hhops,List.nodup_nil,by simp,by simpa⟩
      rw [List.append_nil,← hparsed]
      simpa [hr] using h.symm
  | case3 s hc s' hstep ih =>
      rw [nameLoop_eq hc,hstep,afterStep] at h
      rcases nameStep_next hstep with ⟨label,hp,hfits,rfl⟩ | ⟨t,hp,hlt,hnew,rfl⟩
      · obtain ⟨e,targets,labels,hres,hparsed,hcount,hnodup,hfresh,hsum⟩ := ih hhops hfits h
        refine ⟨e,targets,label::labels,.label hp hres,?_,hcount,hnodup,hfresh,?_⟩
        · rw [hparsed]
          simp [NameState.labelled]
        · simp only [NameState.labelled] at hsum
          simp only [List.map_cons,List.sum_cons]
          omega
      · obtain ⟨e,targets,labels,hres,hparsed,hcount,hnodup,hfresh,hsum⟩ := ih hlt hshort h
        have hseen : t ∉ targets := fun ht => hfresh t ht (by simp [NameState.jumped])
        refine ⟨s.cursor+2,t::targets,labels,.pointer hp hres,?_,?_,
          List.nodup_cons.mpr ⟨hseen,hnodup⟩,?_,hsum⟩
        · rw [hparsed]
          simp [NameState.jumped]
        · simp only [NameState.jumped] at hcount
          simp only [List.length_cons]
          omega
        · intro u hu
          rcases List.mem_cons.mp hu with rfl | hu
          · exact hnew
          · exact fun hv => hfresh u hu (List.mem_cons_of_mem _ hv)
  | case4 s hc =>
      rw [nameLoop,dif_neg hc] at h
      cases h

/-- A label takes at least two octets, so the length limit is reached before the limit on
labels. -/
theorem nameLoop_fault (s : NameState) {fault : Fault}
    (hparts : 2*s.components+1 ≤ s.expandedLength) (hshort : s.expandedLength ≤ 255)
    (h : nameLoop toLowerCase message s = .error fault) :
    fault ≠ .outside ∧ fault ≠ tooManyComponents := by
  induction s using nameLoop.induct toLowerCase message with
  | case1 s hc fault' hstep =>
      rw [nameLoop_eq hc,hstep,afterStep] at h
      cases h
      exact nameStep_fault hstep
  | case2 s hc parsed hstep =>
      rw [nameLoop_eq hc,hstep,afterStep] at h
      cases h
  | case3 s hc s' hstep ih =>
      rw [nameLoop_eq hc,hstep,afterStep] at h
      rcases nameStep_next hstep with ⟨label,hp,hfits,rfl⟩ | ⟨t,_,_,_,rfl⟩
      · have hpos := (pieceAt_label hp).1
        refine ih ?_ hfits h
        simp only [NameState.labelled]
        omega
      · exact ih hparts hshort h
  | case4 s hc =>
      unfold maxDnsNameComponents at hc
      omega

theorem nameLoop_complete {c e : ℕ} {targets : List ℕ} {labels : List Bytes}
    (hres : Resolves message c e targets labels) (s : NameState) (hcursor : s.cursor = c)
    (hparts : 2*s.components+1 ≤ s.expandedLength)
    (hcount : s.pointerHops+targets.length ≤ maxDnsNamePointerHops) (hnodup : targets.Nodup)
    (hfresh : ∀ t ∈ targets,t ∉ s.visitedPointers)
    (hsum : s.expandedLength+(labels.map fun label => label.length+1).sum ≤ 255) :
    nameLoop toLowerCase message s =
      .ok ⟨s.nextOffset.getD e,nameText toLowerCase (s.labels++labels)⟩ := by
  have hc : s.components < maxDnsNameComponents := by
    unfold maxDnsNameComponents
    omega
  induction hres generalizing s with
  | root hp =>
      subst hcursor
      rw [nameLoop_eq hc,nameStep_root hp,afterStep,List.append_nil]
  | @label c e targets label labels hp hres ih =>
      subst hcursor
      simp only [List.map_cons,List.sum_cons] at hsum
      have hpos := (pieceAt_label hp).1
      have hstep : nameStep toLowerCase message s = .ok (.inl (s.labelled label)) := by
        rw [nameStep_label hp,if_neg (by omega)]
      have hr : nameLoop toLowerCase message s = nameLoop toLowerCase message (s.labelled label) := by
        rw [nameLoop_eq hc,hstep,afterStep]
      have hparts' : 2*(s.labelled label).components+1 ≤ (s.labelled label).expandedLength := by
        simp only [NameState.labelled]
        omega
      have hsum' : (s.labelled label).expandedLength+
          (labels.map fun label => label.length+1).sum ≤ 255 := by
        simp only [NameState.labelled]
        omega
      have hc' : (s.labelled label).components < maxDnsNameComponents := by
        unfold maxDnsNameComponents
        omega
      rw [hr,ih (s.labelled label) rfl hparts' hcount hnodup hfresh hsum' hc']
      simp [NameState.labelled]
  | @pointer c e t targets labels hp hres ih =>
      subst hcursor
      obtain ⟨hseen,hnodup'⟩ := List.nodup_cons.mp hnodup
      simp only [List.length_cons] at hcount
      have hok : ¬ (maxDnsNamePointerHops ≤ s.pointerHops ∨ t ∈ s.visitedPointers) := by
        rintro (hmany | hold)
        · omega
        · exact hfresh t List.mem_cons_self hold
      have hstep : nameStep toLowerCase message s = .ok (.inl (s.jumped t)) := by
        rw [nameStep_pointer hp,if_neg hok]
      have hr : nameLoop toLowerCase message s = nameLoop toLowerCase message (s.jumped t) := by
        rw [nameLoop_eq hc,hstep,afterStep]
      have hcount' : (s.jumped t).pointerHops+targets.length ≤ maxDnsNamePointerHops := by
        simp only [NameState.jumped]
        omega
      have hfresh' : ∀ u ∈ targets,u ∉ (s.jumped t).visitedPointers := by
        intro u hu hv
        rcases List.mem_cons.mp hv with rfl | hv
        · exact hseen hu
        · exact hfresh u (List.mem_cons_of_mem _ hu) hv
      rw [hr,ih (s.jumped t) rfl hparts hcount' hnodup' hfresh' hsum hc]
      simp [NameState.jumped]

end Loop

section Parser
variable {toLowerCase : JsString → JsString} {message : Bytes} {c : ℕ}

theorem parseDnsName_fault {fault : Fault}
    (h : parseDnsName toLowerCase message c = .error fault) :
    fault ≠ .outside ∧ fault ≠ tooManyComponents := by
  unfold parseDnsName at h
  split_ifs at h with hc
  · cases h
    decide
  · exact nameLoop_fault _ (by simp) (by simp) h

theorem parseDnsName_sound {r : ParsedName}
    (h : parseDnsName toLowerCase message c = .ok r) :
    ∃ labels,IsName message c r.nextOffset labels ∧ r.name = nameText toLowerCase labels := by
  unfold parseDnsName at h
  split_ifs at h with hc
  obtain ⟨e,targets,labels,hres,rfl,hcount,hnodup,_,hsum⟩ :=
    nameLoop_sound _ (Nat.zero_le _) (by simp) h
  refine ⟨labels,⟨⟨targets,hres,by simpa using hcount,hnodup⟩,hres.label_lengths,?_⟩,by simp⟩
  have hoctets : 1+(labels.map fun label => label.length+1).sum ≤ 255 := hsum
  simp only [octets]
  omega

theorem parseDnsName_complete {e : ℕ} {labels : List Bytes} (h : IsName message c e labels) :
    parseDnsName toLowerCase message c = .ok ⟨e,nameText toLowerCase labels⟩ := by
  obtain ⟨⟨targets,hres,hcount,hnodup⟩,_,hshort⟩ := h
  have hc : ¬ message.length ≤ c := by
    have := hres.bounds
    omega
  unfold octets at hshort
  rw [parseDnsName,if_neg hc,nameLoop_complete hres _ rfl (by simp) (by simpa using hcount) hnodup
    (by simp) (by simp only; omega)]
  simp

end Parser

end AstraNull.DnsNames

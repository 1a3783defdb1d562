import Mathlib

/-!
# Chains of entries linked by a hash

Each entry names the hash of the entry before it, the first one names none. Where equal hashes
mean related entries with the same link, the last hash of a chain determines all of it.
-/
namespace AstraNull.HashChain

section
variable {α η : Type*} (hash : α → η) (prev : α → Option η)

/-- Every entry links to the one before, the first one to the given hash. -/
def Linked : Option η → List α → Prop
  | _,[] => True
  | p,e::es => prev e = p ∧ Linked (some (hash e)) es

variable {hash prev}

theorem linked_append {p : Option η} {l : List α} {a : α} :
    Linked hash prev p (l++[a]) ↔ Linked hash prev p l ∧ prev a = (l.getLast?.map hash).or p := by
  induction l generalizing p with
  | nil => simp [Linked]
  | cons e es ih =>
      rw [List.cons_append,Linked,Linked,ih,and_assoc]
      have hlast : ((e::es).getLast?.map hash).or p = (es.getLast?.map hash).or (some (hash e)) := by
        cases es with
        | nil => simp
        | cons b bs =>
            rw [List.getLast?_cons_cons]
            simp [List.getLast?_cons]
      rw [hlast]

variable {V : α → Prop} {R : α → α → Prop}

/-- Equal last hashes: the chains agree from end to start. -/
theorem Linked.agree (hR : ∀ a b,V a → V b → hash a = hash b → R a b ∧ prev a = prev b)
    {l m : List α} (hl : Linked hash prev none l) (hm : Linked hash prev none m)
    (hvl : ∀ a ∈ l,V a) (hvm : ∀ b ∈ m,V b) (h : l.getLast?.map hash = m.getLast?.map hash) :
    List.Forall₂ R l m := by
  induction l using List.reverseRecOn generalizing m with
  | nil =>
      cases m using List.reverseRecOn with
      | nil => exact .nil
      | append_singleton m b => simp at h
  | append_singleton l a ih =>
      cases m using List.reverseRecOn with
      | nil => simp at h
      | append_singleton m b =>
          rw [List.getLast?_concat,List.getLast?_concat] at h
          obtain ⟨hrel,hprev⟩ := hR a b (hvl a (by simp)) (hvm b (by simp)) (Option.some.inj h)
          obtain ⟨hl,hla⟩ := linked_append.mp hl
          obtain ⟨hm,hmb⟩ := linked_append.mp hm
          rw [Option.or_none] at hla hmb
          have hrest := ih hl hm (fun x hx => hvl x (List.mem_append_left _ hx))
            (fun x hx => hvm x (List.mem_append_left _ hx)) (hla.symm.trans (hprev.trans hmb))
          exact List.rel_append hrest (.cons hrel .nil)

end

end AstraNull.HashChain

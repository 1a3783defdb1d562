import Mathlib

/-!
# Tables bounded by recency of use

A table of keys in the order of their last use, oldest first. A use moves its key to the end, and
keys are dropped from the front while there are too many. A key that was used stays as long as
fewer than the bound of other keys were used after it.
-/
namespace AstraNull.RecencyTable

section
variable {α β : Type*} {bound : ℕ}

def keys (m : List (α × β)) : List α := m.map Prod.fst

theorem length_keys (m : List (α × β)) : (keys m).length = m.length := List.length_map _

/-- Drop the oldest entries while there are more than the bound. -/
def trim (bound : ℕ) : List (α × β) → List (α × β)
  | [] => []
  | e::m => if bound < (e::m).length then trim bound m else e::m

theorem length_trim_le (bound : ℕ) (m : List (α × β)) : (trim bound m).length ≤ bound := by
  induction m with
  | nil => exact Nat.zero_le _
  | cons e m ih =>
      rw [trim]
      split_ifs with h
      · exact ih
      · exact not_lt.mp h

theorem trim_sublist (bound : ℕ) (m : List (α × β)) : (trim bound m).Sublist m := by
  induction m with
  | nil => exact .slnil
  | cons e m ih =>
      rw [trim]
      split_ifs
      · exact ih.cons e
      · exact List.Sublist.refl _

/-- A tail within the bound is kept. -/
theorem trim_append (older : List (α × β)) {newer : List (α × β)} (h : newer.length ≤ bound) :
    ∃ kept,trim bound (older++newer) = kept++newer := by
  induction older with
  | nil =>
      refine ⟨[],?_⟩
      cases newer with
      | nil => rfl
      | cons e newer => rw [List.nil_append,trim,if_neg (not_lt.mpr h)]
  | cons e older ih =>
      rw [List.cons_append,trim]
      split_ifs
      · exact ih
      · exact ⟨e::older,rfl⟩

end

section
variable {α β : Type*} [DecidableEq α]

def get (m : List (α × β)) (key : α) : Option β := (m.find? fun e => e.1 = key).map Prod.snd

def delete (m : List (α × β)) (key : α) : List (α × β) := m.filter fun e => e.1 ≠ key

/-- A new key comes last; a key that is there keeps its place. -/
def set (m : List (α × β)) (key : α) (value : β) : List (α × β) :=
  if m.any fun e => e.1 = key then m.map fun e => if e.1 = key then (key,value) else e
  else m++[(key,value)]

/-- A use of a key. -/
def touch (bound : ℕ) (m : List (α × β)) (key : α) (value : β) : List (α × β) :=
  trim bound (set (delete m key) key value)

variable {m : List (α × β)} {k x : α} {bound : ℕ}

theorem mem_keys_delete : x ∈ keys (delete m k) ↔ x ∈ keys m ∧ x ≠ k := by
  simp only [keys,delete,List.mem_map,List.mem_filter,decide_eq_true_eq]
  constructor
  · rintro ⟨e,⟨he,hne⟩,rfl⟩
    exact ⟨⟨e,he,rfl⟩,hne⟩
  · rintro ⟨⟨e,he,rfl⟩,hne⟩
    exact ⟨e,⟨he,hne⟩,rfl⟩

theorem set_delete (m : List (α × β)) (key : α) (value : β) :
    set (delete m key) key value = delete m key++[(key,value)] := by
  rw [set,if_neg]
  simp [delete]

theorem touch_eq (bound : ℕ) (m : List (α × β)) (key : α) (value : β) :
    touch bound m key value = trim bound (delete m key++[(key,value)]) := by
  rw [touch,set_delete]

theorem length_touch_le (bound : ℕ) (m : List (α × β)) (key : α) (value : β) :
    (touch bound m key value).length ≤ bound := length_trim_le _ _

theorem mem_keys_touch {value : β} (h : x ∈ keys (touch bound m k value)) : x = k ∨ x ∈ keys m := by
  rw [touch_eq] at h
  have h' := ((trim_sublist bound _).map Prod.fst).subset h
  rw [List.map_append,List.mem_append] at h'
  obtain h' | h' := h'
  · exact Or.inr (mem_keys_delete.mp h').1
  · exact Or.inl (List.mem_singleton.mp h')

theorem nodup_touch (h : (keys m).Nodup) (value : β) : (keys (touch bound m k value)).Nodup := by
  rw [touch_eq]
  refine List.Nodup.sublist ((trim_sublist bound _).map Prod.fst) ?_
  rw [List.map_append,List.nodup_append]
  refine ⟨h.sublist (List.filter_sublist.map _),List.nodup_singleton _,?_⟩
  intro a ha b hb hab
  rw [List.map_singleton,List.mem_singleton] at hb
  exact (mem_keys_delete.mp ha).2 (hab.trans hb)

theorem get_eq_none (h : k ∉ keys m) : get m k = none := by
  rw [get,Option.map_eq_none_iff,List.find?_eq_none]
  intro e he hek
  exact h (List.mem_map.mpr ⟨e,he,of_decide_eq_true hek⟩)

/-- The key has the value, and the later keys of the table are the given ones. -/
def Holds (m : List (α × β)) (k : α) (value : β) (later : Finset α) : Prop :=
  ∃ older newer,m = older++(k,value)::newer ∧ (keys newer).toFinset = later

theorem Holds.get {value : β} {later : Finset α} (h : Holds m k value later)
    (hn : (keys m).Nodup) : get m k = some value := by
  obtain ⟨older,newer,rfl,-⟩ := h
  have hk : ∀ e ∈ older,e.1 ≠ k := by
    intro e he hek
    rw [keys,List.map_append,List.nodup_append] at hn
    exact hn.2.2 e.1 (List.mem_map_of_mem he) k (by simp) hek
  rw [RecencyTable.get,List.find?_append,List.find?_eq_none.mpr]
  · simp
  · intro e he
    simpa using hk e he

theorem Holds.touch_self (hb : 0 < bound) (m : List (α × β)) (k : α) (value : β) :
    Holds (touch bound m k value) k value ∅ := by
  rw [touch_eq]
  have hlength : [(k,value)].length ≤ bound := hb
  obtain ⟨kept,hkept⟩ := trim_append (delete m k) hlength
  exact ⟨kept,[],hkept,rfl⟩

theorem Holds.touch_other {value value' : β} {later : Finset α} (h : Holds m k value later)
    (hn : (keys m).Nodup) (hx : x ≠ k) (hlater : (insert x later).card < bound) :
    Holds (touch bound m x value') k value (insert x later) := by
  obtain ⟨older,newer,rfl,rfl⟩ := h
  have hsplit : delete (older++(k,value)::newer) x++[(x,value')] =
      delete older x++(k,value)::(delete newer x++[(x,value')]) := by
    simp [delete,List.filter_append,hx.symm]
  have hkeys : (keys (delete newer x++[(x,value')])).toFinset = insert x (keys newer).toFinset := by
    ext y
    simp only [keys,List.map_append,List.map_singleton,List.mem_toFinset,List.mem_append,
      List.mem_singleton,Finset.mem_insert]
    rw [← keys,← keys,mem_keys_delete]
    by_cases hy : y = x <;> simp [hy]
  have hnodup : (keys (delete newer x++[(x,value')])).Nodup := by
    have hnewer : (keys newer).Nodup := by
      rw [keys,List.map_append,List.nodup_append,List.map_cons,List.nodup_cons] at hn
      exact hn.2.1.2
    rw [keys,List.map_append,List.nodup_append]
    refine ⟨hnewer.sublist (List.filter_sublist.map _),List.nodup_singleton _,?_⟩
    intro a ha b hb hab
    rw [List.map_singleton,List.mem_singleton] at hb
    exact (mem_keys_delete.mp ha).2 (hab.trans hb)
  have hlength : ((k,value)::(delete newer x++[(x,value')])).length ≤ bound := by
    have hcard := List.toFinset_card_of_nodup hnodup
    rw [hkeys,length_keys] at hcard
    rw [List.length_cons,← hcard]
    exact hlater
  rw [touch_eq,hsplit]
  obtain ⟨kept,hkept⟩ := trim_append (delete older x) hlength
  exact ⟨kept,_,hkept,hkeys⟩

end

end AstraNull.RecencyTable

import Mathlib
import AstraNull.RecencyTable

/-!
# The fixed-window rate limiter

`createFixedWindowRateLimiter` of `lib/rateLimit.mjs`: counts of the window in progress in a table
that is bounded by recency of use. Times are integer milliseconds.
-/
namespace AstraNull.RateLimit
open RecencyTable

/-- Options that were accepted. -/
structure Limits where
  windowMs : ℤ
  maxRequests : ℕ
  maxKeys : ℕ
  windowMs_pos : 0 < windowMs
  maxRequests_pos : 0 < maxRequests
  maxKeys_pos : 0 < maxKeys

structure Limiter (α : Type*) where
  current : List (α × ℕ)
  currentWindowIndex : ℤ
  evictedTotal : ℕ

structure Reply where
  allowed : Bool
  retryAfterSeconds : ℤ
  remaining : ℕ

section
variable {α : Type*} {L : Limits} {now : ℤ}

def rollWindows (s : Limiter α) (windowIndex : ℤ) : Limiter α :=
  if windowIndex = s.currentWindowIndex then s
  else { s with current := [],currentWindowIndex := windowIndex }

theorem rollWindows_index (s : Limiter α) (windowIndex : ℤ) :
    (rollWindows s windowIndex).currentWindowIndex = windowIndex := by
  rw [rollWindows]
  split_ifs with h
  · exact h.symm
  · rfl

/-- The keys that were checked in a window. -/
def keysIn (L : Limits) (calls : List (ℤ × α)) (windowIndex : ℤ) : List α :=
  (calls.filter fun c => c.1/L.windowMs = windowIndex).map Prod.snd

/-- The calls are in the order of the clock, which does not start before the limiter. -/
def Ordered (now : ℤ) (calls : List (ℤ × α)) : Prop :=
  (now::calls.map Prod.fst).Pairwise (· ≤ ·)

theorem Ordered.sorted {calls : List (ℤ × α)} (h : Ordered now calls) :
    (calls.map Prod.fst).Pairwise (· ≤ ·) := (List.pairwise_cons.mp h).2

theorem Ordered.init {calls : List (ℤ × α)} {c : ℤ × α} (h : Ordered now (calls++[c])) :
    Ordered now calls := by
  rw [Ordered,List.map_append,← List.cons_append,List.pairwise_append] at h
  exact h.1

theorem keysIn_append (calls calls' : List (ℤ × α)) (windowIndex : ℤ) :
    keysIn L (calls++calls') windowIndex = keysIn L calls windowIndex++keysIn L calls' windowIndex := by
  simp [keysIn]

theorem window_le {t u : ℤ} (h : t ≤ u) : t/L.windowMs ≤ u/L.windowMs :=
  Int.ediv_le_ediv L.windowMs_pos h

theorem keysIn_later {calls : List (ℤ × α)} {u : ℤ} (h : ∀ c ∈ calls,c.1 ≤ u) {windowIndex : ℤ}
    (hu : u/L.windowMs < windowIndex) : keysIn L calls windowIndex = [] := by
  rw [keysIn,List.map_eq_nil_iff,List.filter_eq_nil_iff]
  intro c hc heq
  have := window_le (L := L) (h c hc)
  have := of_decide_eq_true heq
  omega

theorem exists_last {k : α} {ks : List α} (h : k ∈ ks) : ∃ a mid,ks = a++k::mid ∧ k ∉ mid := by
  obtain ⟨mid,a,hks,hmid⟩ := List.eq_append_cons_of_mem (List.mem_reverse.mpr h)
  refine ⟨a.reverse,mid.reverse,?_,by simpa using hmid⟩
  have := congrArg List.reverse hks
  simpa using this

end

section
variable {α : Type*} [DecidableEq α]

def createFixedWindowRateLimiter (windowMs maxRequests maxKeys now : ℤ) :
    Except String (Limits × Limiter α) :=
  if hw : 0 < windowMs then
    if hr : 0 < maxRequests then
      if hk : 0 < maxKeys then
        .ok (⟨windowMs,maxRequests.toNat,maxKeys.toNat,hw,by omega,by omega⟩,
          ⟨[],now/windowMs,0⟩)
      else .error "createFixedWindowRateLimiter requires a positive integer maxKeys"
    else .error "createFixedWindowRateLimiter requires a positive integer maxRequests"
  else .error "createFixedWindowRateLimiter requires a positive integer windowMs"

variable (L : Limits)

/-- The limiter as it was created at a time. -/
def Limits.fresh (now : ℤ) : Limiter α := ⟨[],now/L.windowMs,0⟩

omit [DecidableEq α] in
theorem createFixedWindowRateLimiter_ok {windowMs maxRequests maxKeys now : ℤ} {s : Limiter α}
    (h : createFixedWindowRateLimiter windowMs maxRequests maxKeys now = .ok (L,s)) :
    L.windowMs = windowMs ∧ L.maxRequests = maxRequests ∧ L.maxKeys = maxKeys ∧
      s = L.fresh now := by
  unfold createFixedWindowRateLimiter at h
  split_ifs at h
  cases h
  exact ⟨rfl,Int.toNat_of_nonneg (by omega),Int.toNat_of_nonneg (by omega),rfl⟩

def enforceKeyCeiling (s : Limiter α) : Limiter α :=
  let kept := trim L.maxKeys s.current
  { s with current := kept,evictedTotal := s.evictedTotal+(s.current.length-kept.length) }

/-- `Math.ceil` of a quotient. -/
def ceilDiv (a b : ℤ) : ℤ := -(-a/b)

def check (s : Limiter α) (t : ℤ) (key : α) : Limiter α × Reply :=
  let s := rollWindows s (t/L.windowMs)
  let count := (get s.current key).getD 0+1
  let s := enforceKeyCeiling L { s with current := set (delete s.current key) key count }
  let windowEndMs := (s.currentWindowIndex+1)*L.windowMs
  (s,⟨count ≤ L.maxRequests,max 1 (ceilDiv (windowEndMs-t) 1000),L.maxRequests-count⟩)

/-- The limiter after some calls, each a time and a key. -/
def after (s : Limiter α) (calls : List (ℤ × α)) : Limiter α :=
  calls.foldl (fun s c => (check L s c.1 c.2).1) s

def replies (s : Limiter α) : List (ℤ × α) → List Reply
  | [] => []
  | c::calls => (check L s c.1 c.2).2::replies (check L s c.1 c.2).1 calls

/-- The calls of a key in a window that were allowed. -/
def allowedIn (s : Limiter α) (calls : List (ℤ × α)) (key : α) (windowIndex : ℤ) :
    List ((ℤ × α) × Reply) :=
  (calls.zip (replies L s calls)).filter fun p =>
    p.1.2 = key ∧ p.1.1/L.windowMs = windowIndex ∧ p.2.allowed

/-- The counts of one window. -/
def tally (keys : List α) : List (α × ℕ) :=
  keys.foldl (fun m key => touch L.maxKeys m key ((get m key).getD 0+1)) []

variable {L} {now : ℤ}

@[simp] theorem after_append (s : Limiter α) (calls calls' : List (ℤ × α)) :
    after L s (calls++calls') = after L (after L s calls) calls' := List.foldl_append

theorem tally_append (keys : List α) (key : α) :
    tally L (keys++[key]) =
      touch L.maxKeys (tally L keys) key ((get (tally L keys) key).getD 0+1) := by
  rw [tally,List.foldl_append]
  rfl

theorem length_replies (s : Limiter α) (calls : List (ℤ × α)) :
    (replies L s calls).length = calls.length := by
  induction calls generalizing s with
  | nil => rfl
  | cons c calls ih => simp [replies,ih]

theorem replies_append (s : Limiter α) (calls : List (ℤ × α)) (c : ℤ × α) :
    replies L s (calls++[c]) = replies L s calls++[(check L (after L s calls) c.1 c.2).2] := by
  induction calls generalizing s with
  | nil => rfl
  | cons c' calls ih =>
      rw [List.cons_append,replies,ih,replies]
      rfl

theorem check_current (s : Limiter α) (t : ℤ) (key : α) :
    (check L s t key).1.current = touch L.maxKeys (rollWindows s (t/L.windowMs)).current key
      ((get (rollWindows s (t/L.windowMs)).current key).getD 0+1) := rfl

theorem check_index (s : Limiter α) (t : ℤ) (key : α) :
    (check L s t key).1.currentWindowIndex = t/L.windowMs := rollWindows_index s _

/-- Before a call the table holds the counts of the calls of its window. -/
theorem rollWindows_current (calls : List (ℤ × α)) (hsorted : (calls.map Prod.fst).Pairwise (· ≤ ·))
    (t : ℤ) (ht : ∀ c ∈ calls,c.1 ≤ t) :
    (rollWindows (after L (L.fresh now) calls) (t/L.windowMs)).current =
      tally L (keysIn L calls (t/L.windowMs)) := by
  induction calls using List.reverseRecOn generalizing t with
  | nil =>
      by_cases h : t/L.windowMs = now/L.windowMs
      · simp [after,Limits.fresh,rollWindows,h,keysIn,tally]
      · simp [after,Limits.fresh,rollWindows,h,keysIn,tally]
  | append_singleton calls c ih =>
      obtain ⟨u,x⟩ := c
      rw [List.map_append,List.pairwise_append] at hsorted
      have hu : ∀ c ∈ calls,c.1 ≤ u :=
        fun c hc => hsorted.2.2 c.1 (List.mem_map_of_mem hc) u (by simp)
      have hut : u ≤ t := ht (u,x) (by simp)
      have hindex : (after L (L.fresh now) (calls++[(u,x)])).currentWindowIndex = u/L.windowMs := by
        rw [after_append]
        exact check_index _ u x
      by_cases heq : t/L.windowMs = u/L.windowMs
      · rw [rollWindows,if_pos (heq.trans hindex.symm),keysIn_append,heq]
        have hone : keysIn L [(u,x)] (u/L.windowMs) = [x] := by simp [keysIn]
        rw [hone,tally_append,after_append,← ih hsorted.1 u hu]
        exact check_current _ u x
      · rw [rollWindows,if_neg fun h => heq (h.trans hindex)]
        have hlt : u/L.windowMs < t/L.windowMs := lt_of_le_of_ne (window_le hut) (Ne.symm heq)
        rw [keysIn_later (u := u) ?_ hlt]
        · rfl
        · intro c hc
          rcases List.mem_append.mp hc with hc | hc
          · exact hu c hc
          · rw [List.mem_singleton.mp hc]

/-- Between two uses of the key in a row fewer than the bound of other keys are used. -/
def Steady (bound : ℕ) (k : α) (ks : List α) : Prop :=
  ∀ a mid b,ks = a++k::mid++k::b → k ∉ mid → mid.toFinset.card < bound

theorem Steady.init {bound : ℕ} {k x : α} {ks : List α} (h : Steady bound k (ks++[x])) :
    Steady bound k ks := by
  intro a mid b hks hmid
  exact h a mid (b++[x]) (by rw [hks]; simp) hmid

theorem nodup_tally (ks : List α) : (keys (tally L ks)).Nodup := by
  induction ks using List.reverseRecOn with
  | nil => exact List.nodup_nil
  | append_singleton ks x ih =>
      rw [tally_append]
      exact nodup_touch ih _

theorem mem_keys_tally {x : α} {ks : List α} (h : x ∈ keys (tally L ks)) : x ∈ ks := by
  induction ks using List.reverseRecOn with
  | nil => cases h
  | append_singleton ks y ih =>
      rw [tally_append] at h
      rcases mem_keys_touch h with rfl | h
      · simp
      · exact List.mem_append_left _ (ih h)

/-- The table holds the count of a key that was used steadily and is still among the latest. -/
theorem holds_tally {k : α} {ks : List α} (hs : Steady L.maxKeys k ks) {a mid : List α}
    (hks : ks = a++k::mid) (hmid : k ∉ mid) (hcard : mid.toFinset.card < L.maxKeys) :
    Holds (tally L ks) k (ks.count k) mid.toFinset := by
  induction ks using List.reverseRecOn generalizing a mid with
  | nil => simp at hks
  | append_singleton ks x ih =>
      rw [tally_append]
      induction mid using List.reverseRecOn with
      | nil =>
          obtain ⟨rfl,hx⟩ := List.append_inj' hks rfl
          obtain rfl : x = k := by simpa using hx
          have hcount : (get (tally L ks) x).getD 0 = ks.count x := by
            by_cases hmem : x ∈ ks
            · obtain ⟨a',mid',hks',hmid'⟩ := exists_last hmem
              have hsmall := hs a' mid' [] (by rw [hks']) hmid'
              rw [(ih hs.init hks' hmid' hsmall).get (nodup_tally ks),Option.getD_some]
            · rw [get_eq_none fun h => hmem (mem_keys_tally h),List.count_eq_zero.mpr hmem]
              rfl
          rw [hcount,List.count_append,List.count_singleton_self]
          exact Holds.touch_self L.maxKeys_pos _ _ _
      | append_singleton mid y _ =>
          rw [← List.cons_append,← List.append_assoc] at hks
          obtain ⟨rfl,hx⟩ := List.append_inj' hks rfl
          obtain rfl : x = y := by simpa using hx
          rw [List.mem_append,not_or] at hmid
          have hne : x ≠ k := fun h => hmid.2 (by simp [h])
          have hinsert : (mid++[x]).toFinset = insert x mid.toFinset := by
            ext z
            simp
          rw [hinsert] at hcard ⊢
          have hless : mid.toFinset.card < L.maxKeys :=
            lt_of_le_of_lt (Finset.card_le_card (Finset.subset_insert _ _)) hcard
          have hold := ih hs.init rfl hmid.1 hless
          have hsame : (a++k::mid++[x]).count k = (a++k::mid).count k := by
            rw [List.count_append,List.count_singleton]
            simp [hne]
          rw [hsame]
          exact hold.touch_other (nodup_tally _) hne hcard

/-- The count a call of the key is given. -/
theorem get_tally {k : α} {ks : List α} (hs : Steady L.maxKeys k (ks++[k])) :
    (get (tally L ks) k).getD 0 = ks.count k := by
  by_cases hmem : k ∈ ks
  · obtain ⟨a,mid,hks,hmid⟩ := exists_last hmem
    have hsmall := hs a mid [] (by rw [hks]) hmid
    rw [(holds_tally hs.init hks hmid hsmall).get (nodup_tally ks),Option.getD_some]
  · rw [get_eq_none fun h => hmem (mem_keys_tally h),List.count_eq_zero.mpr hmem]
    rfl

/-- A call counts the earlier calls of its key in its window. -/
theorem check_count {calls : List (ℤ × α)} {t : ℤ} {k : α} (h : Ordered now (calls++[(t,k)])) :
    (check L (after L (L.fresh now) calls) t k).2.allowed =
      decide ((get (tally L (keysIn L calls (t/L.windowMs))) k).getD 0+1 ≤ L.maxRequests) := by
  have hsorted := h.sorted
  rw [List.map_append,List.pairwise_append] at hsorted
  have ht : ∀ c ∈ calls,c.1 ≤ t :=
    fun c hc => hsorted.2.2 c.1 (List.mem_map_of_mem hc) t (by simp)
  rw [← rollWindows_current calls hsorted.1 t ht]
  rfl

theorem steady_of_card {k : α} {ks : List α} (h : (ks++[k]).toFinset.card ≤ L.maxKeys) :
    Steady L.maxKeys k (ks++[k]) := by
  intro a mid b hks hmid
  have hsub : insert k mid.toFinset ⊆ (ks++[k]).toFinset := by
    intro z hz
    rw [hks]
    rcases Finset.mem_insert.mp hz with rfl | hz
    · simp
    · simp [List.mem_toFinset.mp hz]
  have hcard := Finset.card_le_card hsub
  rw [Finset.card_insert_of_notMem (by simpa using hmid)] at hcard
  omega

/-- Under the bound a key's calls in a window are allowed up to the maximum. -/
theorem allowed_of_steady {calls : List (ℤ × α)} {t : ℤ} {k : α}
    (h : Ordered now (calls++[(t,k)]))
    (hs : Steady L.maxKeys k (keysIn L calls (t/L.windowMs)++[k])) :
    (check L (after L (L.fresh now) calls) t k).2.allowed = true ↔
      (keysIn L calls (t/L.windowMs)).count k < L.maxRequests := by
  rw [check_count h,get_tally hs,decide_eq_true_eq]
  exact Iff.rfl

theorem allowedIn_append (s : Limiter α) (calls : List (ℤ × α)) (c : ℤ × α) (k : α) (i : ℤ) :
    (allowedIn L s (calls++[c]) k i).length = (allowedIn L s calls k i).length+
      if c.2 = k ∧ c.1/L.windowMs = i ∧ (check L (after L s calls) c.1 c.2).2.allowed then 1
      else 0 := by
  rw [allowedIn,replies_append,List.zip_append (length_replies s calls).symm,List.filter_append,
    List.length_append]
  congr 1
  simp only [List.zip_cons_cons,List.zip_nil_right,List.filter_cons,List.filter_nil,
    decide_eq_true_eq]
  split_ifs <;> rfl

/-- Steady calls of a key in a window are allowed at most up to the maximum. -/
theorem allowedIn_of_steady {calls : List (ℤ × α)} (h : Ordered now calls) {k : α} {i : ℤ}
    (hs : Steady L.maxKeys k (keysIn L calls i)) :
    (allowedIn L (L.fresh now) calls k i).length = min ((keysIn L calls i).count k) L.maxRequests := by
  induction calls using List.reverseRecOn with
  | nil => simp [allowedIn,keysIn]
  | append_singleton calls c ih =>
      obtain ⟨t,x⟩ := c
      rw [allowedIn_append]
      rw [keysIn_append] at hs ⊢
      by_cases hi : t/L.windowMs = i
      · have hone : keysIn L [(t,x)] i = [x] := by simp [keysIn,hi]
        rw [hone] at hs ⊢
        rw [ih h.init hs.init]
        by_cases hx : x = k
        · subst hx
          subst hi
          have hallowed := allowed_of_steady h hs
          rw [List.count_append,List.count_singleton_self]
          simp only [true_and,hallowed]
          split_ifs with hlt
          · omega
          · omega
        · rw [List.count_append,List.count_singleton]
          simp [hx]
      · have hnone : keysIn L [(t,x)] i = [] := by simp [keysIn,hi]
        rw [hnone,List.append_nil] at hs ⊢
        rw [ih h.init hs]
        simp [hi]

theorem le_ceilDiv_mul {a b : ℤ} (hb : 0 < b) : a ≤ ceilDiv a b*b := by
  have h := Int.ediv_mul_le (-a) hb.ne'
  rw [ceilDiv,Int.neg_mul]
  omega

/-- The time a reply says to wait leads to a later window. -/
theorem window_after_wait (s : Limiter α) {t t' : ℤ} {k : α}
    (h : t+1000*(check L s t k).2.retryAfterSeconds ≤ t') : t/L.windowMs < t'/L.windowMs := by
  have hretry : (t/L.windowMs+1)*L.windowMs-t ≤ 1000*(check L s t k).2.retryAfterSeconds := by
    have hle := le_max_right 1 (ceilDiv ((t/L.windowMs+1)*L.windowMs-t) 1000)
    have hceil := @le_ceilDiv_mul ((t/L.windowMs+1)*L.windowMs-t) 1000 (by norm_num)
    simp only [check,enforceKeyCeiling,rollWindows_index]
    omega
  have hend : (t/L.windowMs+1)*L.windowMs ≤ t' := by omega
  have := Int.le_ediv_of_mul_le L.windowMs_pos hend
  omega

/-- For every sequence of calls in the order of the clock: under the bound on keys the first calls
of a key in a window are allowed and no others; more are allowed only after as many other keys
between two calls of the key as the table holds; the table stays within its bound; and a key that
waits as it is told is allowed. -/
theorem fixed_window_limits (L : Limits) (now : ℤ) :
    (∀ (calls : List (ℤ × α)) t k,Ordered now (calls++[(t,k)]) →
      (keysIn L calls (t/L.windowMs)++[k]).toFinset.card ≤ L.maxKeys →
      ((check L (after L (L.fresh now) calls) t k).2.allowed = true ↔
        (keysIn L calls (t/L.windowMs)).count k < L.maxRequests)) ∧
    (∀ (calls : List (ℤ × α)) k i,Ordered now calls →
      L.maxRequests < (allowedIn L (L.fresh now) calls k i).length →
      ∃ a mid b,keysIn L calls i = a++k::mid++k::b ∧ k ∉ mid ∧ L.maxKeys ≤ mid.toFinset.card) ∧
    (∀ calls : List (ℤ × α),(after L (L.fresh now) calls).current.length ≤ L.maxKeys) ∧
    ∀ (calls later : List (ℤ × α)) t t' k,Ordered now (calls++(t,k)::later++[(t',k)]) →
      (check L (after L (L.fresh now) calls) t k).2.allowed = false →
      (∀ c ∈ later,c.2 ≠ k) →
      t+1000*(check L (after L (L.fresh now) calls) t k).2.retryAfterSeconds ≤ t' →
      (check L (after L (L.fresh now) (calls++(t,k)::later)) t' k).2.allowed = true := by
  refine ⟨?_,?_,?_,?_⟩
  · intro calls t k h hcard
    exact allowed_of_steady h (steady_of_card hcard)
  · intro calls k i h hmany
    by_contra hnone
    have hs : Steady L.maxKeys k (keysIn L calls i) := by
      intro a mid b hks hmid
      by_contra hge
      exact hnone ⟨a,mid,b,hks,hmid,not_lt.mp hge⟩
    rw [allowedIn_of_steady h hs] at hmany
    omega
  · intro calls
    induction calls using List.reverseRecOn with
    | nil => exact Nat.zero_le _
    | append_singleton calls c _ =>
        rw [after_append]
        exact length_touch_le _ _ _ _
  · intro calls later t t' k h _ hlater hwait
    have hwindow := window_after_wait _ hwait
    rw [check_count h,decide_eq_true_eq]
    have hsorted := h.init.sorted
    rw [List.map_append,List.pairwise_append] at hsorted
    have hnot : k ∉ keysIn L (calls++(t,k)::later) (t'/L.windowMs) := by
      rw [keysIn_append,keysIn_later (u := t) ?_ hwindow,List.nil_append]
      · intro hk
        obtain ⟨c,hc,hck⟩ := List.mem_map.mp hk
        rw [List.mem_filter,decide_eq_true_eq,List.mem_cons] at hc
        obtain ⟨rfl | hc,hi⟩ := hc
        · exact hwindow.ne hi
        · exact hlater c hc hck
      · intro c hc
        exact hsorted.2.2 c.1 (List.mem_map_of_mem hc) t (by simp)
    rw [get_eq_none fun hk => hnot (mem_keys_tally hk)]
    exact L.maxRequests_pos

end

/-- One request of one key in a second. -/
def oneKey : Limits := ⟨1000,1,1,by decide,by decide,by decide⟩

/-- The first key comes again after another one. -/
def turns : List (ℤ × ℕ) := [(0,1),(10,2),(20,1)]

/-- Another key has evicted the first one, which is let through twice in a window; the next time it
waits as it is told. -/
theorem evicted_key_passes_again :
    oneKey.maxRequests < (allowedIn oneKey (oneKey.fresh 0) turns 1 0).length ∧
    (∃ a mid b,keysIn oneKey turns 0 = a++1::mid++1::b ∧ 1 ∉ mid ∧
      oneKey.maxKeys ≤ mid.toFinset.card) ∧
    (check oneKey (after oneKey (oneKey.fresh 0) turns) 30 1).2.allowed = false ∧
    (check oneKey (after oneKey (oneKey.fresh 0) (turns++[(30,1)])) 1030 1).2.allowed = true := by
  obtain ⟨-,hevicted,-,hwaits⟩ := @fixed_window_limits ℕ _ oneKey 0
  have htwice : oneKey.maxRequests < (allowedIn oneKey (oneKey.fresh 0) turns 1 0).length := by
    decide
  have hrefused : (check oneKey (after oneKey (oneKey.fresh 0) turns) 30 1).2.allowed = false := by
    decide
  refine ⟨htwice,hevicted turns 1 0 (by simp [Ordered,turns]) htwice,hrefused,?_⟩
  exact hwaits turns [] 30 1030 1 (by simp [Ordered,turns]) hrefused (by simp) (by decide)

end AstraNull.RateLimit

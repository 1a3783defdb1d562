import Mathlib
import AstraNull.JsonText
import AstraNull.ScriptValue
import AstraNull.ScriptObject

/-!
# Checks that return what they checked

A check takes a value at a path to a value or an error. It is stable when what it returns passes
again, unchanged and at any path. Objects are checked member by member and lists element by
element, with a key for each element that was seen; both keep stability.
-/
namespace AstraNull.CheckedObjects
open JsonText ScriptValue ScriptObject

section
variable {ε : Type}

abbrev Check (ε : Type) := JsString → JsVal → Except ε JsVal

def Stable (check : Check ε) : Prop :=
  ∀ path path' v w,check path v = .ok w → check path' w = .ok w

theorem ok_of_bind {α β : Type} {x : Except ε α} {f : α → Except ε β} {b : β}
    (h : (x >>= f) = .ok b) : ∃ a,x = .ok a ∧ f a = .ok b := by
  cases x with
  | error e => cases h
  | ok a => exact ⟨a,rfl,h⟩

/-- A member is left out when its value says so. -/
structure Member (ε : Type) where
  name : String
  skip : JsVal → Bool
  check : Check ε

/-- The members in order, each under its own path. -/
def checkMembers (pathOf : JsString → String → JsString) (path : JsString) (source : JsVal) :
    List (Member ε) → Except ε (List (JsString × JsVal))
  | [] => .ok []
  | m::ms =>
      if m.skip (field source m.name) then checkMembers pathOf path source ms
      else do
        let v ← m.check (pathOf path m.name) (field source m.name)
        let rest ← checkMembers pathOf path source ms
        return (js m.name,v)::rest

/-- What is left out may be missing, and what is returned for this source stays. -/
structure Member.StableAt (m : Member ε) (source : JsVal) : Prop where
  missing : m.skip (field source m.name) = true → m.skip .undefined = true
  kept : ∀ path path' w,m.skip (field source m.name) = false →
    m.check path (field source m.name) = .ok w → m.skip w = false ∧ m.check path' w = .ok w

theorem Stable.member {check : Check ε} (h : Stable check) {name : String} {skip : JsVal → Bool}
    (hmissing : ∀ v,skip v = true → skip .undefined = true)
    (hkept : ∀ path v w,check path v = .ok w → skip w = false) (source : JsVal) :
    Member.StableAt ⟨name,skip,check⟩ source :=
  ⟨hmissing _,fun path path' _ _ hw => ⟨hkept path _ _ hw,h path path' _ _ hw⟩⟩

/-- What one member does. -/
theorem checkMembers_cases {pathOf : JsString → String → JsString} {path : JsString}
    {source : JsVal} {m : Member ε} {ms : List (Member ε)} {kvs : List (JsString × JsVal)}
    (h : checkMembers pathOf path source (m::ms) = .ok kvs) :
    (m.skip (field source m.name) = true ∧ checkMembers pathOf path source ms = .ok kvs) ∨
      m.skip (field source m.name) = false ∧ ∃ v rest,
        m.check (pathOf path m.name) (field source m.name) = .ok v ∧
        checkMembers pathOf path source ms = .ok rest ∧ kvs = (js m.name,v)::rest := by
  rw [checkMembers] at h
  cases hskip : m.skip (field source m.name) with
  | true =>
      rw [hskip,if_pos rfl] at h
      exact .inl ⟨rfl,h⟩
  | false =>
      rw [hskip,if_neg Bool.false_ne_true] at h
      obtain ⟨v,hv,h⟩ := ok_of_bind h
      obtain ⟨rest,hrest,h⟩ := ok_of_bind h
      cases h
      exact .inr ⟨rfl,v,rest,hv,hrest,rfl⟩

theorem names_checkMembers {pathOf : JsString → String → JsString} {path : JsString}
    {source : JsVal} {ms : List (Member ε)} {kvs : List (JsString × JsVal)}
    (h : checkMembers pathOf path source ms = .ok kvs) :
    (kvs.map Prod.fst).Sublist (ms.map fun m => js m.name) := by
  induction ms generalizing kvs with
  | nil =>
      cases h
      exact .slnil
  | cons m ms ih =>
      rcases checkMembers_cases h with ⟨-,hrest⟩ | ⟨-,v,rest,-,hrest,rfl⟩
      · exact (ih hrest).cons _
      · exact (ih hrest).cons_cons _

theorem field_of_absent {kvs : List (JsString × JsVal)} {name : String}
    (h : js name ∉ kvs.map Prod.fst) : field (.obj kvs) name = .undefined := by
  rw [field_obj,List.find?_eq_none.mpr]
  · rfl
  · intro p hp hname
    exact h (List.mem_map.mpr ⟨p,hp,by simpa using hname⟩)

theorem field_of_first {before after : List (JsString × JsVal)} {name : String} {v : JsVal}
    (h : js name ∉ before.map Prod.fst) :
    field (.obj (before++(js name,v)::after)) name = v := by
  have hnone : before.find? (fun p => p.1 = js name) = none := by
    rw [List.find?_eq_none]
    intro p hp hname
    exact h (List.mem_map.mpr ⟨p,hp,by simpa using hname⟩)
  rw [field_obj,List.find?_append,hnone,Option.none_or,List.find?_cons_of_pos (by simp)]
  rfl

theorem field_front {kvs back : List (JsString × JsVal)} {name : String}
    (h : js name ∈ kvs.map Prod.fst) :
    field (.obj (kvs++back)) name = field (.obj kvs) name := by
  obtain ⟨p,hp,hname⟩ := List.mem_map.mp h
  cases hfind : kvs.find? fun p => p.1 = js name with
  | none => exact absurd hname (by simpa using List.find?_eq_none.mp hfind p hp)
  | some q => rw [field_obj,field_obj,List.find?_append,hfind,Option.some_or]

/-- Sources whose members are checked alike. -/
theorem checkMembers_congr {pathOf : JsString → String → JsString} {path : JsString}
    {source source' : JsVal} {ms : List (Member ε)}
    (h : ∀ m ∈ ms,m.skip (field source m.name) = m.skip (field source' m.name) ∧
      m.check (pathOf path m.name) (field source m.name) =
        m.check (pathOf path m.name) (field source' m.name)) :
    checkMembers pathOf path source ms = checkMembers pathOf path source' ms := by
  induction ms with
  | nil => rfl
  | cons m ms ih =>
      rw [List.forall_mem_cons] at h
      rw [checkMembers,checkMembers,h.1.1,h.1.2,ih h.2]

/-- Checked members pass again, between members of other names. -/
theorem checkMembers_again {pathOf : JsString → String → JsString} {path path' : JsString}
    {source : JsVal} {ms : List (Member ε)} {kvs before after : List (JsString × JsVal)}
    (hstable : ∀ m ∈ ms,m.StableAt source)
    (hnames : (before.map Prod.fst++ms.map fun m => js m.name).Nodup)
    (hafter : ∀ m ∈ ms,js m.name ∉ after.map Prod.fst)
    (h : checkMembers pathOf path source ms = .ok kvs) :
    checkMembers pathOf path' (.obj (before++(kvs++after))) ms = .ok kvs := by
  induction ms generalizing kvs before with
  | nil =>
      cases h
      rfl
  | cons m ms ih =>
      rw [List.forall_mem_cons] at hstable hafter
      rw [List.map_cons,List.nodup_append] at hnames
      obtain ⟨hbefore,hms,hdisjoint⟩ := hnames
      have hnew : js m.name ∉ before.map Prod.fst :=
        fun hmem => hdisjoint _ hmem _ List.mem_cons_self rfl
      rcases checkMembers_cases h with ⟨hskip,hrest⟩ | ⟨hskip,v,rest,hv,hrest,rfl⟩
      · have habsent : js m.name ∉ (before++(kvs++after)).map Prod.fst := by
          simp only [List.map_append,List.mem_append,not_or]
          exact ⟨hnew,fun hmem => (List.nodup_cons.mp hms).1
            ((names_checkMembers hrest).subset hmem),hafter.1⟩
        rw [checkMembers,field_of_absent habsent,if_pos (hstable.1.missing hskip)]
        refine ih hstable.2 ?_ hafter.2 hrest
        exact List.nodup_append.mpr ⟨hbefore,(List.nodup_cons.mp hms).2,
          fun a ha b hb => hdisjoint a ha b (List.mem_cons_of_mem _ hb)⟩
      · obtain ⟨hkept,hagain⟩ := hstable.1.kept _ (pathOf path' m.name) _ hskip hv
        have hlater : checkMembers pathOf path'
            (.obj ((before++[(js m.name,v)])++(rest++after))) ms = .ok rest := by
          refine ih hstable.2 ?_ hafter.2 hrest
          rw [List.map_append,List.append_assoc]
          exact List.nodup_append.mpr ⟨hbefore,hms,hdisjoint⟩
        rw [List.append_assoc,List.singleton_append] at hlater
        rw [List.cons_append,checkMembers,field_of_first hnew,hkept,if_neg Bool.false_ne_true,
          hagain,hlater]
        rfl

/-- A checked member can be read back. -/
theorem field_checkMembers {pathOf : JsString → String → JsString} {path : JsString}
    {source : JsVal} {ms : List (Member ε)} {kvs before : List (JsString × JsVal)}
    (hnames : (before.map Prod.fst++ms.map fun m => js m.name).Nodup)
    (h : checkMembers pathOf path source ms = .ok kvs) {m : Member ε} (hm : m ∈ ms)
    (hskip : m.skip (field source m.name) = false) :
    ∃ v,m.check (pathOf path m.name) (field source m.name) = .ok v ∧
      field (.obj (before++kvs)) m.name = v := by
  induction ms generalizing kvs before with
  | nil => cases hm
  | cons n ms ih =>
      rw [List.map_cons,List.nodup_append] at hnames
      obtain ⟨hbefore,hms,hdisjoint⟩ := hnames
      rcases checkMembers_cases h with ⟨hleft,hrest⟩ | ⟨-,v,rest,hv,hrest,rfl⟩
      · rcases List.mem_cons.mp hm with rfl | hm
        · rw [hleft] at hskip
          cases hskip
        · refine ih ?_ hrest hm
          exact List.nodup_append.mpr ⟨hbefore,(List.nodup_cons.mp hms).2,
            fun a ha b hb => hdisjoint a ha b (List.mem_cons_of_mem _ hb)⟩
      · rcases List.mem_cons.mp hm with rfl | hm
        · refine ⟨v,hv,field_of_first fun hmem => ?_⟩
          exact hdisjoint _ hmem _ List.mem_cons_self rfl
        · have hlater : ((before++[(js n.name,v)]).map Prod.fst++
              ms.map fun m => js m.name).Nodup := by
            rw [List.map_append,List.append_assoc]
            exact List.nodup_append.mpr ⟨hbefore,hms,hdisjoint⟩
          have := ih hlater hrest hm
          rwa [List.append_assoc,List.singleton_append] at this

/-- A member that is left out is not there. -/
theorem field_checkMembers_skip {pathOf : JsString → String → JsString} {path : JsString}
    {source : JsVal} {ms : List (Member ε)} {kvs : List (JsString × JsVal)}
    (hnames : (ms.map fun m => js m.name).Nodup)
    (h : checkMembers pathOf path source ms = .ok kvs) {m : Member ε} (hm : m ∈ ms)
    (hskip : m.skip (field source m.name) = true) : field (.obj kvs) m.name = .undefined := by
  refine field_of_absent ?_
  induction ms generalizing kvs with
  | nil => cases hm
  | cons n ms ih =>
      rw [List.map_cons,List.nodup_cons] at hnames
      rcases checkMembers_cases h with ⟨hleft,hrest⟩ | ⟨hkept,v,rest,-,hrest,rfl⟩
      · rcases List.mem_cons.mp hm with rfl | hm
        · exact fun hmem => hnames.1 ((names_checkMembers hrest).subset hmem)
        · exact ih hnames.2 hrest hm
      · rcases List.mem_cons.mp hm with rfl | hm
        · rw [hskip] at hkept
          cases hkept
        · rw [List.map_cons,List.mem_cons,not_or]
          exact ⟨fun hsame => hnames.1 (List.mem_map.mpr ⟨m,hm,hsame⟩),ih hnames.2 hrest hm⟩

theorem checkMembers_append {pathOf : JsString → String → JsString} {path : JsString}
    {source : JsVal} {ms ns : List (Member ε)} {kvs : List (JsString × JsVal)}
    (h : checkMembers pathOf path source (ms++ns) = .ok kvs) :
    ∃ front back,checkMembers pathOf path source ms = .ok front ∧
      checkMembers pathOf path source ns = .ok back ∧ kvs = front++back := by
  induction ms generalizing kvs with
  | nil => exact ⟨[],kvs,rfl,h,rfl⟩
  | cons m ms ih =>
      rcases checkMembers_cases h with ⟨hskip,hrest⟩ | ⟨hskip,v,rest,hv,hrest,rfl⟩
      · obtain ⟨front,back,hfront,hback,rfl⟩ := ih hrest
        refine ⟨front,back,?_,hback,rfl⟩
        rw [checkMembers,if_pos hskip,hfront]
      · obtain ⟨front,back,hfront,hback,rfl⟩ := ih hrest
        refine ⟨(js m.name,v)::front,back,?_,hback,rfl⟩
        rw [checkMembers,hskip,if_neg Bool.false_ne_true,hv,hfront]
        rfl

/-- A name that occurs once reads its own value. -/
theorem field_of_mem {kvs : List (JsString × JsVal)} {name : String} {v : JsVal}
    (hnodup : (kvs.map Prod.fst).Nodup) (h : (js name,v) ∈ kvs) : field (.obj kvs) name = v := by
  obtain ⟨before,after,rfl⟩ := List.append_of_mem h
  rw [List.map_append,List.map_cons,List.nodup_middle,List.nodup_cons] at hnodup
  exact field_of_first fun hmem => hnodup.1 (List.mem_append_left _ hmem)

theorem field_perm {kvs lws : List (JsString × JsVal)} (h : kvs.Perm lws)
    (hnodup : (kvs.map Prod.fst).Nodup) (name : String) :
    field (.obj lws) name = field (.obj kvs) name := by
  have hnodup' : (lws.map Prod.fst).Nodup := (h.map Prod.fst).nodup_iff.mp hnodup
  by_cases hin : js name ∈ kvs.map Prod.fst
  · obtain ⟨⟨k,v⟩,hp,hk⟩ := List.mem_map.mp hin
    obtain rfl : k = js name := hk
    rw [field_of_mem hnodup hp,field_of_mem hnodup' (h.mem_iff.mp hp)]
  · rw [field_of_absent hin,field_of_absent fun hmem => hin ((h.map Prod.fst).mem_iff.mpr hmem)]

theorem field_skip {before after : List (JsString × JsVal)} {p : JsString × JsVal} {name : String}
    (h : p.1 ≠ js name) :
    field (.obj (before++p::after)) name = field (.obj (before++after)) name := by
  rw [field_obj,field_obj,List.find?_append,List.find?_append,
    List.find?_cons_of_neg (by simpa using h)]

/-- The check returns the value. -/
structure Member.Keeps (m : Member ε) (x : JsVal) : Prop where
  skip : m.skip x = false
  check : ∀ path,m.check path x = .ok x

/-- Every member stays, and what may not be missing is there. -/
structure Settled (ms : List (Member ε)) (kvs : List (JsString × JsVal)) : Prop where
  names : (kvs.map Prod.fst).Nodup
  keeps : ∀ p ∈ kvs,∃ m ∈ ms,js m.name = p.1 ∧ m.Keeps p.2
  full : ∀ m ∈ ms,m.skip .undefined = true ∨ js m.name ∈ kvs.map Prod.fst

theorem keeps_checkMembers {pathOf : JsString → String → JsString} {path : JsString}
    {source : JsVal} {ms : List (Member ε)} {kvs : List (JsString × JsVal)}
    (hstable : ∀ m ∈ ms,m.StableAt source) (h : checkMembers pathOf path source ms = .ok kvs) :
    (∀ p ∈ kvs,∃ m ∈ ms,js m.name = p.1 ∧ m.Keeps p.2) ∧
      ∀ m ∈ ms,m.skip .undefined = true ∨ js m.name ∈ kvs.map Prod.fst := by
  induction ms generalizing kvs with
  | nil =>
      cases h
      simp
  | cons m ms ih =>
      rw [List.forall_mem_cons] at hstable
      rcases checkMembers_cases h with ⟨hskip,hrest⟩ | ⟨hskip,v,rest,hv,hrest,rfl⟩
      · obtain ⟨hkeeps,hfull⟩ := ih hstable.2 hrest
        refine ⟨fun p hp => ?_,List.forall_mem_cons.mpr ⟨.inl (hstable.1.missing hskip),hfull⟩⟩
        obtain ⟨n,hn,hkept⟩ := hkeeps p hp
        exact ⟨n,List.mem_cons_of_mem _ hn,hkept⟩
      · obtain ⟨hkeeps,hfull⟩ := ih hstable.2 hrest
        constructor
        · rw [List.forall_mem_cons]
          refine ⟨⟨m,List.mem_cons_self,rfl,?_⟩,fun p hp => ?_⟩
          · exact ⟨(hstable.1.kept _ [] _ hskip hv).1,
              fun path' => (hstable.1.kept _ path' _ hskip hv).2⟩
          · obtain ⟨n,hn,hkept⟩ := hkeeps p hp
            exact ⟨n,List.mem_cons_of_mem _ hn,hkept⟩
        · rw [List.forall_mem_cons]
          exact ⟨.inr List.mem_cons_self,fun n hn => (hfull n hn).imp_right
            fun hmem => List.mem_cons_of_mem _ hmem⟩

theorem settled_checkMembers {pathOf : JsString → String → JsString} {path : JsString}
    {source : JsVal} {ms : List (Member ε)} {kvs : List (JsString × JsVal)}
    (hstable : ∀ m ∈ ms,m.StableAt source) (hnames : (ms.map fun m => js m.name).Nodup)
    (h : checkMembers pathOf path source ms = .ok kvs) : Settled ms kvs :=
  have hkeeps := keeps_checkMembers hstable h
  ⟨hnames.sublist (names_checkMembers h),hkeeps.1,hkeeps.2⟩

/-- A member that is there stays. -/
theorem Settled.keeps_field {ms : List (Member ε)} {kvs : List (JsString × JsVal)}
    (h : Settled ms kvs) (hnames : (ms.map fun m => js m.name).Nodup) {m : Member ε} (hm : m ∈ ms)
    (hin : js m.name ∈ kvs.map Prod.fst) : m.Keeps (field (.obj kvs) m.name) := by
  obtain ⟨⟨k,v⟩,hp,hk⟩ := List.mem_map.mp hin
  obtain rfl : k = js m.name := hk
  obtain ⟨n,hn,hsame,hkept⟩ := h.keeps _ hp
  obtain rfl : n = m := List.inj_on_of_nodup_map hnames hn hm hsame
  rwa [field_of_mem h.names hp]

/-- A member may be written over, or added. -/
theorem Settled.setMember {ms : List (Member ε)} {kvs : List (JsString × JsVal)}
    (h : Settled ms kvs) {m : Member ε} (hm : m ∈ ms) {x : JsVal} (hx : m.Keeps x) :
    Settled ms (setMember kvs (js m.name) x) := by
  unfold JsonText.setMember
  split_ifs with hin
  · have hfst : (kvs.map fun p => if p.1 = js m.name then (js m.name,x) else p).map Prod.fst =
        kvs.map Prod.fst := by
      rw [List.map_map]
      refine List.map_congr_left fun p _ => ?_
      rw [Function.comp_apply]
      split_ifs with hname
      · exact hname.symm
      · rfl
    refine ⟨by rw [hfst]; exact h.names,fun p hp => ?_,fun n hn => by rw [hfst]; exact h.full n hn⟩
    obtain ⟨q,hq,rfl⟩ := List.mem_map.mp hp
    split_ifs with hname
    · exact ⟨m,hm,rfl,hx⟩
    · exact h.keeps q hq
  · refine ⟨?_,fun p hp => ?_,fun n hn => ?_⟩
    · rw [List.map_append,List.nodup_append_comm]
      exact List.nodup_cons.mpr ⟨hin,h.names⟩
    · rcases List.mem_append.mp hp with hp | hp
      · exact h.keeps p hp
      · rw [List.mem_singleton.mp hp]
        exact ⟨m,hm,rfl,hx⟩
    · rw [List.map_append]
      exact (h.full n hn).imp_right (List.mem_append_left _)

/-- What the checks say about a member, taken from a settled list that agrees with the source. -/
theorem checkMembers_settled {pathOf : JsString → String → JsString} {path : JsString}
    {source : JsVal} {ms : List (Member ε)} {kvs : List (JsString × JsVal)}
    (h : Settled ms kvs) (hnames : (ms.map fun m => js m.name).Nodup)
    (hfields : ∀ m ∈ ms,field source m.name = field (.obj kvs) m.name) :
    ∃ kvs',checkMembers pathOf path source ms = .ok kvs' ∧ kvs'.Perm kvs := by
  induction ms generalizing kvs with
  | nil =>
      cases kvs with
      | nil => exact ⟨[],rfl,.refl _⟩
      | cons p kvs =>
          obtain ⟨m,hm,-⟩ := h.keeps p List.mem_cons_self
          cases hm
  | cons m ms ih =>
      obtain ⟨hkvs,hkeeps,hfull⟩ := h
      rw [List.map_cons,List.nodup_cons] at hnames
      rw [List.forall_mem_cons] at hfull hfields
      by_cases hin : js m.name ∈ kvs.map Prod.fst
      · obtain ⟨p,hp,hname⟩ := List.mem_map.mp hin
        obtain ⟨before,after,rfl⟩ := List.append_of_mem hp
        rw [List.map_append,List.map_cons,List.nodup_middle,List.nodup_cons] at hkvs
        obtain ⟨hown,hrest⟩ := hkvs
        rw [← List.map_append] at hown hrest
        have hkept : m.Keeps p.2 := by
          obtain ⟨n,hn,hsame,hkept⟩ := hkeeps p (by simp)
          rcases List.mem_cons.mp hn with rfl | hn
          · exact hkept
          · exact absurd (List.mem_map.mpr ⟨n,hn,hsame.trans hname⟩) hnames.1
        have hvalue : field source m.name = p.2 := by
          rw [hfields.1,show p = (js m.name,p.2) from Prod.ext hname rfl]
          refine field_of_first fun hmem => hown ?_
          rw [hname,List.map_append]
          exact List.mem_append_left _ hmem
        have hothers : ∀ q ∈ before++after,∃ n ∈ ms,js n.name = q.1 ∧ n.Keeps q.2 := by
          intro q hq
          obtain ⟨n,hn,hsame,hkept⟩ := hkeeps q (by
            rcases List.mem_append.mp hq with hq | hq
            · simp [hq]
            · simp [hq])
          rcases List.mem_cons.mp hn with rfl | hn
          · exact absurd (List.mem_map.mpr ⟨q,hq,hsame.symm.trans hname.symm⟩) hown
          · exact ⟨n,hn,hsame,hkept⟩
        have hleft : ∀ n ∈ ms,n.skip .undefined = true ∨ js n.name ∈ (before++after).map Prod.fst := by
          intro n hn
          refine (hfull.2 n hn).imp_right fun hmem => ?_
          rw [List.map_append,List.map_cons] at hmem
          rw [List.map_append]
          rcases List.mem_append.mp hmem with hmem | hmem
          · exact List.mem_append_left _ hmem
          · rcases List.mem_cons.mp hmem with hsame | hmem
            · exact absurd (List.mem_map.mpr ⟨n,hn,hsame.trans hname⟩) hnames.1
            · exact List.mem_append_right _ hmem
        obtain ⟨kvs',hpass,hperm⟩ := ih ⟨hrest,hothers,hleft⟩ hnames.2 (by
          intro n hn
          rw [hfields.2 n hn]
          refine field_skip fun hsame => hnames.1 ?_
          exact List.mem_map.mpr ⟨n,hn,hsame.symm.trans hname⟩)
        refine ⟨p::kvs',?_,(hperm.cons p).trans List.perm_middle.symm⟩
        rw [checkMembers,hvalue,hkept.skip,if_neg Bool.false_ne_true,hkept.check,hpass,← hname]
        rfl
      · have habsent : field source m.name = .undefined := by
          rw [hfields.1]
          exact field_of_absent hin
        obtain ⟨kvs',hpass,hperm⟩ := ih ⟨hkvs,(by
          intro q hq
          obtain ⟨n,hn,hsame,hkept⟩ := hkeeps q hq
          rcases List.mem_cons.mp hn with rfl | hn
          · exact absurd (List.mem_map.mpr ⟨q,hq,hsame.symm⟩) hin
          · exact ⟨n,hn,hsame,hkept⟩),hfull.2⟩ hnames.2 hfields.2
        refine ⟨kvs',?_,hperm⟩
        rw [checkMembers,habsent,if_pos (hfull.1.resolve_right hin),hpass]

/-- How a list is checked: the key of an element is found before the element is checked as a
whole, and an element with a known key is an error or is left out. -/
structure Listing (ε : Type) where
  key : JsString → JsVal → Except ε JsString
  item : Check ε
  repeated : JsString → Option ε

def itemPath (path : JsString) (index : ℕ) : JsString := path++js "["++js (toString index)++js "]"

def checkList (l : Listing ε) (path : JsString) :
    ℕ → List JsString → List JsVal → Except ε (List JsVal)
  | _,_,[] => .ok []
  | index,seen,raw::raws => do
      let k ← l.key (itemPath path index) raw
      if k ∈ seen then
        match l.repeated (itemPath path index) with
        | some e => throw e
        | none => checkList l path (index+1) seen raws
      else
        let v ← l.item (itemPath path index) raw
        let rest ← checkList l path (index+1) (seen++[k]) raws
        return v::rest

/-- An element that is returned has its key and stays. -/
structure Listing.Stable (l : Listing ε) : Prop where
  key : ∀ path path' raw k v,l.key path raw = .ok k → l.item path raw = .ok v →
    l.key path' v = .ok k
  item : CheckedObjects.Stable l.item

/-- What one element does. -/
theorem checkList_cases {l : Listing ε} {path : JsString} {index : ℕ} {seen : List JsString}
    {raw : JsVal} {raws vs : List JsVal}
    (h : checkList l path index seen (raw::raws) = .ok vs) :
    ∃ k,l.key (itemPath path index) raw = .ok k ∧
      ((k ∈ seen ∧ checkList l path (index+1) seen raws = .ok vs) ∨
        k ∉ seen ∧ ∃ v rest,l.item (itemPath path index) raw = .ok v ∧
          checkList l path (index+1) (seen++[k]) raws = .ok rest ∧ vs = v::rest) := by
  rw [checkList] at h
  obtain ⟨k,hk,h⟩ := ok_of_bind h
  refine ⟨k,hk,?_⟩
  by_cases hseen : k ∈ seen
  · rw [if_pos hseen] at h
    split at h
    · cases h
    · exact .inl ⟨hseen,h⟩
  · rw [if_neg hseen] at h
    obtain ⟨v,hv,h⟩ := ok_of_bind h
    obtain ⟨rest,hrest,h⟩ := ok_of_bind h
    cases h
    exact .inr ⟨hseen,v,rest,hv,hrest,rfl⟩

/-- An element whose key is new is checked and kept. -/
theorem checkList_new {l : Listing Refusal} {path k : JsString} {index : ℕ} {seen : List JsString}
    {raw v : JsVal} {raws vs : List JsVal} (hkey : l.key (itemPath path index) raw = .ok k)
    (hnew : k ∉ seen) (hitem : l.item (itemPath path index) raw = .ok v)
    (hrest : checkList l path (index+1) (seen++[k]) raws = .ok vs) :
    checkList l path index seen (raw::raws) = .ok (v::vs) := by
  simp only [checkList,hkey,hitem,hrest,bind,Except.bind,if_neg hnew]
  rfl

theorem checkList_again {l : Listing ε} (hstable : l.Stable) {path path' : JsString}
    {index : ℕ} (index' : ℕ) {seen : List JsString} {raws vs : List JsVal}
    (h : checkList l path index seen raws = .ok vs) :
    checkList l path' index' seen vs = .ok vs := by
  induction raws generalizing index index' seen vs with
  | nil =>
      cases h
      rfl
  | cons raw raws ih =>
      obtain ⟨k,hk,⟨-,hrest⟩ | ⟨hseen,v,rest,hv,hrest,rfl⟩⟩ := checkList_cases h
      · exact ih index' hrest
      · rw [checkList,hstable.key _ (itemPath path' index') _ _ _ hk hv]
        simp only [bind,Except.bind]
        rw [if_neg hseen,hstable.item _ (itemPath path' index') _ _ hv]
        simp only
        rw [ih (index'+1) hrest]
        rfl

theorem length_checkList {l : Listing ε} {path : JsString} {index : ℕ} {seen : List JsString}
    {raws vs : List JsVal} (h : checkList l path index seen raws = .ok vs) :
    vs.length ≤ raws.length := by
  induction raws generalizing index seen vs with
  | nil =>
      cases h
      exact le_rfl
  | cons raw raws ih =>
      obtain ⟨k,-,⟨-,hrest⟩ | ⟨-,v,rest,-,hrest,rfl⟩⟩ := checkList_cases h
      · exact (ih hrest).trans (Nat.le_succ _)
      · exact Nat.succ_le_succ (ih hrest)

theorem mem_checkList {l : Listing ε} {path : JsString} {index : ℕ} {seen : List JsString}
    {raws vs : List JsVal} (h : checkList l path index seen raws = .ok vs) :
    ∀ v ∈ vs,∃ path' raw,l.item path' raw = .ok v := by
  induction raws generalizing index seen vs with
  | nil =>
      cases h
      simp
  | cons raw raws ih =>
      obtain ⟨k,-,⟨-,hrest⟩ | ⟨-,v,rest,hv,hrest,rfl⟩⟩ := checkList_cases h
      · exact ih hrest
      · rw [List.forall_mem_cons]
        exact ⟨⟨_,raw,hv⟩,ih hrest⟩

/-- The elements have new keys, each its own. -/
theorem keys_checkList {l : Listing ε} (hstable : l.Stable) {path : JsString} {index : ℕ}
    {seen : List JsString} {raws vs : List JsVal}
    (h : checkList l path index seen raws = .ok vs) (hseen : seen.Nodup) (path' : JsString) :
    ∃ keys,vs.map (l.key path') = keys.map .ok ∧ (seen++keys).Nodup := by
  induction raws generalizing index seen vs with
  | nil =>
      cases h
      exact ⟨[],rfl,by rwa [List.append_nil]⟩
  | cons raw raws ih =>
      obtain ⟨k,hk,⟨-,hrest⟩ | ⟨hnew,v,rest,hv,hrest,rfl⟩⟩ := checkList_cases h
      · exact ih hrest hseen
      · have hnodup : (seen++[k]).Nodup := by
          rw [List.nodup_append_comm]
          exact List.nodup_cons.mpr ⟨hnew,hseen⟩
        obtain ⟨keys,hkeys,hall⟩ := ih hrest hnodup
        refine ⟨k::keys,?_,by rwa [List.append_assoc,List.singleton_append] at hall⟩
        rw [List.map_cons,List.map_cons,hkeys,hstable.key _ path' _ _ _ hk hv]

end

end AstraNull.CheckedObjects

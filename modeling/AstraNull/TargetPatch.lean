import Mathlib
import AstraNull.JsonText
import AstraNull.ScriptValue
import AstraNull.ScriptObject
import AstraNull.TargetMetadata
import AstraNull.TargetInput
import AstraNull.TargetStability

/-!
# What a request can change in the metadata of a target

The tags and the control declarations stand in the metadata under names of their own. A request
writes the first through its own field and the second not at all; the rest of what it sends is
sanitised.
-/
namespace AstraNull.TargetPatch
open JsonText ScriptValue ScriptObject TargetMetadata TargetInput

section
variable {v x : JsVal} {name other : String}

theorem has_put_self (v : JsVal) (name : String) (x : JsVal) : has (put v name x) name = true := by
  rw [put,has,List.any_eq_true]
  have hfind := find_setMember_self (members v) (js name) x
  exact ⟨_,List.mem_of_find?_eq_some hfind,by simp⟩

theorem has_eq_find (v : JsVal) (name : String) :
    has v name = ((members v).find? fun p => p.1 = js name).isSome := by
  have hfind : ∀ kvs : List (JsString × JsVal),
      (kvs.any fun p => p.1 = js name) = (kvs.find? fun p => p.1 = js name).isSome := by
    intro kvs
    rw [Bool.eq_iff_iff,List.find?_isSome,List.any_eq_true]
  cases v with
  | obj kvs => exact hfind kvs
  | _ => rfl

theorem has_put_other (h : js other ≠ js name) : has (put v name x) other = has v other := by
  rw [has_eq_find,has_eq_find,put,members,find_setMember_other _ h]

theorem has_remove_self (v : JsVal) (name : String) : has (remove v name) name = false := by
  rw [remove,has,List.any_eq_false]
  intro p hp hname
  exact (by simpa using (List.mem_filter.mp hp).2 : p.1 ≠ js name) (by simpa using hname)

theorem remove_comm (v : JsVal) (name other : String) :
    remove (remove v name) other = remove (remove v other) name := by
  change JsVal.obj (((members v).filter _).filter _) = JsVal.obj (((members v).filter _).filter _)
  rw [List.filter_filter,List.filter_filter]
  exact congrArg JsVal.obj (List.filter_congr fun p _ => Bool.and_comm _ _)

theorem remove_again (v : JsVal) (name : String) : remove (remove v name) name = remove v name := by
  rw [remove,remove,members,List.filter_filter]
  simp

end

/-- The metadata without the two. -/
def restOf (metadata : JsVal) : JsVal := remove (remove metadata "tags") "control_declarations"

def storedDeclarations (current : JsVal) : JsVal :=
  field (metadataOf current) "control_declarations"

theorem restOf_putTags (v x : JsVal) : restOf (put v "tags" x) = restOf v := by
  rw [restOf,remove_put_self,restOf]

theorem restOf_putDeclarations (v x : JsVal) :
    restOf (put v "control_declarations" x) = restOf v := by
  rw [restOf,remove_comm,remove_put_self,remove_comm,restOf]

theorem restOf_again (v : JsVal) : restOf (restOf v) = restOf v := by
  rw [restOf,restOf,remove_comm (remove v "tags"),remove_again,remove_again,remove_comm]

theorem restOf_tagged (metadata : JsVal) (tags : List JsString) :
    restOf (tagged metadata tags) = restOf (spread metadata) := by
  have hagain := restOf_again (spread metadata)
  rw [tagged]
  split_ifs
  · rw [restOf_putTags]
    exact hagain
  · exact hagain

/-- Attaching changes nothing but the two. -/
theorem restOf_attached (metadata : JsVal) (tags : List JsString) (current : JsVal) :
    restOf (attached metadata tags current) = restOf (spread metadata) := by
  rw [attached]
  split_ifs
  · rw [restOf_putDeclarations,restOf_tagged]
  · exact restOf_tagged metadata tags

/-- What a value has under a name, if anything. -/
def own (v : JsVal) (name : String) : Option JsVal :=
  if has v name then some (field v name) else none

theorem own_put_self (v : JsVal) (name : String) (x : JsVal) :
    own (put v name x) name = some x := by
  rw [own,has_put_self,if_pos rfl,field_put_self]

theorem own_put_other {v x : JsVal} {name other : String} (h : js other ≠ js name) :
    own (put v name x) other = own v other := by
  rw [own,has_put_other h,field_put_other h,own]

theorem own_remove_self (v : JsVal) (name : String) : own (remove v name) name = none := by
  rw [own,has_remove_self]
  rfl

theorem own_tagged (metadata : JsVal) (tags : List JsString) :
    own (tagged metadata tags) "tags" =
        (if tags = [] then none else some (.arr (tags.map .str))) ∧
      own (tagged metadata tags) "control_declarations" = none := by
  have hother : js "control_declarations" ≠ js "tags" := by decide
  rw [tagged]
  by_cases hempty : tags = []
  · rw [if_neg (not_not.mpr hempty),if_pos hempty]
    refine ⟨?_,own_remove_self _ _⟩
    rw [remove_comm]
    exact own_remove_self _ _
  · rw [if_pos hempty,if_neg hempty]
    refine ⟨own_put_self _ _ _,?_⟩
    rw [own_put_other hother]
    exact own_remove_self _ _

/-- The two, after attaching. -/
theorem own_attached (metadata : JsVal) (tags : List JsString) (current : JsVal) :
    own (attached metadata tags current) "tags" =
        (if tags = [] then none else some (.arr (tags.map .str))) ∧
      own (attached metadata tags current) "control_declarations" =
        if isPlain (storedDeclarations current) then some (storedDeclarations current)
        else none := by
  have hother : js "tags" ≠ js "control_declarations" := by decide
  obtain ⟨htags,hnone⟩ := own_tagged metadata tags
  change own (if isPlain (storedDeclarations current) = true then _ else _) _ = _ ∧
    own (if isPlain (storedDeclarations current) = true then _ else _) _ = _
  by_cases hplain : isPlain (storedDeclarations current) = true
  · rw [if_pos hplain,if_pos hplain]
    refine ⟨?_,own_put_self _ _ _⟩
    rw [own_put_other hother]
    exact htags
  · rw [if_neg hplain,if_neg hplain]
    exact ⟨htags,hnone⟩

theorem clean_filter {lower : JsString → JsString} {room : ℕ} {kvs : List (JsString × JsVal)}
    (h : Clean lower (room+1) (.obj kvs)) (keep : JsString × JsVal → Bool) :
    Clean lower (room+1) (.obj (kvs.filter keep)) := by
  cases h with
  | scalar hscalar => cases hscalar
  | obj hkeys hvalues =>
      exact .obj (fun p hp => hkeys p (List.mem_of_mem_filter hp))
        fun p hp => hvalues p (List.mem_of_mem_filter hp)

theorem clean_restOf {lower : JsString → JsString} {metadata : JsVal}
    (h : Clean lower 6 metadata) (hplain : isPlain metadata = true) :
    Clean lower 6 (restOf (spread metadata)) := by
  cases metadata with
  | obj kvs => exact clean_filter (clean_filter h _) _
  | _ => cases hplain

/-- The request brings metadata of its own. -/
def supplied (input : JsVal) : Bool :=
  !(field (sourceOf input) "metadata").isUndefined ||
    !(field (sourceOf input) "metadata_json").isUndefined

/-- A request leaves the declarations as they are stored and sets the tags through their own field
only; what else it sends has no reserved name at any depth and few levels; and sanitising again
changes nothing. -/
theorem metadata_patch_frame (P : Platform) (input current : JsVal) (t : Normalized)
    (h : normalizeTargetInput P input current = .ok t) :
    own t.metadata "control_declarations" =
        (if isPlain (storedDeclarations current) then some (storedDeclarations current)
        else none) ∧
    own t.metadata "tags" = (if t.tags = [] then none else some (.arr (t.tags.map .str))) ∧
    ((field (sourceOf input) "tags").isUndefined = true → t.tags = targetTagsFromRecord current) ∧
    ((field (sourceOf input) "tags").isUndefined = false →
      normalizeTargetTags P.toLowerCase (field (sourceOf input) "tags") = .ok t.tags) ∧
    (supplied input = true → nesting (restOf t.metadata) ≤ 6 ∧
      ∀ key ∈ deepKeys (restOf t.metadata),isReserved P.toLowerCase key = false) ∧
    (supplied input = false →
      restOf t.metadata = restOf (spread (orElse (metadataOf current) (.obj [])))) ∧
    ∀ sent,sanitizeClientTargetMetadata P.toLowerCase
        (sanitizeClientTargetMetadata P.toLowerCase sent).1 =
      ((sanitizeClientTargetMetadata P.toLowerCase sent).1,[]) := by
  obtain ⟨-,-,htags,hmetadata,-⟩ := normalizeTargetInput_parts h
  obtain ⟨howntags,howndeclarations⟩ :=
    own_attached (sanitizedOf P input current).1 t.tags current
  rw [← hmetadata] at howntags howndeclarations
  have hrest : restOf t.metadata = restOf (spread (sanitizedOf P input current).1) := by
    rw [hmetadata]
    exact restOf_attached _ _ _
  refine ⟨howndeclarations,howntags,?_,?_,?_,?_,clientMetadata_again⟩
  · intro habsent
    rw [tagsOf,if_pos habsent] at htags
    exact (Except.ok.inj htags).symm
  · intro hsent
    rw [tagsOf,if_neg (by simp [hsent])] at htags
    exact htags
  · intro hsupplied
    have hclean : Clean P.toLowerCase 6 (restOf t.metadata) := by
      rw [supplied] at hsupplied
      rw [hrest,sanitizedOf,if_pos hsupplied]
      exact clean_restOf (clean_clientMetadata _) (isPlain_clientMetadata _)
    exact ⟨hclean.nesting,hclean.deepKeys⟩
  · intro hsupplied
    rw [supplied] at hsupplied
    rw [hrest,sanitizedOf,if_neg (Bool.eq_false_iff.mp hsupplied)]

/-- A request that sends tags and a reserved name, spelled in another way. -/
def sampleRequest : JsVal :=
  .obj [(js "kind",.str (js "fqdn")),(js "value",.str (js "a.b")),
    (js "tags",.arr [.str (js " edge ")]),
    (js "metadata",.obj [(js "Verify-State",.null),(js "team",.arr [])])]

def sampleCurrent : JsVal :=
  .obj [(js "metadata",.obj [(js "tags",.arr []),(js "control_declarations",.obj [])])]

theorem sample_frame :
    ∃ t,normalizeTargetInput TargetStability.small sampleRequest sampleCurrent = .ok t ∧
      own t.metadata "control_declarations" = some (.obj []) ∧
      ∀ key ∈ deepKeys (restOf t.metadata),
        isReserved TargetStability.small.toLowerCase key = false := by
  obtain ⟨t,ht⟩ : ∃ t,normalizeTargetInput TargetStability.small sampleRequest sampleCurrent =
      .ok t := ⟨_,rfl⟩
  obtain ⟨hown,-,-,-,hrest,-⟩ := metadata_patch_frame _ _ _ t ht
  exact ⟨t,ht,hown,(hrest rfl).2⟩

end AstraNull.TargetPatch

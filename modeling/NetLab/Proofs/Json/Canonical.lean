import NetLab.Json.Canonical
import NetLab.Proofs.Json.Subset

/-!
# What canonical values are compared with

Only of canonical values does the comparison with a filled one start from the value itself
(`Canonical.fills_self`).  They are their own normal forms (`Canonical.normal_eq`).
-/

namespace NetLab.Json

theorem normalItems_eq {items : List Json} (h : ∀ item ∈ items, item.normal = item) :
    normalItems items = items := by
  induction items with
  | nil => rfl
  | cons item rest ih =>
    obtain ⟨hitem, hrest⟩ := List.forall_mem_cons.1 h
    rw [normalItems, hitem, ih hrest]

theorem normalMembers_eq {members : List (String × Json)}
    (h : ∀ member ∈ members, member.2.normal = member.2) : normalMembers members = members := by
  induction members with
  | nil => rfl
  | cons member rest ih =>
    obtain ⟨hmember, hrest⟩ := List.forall_mem_cons.1 h
    rw [normalMembers, hmember, ih hrest]

namespace Canonical

theorem normal_eq {value : Json} (h : Canonical value) : value.normal = value := by
  induction h with
  | null | bool _ | number _ | string _ => rfl
  | array _ ih => rw [normal, normalItems_eq ih]
  | object hascending _ ih =>
    rw [normal, normalMembers_eq ih, Json.ofMembers, Assoc.ofList_of_ascending hascending]

/-- The members of a canonical object are what is bound if they are read one after the other. -/
theorem ofList_normalMembers {members : List (String × Json)} (h : Canonical (.object members)) :
    Assoc.ofList (normalMembers members) = members :=
  Json.object.inj h.normal_eq

/-- A server may keep a canonical value as it is. -/
theorem fills_self {value : Json} (h : Canonical value) : Fills value value := by
  induction h with
  | null => exact .null _
  | bool value => exact .bool value
  | number value => exact .number value
  | string value => exact .string value
  | array _ ih =>
    refine .array rfl fun pair hmem => ?_
    obtain ⟨i, hi, rfl⟩ := List.mem_iff_getElem.1 hmem
    simp only [List.getElem_zip]
    exact ih _ (List.getElem_mem _)
  | object hascending _ ih =>
    refine .object fun member hmem => ?_
    rw [get_object, (Assoc.find?_eq_some_iff hascending).2 hmem]
    exact ih member hmem

end Canonical

end NetLab.Json

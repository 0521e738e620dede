import NetLab.Json.Basic
import NetLab.Proofs.Maps

/-!
# Members of built values

What `Json.get?` and `Json.get` read from the values that `Json.ofMembers`, `Json.ofOptional` and
`Json.ofStringMap` build.
-/

namespace NetLab.Json

@[simp] theorem get?_null (name : String) : Json.null.get? name = none := rfl
@[simp] theorem asString?_null : Json.null.asString? = none := rfl
@[simp] theorem asString?_string (text : String) : (Json.string text).asString? = some text := rfl

@[simp]
theorem get?_ofMembers_nil (name : String) : (ofMembers []).get? name = none := rfl

@[simp]
theorem get?_ofMembers_cons (name other : String) (value : Json) (rest : List (String × Json)) :
    (ofMembers ((other, value) :: rest)).get? name =
      ((ofMembers rest).get? name).or (if name = other then some value else none) := by
  simp only [ofMembers, get?, Assoc.find?_ofList_cons, Std.LawfulEqCmp.compare_eq_iff_eq]

@[simp]
theorem get?_ofOptional_nil (name : String) : (ofOptional []).get? name = none := rfl

@[simp]
theorem get?_ofOptional_cons (name other : String) (value? : Option Json)
    (rest : List (String × Option Json)) :
    (ofOptional ((other, value?) :: rest)).get? name =
      ((ofOptional rest).get? name).or (if name = other then value? else none) := by
  cases value? with
  | none => simp [ofOptional]
  | some value =>
    exact get?_ofMembers_cons name other value _

@[simp]
theorem get?_ofStringMap (m : StringMap) (name : String) :
    (ofStringMap m).get? name = (m.get? name).map .string :=
  Assoc.find?_map name (fun _ value => Json.string value) m.entries

theorem get_eq_of_get? {value member : Json} {name : String} (h : value.get? name = some member) :
    value.get name = member := by
  rw [get, h]
  rfl

theorem get_object (members : List (String × Json)) (name : String) :
    (object members).get name = (Assoc.find? name members).getD .null := rfl

theorem path_cons (value : Json) (name : String) (names : List String) :
    value.path (name :: names) = (value.get name).path names := rfl

/-- What is read is `null` or a member. -/
theorem get_eq_null_or_mem (members : List (String × Json)) (name : String) :
    (object members).get name = .null ∨ (name, (object members).get name) ∈ members := by
  rw [get_object]
  cases h : Assoc.find? name members with
  | none => exact Or.inl rfl
  | some value => exact Or.inr (Assoc.mem_of_find? h)

end NetLab.Json

import NetLab.Json.Basic

/-!
# Subset comparison

A live object holds more than was asked for: the server fills in defaults and addresses.
`Json.isSubset` decides whether everything that is set in the desired value is the same in the live
value.  `null` sets nothing; an object may have more members; an array has to have the same
length; an empty object or array may also be missing.
-/

namespace NetLab.Json

mutual

/-- Everything that is set in the desired value is the same in the live value. -/
def isSubset : (desired live : Json) → Bool
  | .null, _ => true
  | .object [], .null => true
  | .object members, .object live => areSubset members live
  | .array items, .null => items.isEmpty
  | .array items, .array live => items.length = live.length && areSubsets items live
  | .bool a, live => live = .bool a
  | .number a, live => live = .number a
  | .string a, live => live = .string a
  | .object _, _ => false
  | .array _, _ => false
termination_by structural desired => desired

/-- Each item is a subset of the live item at its place. -/
def areSubsets : (desired live : List Json) → Bool
  | [], _ => true
  | _ :: _, [] => false
  | item :: rest, live :: others => isSubset item live && areSubsets rest others
termination_by structural desired => desired

/-- Each member is a subset of the live member of its name. -/
def areSubset : (desired live : List (String × Json)) → Bool
  | [], _ => true
  | (name, value) :: rest, live =>
    isSubset value ((Assoc.find? name live).getD .null) && areSubset rest live
termination_by structural desired => desired

end

end NetLab.Json

import NetLab.SortedMap
import NetLab.Json.Double

/-!
# JSON values

The value type of manifests and of every other structured text the library reads or writes.
Integers and doubles are different values, as they are for the API server's clients: `1` is not
`1.0`.  The members of an object are an association list in ascending key order (`Assoc`), so that
equality does not depend on the order in which they were written.

Reading follows one rule throughout: a missing member, and any member of something that is not an
object, reads as `null` (`Json.get`).
-/

namespace NetLab

/-- A JSON number: an integer of 64 bits, signed or not, or a double. -/
inductive Number where
  | int (value : Int)
  | double (value : Double)
deriving DecidableEq, Repr

/-- A JSON value. -/
inductive Json where
  | null
  | bool (value : Bool)
  | number (value : Number)
  | string (value : String)
  | array (items : List Json)
  | object (members : List (String × Json))
deriving Repr, Inhabited

namespace Json

mutual

/-- Equality of values is decidable. -/
def decEq : (a b : Json) → Decidable (a = b)
  | .null, .null => isTrue rfl
  | .bool x, .bool y => decidable_of_iff (x = y) (by simp)
  | .number x, .number y => decidable_of_iff (x = y) (by simp)
  | .string x, .string y => decidable_of_iff (x = y) (by simp)
  | .array xs, .array ys =>
    match decEqItems xs ys with
    | isTrue h => isTrue (congrArg _ h)
    | isFalse h => isFalse fun he => h (Json.array.inj he)
  | .object xs, .object ys =>
    match decEqMembers xs ys with
    | isTrue h => isTrue (congrArg _ h)
    | isFalse h => isFalse fun he => h (Json.object.inj he)
  | .null, .bool _ | .null, .number _ | .null, .string _ | .null, .array _ | .null, .object _
  | .bool _, .null | .bool _, .number _ | .bool _, .string _ | .bool _, .array _
  | .bool _, .object _ | .number _, .null | .number _, .bool _ | .number _, .string _
  | .number _, .array _ | .number _, .object _ | .string _, .null | .string _, .bool _
  | .string _, .number _ | .string _, .array _ | .string _, .object _ | .array _, .null
  | .array _, .bool _ | .array _, .number _ | .array _, .string _ | .array _, .object _
  | .object _, .null | .object _, .bool _ | .object _, .number _ | .object _, .string _
  | .object _, .array _ => isFalse nofun

/-- Equality of item lists is decidable. -/
def decEqItems : (xs ys : List Json) → Decidable (xs = ys)
  | [], [] => isTrue rfl
  | [], _ :: _ | _ :: _, [] => isFalse nofun
  | x :: xs, y :: ys =>
    match decEq x y, decEqItems xs ys with
    | isTrue h, isTrue h' => isTrue (by rw [h, h'])
    | isFalse h, _ => isFalse fun he => h (List.cons.inj he).1
    | _, isFalse h => isFalse fun he => h (List.cons.inj he).2

/-- Equality of member lists is decidable. -/
def decEqMembers : (xs ys : List (String × Json)) → Decidable (xs = ys)
  | [], [] => isTrue rfl
  | [], _ :: _ | _ :: _, [] => isFalse nofun
  | (k, x) :: xs, (l, y) :: ys =>
    match decidable_of_iff (k = l) Iff.rfl, decEq x y, decEqMembers xs ys with
    | isTrue hk, isTrue h, isTrue h' => isTrue (by rw [hk, h, h'])
    | isFalse h, _, _ => isFalse fun he => h (congrArg (·.1) (List.cons.inj he).1)
    | _, isFalse h, _ => isFalse fun he => h (congrArg (·.2) (List.cons.inj he).1)
    | _, _, isFalse h => isFalse fun he => h (List.cons.inj he).2

end

instance : DecidableEq Json := decEq

/-! ## Building -/

/-- An integer. -/
def int (value : Int) : Json := .number (.int value)

/-- A count. -/
def nat (value : Nat) : Json := .number (.int value)

/-- A text, or `null`. -/
def text? (value : Option String) : Json := (value.map Json.string).getD .null

/-- The object with the given members; of two with one name the later counts. -/
def ofMembers (members : List (String × Json)) : Json := .object (Assoc.ofList members)

/-- The object of those members that are present. -/
def ofOptional (members : List (String × Option Json)) : Json :=
  ofMembers (members.filterMap fun (name, value?) => value?.map fun value => (name, value))

/-- The object with a member for each entry of the map. -/
def ofMap {α : Type} (m : SortedMap String α) (f : α → Json) : Json :=
  .object (m.entries.map fun (name, value) => (name, f value))

/-- The object with a text member for each entry of the map. -/
def ofStringMap (m : StringMap) : Json := ofMap m .string

def ofStrings (texts : List String) : Json := .array (texts.map .string)

/-! ## Reading -/

/-- The member of that name, if the value is an object that has one. -/
def get? (value : Json) (name : String) : Option Json :=
  match value with
  | .object members => Assoc.find? name members
  | _ => none

/-- The member of that name; `null` where there is none. -/
def get (value : Json) (name : String) : Json := (value.get? name).getD .null

/-- The value at the end of a path of member names. -/
def path (value : Json) (names : List String) : Json := names.foldl get value

/-- The text of a string. -/
def asString? : Json → Option String
  | .string s => some s
  | _ => none

def asBool? : Json → Option Bool
  | .bool b => some b
  | _ => none

/-- The value of an integer. -/
def asInt? : Json → Option Int
  | .number (.int n) => some n
  | _ => none

def asArray? : Json → Option (List Json)
  | .array items => some items
  | _ => none

def asObject? : Json → Option (List (String × Json))
  | .object members => some members
  | _ => none

/-- The value of an integer from `lo` to `hi`. -/
def asIntIn? (lo hi : Int) (value : Json) : Option Int :=
  value.asInt?.filter fun n => lo ≤ n ∧ n ≤ hi

/-- The object of texts as a map. -/
def asStringMap? (value : Json) : Option StringMap := do
  let members ← value.asObject?
  let entries ← members.mapM fun (name, value) => value.asString?.map fun text => (name, text)
  return .ofList entries

/-! ## Changing -/

/-- The object with the member bound anew; a value that is no object becomes one. -/
def set (value : Json) (name : String) (member : Json) : Json :=
  match value with
  | .object members => .object (Assoc.insert name member members)
  | _ => .object [(name, member)]

end Json

end NetLab

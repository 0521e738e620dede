import NetLab.Diff.Drift
import NetLab.Proofs.Json.Canonical

/-!
# Values without fields that say nothing

A field that is `null` or empty says nothing (`Kube.Drift.isSet`).  `Json.compact` drops these
fields at every depth, so two values have one compact form exactly when they say the same.

A record, which is an object or `null` for one that is missing, is compared field by field:
`kept_eq_iff` reduces what is kept of two records to what is kept of their members, and
`kept_eq_iff_of_differ` to one member if the others agree.
-/

namespace NetLab.Json

open Kube.Drift (isSet)

mutual

/-- The value without the fields, at any depth, that say nothing. -/
def compact : Json → Json
  | .array items => .array (compactItems items)
  | .object members => .object (compactMembers members)
  | .null => .null
  | .bool value => .bool value
  | .number value => .number value
  | .string value => .string value
termination_by structural value => value

/-- Each item without the fields that say nothing. -/
def compactItems : List Json → List Json
  | [] => []
  | item :: rest => compact item :: compactItems rest
termination_by structural items => items

/-- The members that say something, each without the fields that say nothing. -/
def compactMembers : List (String × Json) → List (String × Json)
  | [] => []
  | (name, value) :: rest =>
    if isSet (compact value) then (name, compact value) :: compactMembers rest
    else compactMembers rest
termination_by structural members => members

end

/-- What is kept of a member in the compact form: nothing, if it says nothing. -/
def kept (value : Json) : Json := if isSet value.compact then value.compact else .null

@[simp] theorem compact_null : Json.null.compact = .null := by simp [compact]
@[simp] theorem compact_string (text : String) : (Json.string text).compact = .string text := by
  simp [compact]

@[simp] theorem kept_null : Json.null.kept = .null := by simp [kept]

@[simp]
theorem kept_string (text : String) : (Json.string text).kept = .string text := by
  simp [kept, isSet]

theorem compactMembers_eq (members : List (String × Json)) :
    compactMembers members =
      (members.map fun member => (member.1, member.2.compact)).filter fun member =>
        isSet member.2 := by
  induction members with
  | nil => rfl
  | cons head rest ih =>
    rw [compactMembers, List.map_cons, List.filter_cons, ih]

theorem mem_compactMembers {name : String} {value : Json} {members : List (String × Json)} :
    (name, value) ∈ compactMembers members ↔
      ∃ member, (name, member) ∈ members ∧ member.compact = value ∧ isSet value = true := by
  rw [compactMembers_eq, List.mem_filter, List.mem_map]
  constructor
  · rintro ⟨⟨⟨name, member⟩, hmem, heq⟩, hset⟩
    obtain ⟨rfl, rfl⟩ := Prod.mk.inj heq
    exact ⟨member, hmem, rfl, hset⟩
  · rintro ⟨member, hmem, rfl, hset⟩
    exact ⟨⟨(name, member), hmem, rfl⟩, hset⟩

theorem ascending_compactMembers {members : List (String × Json)} (h : Assoc.Ascending members) :
    Assoc.Ascending (compactMembers members) := by
  rw [compactMembers_eq]
  refine List.Pairwise.filter _ ?_
  rwa [List.pairwise_map]

/-- What a compact record holds under a name is what is kept of the member of that name. -/
theorem get_compact_object {members : List (String × Json)} (h : Assoc.Ascending members)
    (name : String) : (object members).compact.get name = ((object members).get name).kept := by
  have hiff (value : Json) := @Assoc.find?_eq_some_iff _ _ _ _ name value _ h
  have hiff' (value : Json) :=
    @Assoc.find?_eq_some_iff _ _ _ _ name value _ (ascending_compactMembers h)
  simp only [compact, get_object]
  cases hfind : Assoc.find? name (compactMembers members) with
  | some value =>
    obtain ⟨member, hmem, rfl, hset⟩ := mem_compactMembers.1 ((hiff' value).1 hfind)
    rw [(hiff member).2 hmem]
    simp [kept, hset]
  | none =>
    cases hmember : Assoc.find? name members with
    | none => simp
    | some member =>
      -- The member was dropped, so it says nothing.
      have hunset : ¬ isSet member.compact = true := by
        intro hset
        have hmem := mem_compactMembers.2 ⟨member, (hiff member).1 hmember, rfl, hset⟩
        rw [(hiff' _).2 hmem] at hfind
        cases hfind
      simp [kept, hunset]

/-- The compact form of an object holds nothing but what it is found to hold. -/
theorem find?_compactMembers_eq {members : List (String × Json)} (h : Assoc.Ascending members)
    (name : String) : Assoc.find? name (compactMembers members) =
      if ((object members).get name).kept = .null then none
      else some ((object members).get name).kept := by
  have hget := get_compact_object h name
  simp only [compact, get_object] at hget
  rw [get_object, ← hget]
  cases hfind : Assoc.find? name (compactMembers members) with
  | none => simp
  | some value =>
    obtain ⟨member, -, -, hset⟩ := mem_compactMembers.1 (Assoc.mem_of_find? hfind)
    have hvalue : value ≠ .null := fun hnull => by simp [hnull, isSet] at hset
    simp [hvalue]

/-! ## Records -/

/-- An object, or `null` for one that is missing. -/
inductive IsRecord : Json → Prop where
  | null : IsRecord .null
  | object {members : List (String × Json)} (h : Assoc.Ascending members) :
      IsRecord (.object members)

theorem IsRecord.ofMembers (members : List (String × Json)) : IsRecord (.ofMembers members) :=
  .object (Assoc.ascending_ofList members)

theorem IsRecord.ofOptional (members : List (String × Option Json)) :
    IsRecord (.ofOptional members) :=
  .ofMembers _

theorem IsRecord.ofStringMap (m : StringMap) : IsRecord (.ofStringMap m) := by
  obtain ⟨hascending, -⟩ := Canonical.object_iff.1 (Canonical.ofStringMap m)
  exact .object hascending

theorem kept_object (members : List (String × Json)) :
    (object members).kept =
      if compactMembers members = [] then .null else .object (compactMembers members) := by
  rw [kept, compact]
  by_cases hempty : compactMembers members = []
  · simp [isSet, hempty]
  · have hset : isSet (object (compactMembers members)) = true := by
      simpa [isSet] using hempty
    rw [if_pos hset, if_neg hempty]

/-- What is kept of two objects is the same exactly if their compact forms are. -/
theorem kept_object_eq_iff {members members' : List (String × Json)} :
    (object members).kept = (object members').kept ↔
      (object members).compact = (object members').compact := by
  rw [kept_object, kept_object, compact, compact, object.injEq]
  by_cases hempty : compactMembers members = []
  · rw [if_pos hempty, hempty]
    split <;> rename_i hempty'
    · simp [hempty']
    · exact iff_of_false nofun fun heq => hempty' heq.symm
  · rw [if_neg hempty]
    split <;> rename_i hempty'
    · exact iff_of_false nofun fun heq => hempty (heq.trans hempty')
    · simp

theorem compact_ofMembers_eq_iff {members members' : List (String × Json)} :
    (ofMembers members).compact = (ofMembers members').compact ↔
      (ofMembers members).kept = (ofMembers members').kept :=
  kept_object_eq_iff.symm

/-- **Records keep the same if their members do.** -/
theorem kept_eq_iff {v w : Json} (hv : IsRecord v) (hw : IsRecord w) :
    v.kept = w.kept ↔ ∀ name, (v.get name).kept = (w.get name).kept := by
  have hobject {members members' : List (String × Json)} (h : Assoc.Ascending members)
      (h' : Assoc.Ascending members') : (object members).kept = (object members').kept ↔
        ∀ name, ((object members).get name).kept = ((object members').get name).kept := by
    rw [kept_object_eq_iff]
    constructor
    · intro heq name
      rw [← get_compact_object h, ← get_compact_object h', heq]
    · intro heq
      refine congrArg object (Assoc.eq_of_find?_eq (ascending_compactMembers h)
        (ascending_compactMembers h') fun name => ?_)
      rw [find?_compactMembers_eq h, find?_compactMembers_eq h', heq]
  have hempty : (object []).kept = Json.null.kept := by simp [kept_object, compactMembers]
  have hget (name : String) : (object []).get name = Json.null.get name := rfl
  -- A missing record keeps what an empty one does.
  cases hv with
  | object h =>
    cases hw with
    | object h' => exact hobject h h'
    | null => simpa only [hempty, hget] using hobject h Assoc.ascending_nil
  | null =>
    cases hw with
    | object h' => simpa only [hempty, hget] using hobject Assoc.ascending_nil h'
    | null => simp

/-- Of two records that agree but in one member, what is kept depends on that member. -/
theorem kept_eq_iff_of_differ {v w : Json} (hv : IsRecord v) (hw : IsRecord w) (name : String)
    (h : ∀ other, other ≠ name → v.get other = w.get other) :
    v.kept = w.kept ↔ (v.get name).kept = (w.get name).kept := by
  rw [kept_eq_iff hv hw]
  constructor
  · exact fun hkept => hkept name
  · intro hkept other
    by_cases hname : other = name
    · exact hname ▸ hkept
    · rw [h other hname]

theorem kept_singleton_eq_iff {v w : Json} :
    (Json.array [v]).kept = (Json.array [w]).kept ↔ v.compact = w.compact := by
  simp [kept, compact, compactItems, isSet]

end NetLab.Json

import NetLab.Kube.Resource
import NetLab.Proofs.Json.Canonical

/-!
# Manifests that are read back

Metadata that is written is read back as it was (`Meta.ofJson?_toJson`).  So is an object of a kind
without a schema, if it states its type and its body binds no name that belongs to the type or the
metadata (`Resource.ofJson?_toJson`).
-/

namespace NetLab

namespace Assoc

variable {κ α : Type} [Ord κ] [Std.LawfulEqOrd κ]

/-- A filter on keys hides the keys that fail it and no others. -/
theorem find?_filter (key : κ) (test : κ → Bool) (entries : List (κ × α)) :
    find? key (entries.filter fun entry => test entry.1) =
      if test key then find? key entries else none := by
  induction entries with
  | nil => simp [find?]
  | cons head rest ih =>
    by_cases heq : compare key head.1 = .eq
    · obtain rfl := Std.LawfulEqCmp.eq_of_compare heq
      by_cases htest : test head.1 <;> simp_all [find?]
    · by_cases hhead : test head.1 <;> simp [find?, hhead, heq, ih]

end Assoc

/-- A map of texts that is written is read back. -/
theorem Json.asStringMap?_ofStringMap (m : StringMap) :
    (Json.ofStringMap m).asStringMap? = some m := by
  have hentries (entries : List (String × String)) :
      (entries.map fun entry => (entry.1, Json.string entry.2)).mapM
        (fun entry => entry.2.asString?.map fun text => (entry.1, text)) = some entries := by
    induction entries with
    | nil => rfl
    | cons head rest ih => simp [List.mapM_cons, ih]
  have hread : (Json.ofStringMap m).asStringMap? = some (SortedMap.ofList m.entries) := by
    simp [Json.ofStringMap, Json.ofMap, Json.asStringMap?, Json.asObject?, hentries]
  rw [hread, SortedMap.ofList_entries]

namespace Kube

namespace Meta

/-- What a field reads back, if it reads what it wrote and never wrote `null`. -/
theorem optional?_eq {α : Type} {value : Json} {name : String} {read : Json → Option α}
    {write : α → Json} {field : Option α} (hget : value.get? name = field.map write)
    (hread : ∀ a, read (write a) = some a) (hwrite : ∀ a, write a ≠ .null) :
    optional? value name read = some field := by
  unfold optional?
  rw [Json.get, hget]
  cases field with
  | none => rfl
  | some a =>
    rw [Option.map_some, Option.getD_some]
    split
    · rename_i hnull
      exact absurd hnull (hwrite a)
    · rw [hread, Option.map_some]

/-- **Metadata is read back as it was written.** -/
theorem ofJson?_toJson (m : Meta) : ofJson? m.toJson = some m := by
  have htext (name : String) (field : Option String)
      (hget : m.toJson.get? name = field.map .string) :
      optional? m.toJson name Json.asString? = some field :=
    optional?_eq hget (fun _ => rfl) fun _ heq => by cases heq
  have hmap (name : String) (field : Option StringMap)
      (hget : m.toJson.get? name = field.map Json.ofStringMap) :
      optional? m.toJson name Json.asStringMap? = some field :=
    optional?_eq hget Json.asStringMap?_ofStringMap fun _ heq => by cases heq
  have hname := htext "name" m.name (by simp [toJson])
  have hnamespace := htext "namespace" m.namespaceName (by simp [toJson])
  have hlabels := hmap "labels" m.labels (by simp [toJson])
  have hannotations := hmap "annotations" m.annotations (by simp [toJson])
  have hversion := htext "resourceVersion" m.resourceVersion (by simp [toJson])
  have huid := htext "uid" m.uid (by simp [toJson])
  have hobject : ∃ members, m.toJson.asObject? = some members := ⟨_, rfl⟩
  obtain ⟨members, hmembers⟩ := hobject
  simp [ofJson?, hmembers, hname, hnamespace, hlabels, hannotations, hversion, huid]

end Meta

namespace Resource

variable {r : Resource} {header : Header}

/-- The members of a manifest that states its type. -/
theorem get?_toJson (hheader : r.header = some header) (name : String) : r.toJson.get? name =
      (((Assoc.find? name r.body).or
        (if name = "metadata" then some r.metadata.toJson else none)).or
          (if name = "kind" then some (.string header.kind) else none)).or
            (if name = "apiVersion" then some (.string header.apiVersion) else none) := by
  have hrest : (Json.ofMembers r.body).get? name = Assoc.find? name r.body :=
    Assoc.find?_ofList_of_ascending name (Json.Canonical.object_iff.1 r.canonical).1
  simp [toJson, hheader, hrest]

/-- **An object of a kind without a schema is read back as it was written.** -/
theorem ofJson?_toJson (hkind : Shapes.ofKind? r.kind = none) (hheader : r.header = some header)
    (hreserved : ∀ name, isReserved name = true → Assoc.find? name r.body = none) :
    ofJson? r.kind r.toJson = some r := by
  obtain ⟨members, hmembers⟩ : ∃ members, r.toJson = .object members := ⟨_, rfl⟩
  have hascending : Assoc.Ascending members := by
    obtain rfl := Json.object.inj hmembers
    exact Assoc.ascending_ofList _
  have hget := get?_toJson hheader
  rw [hmembers] at hget
  -- The three names that are not of the body are bound to the type and the metadata.
  have hmetadata : (Json.object members).get? "metadata" = some r.metadata.toJson := by
    simp [hget, hreserved "metadata" rfl]
  have htype : (Json.object members).get? "kind" = some (.string header.kind) := by
    simp [hget, hreserved "kind" rfl]
  have hversion : (Json.object members).get? "apiVersion" = some (.string header.apiVersion) := by
    simp [hget, hreserved "apiVersion" rfl]
  -- What is left of the members without them is the body.
  have hrest : members.filter (fun entry => !isReserved entry.1) = r.body := by
    refine Assoc.eq_of_find?_eq (List.Pairwise.filter _ hascending)
      (Json.Canonical.object_iff.1 r.canonical).1 fun name => ?_
    rw [Assoc.find?_filter name (fun name => !isReserved name)]
    have hfind : Assoc.find? name members = (Json.object members).get? name := rfl
    rw [hfind, hget]
    by_cases hname : isReserved name = true
    · simp [hname, hreserved name hname]
    · have hnames : name ≠ "metadata" ∧ name ≠ "kind" ∧ name ≠ "apiVersion" := by
        simp only [isReserved, Bool.or_eq_true, decide_eq_true_eq, not_or] at hname
        exact ⟨hname.2, hname.1.2, hname.1.1⟩
      simp [hname, hnames]
  have hread : ofMembers? r.kind members = some r := by
    simp only [ofMembers?, hmetadata, Meta.ofJson?_toJson, Json.get_eq_of_get? htype,
      Json.get_eq_of_get? hversion, hrest, Option.bind_eq_bind, Option.bind_some, Option.pure_def]
    exact congrArg some (Resource.ext rfl hheader.symm rfl r.canonical.ofList_normalMembers)
  simp only [ofJson?, hmembers, Json.asObject?, hkind, Option.bind_eq_bind, Option.bind_some, hread]

end Resource

end Kube

end NetLab

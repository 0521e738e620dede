import NetLab.Diff.Drift
import NetLab.Proofs.Json.Canonical

/-!
# What an update sends

`Resource.update` sends the desired object: its kind, its metadata but for the version, and its
body, in which at most the addresses of a Service's spec are those of the live object; if both
Services have a spec, they are (`get?_spec_update`).
-/

namespace NetLab.Kube

/-- A missing map of labels is read as an empty one. -/
theorem Meta.label?_eq (m : Meta) (name : String) :
    m.label? name = (m.labels.getD ∅).get? name := by
  cases h : m.labels <;> simp [label?, h]

namespace Resource

@[simp]
theorem withSpecField_kind (r source : Resource) (field : String) :
    (r.withSpecField source field).kind = r.kind := by
  unfold withSpecField
  split <;> rfl

@[simp]
theorem withSpecField_metadata (r source : Resource) (field : String) :
    (r.withSpecField source field).metadata = r.metadata := by
  unfold withSpecField
  split <;> rfl

@[simp]
theorem update_kind (desired live : Resource) : (desired.update live).kind = desired.kind := by
  unfold update
  split <;> simp [withVersion]

@[simp]
theorem update_metadata (desired live : Resource) :
    (desired.update live).metadata =
      { desired.metadata with resourceVersion := live.metadata.resourceVersion } := by
  unfold update
  split <;> simp [withVersion]

@[simp]
theorem update_key (desired live : Resource) : (desired.update live).key = desired.key := by
  simp [key, name]

theorem update_ownedBy (desired live : Resource) (topology : String) :
    (desired.update live).ownedBy topology = desired.ownedBy topology := by
  unfold ownedBy label? Meta.label?
  rw [update_metadata]

/-- Only a Service gets anything from the live object beside its version. -/
theorem update_body_of_ne_service {desired : Resource} (live : Resource)
    (h : desired.kind ≠ .service) : (desired.update live).body = desired.body := by
  unfold update
  split
  · exact absurd ‹desired.kind = .service› h
  · rfl

/-! ## Addresses -/

/-- The object has a spec. -/
def HasSpec (r : Resource) : Prop := ∃ members, r.get "spec" = .object members

theorem get_set (r : Resource) (name : String) {value : Json} (h : value.Canonical) :
    (r.set name value).get name = value := by
  simp [get, set, Json.get, Json.get?, h.normal_eq]

/-- A spec gets the field as the other object has it, and no other field. -/
theorem spec_withSpecField {r : Resource} {members : List (String × Json)} (source : Resource)
    (field : String) (hspec : r.get "spec" = .object members) :
    ∃ members', (r.withSpecField source field).get "spec" = .object members' ∧ ∀ name,
      (Json.object members').get? name =
        if name = field then (source.get "spec").get? field else (Json.object members).get? name := by
  have hmembers : (Json.object members).Canonical := hspec ▸ r.canonical.get "spec"
  unfold withSpecField
  rw [hspec]
  cases hvalue : (source.get "spec").get? field with
  | none => exact ⟨_, get_set r "spec" (hmembers.erase field), fun name => by simp [Json.get?]⟩
  | some value =>
    have hcanonical : value.Canonical := by
      rw [← Json.get_eq_of_get? hvalue]
      exact (source.canonical.get "spec").get field
    exact ⟨_, get_set r "spec" (hmembers.insert hcanonical), fun name => by simp [Json.get?]⟩

theorem withSpecField_of_not_hasSpec {r : Resource} (source : Resource) (field : String)
    (h : ¬ r.HasSpec) : r.withSpecField source field = r := by
  unfold withSpecField
  split
  · exact absurd ⟨_, ‹_›⟩ h
  · exact absurd ⟨_, ‹_›⟩ h
  · rfl

theorem get_spec_withSpecField {r source : Resource} {field name : String} (h : name ≠ field) :
    ((r.withSpecField source field).get "spec").get name = (r.get "spec").get name := by
  by_cases hspec : r.HasSpec
  · obtain ⟨members, hspec⟩ := hspec
    obtain ⟨members', hspec', hget⟩ := spec_withSpecField source field hspec
    rw [hspec', hspec, Json.get, hget, if_neg h]
    rfl
  · rw [withSpecField_of_not_hasSpec source field hspec]

/-- The fields of a Service's spec that hold the addresses that the server assigned. -/
def addressFields : List String := ["clusterIP", "clusterIPs"]

/-- A Service that has a spec, and replaces another one, gets the addresses of that one. -/
theorem get?_spec_update {desired live : Resource} (hkind : desired.kind = .service)
    (hkind' : live.kind = .service) (hdesired : desired.HasSpec) (hlive : live.HasSpec)
    {field : String} (hfield : field ∈ addressFields) :
    ((desired.update live).get "spec").get? field = (live.get "spec").get? field := by
  obtain ⟨members, hmembers⟩ := hlive
  obtain ⟨spec, hspec⟩ := hdesired
  replace hspec : (desired.withVersion live.metadata.resourceVersion).get "spec" = .object spec :=
    hspec
  obtain ⟨first, hfirst, hgetFirst⟩ := spec_withSpecField live "clusterIP" hspec
  obtain ⟨second, hsecond, hgetSecond⟩ := spec_withSpecField live "clusterIPs" hfirst
  simp only [update, hkind, hkind', hmembers] at hsecond hgetSecond hgetFirst ⊢
  rw [hsecond, hgetSecond, hgetFirst]
  simp only [addressFields, List.mem_cons, List.not_mem_nil, or_false] at hfield
  rcases hfield with rfl | rfl
  · rw [if_neg (by decide), if_pos rfl]
  · rw [if_pos rfl]

/-! ## Built objects -/

section Body

variable (kind : Kind) (metadata : Meta) (body : List (String × Json))
  (hcanonical : ∀ member ∈ body, member.2.Canonical)

@[simp]
theorem get_ofBody (name : String) :
    (ofBody kind metadata body hcanonical).get name = (Json.ofMembers body).get name := rfl

@[simp]
theorem metadata_ofBody : (ofBody kind metadata body hcanonical).metadata = metadata := rfl

end Body

end Resource

end NetLab.Kube

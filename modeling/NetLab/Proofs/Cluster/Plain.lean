import NetLab.Proofs.Cluster.Faithful

/-!
# A plain server

`Server.plain` lists exactly what a selector asks for and stores an object as it is sent, under a
version.  It is faithful to every topology.  `Server.respond` is one that always has the same answer
to a call, for runs that are computed.
-/

namespace NetLab.Cluster

open Kube

namespace Server

/-- The objects of a kind that carry the owner label that a selector asks for. -/
def selected (s : Store) (kind : Kind) (selector : String) : List Resource :=
  s.objects.values.filter fun object =>
    object.kind = kind ∧ (object.label? Labels.topology).map Labels.ownerSelector = some selector

/-- A server that lists exactly the objects of a kind with the selected owner label, and stores
an object as it is sent, under some new version. -/
def plain (refuses : Store → Call → ClusterError → Prop) : Server where
  lists s kind selector items := items = selected s kind selector
  stores sent stored := ∃ version, stored = sent.withVersion (some version)
  refuses := refuses
  mem_of_lists := by
    rintro s kind selector items rfl object hmem
    obtain ⟨hmem, hselected⟩ := List.mem_filter.1 hmem
    exact ⟨Store.mem_values_iff.1 hmem, (of_decide_eq_true hselected).1⟩
  key_of_stores := by
    rintro sent stored ⟨version, rfl⟩
    rfl
  owner_of_stores := by
    rintro sent stored ⟨version, rfl⟩
    rfl

theorem ownerSelector_inj {a b : String} :
    Labels.ownerSelector a = Labels.ownerSelector b ↔ a = b := by
  simp [Labels.ownerSelector]

theorem plain_available (refuses : Store → Call → ClusterError → Prop) :
    (plain refuses).Available :=
  ⟨fun _ _ _ => ⟨_, rfl⟩, fun _ => ⟨_, "", rfl⟩⟩

theorem plain_faithful (topology : String) : (plain fun _ _ _ => False).Faithful topology where
  mem_list_iff := by
    rintro s kind items rfl object
    simp [selected, List.mem_filter, Store.mem_values_iff, Resource.ownedBy, ownerSelector_inj]
  filled := by
    rintro sent stored ⟨version, rfl⟩
    exact sent.filled_withVersion _
  honest_list := False.elim
  honest_delete := False.elim

/-- What a plain server does with a call if it gives every object the same version. -/
def perform (s : Store) : (call : Call) → call.Answer × Store
  | .list kind selector => (.ok (selected s kind selector), s)
  | .get key =>
    match s.get? key with
    | some object => (.ok object, s)
    | none => (.error (.notFound key.text), s)
  | .create object =>
    match s.get? object.key with
    | some _ => (.error (.alreadyExists object.key.text), s)
    | none => (.ok (object.withVersion (some "1")), s.insert (object.withVersion (some "1")))
  | .replace object =>
    match s.get? object.key with
    | none => (.error (.notFound object.key.text), s)
    | some current =>
      if current.metadata.resourceVersion = object.metadata.resourceVersion then
        (.ok (object.withVersion (some "1")), s.insert (object.withVersion (some "1")))
      else (.error (.conflict object.key.text), s)
  | .delete key =>
    match s.get? key with
    | some _ => (.ok (), s.erase key)
    | none => (.error (.notFound key.text), s)

/-- The same, except for calls that are refused. -/
def respond (refusal? : Call → Option ClusterError) (call : Call) (s : Store) :
    call.Answer × Store :=
  match refusal? call with
  | some error => (call.refuse error, s)
  | none => perform s call

theorem answers_perform (refuses : Store → Call → ClusterError → Prop) (s : Store) (call : Call) :
    (plain refuses).Answers s call (perform s call).1 (perform s call).2 := by
  cases call with
  | list kind selector => exact ⟨rfl, rfl⟩
  | get key =>
    simp only [perform]
    split
    · exact ⟨‹_›, rfl⟩
    · exact ⟨.inl ‹_›, rfl⟩
  | create object =>
    simp only [perform]
    split
    · exact ⟨.inl ⟨_, ‹_›⟩, rfl⟩
    · exact ⟨‹_›, ⟨"1", rfl⟩, rfl⟩
  | replace object =>
    simp only [perform]
    split
    · exact ⟨.inl ‹_›, rfl⟩
    · split
      · exact ⟨⟨_, ‹_›, ‹_›⟩, ⟨"1", rfl⟩, rfl⟩
      · exact ⟨.inl ⟨_, ‹_›, ‹_›⟩, rfl⟩
  | delete key =>
    simp only [perform]
    split
    · exact ⟨⟨_, ‹_›⟩, rfl⟩
    · exact ⟨.inl ‹_›, rfl⟩

theorem answers_respond (refusal? : Call → Option ClusterError) (call : Call) (s : Store) :
    (plain fun _ call error => refusal? call = some error).Answers s call
      (respond refusal? call s).1 (respond refusal? call s).2 := by
  unfold respond
  split
  · exact answers_refuse (.inr ‹_›)
  · exact answers_perform _ s call

end Server

/-- An object with a name, an owner label, and nothing else. -/
def labelled (kind : Kind) (name owner : String) : Resource :=
  .ofBody kind
    { Meta.empty with name := some name, labels := some (.ofList [(Labels.topology, owner)]) }
    [] nofun

end NetLab.Cluster

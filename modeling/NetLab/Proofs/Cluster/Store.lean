import NetLab.Kube.Labels
import NetLab.Proofs.Cluster.Contract

/-!
# Stores and the servers in front of them

A `Store` holds the objects of a namespace, each under its own key.  A `Server` answers calls about
it (`Server.Answers`): it refuses to create what exists, to replace what does not exist or has
another version, and to read or delete what does not exist.  Three things are left open, because
they differ between clusters: what a list shows, what the server makes of an object that it is
sent, and the calls that it refuses for reasons of its own.  A refused call changes nothing.

Whatever they are, a list shows only objects of the store and of the kind that was asked for, and
an object is stored under the key and with the owner label with which it was sent.
-/

namespace NetLab.Cluster

open Kube

/-- The objects of a namespace, each under its own key. -/
@[ext]
structure Store where
  objects : SortedMap Key Resource
  keyed : ∀ entry ∈ objects.entries, entry.2.key = entry.1

namespace Store

/-- The object of a key. -/
def get? (s : Store) (key : Key) : Option Resource := s.objects.get? key

instance : Membership Resource Store := ⟨fun s object => s.get? object.key = some object⟩

instance : EmptyCollection Store := ⟨⟨∅, fun _ hmem => (List.not_mem_nil hmem).elim⟩⟩

/-- The store with an object written. -/
def insert (s : Store) (object : Resource) : Store where
  objects := s.objects.insert object.key object
  keyed entry hmem := by
    rcases Assoc.mem_insert hmem with rfl | hmem
    · rfl
    · exact s.keyed entry hmem

/-- The store without the object of a key. -/
def erase (s : Store) (key : Key) : Store where
  objects := s.objects.erase key
  keyed entry hmem := s.keyed entry (List.mem_filter.1 hmem).1

/-- The store of some objects; of two with one key the later counts. -/
def ofList (objects : List Resource) : Store := objects.foldl insert ∅

theorem mem_iff {s : Store} {object : Resource} : object ∈ s ↔ s.get? object.key = some object :=
  Iff.rfl

theorem key_of_get? {s : Store} {key : Key} {object : Resource} (h : s.get? key = some object) :
    object.key = key :=
  s.keyed _ (SortedMap.get?_eq_some_iff.1 h)

theorem mem_of_get? {s : Store} {key : Key} {object : Resource} (h : s.get? key = some object) :
    object ∈ s := by
  rw [mem_iff, key_of_get? h, h]

theorem mem_values_iff {s : Store} {object : Resource} :
    object ∈ s.objects.values ↔ object ∈ s := by
  constructor
  · intro hmem
    obtain ⟨⟨key, _⟩, hentry, rfl⟩ := List.mem_map.1 hmem
    exact mem_of_get? (SortedMap.get?_eq_some_iff.2 hentry)
  · intro hmem
    exact List.mem_map.2 ⟨_, SortedMap.get?_eq_some_iff.1 hmem, rfl⟩

@[simp]
theorem get?_empty (key : Key) : (∅ : Store).get? key = none := rfl

@[simp]
theorem get?_insert (s : Store) (object : Resource) (key : Key) :
    (s.insert object).get? key = if key = object.key then some object else s.get? key := by
  simp only [get?, insert, SortedMap.get?_insert, Std.LawfulEqCmp.compare_eq_iff_eq]

@[simp]
theorem get?_erase (s : Store) (key other : Key) :
    (s.erase key).get? other = if other = key then none else s.get? other := by
  simp only [get?, erase, SortedMap.get?_erase, Std.LawfulEqCmp.compare_eq_iff_eq]

theorem get?_insert_self (s : Store) (object : Resource) :
    (s.insert object).get? object.key = some object := by simp

theorem exists_get?_insert {s : Store} {key : Key} (object : Resource)
    (h : ∃ found, s.get? key = some found) : ∃ found, (s.insert object).get? key = some found := by
  rw [get?_insert]
  split
  · exact ⟨object, rfl⟩
  · exact h

theorem get?_insert_of_ne {s : Store} {object : Resource} {key : Key} (h : key ≠ object.key) :
    (s.insert object).get? key = s.get? key := by simp [h]

theorem get?_erase_of_ne {s : Store} {key other : Key} (h : other ≠ key) :
    (s.erase key).get? other = s.get? other := by simp [h]

theorem mem_of_mem_ofList {objects : List Resource} {object : Resource}
    (h : object ∈ ofList objects) : object ∈ objects := by
  suffices ∀ s : Store, object ∈ objects.foldl insert s → object ∈ s ∨ object ∈ objects from
    (this ∅ h).resolve_left nofun
  clear h
  induction objects with
  | nil => exact fun s => Or.inl
  | cons first rest ih =>
    intro s hmem
    rcases ih (s.insert first) hmem with hfirst | hrest
    · rw [mem_iff, get?_insert] at hfirst
      split at hfirst
      · exact Or.inr (Option.some.inj hfirst ▸ List.mem_cons_self)
      · exact Or.inl hfirst
    · exact Or.inr (List.mem_cons_of_mem _ hrest)

/-- The refusals that follow from what is in the store. -/
def Declines (s : Store) : Call → ClusterError → Prop
  | .get key, .notFound _ | .delete key, .notFound _ => s.get? key = none
  | .create object, .alreadyExists _ => ∃ existing, s.get? object.key = some existing
  | .replace object, .notFound _ => s.get? object.key = none
  | .replace object, .conflict _ => ∃ current, s.get? object.key = some current ∧
      current.metadata.resourceVersion ≠ object.metadata.resourceVersion
  | _, _ => False

end Store

/-- The call replaces or deletes the object of a key. -/
def Call.Destroys (key : Key) : Call → Prop
  | .replace object => object.key = key
  | .delete other => other = key
  | .list _ _ | .get _ | .create _ => False

theorem Call.Destroys.isWrite {key : Key} {call : Call} (h : call.Destroys key) :
    call.isWrite = true := by
  cases call with
  | replace _ | delete _ => rfl
  | list _ _ | get _ | create _ => exact h.elim

/-- What is open about an API server. -/
structure Server where
  /-- The objects that it may show in a list of a kind by a selector. -/
  lists : Store → Kind → String → List Resource → Prop
  /-- The objects that it may store when it is sent one. -/
  stores : Resource → Resource → Prop
  /-- The calls that it may refuse for reasons of its own. -/
  refuses : Store → Call → ClusterError → Prop
  mem_of_lists : ∀ {s kind selector items}, lists s kind selector items →
    ∀ object ∈ items, object ∈ s ∧ object.kind = kind
  key_of_stores : ∀ {sent stored}, stores sent stored → stored.key = sent.key
  owner_of_stores : ∀ {sent stored}, stores sent stored →
    stored.label? Labels.topology = sent.label? Labels.topology

namespace Server

variable (server : Server)

/-- The server may refuse a call in a store. -/
def Refuses (s : Store) (call : Call) (error : ClusterError) : Prop :=
  s.Declines call error ∨ server.refuses s call error

/-- **How the server answers.** -/
def Answers (s : Store) : (call : Call) → call.Answer → Store → Prop
  | .list kind selector, .ok items, t => server.lists s kind selector items ∧ t = s
  | .get key, .ok object, t => s.get? key = some object ∧ t = s
  | .create object, .ok stored, t =>
    s.get? object.key = none ∧ server.stores object stored ∧ t = s.insert stored
  | .replace object, .ok stored, t =>
    (∃ current, s.get? object.key = some current ∧
      current.metadata.resourceVersion = object.metadata.resourceVersion) ∧
      server.stores object stored ∧ t = s.insert stored
  | .delete key, .ok (), t => (∃ object, s.get? key = some object) ∧ t = s.erase key
  | .list kind selector, .error e, t => server.Refuses s (.list kind selector) e ∧ t = s
  | .get key, .error e, t => server.Refuses s (.get key) e ∧ t = s
  | .create object, .error e, t => server.Refuses s (.create object) e ∧ t = s
  | .replace object, .error e, t => server.Refuses s (.replace object) e ∧ t = s
  | .delete key, .error e, t => server.Refuses s (.delete key) e ∧ t = s

/-- **How calls go that may also fail after their effect**: the server has answered, but its answer
was lost and an error is seen instead. -/
def Attempts (s : Store) (call : Call) (answer : call.Answer) (t : Store) : Prop :=
  server.Answers s call answer t ∨
    ∃ lost error, server.Answers s call lost t ∧ answer = call.refuse error

variable {server} {s t : Store} {sent stored : Resource}

/-- Whatever is seen of a call, the server has given some answer. -/
theorem Attempts.exists_answers {call : Call} {answer : call.Answer}
    (h : server.Attempts s call answer t) : ∃ given, server.Answers s call given t := by
  rcases h with h | ⟨lost, -, h, -⟩
  · exact ⟨answer, h⟩
  · exact ⟨lost, h⟩

/-- **What a call can do to a store**: nothing, unless it creates, replaces or deletes an object
and is not answered with an error. -/
theorem Answers.effect {call : Call} {answer : call.Answer} (h : server.Answers s call answer t) :
    (t = s ∧ (call.isWrite = true → ∃ error, answer = call.refuse error)) ∨
      (∀ error, answer ≠ call.refuse error) ∧
        ((∃ object stored, server.stores object stored ∧ t = s.insert stored ∧
            (call = .create object ∧ s.get? object.key = none ∨ call = .replace object)) ∨
          ∃ key, call = .delete key ∧ t = s.erase key) := by
  cases call with
  | list _ _ | get _ => cases answer <;> exact Or.inl ⟨h.2, nofun⟩
  | create object =>
    cases answer with
    | error e => exact Or.inl ⟨h.2, fun _ => ⟨e, rfl⟩⟩
    | ok stored =>
      exact Or.inr ⟨nofun, Or.inl ⟨object, stored, h.2.1, h.2.2, Or.inl ⟨rfl, h.1⟩⟩⟩
  | replace object =>
    cases answer with
    | error e => exact Or.inl ⟨h.2, fun _ => ⟨e, rfl⟩⟩
    | ok stored => exact Or.inr ⟨nofun, Or.inl ⟨object, stored, h.2.1, h.2.2, Or.inr rfl⟩⟩
  | delete key =>
    cases answer with
    | error e => exact Or.inl ⟨h.2, fun _ => ⟨e, rfl⟩⟩
    | ok _ => exact Or.inr ⟨nofun, Or.inr ⟨key, rfl, h.2⟩⟩

theorem answers_refuse {call : Call} {error : ClusterError} (h : server.Refuses s call error) :
    server.Answers s call (call.refuse error) s := by
  cases call <;> exact ⟨h, rfl⟩

theorem kind_of_stores (h : server.stores sent stored) : stored.kind = sent.kind :=
  congrArg Key.kind (server.key_of_stores h)

theorem ownedBy_of_stores (h : server.stores sent stored) (topology : String) :
    stored.ownedBy topology = sent.ownedBy topology := by
  unfold Resource.ownedBy
  rw [server.owner_of_stores h]

/-- Lists can be answered, and whatever is sent can be stored. -/
def Available : Prop :=
  (∀ s kind selector, ∃ items, server.lists s kind selector items) ∧
    ∀ sent, ∃ stored, server.stores sent stored

/-- A server that is available answers every call, one way or the other. -/
theorem exists_answer (h : server.Available) (s : Store) (call : Call) :
    ∃ answer t, server.Answers s call answer t := by
  cases call with
  | list kind selector =>
    obtain ⟨items, hitems⟩ := h.1 s kind selector
    exact ⟨.ok items, s, hitems, rfl⟩
  | get key =>
    cases hget : s.get? key with
    | none => exact ⟨.error (.notFound ""), s, .inl hget, rfl⟩
    | some object => exact ⟨.ok object, s, hget, rfl⟩
  | create object =>
    obtain ⟨stored, hstored⟩ := h.2 object
    cases hget : s.get? object.key with
    | none => exact ⟨.ok stored, s.insert stored, hget, hstored, rfl⟩
    | some existing => exact ⟨.error (.alreadyExists ""), s, .inl ⟨existing, hget⟩, rfl⟩
  | replace object =>
    obtain ⟨stored, hstored⟩ := h.2 object
    cases hget : s.get? object.key with
    | none => exact ⟨.error (.notFound ""), s, .inl hget, rfl⟩
    | some current =>
      by_cases hversion : current.metadata.resourceVersion = object.metadata.resourceVersion
      · exact ⟨.ok stored, s.insert stored, ⟨current, hget, hversion⟩, hstored, rfl⟩
      · exact ⟨.error (.conflict ""), s, .inl ⟨current, hget, hversion⟩, rfl⟩
  | delete key =>
    cases hget : s.get? key with
    | none => exact ⟨.error (.notFound ""), s, .inl hget, rfl⟩
    | some object => exact ⟨.ok (), s.erase key, ⟨object, hget⟩, rfl⟩

/-- The server when it refuses nothing for reasons of its own. -/
def willing : Server := { server with refuses := fun _ _ _ => False }

end Server

end NetLab.Cluster

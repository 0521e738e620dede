import Mathlib.Logic.Relation
import NetLab.Proofs.Cluster.Store

/-!
# Versions

A server gives everything that it writes a version that it has never given before, and replaces an
object only for a call that names the version it has.  A `Ledger` is a store with all the versions
that were given; others write to it at any time, one object after another (`Ledger.Step`).
`Server.AttemptsAmong` is how calls go among such writes: between two calls of a program any number
of them may happen.

What a program has been shown of an object says which version it had.  As long as the store has an
object of that key and version it is the same one, whoever writes in between (`Ledger.Pins`): that
is what a version is for.  So all that a program has been shown is pinned throughout its run
(`Reaches.backs`).
-/

namespace NetLab.Cluster

open Kube Program Relation

/-- A store, and the versions that were ever given. -/
structure Ledger where
  store : Store
  given : String → Prop

namespace Ledger

/-- **One write** of anyone: an object is written under a version that is new, in a free place or
over another object, or one is deleted. -/
inductive Step : Ledger → Ledger → Prop where
  | write {l : Ledger} {object : Resource} {version : String}
      (hversion : object.metadata.resourceVersion = some version) (hnew : ¬ l.given version) :
      Step l ⟨l.store.insert object, fun other => l.given other ∨ other = version⟩
  | delete (l : Ledger) (key : Key) : Step l ⟨l.store.erase key, l.given⟩

/-- Any number of writes. -/
abbrev Steps : Ledger → Ledger → Prop := ReflTransGen Step

/-- Every object of the store has a version that was given. -/
def Sound (l : Ledger) : Prop :=
  ∀ object ∈ l.store, ∃ version, object.metadata.resourceVersion = some version ∧ l.given version

/-- The version of an object was given to it: as long as the store has an object of its key and
version, it is this one. -/
def Pins (l : Ledger) (object : Resource) : Prop :=
  ∃ version, object.metadata.resourceVersion = some version ∧ l.given version ∧
    ∀ current, l.store.get? object.key = some current →
      current.metadata.resourceVersion = some version → current = object

variable {l l' : Ledger} {object : Resource}

theorem Sound.step (h : l.Sound) (hstep : l.Step l') : l'.Sound := by
  intro object hmem
  cases hstep with
  | @write _ version hversion _ =>
    rw [Store.mem_iff, Store.get?_insert] at hmem
    split at hmem
    · obtain rfl := Option.some.inj hmem
      exact ⟨version, hversion, .inr rfl⟩
    · obtain ⟨other, hother, hgiven⟩ := h object hmem
      exact ⟨other, hother, .inl hgiven⟩
  | delete key =>
    rw [Store.mem_iff, Store.get?_erase] at hmem
    split at hmem
    · cases hmem
    · exact h object hmem

theorem Pins.step (h : l.Pins object) (hstep : l.Step l') : l'.Pins object := by
  obtain ⟨version, hversion, hgiven, hpinned⟩ := h
  cases hstep with
  | @write _ new hnew hfresh =>
    refine ⟨version, hversion, .inl hgiven, fun current hcurrent hsame => ?_⟩
    rw [Store.get?_insert] at hcurrent
    split at hcurrent
    · -- What was written has another version, as this one had been given already.
      obtain rfl := Option.some.inj hcurrent
      obtain rfl : new = version := Option.some.inj (hnew.symm.trans hsame)
      exact absurd hgiven hfresh
    · exact hpinned current hcurrent hsame
  | delete key =>
    refine ⟨version, hversion, hgiven, fun current hcurrent hsame => ?_⟩
    rw [Store.get?_erase] at hcurrent
    split at hcurrent
    · cases hcurrent
    · exact hpinned current hcurrent hsame

/-- What is in the store is pinned. -/
theorem Sound.pins (h : l.Sound) (hmem : object ∈ l.store) : l.Pins object := by
  obtain ⟨version, hversion, hgiven⟩ := h object hmem
  exact ⟨version, hversion, hgiven, fun current hcurrent _ =>
    Option.some.inj (hcurrent.symm.trans hmem)⟩

/-- The object that has the version of a pinned one is that one. -/
theorem Pins.eq_of_version (h : l.Pins object) {current : Resource}
    (hcurrent : l.store.get? object.key = some current)
    (hversion : current.metadata.resourceVersion = object.metadata.resourceVersion) :
    current = object := by
  obtain ⟨version, hobject, -, hpinned⟩ := h
  exact hpinned current hcurrent (hversion.trans hobject)

end Ledger

/-! ## What is shown of an object -/

/-- What the answer to a call shows of the object of a key; of a list that is its last item. -/
def Call.shows (key : Key) : (call : Call) → call.Answer → Option Resource
  | .list _ _, .ok items => (items.filter fun item => item.key = key).getLast?
  | .get asked, .ok object => if asked = key then some object else none
  | .create sent, .ok stored | .replace sent, .ok stored =>
    if sent.key = key then some stored else none
  | .delete _, _ | .list _ _, .error _ | .get _, .error _ | .create _, .error _
  | .replace _, .error _ => none

/-- What was shown of each object the last time that anything was shown of it. -/
abbrev Sight := Key → Option Resource

/-- Nothing was shown yet. -/
def Sight.none : Sight := fun _ => .none

/-- What was shown after one more call. -/
def Sight.after (sight : Sight) (call : Call) (answer : call.Answer) : Sight := fun key =>
  (call.shows key answer).or (sight key)

/-- **The last that the calls of a run have shown** of the object of a key. -/
def observed {σ : Type} (events : List (Event σ)) : Sight :=
  events.foldl (fun sight event => sight.after event.call event.answer) .none

@[simp]
theorem observed_concat {σ : Type} (events : List (Event σ)) (event : Event σ) :
    observed (events ++ [event]) = (observed events).after event.call event.answer := by
  simp [observed]

theorem Call.shows_refuse (call : Call) (error : ClusterError) (key : Key) :
    call.shows key (call.refuse error) = none := by
  cases call <;> rfl

namespace Server

variable {server : Server} {s t : Store} {call : Call} {answer : call.Answer} {key : Key}
  {object : Resource}

/-- What an answer shows is in the store, under that key. -/
theorem Answers.mem_of_shows (h : server.Answers s call answer t)
    (hshows : call.shows key answer = some object) : object ∈ t ∧ object.key = key := by
  cases call with
  | list kind selector =>
    cases answer with
    | error e => cases hshows
    | ok items =>
      obtain ⟨hlists, rfl⟩ := h
      obtain ⟨hmem, hkey⟩ := List.mem_filter.1 (List.mem_of_getLast? hshows)
      exact ⟨(server.mem_of_lists hlists object hmem).1, of_decide_eq_true hkey⟩
  | get asked =>
    cases answer with
    | error e => cases hshows
    | ok found =>
      obtain ⟨hget, rfl⟩ := h
      obtain ⟨rfl, hfound⟩ := Option.ite_none_right_eq_some.1 hshows
      obtain rfl := Option.some.inj hfound
      exact ⟨Store.mem_of_get? hget, Store.key_of_get? hget⟩
  | create sent =>
    cases answer with
    | error e => cases hshows
    | ok stored =>
      obtain ⟨-, hstores, rfl⟩ := h
      obtain ⟨rfl, hstored⟩ := Option.ite_none_right_eq_some.1 hshows
      obtain rfl := Option.some.inj hstored
      exact ⟨s.get?_insert_self _, server.key_of_stores hstores⟩
  | replace sent =>
    cases answer with
    | error e => cases hshows
    | ok stored =>
      obtain ⟨-, hstores, rfl⟩ := h
      obtain ⟨rfl, hstored⟩ := Option.ite_none_right_eq_some.1 hshows
      obtain rfl := Option.some.inj hstored
      exact ⟨s.get?_insert_self _, server.key_of_stores hstores⟩
  | delete gone => cases answer <;> cases hshows

theorem Attempts.mem_of_shows (h : server.Attempts s call answer t)
    (hshows : call.shows key answer = some object) : object ∈ t ∧ object.key = key := by
  rcases h with h | ⟨lost, error, -, rfl⟩
  · exact h.mem_of_shows hshows
  · rw [Call.shows_refuse] at hshows
    cases hshows

end Server

/-! ## Calls among the writes of others -/

/-- The ledger before and after a call. -/
structure Moment where
  before : Ledger
  after : Ledger

/-- **How calls go among the writes of others**, which happen after the last call and before this
one.  If the call writes, then so does the server, under a new version. -/
def Server.AttemptsAmong (server : Server) : Answering Moment := fun s call answer t =>
  s.after.Steps t.before ∧ server.Attempts t.before.store call answer t.after.store ∧
    (t.after = t.before ∨ t.before.Step t.after)

namespace Ledger

variable {l l' : Ledger} {sight : Sight}

/-- All that was shown is pinned. -/
structure Backs (l : Ledger) (sight : Sight) : Prop where
  sound : l.Sound
  pins : ∀ key object, sight key = some object → object.key = key ∧ l.Pins object

theorem Sound.backs (h : l.Sound) : l.Backs .none where
  sound := h
  pins key object hsight := by cases hsight

theorem Backs.step (h : l.Backs sight) (hstep : l.Step l') : l'.Backs sight :=
  ⟨h.sound.step hstep, fun key object hsight =>
    (h.pins key object hsight).imp_right fun hpins => hpins.step hstep⟩

theorem Backs.steps (h : l.Backs sight) (hsteps : l.Steps l') : l'.Backs sight := by
  induction hsteps with
  | refl => exact h
  | tail _ hstep ih => exact ih.step hstep

/-- What a call shows is pinned as well. -/
theorem Backs.attempt {server : Server} {s t : Moment} {call : Call} {answer : call.Answer}
    (h : s.after.Backs sight) (hanswer : server.AttemptsAmong s call answer t) :
    t.before.Backs sight ∧ t.after.Backs (sight.after call answer) := by
  obtain ⟨hothers, hattempts, hown⟩ := hanswer
  have hbefore := h.steps hothers
  have hafter : t.after.Backs sight := by
    rcases hown with hsame | hstep
    · rwa [hsame]
    · exact hbefore.step hstep
  refine ⟨hbefore, hafter.sound, fun key object hsight => ?_⟩
  rcases Option.or_eq_some_iff.1 hsight with hshows | ⟨-, hearlier⟩
  · obtain ⟨hmem, hkey⟩ := hattempts.mem_of_shows hshows
    exact ⟨hkey, hafter.sound.pins hmem⟩
  · exact hafter.pins key object hearlier

end Ledger

namespace Program.Reaches

variable {α : Type} {server : Server} {p q : Program α} {s t : Moment}

/-- **Whatever a program was shown in a run** is pinned at its end. -/
theorem backs {events : List (Event Moment)} (h : p.Reaches server.AttemptsAmong s events q t)
    (hsound : s.after.Sound) : t.after.Backs (observed events) := by
  suffices ∀ sight, s.after.Backs sight → t.after.Backs
      (events.foldl (fun sight event => sight.after event.call event.answer) sight) from
    this _ hsound.backs
  clear hsound
  induction h with
  | here => exact fun sight hbacks => hbacks
  | call hanswer _ ih => exact fun sight hbacks => ih _ (hbacks.attempt hanswer).2

end Program.Reaches

end NetLab.Cluster

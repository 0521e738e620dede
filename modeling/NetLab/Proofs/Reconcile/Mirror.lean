import NetLab.Proofs.Cluster.Faithful
import NetLab.Proofs.Reconcile.Rules

/-!
# A pass without other writers

While nobody else writes, what a pass takes to be live is exactly what its topology owns
(`Mirrors`): the snapshot makes it so (`meets_begin`), and every object that the pass writes enters
both the store and the pass (`Mirrors.insert`).
-/

namespace NetLab

open Cluster Kube Program

variable {topology : String} {kinds : Kind → Prop} {live : SortedMap Key Resource} {s t : Store}
  {server : Server}

/-- **The pass takes to be live exactly what the topology owns** of some kinds. -/
def Mirrors (topology : String) (kinds : Kind → Prop) (live : SortedMap Key Resource)
    (s : Store) : Prop :=
  ∀ key object, live.get? key = some object ↔
    s.get? key = some object ∧ object.ownedBy topology = true ∧ kinds key.kind

namespace Mirrors

theorem insert (h : Mirrors topology kinds live s) {key : Key} {stored : Resource}
    (hkey : stored.key = key) (hown : stored.ownedBy topology = true) (hkind : kinds key.kind) :
    Mirrors topology kinds (live.insert key stored) (s.insert stored) := by
  intro other object
  subst hkey
  rw [SortedMap.get?_insert_ite, Store.get?_insert]
  by_cases heq : other = stored.key
  · subst heq
    simp only [if_true, Option.some.injEq]
    constructor
    · rintro rfl
      exact ⟨rfl, hown, hkind⟩
    · exact fun hstored => hstored.1
  · rw [if_neg heq, if_neg heq]
    exact h other object

/-- What the pass does not take to be live is missing, or another owner's. -/
theorem foreign_of_none (h : Mirrors topology kinds live s) {key : Key}
    (hlive : live.get? key = none) (hkind : kinds key.kind) {object : Resource}
    (hget : s.get? key = some object) : object.ownedBy topology = false := by
  refine Bool.eq_false_iff.2 fun hown => ?_
  have hsome := (h key object).2 ⟨hget, hown, hkind⟩
  rw [hlive] at hsome
  cases hsome

end Mirrors

/-! ## Snapshot -/

/-- A list of what the topology owns of one more kind. -/
theorem Mirrors.addOwned {kind : Kind} {items : List Resource} (h : Mirrors topology kinds live s)
    (hitems : ∀ object, object ∈ items ↔
      object ∈ s ∧ object.kind = kind ∧ object.ownedBy topology = true) :
    Mirrors topology (fun other => kinds other ∨ other = kind)
      (Pass.addOwned topology live items) s := by
  intro key object
  rcases Pass.get?_addOwned topology live items key with
    ⟨item, hmem, hown, rfl, hget⟩ | ⟨hnone, hget⟩
  · obtain ⟨hstored, hkind, -⟩ := (hitems item).1 hmem
    rw [hget, Store.mem_iff.1 hstored, Option.some.injEq]
    constructor
    · rintro rfl
      exact ⟨rfl, hown, Or.inr hkind⟩
    · exact fun hobject => hobject.1
  · rw [hget, h key object]
    refine and_congr_right fun hstored => and_congr_right fun hown => ?_
    refine (or_iff_left fun hkind => ?_).symm
    have hkey := Store.key_of_get? hstored
    refine hnone object ((hitems object).2 ⟨Store.mem_of_get? hstored, ?_, hown⟩) hown hkey
    rw [← hkind, ← hkey]
    rfl

/-- Of a kind that the store has no objects of, nothing is to be listed. -/
theorem Mirrors.add_unserved {kind : Kind} (h : Mirrors topology kinds live s)
    (hnone : ∀ object ∈ s, object.kind ≠ kind) :
    Mirrors topology (fun other => kinds other ∨ other = kind) live s := by
  intro key object
  rw [h key object]
  refine and_congr_right fun hstored => and_congr_right fun _ => ?_
  refine (or_iff_left fun hkind => ?_).symm
  refine hnone object (Store.mem_of_get? hstored) ?_
  rw [← hkind, ← Store.key_of_get? hstored]
  rfl

theorem Mirrors.congr {kinds' : Kind → Prop} (h : Mirrors topology kinds live s)
    (hkinds : ∀ kind, kinds kind ↔ kinds' kind) : Mirrors topology kinds' live s := by
  intro key object
  rw [h key object, hkinds]

/-- **A pass up to the end of its snapshot.**  Only the server's own refusals can end it there, and
what comes after may rely on the snapshot. -/
theorem meets_begin_of_mirrors {α : Type} {allows : Store → Call → Prop} {scope : Scope}
    {next : Pass → Program α} {post : Except PassError α → Store → Prop}
    (hserver : server.Faithful scope.topology)
    (hallows : ∀ kind, allows s (.list kind (Labels.ownerSelector scope.topology)))
    (hfail : ∀ kind e, server.refuses s (.list kind (Labels.ownerSelector scope.topology)) e →
      post (.error (.list kind e)) s)
    (hnext : ∀ live, Mirrors scope.topology (· ∈ scope.kinds) live s →
      (next (Pass.start live)).Meets ⟨allows, server.Answers⟩
        (fun value t => post (.ok value) t) s) :
    (Pass.begin scope next).Meets ⟨allows, server.Answers⟩ post s := by
  -- The kinds that have been listed, and those that are left, are the kinds of the pass.
  refine Pass.meets_begin (fun rest live t => t = s ∧ ∃ listed, listed ++ rest = scope.kinds ∧
    Mirrors scope.topology (· ∈ listed) live s) ?_ ?_ ?_ ?_ ?_ ⟨rfl, [], rfl, ?_⟩
  · rintro kind rest live t ⟨rfl, -⟩
    exact hallows kind
  · rintro kind rest live t items u ⟨rfl, listed, hlisted, hmirrors⟩ ⟨hlist, rfl⟩
    refine ⟨rfl, listed ++ [kind], by simpa using hlisted, ?_⟩
    refine (hmirrors.addOwned (hserver.mem_list_iff hlist)).congr fun other => ?_
    simp
  · rintro rest live t m u ⟨rfl, listed, hlisted, hmirrors⟩ ⟨hrefused, rfl⟩
    refine ⟨rfl, listed ++ [.virtualMachine], by simpa using hlisted, ?_⟩
    have hnone := hserver.honest_list (hrefused.resolve_left id)
    refine (hmirrors.add_unserved hnone).congr fun other => ?_
    simp
  · rintro kind rest live t e u ⟨rfl, -⟩ ⟨hrefused, rfl⟩
    exact hfail kind e (hrefused.resolve_left id)
  · rintro live t ⟨rfl, listed, hlisted, hmirrors⟩
    rw [List.append_nil] at hlisted
    subst hlisted
    exact hnext live hmirrors
  · intro key object
    simp

end NetLab

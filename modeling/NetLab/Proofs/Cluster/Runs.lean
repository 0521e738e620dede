import NetLab.Proofs.Cluster.Store

/-!
# What becomes of the objects of a store

A run against a server has written whatever it leaves in the store and did not find there
(`Reaches.written`), and what it found there stays unless it is replaced or deleted
(`Reaches.stays`).  Calls may fail, also after their effect.
-/

namespace NetLab.Cluster

open Kube Program

/-- The call sends an object to be written. -/
def Call.Sends (object : Resource) : Call → Prop
  | .create sent | .replace sent => sent = object
  | .list _ _ | .get _ | .delete _ => False

namespace Server

variable {server : Server} {s t : Store} {call : Call} {answer : call.Answer} {object : Resource}

/-- What is in the store after a call and was not there before has been sent with it. -/
theorem Attempts.written (h : server.Attempts s call answer t) (hafter : object ∈ t) :
    object ∈ s ∨ ∃ sent, call.Sends sent ∧ server.stores sent object := by
  obtain ⟨given, hgiven⟩ := h.exists_answers
  rcases hgiven.effect with
    ⟨rfl, -⟩ | ⟨-, ⟨sent, stored, hstores, rfl, hcall⟩ | ⟨key, rfl, rfl⟩⟩
  · exact Or.inl hafter
  · rw [Store.mem_iff, Store.get?_insert] at hafter
    split at hafter
    · obtain rfl := Option.some.inj hafter
      refine Or.inr ⟨sent, ?_, hstores⟩
      rcases hcall with ⟨rfl, -⟩ | rfl <;> rfl
    · exact Or.inl hafter
  · rw [Store.mem_iff, Store.get?_erase] at hafter
    split at hafter
    · cases hafter
    · exact Or.inl hafter

/-- What was in the store before a call is there after it, unless the call replaces or
deletes it. -/
theorem Attempts.stays (h : server.Attempts s call answer t) (hbefore : object ∈ s) :
    object ∈ t ∨ call.Destroys object.key := by
  obtain ⟨given, hgiven⟩ := h.exists_answers
  rcases hgiven.effect with
    ⟨rfl, -⟩ | ⟨-, ⟨sent, stored, hstores, rfl, hcall⟩ | ⟨key, rfl, rfl⟩⟩
  · exact Or.inl hbefore
  · by_cases hkey : object.key = stored.key
    · -- What is created has a free key, so only replacing writes over the object.
      rcases hcall with ⟨rfl, hfree⟩ | rfl
      · rw [← server.key_of_stores hstores, ← hkey, Store.mem_iff.1 hbefore] at hfree
        cases hfree
      · exact Or.inr ((server.key_of_stores hstores).symm.trans hkey.symm)
    · exact Or.inl (Store.mem_iff.2 ((Store.get?_insert_of_ne hkey).trans hbefore))
  · by_cases hkey : object.key = key
    · exact Or.inr hkey.symm
    · exact Or.inl (Store.mem_iff.2 ((Store.get?_erase_of_ne hkey).trans hbefore))

end Server

namespace Program.Reaches

variable {α : Type} {server : Server} {p q : Program α} {s t : Store} {events : List (Event Store)}
  {object : Resource}

/-- The part of a run up to one of its events. -/
theorem at_event {σ : Type} {answers : Answering σ} {s t : σ} {before later : List (Event σ)}
    {event : Event σ} (h : p.Reaches answers s (before ++ event :: later) q t) :
    ∃ r, p.Reaches answers s (before ++ [event]) r event.after := by
  obtain ⟨r, u, hbefore, hrest⟩ := h.split
  cases hrest with
  | call hanswer _ => exact ⟨_, hbefore.append (.call hanswer (.here _ _))⟩

/-- **Whatever a run leaves in the store** was there before, or one of its calls has put it
there. -/
theorem written (h : p.Reaches server.Attempts s events q t) (hafter : object ∈ t) :
    object ∈ s ∨ ∃ before event later, events = before ++ event :: later ∧
      object ∈ event.after ∧ ∃ sent, event.call.Sends sent ∧ server.stores sent object := by
  induction h with
  | here => exact Or.inl hafter
  | @call request next s t u answer events p hanswer hrest ih =>
    rcases ih hafter with hmiddle | ⟨before, event, later, rfl, hevent⟩
    · refine (hanswer.written hmiddle).imp_right fun hsent => ?_
      exact ⟨[], ⟨request, answer, t⟩, events, rfl, hmiddle, hsent⟩
    · exact Or.inr ⟨⟨request, answer, t⟩ :: before, event, later, rfl, hevent⟩

/-- **Whatever was in the store** is there after the run, unless it was replaced or deleted. -/
theorem stays (h : p.Reaches server.Attempts s events q t) (hbefore : object ∈ s)
    (hspared : ∀ event ∈ events, ¬ event.call.Destroys object.key) : object ∈ t := by
  induction h with
  | here => exact hbefore
  | call hanswer _ ih =>
    obtain ⟨hfirst, hrest⟩ := List.forall_mem_cons.1 hspared
    exact ih ((hanswer.stays hbefore).resolve_right hfirst) hrest

end Program.Reaches

end NetLab.Cluster

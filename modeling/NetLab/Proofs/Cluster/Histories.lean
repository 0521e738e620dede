import NetLab.Cluster.Client
import NetLab.Proofs.Cluster.Views

/-!
# Histories

The history of a run is its calls with their answers, in order.  It is all that a program knows of
the world, so what a program does and when can be said of its histories alone, whatever answers the
calls: `recording` is the contract whose state is the history so far.  A program that keeps it makes
each call where it is allowed (`Meets.allows_recorded`), and accepts the history at the end
(`Meets.post_of_yields`).
-/

namespace NetLab

/-- An object that is read as one of a kind is of that kind. -/
theorem Kube.Resource.kind_of_ofJson? {kind : Kind} {value : Json} {object : Resource}
    (h : Resource.ofJson? kind value = some object) : object.kind = kind := by
  obtain ⟨members, -, h⟩ := Option.bind_eq_some_iff.1 h
  split at h
  · unfold Resource.ofSchema? at h
    split at h
    · cases h
    · obtain ⟨metadata, -, h⟩ := Option.bind_eq_some_iff.1 h
      obtain ⟨body, -, h⟩ := Option.bind_eq_some_iff.1 h
      obtain rfl := Option.some.inj h
      rfl
  · unfold Resource.ofMembers? at h
    dsimp only at h
    split at h
    · obtain rfl := Option.some.inj h
      rfl
    · obtain ⟨metadata, -, h⟩ := Option.bind_eq_some_iff.1 h
      obtain rfl := Option.some.inj h
      rfl

namespace Cluster

open Kube

variable {σ α β γ ι : Type}

/-- The calls of a run with their answers. -/
abbrev History := List Exchange

/-- What was called and answered in some events. -/
def history (events : List (Event σ)) : History :=
  events.map fun event => ⟨event.call, event.answer⟩

/-- What may be called after which history. -/
def recording (allows : History → Call → Prop) : Contract History where
  allows := allows
  answers done call answer done' := done' = done ++ [⟨call, answer⟩]

/-- The objects that a list shows. -/
def Call.listed : (call : Call) → call.Answer → List Resource
  | .list _ _, .ok items => items
  | .list _ _, .error _ | .get _, _ | .create _, _ | .replace _, _ | .delete _, _ => []

/-- A list shows objects of its kind only. -/
def Call.OfKind : (call : Call) → call.Answer → Prop
  | .list kind _, .ok items => ∀ item ∈ items, item.kind = kind
  | .list _ _, .error _ | .get _, _ | .create _, _ | .replace _, _ | .delete _, _ => True

theorem mem_of_mapM {f : α → Option β} {values : List α} {results : List β}
    (h : values.mapM f = some results) {result : β} (hmem : result ∈ results) :
    ∃ value ∈ values, f value = some result := by
  induction values generalizing results with
  | nil =>
    obtain rfl := Option.some.inj h
    cases hmem
  | cons first rest ih =>
    rw [List.mapM_cons] at h
    obtain ⟨head, hhead, h⟩ := Option.bind_eq_some_iff.1 h
    obtain ⟨tail, htail, h⟩ := Option.bind_eq_some_iff.1 h
    obtain rfl := Option.some.inj h
    rcases List.mem_cons.1 hmem with rfl | hmem
    · exact ⟨first, List.mem_cons_self, hhead⟩
    · obtain ⟨value, hvalue, hresult⟩ := ih htail hmem
      exact ⟨value, List.mem_cons_of_mem _ hvalue, hresult⟩

theorem Client.kind_of_items? {kind : Kind} {value : Json} {items : List Resource}
    (h : items? kind value = some items) : ∀ item ∈ items, item.kind = kind := by
  intro item hmem
  obtain ⟨members, -, h⟩ := Option.bind_eq_some_iff.1 h
  obtain ⟨listMetadata, -, h⟩ := Option.bind_eq_some_iff.1 h
  obtain ⟨admitted, -, h⟩ := Option.bind_eq_some_iff.1 h
  obtain ⟨listed, -, h⟩ := Option.bind_eq_some_iff.1 h
  split at h
  · obtain rfl := Option.some.inj h
    cases hmem
  · obtain ⟨values, -, h⟩ := Option.bind_eq_some_iff.1 h
    obtain ⟨value, -, hitem⟩ := mem_of_mapM h hmem
    exact Resource.kind_of_ofJson? hitem

/-- What is read from a reply is read from a JSON value. -/
theorem Client.exists_of_read {body? : Json → Option α} {reply : Reply} {value : α}
    (h : read body? reply = .ok value) : ∃ json, body? json = some value := by
  unfold read at h
  split at h
  · cases h
  · split at h
    · rename_i hread
      obtain rfl := Except.ok.inj h
      obtain ⟨json, -, hjson⟩ := Option.bind_eq_some_iff.1 hread
      exact ⟨json, hjson⟩
    · cases h

/-- **Whatever is listed is of the kind that was asked for**, as it is read that way. -/
theorem Call.ofKind_answer (reply : Reply) (call : Call) : call.OfKind (call.answer reply) := by
  cases call with
  | list kind selector =>
    cases hitems : Call.answer reply (.list kind selector) with
    | error error => exact trivial
    | ok items =>
      obtain ⟨value, hvalue⟩ := Client.exists_of_read hitems
      exact Client.kind_of_items? hvalue
  | get _ | create _ | replace _ | delete _ => exact trivial

namespace Program

theorem bind_assoc (p : Program α) (next : α → Program β) (last : β → Program γ) :
    (p.bind next).bind last = p.bind fun value => (next value).bind last := by
  induction p with
  | done value => rfl
  | call request answered ih => exact congrArg (call request) (funext ih)

/-- A loop over a mapped list. -/
theorem forEach_map {κ : Type} (f : κ → ι) (step : ι → α → Program α) (items : List κ)
    (state : α) :
    forEach step (items.map f) state = forEach (fun item => step (f item)) items state := by
  induction items generalizing state with
  | nil => rfl
  | cons item rest ih => exact congrArg (bind (step (f item) state)) (funext ih)

/-- A complete run ends with its value after its history. -/
theorem Reaches.yields {answers : Answering σ} {p : Program α} {s t : σ}
    {events : List (Event σ)} {value : α} (h : p.Reaches answers s events (done value) t) :
    p.Yields (history events) value := by
  generalize hq : (done value : Program α) = q at h
  induction h with
  | here =>
    subst hq
    exact .done value
  | call _ _ ih => exact .call (ih hq)

/-- What is done to the value of a program does not show in its history. -/
theorem Yields.of_bind_done {p : Program α} {f : α → β} {exchanges : History} {value : β}
    (h : (p.bind fun a => .done (f a)).Yields exchanges value) :
    ∃ a, p.Yields exchanges a ∧ f a = value := by
  induction p generalizing exchanges with
  | done a =>
    cases h
    exact ⟨a, .done a, rfl⟩
  | call request next ih =>
    cases h with
    | call hrest =>
      obtain ⟨a, ha, hvalue⟩ := ih _ hrest
      exact ⟨a, .call ha, hvalue⟩

section Recording

variable {allows : History → Call → Prop} {post : α → History → Prop} {p q : Program α}
  {before : History}

/-- A program keeps a weaker contract as well, also one that speaks of what was there before. -/
theorem Meets.recast {allows' : History → Call → Prop} {post' : α → History → Prop}
    {done : History} (h : p.Meets (recording allows) post done)
    (hallows : ∀ done call, allows done call → allows' (before ++ done) call)
    (hpost : ∀ value done, post value done → post' value (before ++ done)) :
    p.Meets (recording allows') post' (before ++ done) := by
  induction p generalizing done with
  | done value => exact hpost value done h
  | call request next ih =>
    refine ⟨hallows done request h.1, ?_⟩
    rintro answer _ rfl
    rw [List.append_assoc]
    exact ih answer (h.2 answer _ rfl)

/-- **The history of a complete run is accepted.** -/
theorem Meets.post_of_yields {exchanges : History} {value : α}
    (h : p.Meets (recording allows) post before) (hyields : p.Yields exchanges value) :
    post value (before ++ exchanges) := by
  induction hyields generalizing before with
  | done value =>
    rw [List.append_nil]
    exact h
  | call _ ih => simpa using ih (h.2 _ _ rfl)

/-- Every call of a complete run was allowed after what had happened before it. -/
theorem Meets.allows_of_yields {earlier later : History} {exchange : Exchange} {value : α}
    (h : p.Meets (recording allows) post before)
    (hyields : p.Yields (earlier ++ exchange :: later) value) :
    allows (before ++ earlier) exchange.1 := by
  induction earlier generalizing p before with
  | nil =>
    rw [List.append_nil]
    cases hyields with
    | call _ => exact h.1
  | cons first earlier ih =>
    cases hyields with
    | call hrest =>
      rw [List.append_cons]
      exact ih (h.2 _ _ rfl) hrest

/-- Every call of a run was allowed after what had happened before it. -/
theorem Meets.allows_recorded {answers : Answering σ} {s t : σ} {earlier later : List (Event σ)}
    {event : Event σ} (h : p.Meets (recording allows) post [])
    (hreach : p.Reaches answers s (earlier ++ event :: later) q t) :
    allows (history earlier) event.call := by
  obtain ⟨_, rfl, hallowed⟩ := h.allows_observed (fun events done => done = history events)
    (fun before event _ _ hbefore _ => ⟨_, rfl, by simp [hbefore, history]⟩) rfl hreach
  exact hallowed

end Recording

end Program

end Cluster

end NetLab

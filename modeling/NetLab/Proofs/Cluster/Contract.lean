import NetLab.Cluster.Program

/-!
# Programs that keep a contract

A program is a tree of calls, so what it does depends on what its calls are answered with.  An
`Answering σ` says which answers are possible in a state and which state a call leaves behind: the
objects of a cluster, a record of what the program has learnt, or both.  `Program.Reaches` is a
run, or a part of one: the calls that were made, in order, and what is left to do.

A `Contract` adds what a program has to see to before each call.  `Program.Meets` says that a
program does so whatever it is answered with, and that it ends in an accepted state.  It is defined
by recursion on the tree, so it is proved along the structure of the program: `meets_bind` for one
program after another, `meets_forEach` for a loop.  Everything a run goes through follows from it
(`Meets.of_reaches`, `Meets.allows_call`).
-/

namespace NetLab.Cluster

variable {σ α β ι : Type}

/-- What a call may be answered with in a state, and the state that it leaves. -/
abbrev Answering (σ : Type) := σ → (call : Call) → call.Answer → σ → Prop

/-- One call of a run: its answer, and the state after it. -/
structure Event (σ : Type) where
  call : Call
  answer : call.Answer
  after : σ

/-- The call was answered with an error. -/
def Event.Failed (event : Event σ) : Prop := ∃ error, event.answer = event.call.refuse error

/-- What a program has to see to before a call, and what may come of the call. -/
structure Contract (σ : Type) where
  allows : σ → Call → Prop
  answers : Answering σ

namespace Program

/-! ## Runs -/

/-- **A part of a run.**  From the first program and state, the events lead to the second.  The
run is complete if the second program is `done`. -/
inductive Reaches (answers : Answering σ) :
    Program α → σ → List (Event σ) → Program α → σ → Prop where
  | here (p : Program α) (s : σ) : Reaches answers p s [] p s
  | call {request : Call} {next : request.Answer → Program α} {s t u : σ}
      {answer : request.Answer} {events : List (Event σ)} {p : Program α}
      (hanswer : answers s request answer t) (hrest : Reaches answers (next answer) t events p u) :
      Reaches answers (call request next) s (⟨request, answer, t⟩ :: events) p u

namespace Reaches

variable {answers : Answering σ}

theorem append {p q r : Program α} {s t u : σ} {events later : List (Event σ)}
    (h : Reaches answers p s events q t) (h' : Reaches answers q t later r u) :
    Reaches answers p s (events ++ later) r u := by
  induction h with
  | here => exact h'
  | call hanswer _ ih => exact call hanswer (ih h')

/-- One more call of a run, with the answer that it gets. -/
theorem snoc {p q : Program α} {s t u : σ} {events : List (Event σ)}
    (h : Reaches answers p s events q t) (request : Call) (answer : request.Answer)
    {next : request.Answer → Program α} (hq : q = .call request next)
    (hanswer : answers t request answer u) :
    Reaches answers p s (events ++ [⟨request, answer, u⟩]) (next answer) u :=
  (hq ▸ h).append (call hanswer (here _ _))

/-- A run goes through a program and a state after each of its events. -/
theorem split {p r : Program α} {s u : σ} {events later : List (Event σ)}
    (h : Reaches answers p s (events ++ later) r u) :
    ∃ q t, Reaches answers p s events q t ∧ Reaches answers q t later r u := by
  induction events generalizing p s with
  | nil => exact ⟨p, s, here p s, h⟩
  | cons event events ih =>
    cases h with
    | call hanswer hrest =>
      obtain ⟨q, t, hfirst, hsecond⟩ := ih hrest
      exact ⟨q, t, call hanswer hfirst, hsecond⟩

/-- A run without calls leaves the state as it is. -/
theorem eq_of_nil {p q : Program α} {s t : σ} (h : Reaches answers p s [] q t) : t = s := by
  cases h
  rfl

/-- The state after a run is the one that its last call has left. -/
theorem last {p q : Program α} {s t : σ} {events : List (Event σ)} {event : Event σ}
    (h : Reaches answers p s (events ++ [event]) q t) :
    ∃ r u, Reaches answers p s events r u ∧ answers u event.call event.answer t := by
  obtain ⟨r, u, hfirst, hlast⟩ := h.split
  cases hlast with
  | call hanswer hrest =>
    obtain rfl := hrest.eq_of_nil
    exact ⟨_, u, hfirst, hanswer⟩

/-- A cluster that answers every call lets every program come to its end. -/
theorem exists_done (htotal : ∀ s call, ∃ answer t, answers s call answer t) (p : Program α)
    (s : σ) : ∃ events value t, Reaches answers p s events (done value) t := by
  induction p generalizing s with
  | done value => exact ⟨[], value, s, here _ s⟩
  | call request next ih =>
    obtain ⟨answer, t, hanswer⟩ := htotal s request
    obtain ⟨events, value, u, hrest⟩ := ih answer t
    exact ⟨_, value, u, call hanswer hrest⟩

end Reaches

/-- The run of a program against a cluster that has one answer to every call: its events, its value
and the last state. -/
def trace (answer : (call : Call) → σ → call.Answer × σ) : Program α → σ → List (Event σ) × α × σ
  | done value, s => ([], value, s)
  | call request next, s =>
    let (result, t) := answer request s
    let (events, value, u) := (next result).trace answer t
    (⟨request, result, t⟩ :: events, value, u)

theorem reaches_trace {answers : Answering σ} {answer : (call : Call) → σ → call.Answer × σ}
    (h : ∀ call s, answers s call (answer call s).1 (answer call s).2) (p : Program α) (s : σ) :
    Reaches answers p s (p.trace answer s).1 (done (p.trace answer s).2.1) (p.trace answer s).2.2 := by
  induction p generalizing s with
  | done value => exact .here _ s
  | call request next ih => exact .call (h request s) (ih _ _)

/-- A trace is what `Program.run` goes through if it is not interrupted. -/
theorem run_eq_trace (answer : (call : Call) → σ → call.Answer × σ) (p : Program α) (s : σ) :
    p.run (fun _ => false) (fun call s => (some (answer call s).1, (answer call s).2)) s =
      (some (p.trace answer s).2.1, (p.trace answer s).2.2) := by
  induction p generalizing s with
  | done value => rfl
  | call request next ih => exact ih _ _

/-! ## Contracts -/

/-- **A program keeps a contract** from a state on: it makes only calls that are allowed, whatever
the earlier ones were answered with, and ends with a value and a state that `post` accepts. -/
def Meets (contract : Contract σ) (post : α → σ → Prop) : Program α → σ → Prop
  | done value, s => post value s
  | call request next, s =>
    contract.allows s request ∧
      ∀ answer t, contract.answers s request answer t → (next answer).Meets contract post t

section Rules

variable {contract : Contract σ}

theorem Meets.mono {post post' : α → σ → Prop} {p : Program α} {s : σ}
    (h : p.Meets contract post s) (hpost : ∀ value t, post value t → post' value t) :
    p.Meets contract post' s := by
  induction p generalizing s with
  | done value => exact hpost value s h
  | call request next ih => exact ⟨h.1, fun answer t ha => ih answer (h.2 answer t ha)⟩

theorem meets_bind {post : β → σ → Prop} {p : Program α} {next : α → Program β} {s : σ} :
    (p.bind next).Meets contract post s ↔
      p.Meets contract (fun value t => (next value).Meets contract post t) s := by
  induction p generalizing s with
  | done value => exact Iff.rfl
  | call request answered ih =>
    exact and_congr_right fun _ => forall_congr' fun answer => forall_congr' fun t =>
      imp_congr_right fun _ => ih answer

/-- **The rule for loops.**  The invariant speaks of the items that are left: each step takes it
from an item and the rest to the rest. -/
theorem meets_forEach {step : ι → α → Program α} (inv : List ι → α → σ → Prop)
    (hstep : ∀ item rest state s, inv (item :: rest) state s →
      (step item state).Meets contract (inv rest) s) :
    ∀ items state s, inv items state s → (forEach step items state).Meets contract (inv []) s
  | [], _, _, h => h
  | item :: rest, state, s, h =>
    meets_bind.2 ((hstep item rest state s h).mono fun value t =>
      meets_forEach inv hstep rest value t)

/-- The rule for loops whose invariant speaks of the items that are done. -/
theorem meets_forEach_before {step : ι → α → Program α} (inv : List ι → α → σ → Prop)
    {items : List ι} (hstep : ∀ before item rest state s, items = before ++ item :: rest →
      inv before state s → (step item state).Meets contract (inv (before ++ [item])) s)
    {state : α} {s : σ} (h : inv [] state s) :
    (forEach step items state).Meets contract (inv items) s := by
  refine (meets_forEach (fun rest state s => ∃ before, items = before ++ rest ∧ inv before state s)
    ?_ _ _ _ ⟨[], rfl, h⟩).mono ?_
  · rintro item rest state s ⟨before, hsplit, h⟩
    refine (hstep before item rest state s hsplit h).mono fun state t hnext => ?_
    exact ⟨before ++ [item], by simpa using hsplit, hnext⟩
  · rintro state t ⟨before, hsplit, h⟩
    rw [List.append_nil] at hsplit
    exact hsplit ▸ h

/-- The rule for loops whose invariant speaks of no items. -/
theorem meets_forEach_mem {step : ι → α → Program α} (inv : α → σ → Prop) {items : List ι}
    (hstep : ∀ item ∈ items, ∀ state s, inv state s → (step item state).Meets contract inv s)
    {state : α} {s : σ} (h : inv state s) : (forEach step items state).Meets contract inv s := by
  refine meets_forEach_before (fun _ => inv) (fun before item rest state s hsplit => ?_) h
  exact hstep item (hsplit ▸ List.mem_append_right _ List.mem_cons_self) state s

/-- A program that keeps a contract goes on keeping it in the course of its runs. -/
theorem Meets.of_reaches {post : α → σ → Prop} {p q : Program α} {s t : σ}
    {events : List (Event σ)} (h : p.Meets contract post s)
    (hreach : Reaches contract.answers p s events q t) : q.Meets contract post t := by
  induction hreach with
  | here => exact h
  | call hanswer _ ih => exact ih (h.2 _ _ hanswer)

/-- Every call of a run was allowed where it was made. -/
theorem Meets.allows_call {post : α → σ → Prop} {p q : Program α} {s t : σ}
    {events later : List (Event σ)} {event : Event σ} (h : p.Meets contract post s)
    (hreach : Reaches contract.answers p s (events ++ event :: later) q t) :
    ∃ u, contract.allows u event.call := by
  obtain ⟨r, u, hfirst, hsecond⟩ := hreach.split
  have hr := h.of_reaches hfirst
  cases hsecond with
  | call _ _ => exact ⟨u, hr.1⟩

theorem Meets.forall_call {post : α → σ → Prop} {p q : Program α} {s t : σ}
    {events : List (Event σ)} {property : Call → Prop} (h : p.Meets contract post s)
    (hallows : ∀ t call, contract.allows t call → property call)
    (hreach : Reaches contract.answers p s events q t) : ∀ event ∈ events, property event.call := by
  intro event hmem
  obtain ⟨before, later, rfl⟩ := List.append_of_mem hmem
  obtain ⟨u, hallowed⟩ := h.allows_call hreach
  exact hallows u _ hallowed

/-- The value and the state at the end of a run are accepted. -/
theorem Meets.post_of_reaches {post : α → σ → Prop} {p : Program α} {value : α} {s t : σ}
    {events : List (Event σ)} (h : p.Meets contract post s)
    (hreach : Reaches contract.answers p s events (done value) t) : post value t :=
  h.of_reaches hreach

/-- **Who watches a run** sees its calls allowed.  The state of such a contract is what an observer
has made of the events so far, as `inv` says; the state of the run may be another one. -/
theorem Meets.allows_observed {τ : Type} {contract : Contract τ} {answers : Answering σ}
    {post : α → τ → Prop} (inv : List (Event σ) → τ → Prop)
    (hstep : ∀ before event s k, inv before k → answers s event.call event.answer event.after →
      ∃ k', contract.answers k event.call event.answer k' ∧ inv (before ++ [event]) k')
    {p q : Program α} {k : τ} {s t : σ} {before later : List (Event σ)} {event : Event σ}
    (h : p.Meets contract post k) (hstart : inv [] k)
    (hreach : Reaches answers p s (before ++ event :: later) q t) :
    ∃ k', inv before k' ∧ contract.allows k' event.call := by
  suffices ∀ seen, inv seen k → ∃ k', inv (seen ++ before) k' ∧ contract.allows k' event.call from
    this [] hstart
  clear hstart
  induction before generalizing p s k with
  | nil =>
    intro seen hseen
    cases hreach with
    | call _ _ => exact ⟨k, by rwa [List.append_nil], h.1⟩
  | cons first rest ih =>
    intro seen hseen
    cases hreach with
    | call hanswered hrest =>
      obtain ⟨k', hanswer, hnext⟩ := hstep seen ⟨_, _, _⟩ s k hseen hanswered
      simpa using ih (h.2 _ _ hanswer) hrest (seen ++ [_]) hnext

end Rules

end Program

end NetLab.Cluster

import Mathlib.Control.Monad.Basic
import Mathlib.Data.Sigma.Basic
import NetLab.Proofs.Cluster.Contract

/-!
# Views of runs

A `View` says what is seen of the calls of a run by someone who is concerned with some of them only:
of a call nothing at all, or the call and something of its answer.  A program shows through a view
what another program does (`Program.Shows`) if it is that program with calls in between of which
nothing is seen.  Then what is seen of its runs are runs of the other one (`Shows.yields`).

A program does the same twice if it is answered alike (`Yields.unique`).  So if two runs that show
the same program are answered alike as far as can be seen, nothing that can be seen tells them
apart, whatever else they were answered.
-/

namespace NetLab.Cluster

open Kube

variable {σ α β ι : Type}

instance : (call : Call) → DecidableEq call.Answer
  | .list _ _ => inferInstanceAs (DecidableEq (Except ClusterError (List Resource)))
  | .get _ | .create _ | .replace _ => inferInstanceAs (DecidableEq (Except ClusterError Resource))
  | .delete _ => inferInstanceAs (DecidableEq (Except ClusterError Unit))

/-- A call and its answer. -/
abbrev Exchange := (call : Call) × call.Answer

/-- What is seen of a call: nothing, or the call and a part of its answer. -/
abbrev View := (call : Call) → Option (call.Answer → call.Answer)

/-- What is seen of a run. -/
def View.seen (view : View) (events : List (Event σ)) : List Exchange :=
  events.filterMap fun event => (view event.call).map fun see => ⟨event.call, see event.answer⟩

/-- **Two runs are answered alike**: while they have had the same exchanges, the same call has the
same answer in both. -/
def AnsweredAlike (xs ys : List Exchange) : Prop :=
  ∀ before x y later later', xs = before ++ x :: later → ys = before ++ y :: later' →
    x.1 = y.1 → x = y

theorem answeredAlike_refl (xs : List Exchange) : AnsweredAlike xs xs := by
  intro before x y later later' hx hy _
  exact (List.cons.inj (List.append_cancel_left (hx.symm.trans hy))).1

namespace Program

/-- A program ends with a value after some exchanges. -/
inductive Yields : Program α → List Exchange → α → Prop where
  | done (value : α) : Yields (done value) [] value
  | call {request : Call} {next : request.Answer → Program α} {answer : request.Answer}
      {exchanges : List Exchange} {value : α} (hrest : Yields (next answer) exchanges value) :
      Yields (call request next) (⟨request, answer⟩ :: exchanges) value

/-- **A program that is answered alike does the same.** -/
theorem Yields.unique {p : Program α} {xs ys : List Exchange} {value other : α}
    (hx : p.Yields xs value) (hy : p.Yields ys other) (halike : AnsweredAlike xs ys) :
    xs = ys ∧ value = other := by
  induction hx generalizing ys with
  | done value =>
    cases hy
    exact ⟨rfl, rfl⟩
  | call _ ih =>
    cases hy with
    | call hrest =>
      -- Both make the same first call, so it has the same answer.
      obtain rfl := eq_of_heq (Sigma.mk.inj (halike [] _ _ _ _ rfl rfl rfl)).2
      have hlater : AnsweredAlike _ _ := fun before x y later later' hx hy =>
        halike (_ :: before) x y later later' (congrArg _ hx) (congrArg _ hy)
      obtain ⟨hsame, hvalue⟩ := ih hrest hlater
      exact ⟨congrArg _ hsame, hvalue⟩

/-- **A program shows another one** through a view: it makes the calls of the other one, and calls
of which nothing is seen; their values are related. -/
inductive Shows (view : View) (related : α → β → Prop) : Program α → Program β → Prop where
  | done {value : α} {other : β} (h : related value other) :
      Shows view related (done value) (done other)
  | seen {request : Call} {next : request.Answer → Program α} {next' : request.Answer → Program β}
      {see : request.Answer → request.Answer} (hview : view request = some see)
      (hnext : ∀ answer, Shows view related (next answer) (next' (see answer))) :
      Shows view related (call request next) (call request next')
  | unseen {request : Call} {next : request.Answer → Program α} {q : Program β}
      (hview : view request = none) (hnext : ∀ answer, Shows view related (next answer) q) :
      Shows view related (call request next) q

theorem bind_done (p : Program α) : p.bind done = p := by
  induction p with
  | done value => rfl
  | call request next ih => exact congrArg (call request) (funext ih)

namespace Shows

variable {view : View} {related : α → β → Prop}

/-- **What is seen of a run** is a run of the program that is shown. -/
theorem yields {answers : Answering σ} {p : Program α} {q : Program β} {events : List (Event σ)}
    {value : α} {s t : σ} (h : Shows view related p q)
    (hreach : p.Reaches answers s events (Program.done value) t) :
    ∃ other, q.Yields (view.seen events) other ∧ related value other := by
  induction h generalizing s events with
  | done hrelated =>
    cases hreach
    exact ⟨_, .done _, hrelated⟩
  | seen hview _ ih =>
    cases hreach with
    | call _ hrest =>
      obtain ⟨other, hyields, hrelated⟩ := ih _ hrest
      refine ⟨other, ?_, hrelated⟩
      simpa [View.seen, hview] using Yields.call hyields
  | unseen hview _ ih =>
    cases hreach with
    | call _ hrest =>
      obtain ⟨other, hyields, hrelated⟩ := ih _ hrest
      refine ⟨other, ?_, hrelated⟩
      simpa [View.seen, hview] using hyields

theorem bind {α' β' : Type} {related' : α' → β' → Prop} {p : Program α} {q : Program β}
    {next : α → Program α'} {next' : β → Program β'} (h : Shows view related p q)
    (hnext : ∀ value other, related value other → Shows view related' (next value) (next' other)) :
    Shows view related' (p.bind next) (q.bind next') := by
  induction h with
  | done hrelated => exact hnext _ _ hrelated
  | seen hview _ ih => exact .seen hview ih
  | unseen hview _ ih => exact .unseen hview ih

/-- What follows a program of which nothing is seen. -/
theorem bind_unseen {α' β' : Type} {related' : α' → β' → Prop} {p : Program α} {other : β}
    {next : α → Program α'} {q : Program β'} (h : Shows view related p (.done other))
    (hnext : ∀ value, related value other → Shows view related' (next value) q) :
    Shows view related' (p.bind next) q := by
  induction p with
  | done value =>
    cases h with
    | done hrelated => exact hnext value hrelated
  | call request answered ih =>
    cases h with
    | unseen hview hrest => exact .unseen hview fun answer => ih answer (hrest answer)

/-- One program after another for the items of a list, in both. -/
theorem forEach {step : ι → α → Program α} {step' : ι → β → Program β} {items : List ι}
    (hstep : ∀ item ∈ items, ∀ state other, related state other →
      Shows view related (step item state) (step' item other)) {state : α} {other : β}
    (h : related state other) :
    Shows view related (Program.forEach step items state)
      (Program.forEach step' items other) := by
  induction items generalizing state other with
  | nil => exact .done h
  | cons item rest ih =>
    obtain ⟨hfirst, hrest⟩ := List.forall_mem_cons.1 hstep
    exact (hfirst state other h).bind fun _ _ hrelated => ih hrest hrelated

/-- A program that is followed by one of which nothing is seen. -/
theorem then_unseen {related' : α → β → Prop} {p : Program α} {q : Program β}
    {next : α → Program α} (h : Shows view related p q)
    (hnext : ∀ value other, related value other →
      Shows view related' (next value) (.done other)) : Shows view related' (p.bind next) q := by
  have hshows := h.bind hnext
  rwa [bind_done] at hshows

/-- A loop of which nothing is seen. -/
theorem forEach_unseen {step : ι → α → Program α} {items : List ι} {other : β}
    (hstep : ∀ item ∈ items, ∀ state, related state other →
      Shows view related (step item state) (.done other)) {state : α} (h : related state other) :
    Shows view related (Program.forEach step items state) (.done other) := by
  induction items generalizing state with
  | nil => exact .done h
  | cons item rest ih =>
    obtain ⟨hfirst, hrest⟩ := List.forall_mem_cons.1 hstep
    exact (hfirst state h).bind_unseen fun _ hrelated => ih hrest hrelated

/-- **A loop that shows one of its steps**: nothing is seen of the others, which keep up what is
related before it, and after it. -/
theorem forEach_one {related' : α → β → Prop} {step : ι → α → Program α} {q : β → Program β}
    {before later : List ι} {item : ι}
    (hbefore : ∀ item ∈ before, ∀ state other, related state other →
      Shows view related (step item state) (.done other))
    (hitem : ∀ state other, related state other → Shows view related' (step item state) (q other))
    (hlater : ∀ item ∈ later, ∀ state other, related' state other →
      Shows view related' (step item state) (.done other)) {state : α} {other : β}
    (h : related state other) :
    Shows view related' (Program.forEach step (before ++ item :: later) state) (q other) := by
  induction before generalizing state with
  | nil =>
    refine (hitem state other h).then_unseen fun _ other hrelated => ?_
    exact forEach_unseen (fun item hmem state => hlater item hmem state other) hrelated
  | cons first rest ih =>
    obtain ⟨hfirst, hrest⟩ := List.forall_mem_cons.1 hbefore
    exact (hfirst state other h).bind_unseen fun _ hrelated => ih hrest hrelated

end Shows

end Program

end NetLab.Cluster

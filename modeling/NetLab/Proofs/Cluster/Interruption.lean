import NetLab.Proofs.Cluster.Histories

/-!
# Interrupted runs

`Program.run` may be interrupted: told to stop before a call, or left without an answer to one.  The
calls that it starts are its `attempts`; only the last of them may be without an answer.  A run and
its attempts go together step by step (`Runs`), and everything about interruption is proved by
induction on that: no call starts where the run was told to stop, what was started is what the same
run starts when nothing interrupts it, as far as it gets (`Runs.calls_prefix`), and the run comes to
nothing exactly if it was interrupted (`Runs.eq_none_iff`).

A contract about histories holds of interrupted runs as well.  Each call that is started was allowed
after what had been answered (`Runs.allows_attempt`), and a run that was interrupted would have gone
on with an allowed call (`Runs.exists_allowed`).
-/

namespace NetLab.Cluster

variable {σ α : Type}

/-- A call that a run starts, and its answer if there is one. -/
structure Attempt (σ : Type) where
  before : σ
  call : Call
  answer? : Option call.Answer

/-- The call with its answer. -/
def Attempt.exchange? (attempt : Attempt σ) : Option Exchange :=
  attempt.answer?.map fun answer => ⟨attempt.call, answer⟩

/-- What was answered of some attempts. -/
def answered (attempts : List (Attempt σ)) : History := attempts.filterMap Attempt.exchange?

@[simp] theorem answered_nil : answered ([] : List (Attempt σ)) = [] := rfl

@[simp]
theorem answered_unanswered (s : σ) (call : Call) (rest : List (Attempt σ)) :
    answered (⟨s, call, none⟩ :: rest) = answered rest := rfl

@[simp]
theorem answered_cons (s : σ) (call : Call) (answer : call.Answer) (rest : List (Attempt σ)) :
    answered (⟨s, call, some answer⟩ :: rest) = ⟨call, answer⟩ :: answered rest := rfl

theorem answered_append (attempts more : List (Attempt σ)) :
    answered (attempts ++ more) = answered attempts ++ answered more := List.filterMap_append

namespace Program

variable (stopped : σ → Bool) (answer : (call : Call) → σ → Option call.Answer × σ)

/-- **The calls that a run starts**, as in `Program.run`. -/
def attempts : Program α → σ → List (Attempt σ)
  | done _, _ => []
  | call request next, state =>
    if stopped state then []
    else
      match answer request state with
      | (none, _) => [⟨state, request, none⟩]
      | (some result, after) => ⟨state, request, some result⟩ :: (next result).attempts after

/-- **The run is interrupted**: before a call, in the middle of one, or later on. -/
inductive Interrupted : Program α → σ → Prop where
  | before {request : Call} {next : request.Answer → Program α} {s : σ}
      (hstopped : stopped s = true) : Interrupted (call request next) s
  | during {request : Call} {next : request.Answer → Program α} {s t : σ}
      (hgoes : stopped s = false) (hanswer : answer request s = (none, t)) :
      Interrupted (call request next) s
  | later {request : Call} {next : request.Answer → Program α} {s t : σ} {result : request.Answer}
      (hgoes : stopped s = false) (hanswer : answer request s = (some result, t))
      (hrest : Interrupted (next result) t) : Interrupted (call request next) s

/-- A run with its attempts and its outcome, step by step. -/
inductive Runs : Program α → σ → List (Attempt σ) → Option α → Prop where
  | done (value : α) (s : σ) : Runs (done value) s [] (some value)
  | stopped {request : Call} {next : request.Answer → Program α} {s : σ}
      (hstopped : stopped s = true) : Runs (call request next) s [] none
  | unanswered {request : Call} {next : request.Answer → Program α} {s t : σ}
      (hgoes : stopped s = false) (hanswer : answer request s = (none, t)) :
      Runs (call request next) s [⟨s, request, none⟩] none
  | call {request : Call} {next : request.Answer → Program α} {s t : σ} {result : request.Answer}
      {attempts : List (Attempt σ)} {outcome : Option α} (hgoes : stopped s = false)
      (hanswer : answer request s = (some result, t))
      (hrest : Runs (next result) t attempts outcome) :
      Runs (call request next) s (⟨s, request, some result⟩ :: attempts) outcome

variable {stopped answer}

theorem runs_run (p : Program α) (s : σ) :
    Runs stopped answer p s (p.attempts stopped answer s) (p.run stopped answer s).1 := by
  induction p generalizing s with
  | done value => exact .done value s
  | call request next ih =>
    rw [attempts, run]
    by_cases hstopped : stopped s = true
    · rw [if_pos hstopped, if_pos hstopped]
      exact .stopped hstopped
    · rw [if_neg hstopped, if_neg hstopped]
      have hgoes : stopped s = false := Bool.eq_false_iff.2 hstopped
      rcases hanswer : answer request s with ⟨_ | result, t⟩
      · exact .unanswered hgoes hanswer
      · exact .call hgoes hanswer (ih result t)

/-- Answering with a log of what was asked. -/
def logged (answer : (call : Call) → σ → Option call.Answer × σ) (call : Call)
    (state : σ × List (Attempt σ)) : Option call.Answer × (σ × List (Attempt σ)) :=
  let (result, after) := answer call state.1
  (result, after, state.2 ++ [⟨state.1, call, result⟩])

/-- **The attempts are what is asked in a run**: a log holds them, and changes nothing else. -/
theorem run_logged (p : Program α) (s : σ) (log : List (Attempt σ)) :
    p.run (fun state => stopped state.1) (logged answer) (s, log) =
      ((p.run stopped answer s).1, (p.run stopped answer s).2,
        log ++ p.attempts stopped answer s) := by
  induction p generalizing s log with
  | done value => simp [run, attempts]
  | call request next ih =>
    rw [run, run, attempts]
    by_cases hstopped : stopped s = true
    · simp [hstopped]
    · cases hanswer : answer request s with
      | mk result t =>
        cases result with
        | none => simp [hstopped, logged, hanswer]
        | some result => simp [hstopped, logged, hanswer, ih]

namespace Runs

variable {p : Program α} {s : σ} {attempts earlier later : List (Attempt σ)}
  {attempt : Attempt σ} {outcome : Option α}

/-- **A run comes to nothing exactly if it is interrupted.** -/
theorem eq_none_iff (h : Runs stopped answer p s attempts outcome) :
    outcome = none ↔ Interrupted stopped answer p s := by
  induction h with
  | done => exact ⟨nofun, nofun⟩
  | stopped hstopped => exact ⟨fun _ => .before hstopped, fun _ => rfl⟩
  | unanswered hgoes hanswer => exact ⟨fun _ => .during hgoes hanswer, fun _ => rfl⟩
  | call hgoes hanswer _ ih =>
    -- The run is interrupted later on: here it goes on, with this answer and no other.
    refine ih.trans ⟨.later hgoes hanswer, fun hinterrupted => ?_⟩
    cases hinterrupted with
    | before hstopped =>
      rw [hgoes] at hstopped
      cases hstopped
    | during _ hnever =>
      rw [hanswer] at hnever
      cases hnever
    | later _ hother hrest =>
      rw [hanswer] at hother
      obtain ⟨hresult, rfl⟩ := Prod.mk.inj hother
      obtain rfl := Option.some.inj hresult
      exact hrest

/-- No call starts where the run is told to stop. -/
theorem goes (h : Runs stopped answer p s attempts outcome) :
    ∀ attempt ∈ attempts, stopped attempt.before = false := by
  induction h with
  | done | stopped => exact fun _ hmem => (List.not_mem_nil hmem).elim
  | unanswered hgoes _ => exact List.forall_mem_singleton.2 hgoes
  | call hgoes _ _ ih => exact List.forall_mem_cons.2 ⟨hgoes, ih⟩

/-- No call starts after one that is not answered, and the run comes to nothing. -/
theorem eq_nil_of_unanswered (h : Runs stopped answer p s (earlier ++ attempt :: later) outcome)
    (hunanswered : attempt.answer? = none) : later = [] ∧ outcome = none := by
  generalize hall : earlier ++ attempt :: later = attempts at h
  induction h generalizing earlier with
  | done | stopped => simp at hall
  | unanswered =>
    -- The call is the only one.
    obtain ⟨rfl, hlast⟩ : earlier = [] ∧ [attempt] ++ later = [⟨_, _, none⟩] := by
      cases earlier with
      | nil => exact ⟨rfl, hall⟩
      | cons _ _ => simp at hall
    exact ⟨(List.cons.inj hlast).2, rfl⟩
  | call _ _ _ ih =>
    cases earlier with
    | nil =>
      obtain ⟨rfl, -⟩ := List.cons.inj hall
      cases hunanswered
    | cons first rest => exact ih (List.cons.inj hall).2

/-- **What an interrupted run starts is what the run starts that nothing interrupts**, as far as it
gets: the answers are the same where there are any. -/
theorem calls_prefix {answer' : (call : Call) → σ → call.Answer × σ}
    (h : Runs stopped answer p s attempts outcome)
    (hsame : ∀ call s result t, answer call s = (some result, t) → answer' call s = (result, t)) :
    attempts.map Attempt.call <+: (p.trace answer' s).1.map Event.call := by
  induction h with
  | done | stopped => exact List.nil_prefix
  | unanswered =>
    rw [trace]
    exact ⟨_, rfl⟩
  | call _ hanswer _ ih =>
    rw [trace, hsame _ _ _ _ hanswer]
    exact (List.prefix_cons_inj _).2 ih

variable {allows : History → Call → Prop} {post : α → History → Prop} {done : History}

/-- Every call that a run starts was allowed after what had been answered. -/
theorem allows_attempt (h : Runs stopped answer p s (earlier ++ attempt :: later) outcome)
    (hmeets : p.Meets (recording allows) post done) :
    allows (done ++ answered earlier) attempt.call := by
  generalize hall : earlier ++ attempt :: later = attempts at h
  induction h generalizing earlier done with
  | done | stopped => simp at hall
  | unanswered =>
    cases earlier with
    | nil =>
      obtain ⟨rfl, -⟩ := List.cons.inj hall
      rw [answered_nil, List.append_nil]
      exact hmeets.1
    | cons _ _ => simp at hall
  | call _ _ _ ih =>
    cases earlier with
    | nil =>
      obtain ⟨rfl, -⟩ := List.cons.inj hall
      rw [answered_nil, List.append_nil]
      exact hmeets.1
    | cons first rest =>
      obtain ⟨rfl, hrest⟩ := List.cons.inj hall
      have hnext := ih (hmeets.2 _ _ rfl) hrest
      simpa using hnext

/-- The history of a run that is not interrupted is accepted. -/
theorem post_of_some {value : α} (h : Runs stopped answer p s attempts (some value))
    (hmeets : p.Meets (recording allows) post done) : post value (done ++ answered attempts) := by
  generalize hout : some value = outcome at h
  induction h generalizing done with
  | done =>
    obtain rfl := Option.some.inj hout
    rw [answered_nil, List.append_nil]
    exact hmeets
  | stopped | unanswered => cases hout
  | call _ _ _ ih =>
    have hnext := ih (hmeets.2 _ _ rfl) hout
    simpa using hnext

/-- A run that was interrupted would have gone on with an allowed call. -/
theorem exists_allowed (h : Runs stopped answer p s attempts none)
    (hmeets : p.Meets (recording allows) post done) :
    ∃ call, allows (done ++ answered attempts) call := by
  generalize hout : (none : Option α) = outcome at h
  induction h generalizing done with
  | done => cases hout
  | @stopped request | @unanswered request =>
    refine ⟨request, ?_⟩
    simp only [answered_unanswered, answered_nil, List.append_nil]
    exact hmeets.1
  | call _ _ _ ih =>
    obtain ⟨call, hnext⟩ := ih (hmeets.2 _ _ rfl) hout
    exact ⟨call, by simpa using hnext⟩

end Runs

end Program

end NetLab.Cluster

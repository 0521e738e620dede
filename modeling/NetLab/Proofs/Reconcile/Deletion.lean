import NetLab.Proofs.Cluster.Versions
import NetLab.Proofs.Reconcile.Pruning

/-!
# What a delete removes

A pass deletes what it was shown by a list as the topology's own, and calls for nothing under that
key in between (`Pruning.allows`).  But a delete names a key only: unlike a replace, it says nothing
of the version that was listed, and the server removes whatever is there.  Others write at any time,
so this need not be what was listed any more: it is exactly if nobody has put an object under the
key since (`deletes_what_is_there`).  A version is given once only, so an object that was replaced
or deleted does not come back (`Ledger.Gone`), not even if one just like it is put there.
-/

namespace NetLab

open Cluster Kube Program

/-! ## Objects that are gone -/

namespace Cluster.Ledger

variable {l l' : Ledger} {object : Resource}

/-- The object was in the store under a version that was given, and is not there any more. -/
def Gone (l : Ledger) (object : Resource) : Prop :=
  (∃ version, object.metadata.resourceVersion = some version ∧ l.given version) ∧
    l.store.get? object.key ≠ some object

/-- **An object that is gone does not come back**: everything that is written has a new version. -/
theorem Gone.step (h : l.Gone object) (hstep : l.Step l') : l'.Gone object := by
  obtain ⟨⟨version, hversion, hgiven⟩, hgone⟩ := h
  cases hstep with
  | @write written new hnew hfresh =>
    refine ⟨⟨version, hversion, .inl hgiven⟩, fun hget => ?_⟩
    rw [Store.get?_insert] at hget
    split at hget
    · obtain rfl := Option.some.inj hget
      obtain rfl : new = version := Option.some.inj (hnew.symm.trans hversion)
      exact hfresh hgiven
    · exact hgone hget
  | delete key =>
    refine ⟨⟨version, hversion, hgiven⟩, fun hget => ?_⟩
    rw [Store.get?_erase] at hget
    split at hget
    · cases hget
    · exact hgone hget

theorem Gone.steps (h : l.Gone object) (hsteps : l.Steps l') : l'.Gone object := by
  induction hsteps with
  | refl => exact h
  | tail _ hstep ih => exact ih.step hstep

/-- What was in the store is gone once it is not there. -/
theorem Sound.gone (h : l.Sound) (hmem : object ∈ l.store) (hsteps : l.Steps l')
    (hget : l'.store.get? object.key ≠ some object) : l'.Gone object := by
  obtain ⟨version, hversion, hgiven⟩ := h object hmem
  have hlater : l'.given version := by
    clear hget
    induction hsteps with
    | refl => exact hgiven
    | tail _ hstep ih =>
      cases hstep with
      | write _ _ => exact Or.inl ih
      | delete _ => exact ih
  exact ⟨⟨version, hversion, hlater⟩, hget⟩

end Cluster.Ledger

namespace Deletion

variable {α : Type} {server : Server} {p q : Program α} {s t m : Moment}
  {events : List (Event Moment)} {key : Key} {object current : Resource}

/-- A call brings nothing back. -/
theorem gone_after_call {call : Call} {answer : call.Answer}
    (hanswer : server.AttemptsAmong s call answer t) (hgone : t.before.Gone object) :
    t.after.Gone object := by
  rcases hanswer.2.2 with hsame | hstep
  · rwa [hsame]
  · exact hgone.step hstep

theorem gone_of_reaches (h : p.Reaches server.AttemptsAmong s events q t)
    (hgone : s.after.Gone object) :
    ∀ event ∈ events, event.after.before.store.get? object.key ≠ some object := by
  induction h with
  | here => exact fun event hmem => (List.not_mem_nil hmem).elim
  | call hanswer _ ih =>
    have hbefore := hgone.steps hanswer.1
    exact List.forall_mem_cons.2 ⟨hbefore.2, ih (gone_after_call hanswer hbefore)⟩

/-- A call changes nothing under other keys. -/
theorem get?_of_attempts {a b : Store} {call : Call} {answer : call.Answer}
    (h : server.Attempts a call answer b) (hkey : call.key? ≠ some key) :
    b.get? key = a.get? key := by
  obtain ⟨given, hgiven⟩ := h.exists_answers
  rcases hgiven.effect with
    ⟨rfl, -⟩ | ⟨-, ⟨sent, stored, hstores, rfl, hcall⟩ | ⟨other, rfl, rfl⟩⟩
  · rfl
  · refine Store.get?_insert_of_ne fun heq => hkey ?_
    rw [heq, server.key_of_stores hstores]
    rcases hcall with ⟨rfl, -⟩ | rfl <;> rfl
  · exact Store.get?_erase_of_ne fun heq => hkey (congrArg some heq.symm)

/-- **Nobody else has put an object under a key** from a moment on, up to the last of some calls:
whatever is there right before one of them was there right after the one before it. -/
def Undisturbed (key : Key) : Moment → List (Event Moment) → Prop
  | _, [] => True
  | s, event :: rest =>
    (∀ object, event.after.before.store.get? key = some object →
      s.after.store.get? key = some object) ∧ Undisturbed key event.after rest

/-- What is there after calls about other keys was there before them, if nobody has put it there. -/
theorem get?_of_undisturbed {last : Event Moment}
    (h : p.Reaches server.AttemptsAmong s (events ++ [last]) q t)
    (hothers : ∀ event ∈ events, event.call.key? ≠ some key)
    (hundisturbed : Undisturbed key s (events ++ [last]))
    (hget : last.after.before.store.get? key = some current) :
    s.after.store.get? key = some current := by
  induction events generalizing p s with
  | nil => exact hundisturbed.1 current hget
  | cons event rest ih =>
    cases h with
    | call hanswer hrest =>
      obtain ⟨hother, hothers⟩ := List.forall_mem_cons.1 hothers
      have hafter := ih hrest hothers hundisturbed.2
      rw [get?_of_attempts hanswer.2.1 hother] at hafter
      exact hundisturbed.1 current hafter

/-- If what was there is there after calls about other keys, then nobody has put anything there. -/
theorem undisturbed_of_get? {last : Event Moment}
    (h : p.Reaches server.AttemptsAmong s (events ++ [last]) q t) (hsound : s.after.Sound)
    (hothers : ∀ event ∈ events, event.call.key? ≠ some key)
    (hfirst : s.after.store.get? key = some object)
    (hlast : last.after.before.store.get? key = some object) :
    Undisturbed key s (events ++ [last]) := by
  induction events generalizing p s with
  | nil =>
    refine ⟨fun other hother => ?_, trivial⟩
    rw [hfirst, ← hother, hlast]
  | cons event rest ih =>
    have hreach := h
    cases h with
    | @call _ _ _ t' _ _ _ _ hanswer hrest =>
      obtain ⟨hother, hothers⟩ := List.forall_mem_cons.1 hothers
      have hkey := Store.key_of_get? hfirst
      -- Otherwise it would be gone for good.
      have hthere : t'.before.store.get? key = some object := by
        by_contra hmissing
        subst hkey
        have hgone := hsound.gone (Store.mem_of_get? hfirst) hanswer.1 hmissing
        exact gone_of_reaches hrest (gone_after_call hanswer hgone) last (by simp) hlast
      refine ⟨fun other hget => ?_, ih hrest (hsound.backs.attempt hanswer).2.sound hothers ?_⟩
      · rw [hfirst, ← hget, hthere]
      · rw [get?_of_attempts hanswer.2.1 hother, hthere]

/-- What a list shows is in the store right after it. -/
theorem get?_of_listed (event : Event Moment)
    (h : server.AttemptsAmong s event.call event.answer event.after)
    (hlisted : object ∈ event.call.listed event.answer) :
    event.after.after.store.get? object.key = some object := by
  obtain ⟨call, answer, m⟩ := event
  cases call with
  | list kind selector =>
    cases answer with
    | error e => cases hlisted
    | ok items =>
      rcases h.2.1 with ⟨hlists, hsame⟩ | ⟨lost, error, -, hrefused⟩
      · rw [hsame]
        exact (server.mem_of_lists hlists object hlisted).1
      · cases hrefused
  | get _ | create _ | replace _ | delete _ => cases hlisted

/-! ## What a pass deletes -/

variable {scope : Scope} {groups : List Group} {program r : Program (Except PassError PassReport)}
  {before later : List (Event Moment)} {answer : Except ClusterError Unit}

/-- **What a delete removes**, if it finds an object. -/
structure Removes (scope : Scope) (groups : List Group) (before : List (Event Moment)) (key : Key)
    (answer : Except ClusterError Unit) (m : Moment) (current : Resource) : Prop where
  /-- Nobody planned an object of that key. -/
  unplanned : key ∉ Group.keysOf groups
  /-- An object of that key was listed as the topology's own, the pass has called for nothing under
  the key since, and the object that is there now is the listed one exactly if nobody else has put
  one there since. -/
  listed : ∃ earlier listing between listed, before = earlier ++ listing :: between ∧
    listed ∈ listing.call.listed listing.answer ∧ listed.ownedBy scope.topology = true ∧
    listed.key = key ∧ (∀ event ∈ between, event.call.key? ≠ some key) ∧
    (current = listed ↔
      Undisturbed key listing.after (between ++ [⟨.delete key, answer, m⟩]))
  /-- If it is not refused it removes the object, whatever that is. -/
  removed : answer = .ok () → m.after.store = m.before.store.erase key

theorem listed_of_history (h : Listed scope.topology (history before) object) :
    ∃ earlier listing between, before = earlier ++ listing :: between ∧
      object ∈ listing.call.listed listing.answer := by
  obtain ⟨-, exchange, hexchange, hmem⟩ := h
  obtain ⟨listing, hlisting, rfl⟩ := List.mem_map.1 hexchange
  obtain ⟨earlier, between, hsplit⟩ := List.append_of_mem hlisting
  exact ⟨earlier, listing, between, hsplit, hmem⟩

/-- **A delete removes what is there under a key that was listed**: the listed object exactly if
nobody else has put one under the key since. -/
theorem deletes_what_is_there (h : Reconciles scope groups program) (hsound : s.after.Sound)
    (hreach : program.Reaches server.AttemptsAmong s
      (before ++ ⟨.delete key, answer, m⟩ :: later) r t)
    (hcurrent : m.before.store.get? key = some current) :
    Removes scope groups before key answer m current := by
  have hmeets : program.Meets (recording (Pruning.allows scope groups)) (fun _ _ => True) [] :=
    h.meets (Pruning.meets_overGroups scope groups) (fun _ _ _ _ => trivial) fun _ _ _ => trivial
  obtain ⟨-, hunplanned, ⟨listed, hlisted, hkey⟩, hothers⟩ := hmeets.allows_recorded hreach
  obtain ⟨earlier, listing, between, rfl, hmem⟩ := listed_of_history hlisted
  have hbetween : ∀ event ∈ between, event.call.key? ≠ some key := fun event hevent =>
    hothers ⟨event.call, event.answer⟩ (List.mem_map_of_mem
      (List.mem_append_right _ (List.mem_cons_of_mem _ hevent)))
  -- The run up to the list, the list, the calls after it up to the delete.
  have hsplit : (earlier ++ listing :: between) ++
      (⟨.delete key, answer, m⟩ : Event Moment) :: later =
        (earlier ++ listing :: (between ++ [⟨.delete key, answer, m⟩])) ++ later := by simp
  rw [hsplit] at hreach
  obtain ⟨_, _, hdelete, -⟩ := hreach.split
  obtain ⟨_, u, hearlier, hlater⟩ := hdelete.split
  cases hlater with
  | @call _ _ _ listingAfter _ _ _ _ hlisting hrest =>
    have hfirst := get?_of_listed ⟨_, _, listingAfter⟩ hlisting hmem
    rw [hkey] at hfirst
    have hlistingSound := ((hearlier.backs hsound).sound.backs.attempt hlisting).2.sound
    refine ⟨hunplanned, ⟨earlier, _, between, listed, rfl, hmem, hlisted.1, hkey, hbetween, ?_, ?_⟩,
      ?_⟩
    · rintro rfl
      exact undisturbed_of_get? hrest hlistingSound hbetween hfirst hcurrent
    · intro hundisturbed
      have hthere := get?_of_undisturbed hrest hbetween hundisturbed hcurrent
      exact Option.some.inj (hthere.symm.trans hfirst)
    · rintro rfl
      obtain ⟨_, v, -, hlast⟩ := hrest.split
      cases hlast with
      | call hanswer _ =>
        rcases hanswer.2.1 with ⟨-, herased⟩ | ⟨lost, error, -, hrefused⟩
        · exact herased
        · cases hrefused

/-! ## A pass and a writer beside it -/

/-- The Service that is left over. -/
def leftover : Resource := (labelled .service "lab-old" "lab").withVersion (some "1")

/-- A Service of the same name, of another topology. -/
def taken : Resource := (labelled .service "lab-old" "other").withVersion (some "2")

/-- An object of another name. -/
def elsewhere : Resource := (labelled .configMap "lab-new" "lab").withVersion (some "2")

def atStart : Ledger := ⟨.ofList [leftover], (· = "1")⟩

/-- The ledger after the write of somebody else. -/
def written (object : Resource) : Ledger :=
  ⟨atStart.store.insert object, fun version => atStart.given version ∨ version = "2"⟩

/-- The moment of a delete after that write. -/
def deletion (object : Resource) : Moment :=
  ⟨written object, ⟨(written object).store.erase leftover.key, (written object).given⟩⟩

/-- The list of a kind, as it is answered at the start. -/
def listing (kind : Kind) : Event Moment :=
  ⟨.list kind (Labels.ownerSelector "lab"),
    .ok (Server.selected atStart.store kind (Labels.ownerSelector "lab")), ⟨atStart, atStart⟩⟩

theorem atStart_sound : atStart.Sound := by
  intro object hmem
  obtain rfl : object = leftover := by
    simpa [atStart] using Store.mem_of_mem_ofList hmem
  exact ⟨"1", rfl, rfl⟩

/-- A pass without nodes lists the leftover Service; somebody writes an object; the pass deletes
what is there under the key of the Service. -/
theorem deleting_run {object current : Resource}
    (hversion : object.metadata.resourceVersion = some "2")
    (hthere : (written object).store.get? leftover.key = some current) :
    ∃ q, (reconcileWorkloads "lab" "sim" ∅).Reaches
      (Server.plain fun _ _ _ => False).AttemptsAmong ⟨atStart, atStart⟩
      (Kind.workloads.map listing ++ [⟨.delete leftover.key, .ok (), deletion object⟩]) q
      (deletion object) := by
  have hlists (kind : Kind) : (Server.plain fun _ _ _ => False).AttemptsAmong ⟨atStart, atStart⟩
      (.list kind (Labels.ownerSelector "lab")) (listing kind).answer ⟨atStart, atStart⟩ :=
    ⟨.refl, .inl ⟨rfl, rfl⟩, .inl rfl⟩
  have hdeleted : (Server.plain fun _ _ _ => False).AttemptsAmong ⟨atStart, atStart⟩
      (.delete leftover.key) (.ok ()) (deletion object) := by
    have hnew : ¬ atStart.given "2" := by
      change ¬ "2" = "1"
      decide
    exact ⟨.single (.write hversion hnew), .inl ⟨⟨current, hthere⟩, rfl⟩, .inr (.delete _ _)⟩
  have started : (reconcileWorkloads "lab" "sim" ∅).Reaches
      (Server.plain fun _ _ _ => False).AttemptsAmong ⟨atStart, atStart⟩ [] _ ⟨atStart, atStart⟩ :=
    .here _ _
  have deployments := started.snoc _ (listing .deployment).answer rfl (hlists .deployment)
  have services := deployments.snoc _ (listing .service).answer rfl (hlists .service)
  have configMaps := services.snoc _ (listing .configMap).answer rfl (hlists .configMap)
  have machines := configMaps.snoc _ (listing .virtualMachine).answer rfl (hlists .virtualMachine)
  have deleted := machines.snoc (.delete leftover.key) (.ok ()) (by with_unfolding_all rfl) hdeleted
  exact ⟨_, deleted⟩

/-- The leftover Service is deleted while somebody writes elsewhere; and so is the Service of
another topology that has taken its name. -/
theorem either_service_is_removed :
    Removes (.workloads "lab" "sim") (NodePlan.groups ∅) (Kind.workloads.map listing) leftover.key
        (.ok ()) (deletion elsewhere) leftover ∧
      Removes (.workloads "lab" "sim") (NodePlan.groups ∅) (Kind.workloads.map listing)
        leftover.key (.ok ()) (deletion taken) taken := by
  have hleft : (written elsewhere).store.get? leftover.key = some leftover := by decide +kernel
  have htaken : (written taken).store.get? leftover.key = some taken := by decide +kernel
  obtain ⟨_, hleftRun⟩ := deleting_run rfl hleft
  obtain ⟨_, htakenRun⟩ := deleting_run rfl htaken
  exact ⟨deletes_what_is_there (.workloads "lab" "sim" ∅) atStart_sound hleftRun hleft,
    deletes_what_is_there (.workloads "lab" "sim" ∅) atStart_sound htakenRun htaken⟩

/-- **A delete does not spare what was written since the snapshot**: a pass removes a Service of
another topology, which no list has shown, as its own leftover had the same name. -/
theorem foreign_object_is_deleted :
    (∃ q, (reconcileWorkloads "lab" "sim" ∅).Reaches
      (Server.plain fun _ _ _ => False).AttemptsAmong ⟨atStart, atStart⟩
      (Kind.workloads.map listing ++ [⟨.delete leftover.key, .ok (), deletion taken⟩]) q
      (deletion taken)) ∧
      atStart.Sound ∧ (deletion taken).before.store.get? leftover.key = some taken ∧
      (deletion taken).after.store.get? leftover.key = none ∧ taken.ownedBy "lab" = false ∧
      ∀ event ∈ Kind.workloads.map listing, taken ∉ event.call.listed event.answer := by
  have htaken : (written taken).store.get? leftover.key = some taken := by decide +kernel
  exact ⟨deleting_run rfl htaken, atStart_sound, htaken, by decide +kernel, by decide +kernel,
    by decide +kernel⟩

end Deletion

end NetLab

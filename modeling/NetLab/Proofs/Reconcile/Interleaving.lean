import Mathlib.Logic.Function.Basic
import NetLab.Proofs.Cluster.Plain
import NetLab.Proofs.Reconcile.Ownership

/-!
# Passes of several topologies in one cluster

Object names are made of topology and node names, so two topologies can want the same name, and
nothing keeps their passes apart: between two calls of one pass any number of calls of others may
take effect.  A `World` holds the objects of all namespaces and the pass that each topology has in
flight, if any.  A `Step` begins a pass, makes the next call of one, or ends or abandons one;
`Steps` is any number of steps, with an `Act` for each call.  A call may fail, also after it has
taken effect.

No pass ever replaces or deletes an object that does not carry its topology's owner label
(`acts_spare_foreign`).  The invariant is `Sound`: what a pass knows to be its own is its own.  It
survives the calls of others because these keep to what they know in their turn.
-/

namespace NetLab

open Cluster Kube Program

/-- What the pass of a topology may be: a workload pass or a connectivity pass, given objects that
carry the owner label of the topology. -/
inductive IsPass (topology namespaceName : String) :
    Program (Except PassError PassReport) → Prop where
  | workloads (plans : SortedMap String NodePlan)
      (hown : ∀ entry ∈ plans.entries, ∀ planned ∈ entry.2.objects,
        planned.object.ownedBy topology = true) :
      IsPass topology namespaceName (reconcileWorkloads topology namespaceName plans)
  | policies (policies : List PlannedObject)
      (hown : ∀ planned ∈ policies, planned.object.ownedBy topology = true) :
      IsPass topology namespaceName (reconcilePolicies topology namespaceName policies)

/-- A pass in flight: its namespace, and what is left of it. -/
structure Flight where
  namespaceName : String
  rest : Program (Except PassError PassReport)

/-- The objects of each namespace, and the pass in flight of each topology. -/
structure World where
  stores : String → Store
  flights : String → Option Flight

/-- A call that the pass of a topology has made, with the objects of its namespace before and
after. -/
structure Act where
  topology : String
  namespaceName : String
  call : Call
  before : Store
  after : Store

namespace World

variable (server : Server)

/-- One step of the world, with the call that it makes, if it makes one. -/
inductive Step : World → List Act → World → Prop where
  | start {w : World} {topology namespaceName : String}
      {pass : Program (Except PassError PassReport)} (hfree : w.flights topology = none)
      (hpass : IsPass topology namespaceName pass) :
      Step w [] ⟨w.stores, Function.update w.flights topology (some ⟨namespaceName, pass⟩)⟩
  | call {w : World} {topology namespaceName : String} {request : Call}
      {next : request.Answer → Program (Except PassError PassReport)} {answer : request.Answer}
      {t : Store} (hflight : w.flights topology = some ⟨namespaceName, .call request next⟩)
      (hanswer : server.Attempts (w.stores namespaceName) request answer t) :
      Step w [⟨topology, namespaceName, request, w.stores namespaceName, t⟩]
        ⟨Function.update w.stores namespaceName t,
          Function.update w.flights topology (some ⟨namespaceName, next answer⟩)⟩
  | stop (w : World) (topology : String) :
      Step w [] ⟨w.stores, Function.update w.flights topology none⟩

/-- Any number of steps. -/
inductive Steps : World → List Act → World → Prop where
  | none (w : World) : Steps w [] w
  | snoc {w w' w'' : World} {acts more : List Act} (hsteps : Steps w acts w')
      (hstep : Step server w' more w'') : Steps w (acts ++ more) w''

/-- The next call of a topology's pass, with the answer that it gets. -/
theorem Steps.call {server : Server} {w w' : World} {acts : List Act}
    (hsteps : Steps server w acts w') (topology namespaceName : String) (request : Call)
    (answer : request.Answer) {next : request.Answer → Program (Except PassError PassReport)}
    {t : Store} (hflight : w'.flights topology = some ⟨namespaceName, .call request next⟩)
    (hanswer : server.Answers (w'.stores namespaceName) request answer t) :
    Steps server w (acts ++ [⟨topology, namespaceName, request, w'.stores namespaceName, t⟩])
      ⟨Function.update w'.stores namespaceName t,
        Function.update w'.flights topology (some ⟨namespaceName, next answer⟩)⟩ :=
  hsteps.snoc (.call hflight (.inl hanswer))

end World

namespace Ownership

variable {server : Server} {topology : String} {known : Key → Prop} {s t : Store}

/-- Every known key holds an object of the topology. -/
def Holds (topology : String) (known : Key → Prop) (s : Store) : Prop :=
  ∀ key, known key → ∃ object, s.get? key = some object ∧ object.ownedBy topology = true

/-! ## One call -/

/-- **An allowed call spares every object of others**, and is not even about one if it replaces or
deletes. -/
theorem spares_foreign {call : Call} {answer : call.Answer} (hknown : Holds topology known s)
    (hallowed : (contract topology).allows known call) (h : server.Answers s call answer t)
    {object : Resource} (hmem : object ∈ s) (hforeign : object.ownedBy topology = false) :
    object ∈ t ∧ ¬ call.Destroys object.key := by
  have hunknown : ¬ known object.key := by
    intro hkey
    obtain ⟨own, hget, hown⟩ := hknown _ hkey
    obtain rfl : own = object := Option.some.inj (hget.symm.trans hmem)
    simp [hforeign] at hown
  have hdestroys : ¬ call.Destroys object.key := by
    intro hd
    cases call with
    | replace sent => exact hunknown (hd ▸ hallowed.2)
    | delete key => exact hunknown (hd ▸ hallowed)
    | list _ _ | get _ | create _ => exact hd
  refine ⟨?_, hdestroys⟩
  rcases h.effect with ⟨rfl, -⟩ | ⟨-, ⟨sent, stored, hstores, rfl, hcall⟩ | ⟨key, rfl, rfl⟩⟩
  · exact hmem
  · have hne : object.key ≠ stored.key := by
      rw [server.key_of_stores hstores]
      intro heq
      rcases hcall with ⟨rfl, hfree⟩ | rfl
      · rw [← heq, Store.mem_iff.1 hmem] at hfree
        cases hfree
      · exact hdestroys heq.symm
    rw [Store.mem_iff, Store.get?_insert_of_ne hne]
    exact hmem
  · rw [Store.mem_iff, Store.get?_erase_of_ne fun heq => hdestroys heq.symm]
    exact hmem

/-- The calls of one topology leave the objects of another as they are. -/
theorem Holds.frame {other : String} {known' : Key → Prop} {call : Call} {answer : call.Answer}
    (hother : Holds other known' s) (hne : topology ≠ other) (hknown : Holds topology known s)
    (hallowed : (contract topology).allows known call) (h : server.Answers s call answer t) :
    Holds other known' t := by
  intro key hkey
  obtain ⟨object, hget, hown⟩ := hother key hkey
  obtain rfl := Store.key_of_get? hget
  have hforeign : object.ownedBy topology = false := by
    have hlabel : object.label? Labels.topology = some other := by
      simpa [Resource.ownedBy] using hown
    simpa [Resource.ownedBy, hlabel] using hne.symm
  exact ⟨object, (spares_foreign hknown hallowed h hget hforeign).1, hown⟩

/-- **What a pass learns from a call is true**, also when its answer was lost. -/
theorem Holds.learnt {call : Call} {answer : call.Answer} (hknown : Holds topology known s)
    (hallowed : (contract topology).allows known call) (h : server.Attempts s call answer t) :
    Holds topology (learnt topology known call answer) t := by
  have hwrite : ∀ {sent stored : Resource}, server.stores sent stored →
      sent.ownedBy topology = true → ∀ key, known key ∨ key = sent.key →
        ∃ object, (s.insert stored).get? key = some object ∧ object.ownedBy topology = true := by
    intro sent stored hstores hown key hkey
    have hstored : stored.ownedBy topology = true := by
      rw [Server.ownedBy_of_stores hstores, hown]
    by_cases heq : key = stored.key
    · exact ⟨stored, heq ▸ s.get?_insert_self stored, hstored⟩
    · rw [Store.get?_insert_of_ne heq]
      rcases hkey with hkey | hkey
      · exact hknown key hkey
      · exact absurd (hkey.trans (server.key_of_stores hstores).symm) heq
  have herase : ∀ gone key, known key ∧ key ≠ gone →
      ∃ object, (s.erase gone).get? key = some object ∧ object.ownedBy topology = true := by
    intro gone key ⟨hkey, hne⟩
    rw [Store.get?_erase_of_ne hne]
    exact hknown key hkey
  rcases h with h | ⟨lost, error, h, rfl⟩
  · cases call with
    | list kind selector =>
      cases answer with
      | error e => exact h.2 ▸ hknown
      | ok items =>
        obtain ⟨hlists, rfl⟩ := h
        rintro key (hkey | ⟨item, hmem, hown, rfl⟩)
        · exact hknown key hkey
        · exact ⟨item, (server.mem_of_lists hlists item hmem).1, hown⟩
    | get asked =>
      cases answer with
      | error e => exact h.2 ▸ hknown
      | ok object =>
        obtain ⟨hget, rfl⟩ := h
        rintro key (hkey | ⟨hown, rfl⟩)
        · exact hknown key hkey
        · exact ⟨object, hget, hown⟩
    | create object =>
      cases answer with
      | error e => exact h.2 ▸ hknown
      | ok stored => exact h.2.2 ▸ hwrite h.2.1 hallowed
    | replace object =>
      cases answer with
      | error e => exact h.2 ▸ hknown
      | ok stored => exact h.2.2 ▸ fun key hkey => hwrite h.2.1 hallowed.1 key (Or.inl hkey)
    | delete key =>
      cases answer with
      | error e => exact h.2 ▸ fun other hother => hknown other hother.1
      | ok _ => exact h.2 ▸ herase key
  -- Of a lost answer only the effect counts: an error teaches nothing.
  · rcases h.effect with
      ⟨rfl, -⟩ | ⟨-, ⟨sent, stored, hstores, rfl, ⟨rfl, -⟩ | rfl⟩ | ⟨key, rfl, rfl⟩⟩
    · cases call with
      | delete key => exact fun other hother => hknown other hother.1
      | list _ _ | get _ | create _ | replace _ => exact hknown
    · exact fun key hkey => hwrite hstores hallowed key (Or.inl hkey)
    · exact fun key hkey => hwrite hstores hallowed.1 key (Or.inl hkey)
    · exact herase key

/-! ## All interleavings -/

/-- Every pass in flight keeps to what it knows, and what it knows is true. -/
def Sound (w : World) : Prop :=
  ∀ topology flight, w.flights topology = some flight →
    ∃ known, flight.rest.Meets (contract topology) (fun _ _ => True) known ∧
      Holds topology known (w.stores flight.namespaceName)

theorem sound_step {w w' : World} {acts : List Act} (h : Sound w)
    (hstep : World.Step server w acts w') : Sound w' := by
  intro other flight hother
  cases hstep with
  | @start topology namespaceName pass _ hpass =>
    by_cases heq : other = topology
    · subst heq
      obtain rfl : ⟨namespaceName, pass⟩ = flight := by simpa using hother
      refine ⟨fun _ => False, ?_, fun key hkey => hkey.elim⟩
      cases hpass with
      | workloads plans hown => exact meets_reconcileWorkloads hown
      | policies policies hown => exact meets_reconcilePolicies hown
    · exact h other flight (by simpa [heq] using hother)
  | stop topology =>
    by_cases heq : other = topology
    · simp [heq] at hother
    · exact h other flight (by simpa [heq] using hother)
  | @call topology namespaceName request next answer t hflight hanswer =>
    obtain ⟨known, hmeets, hknown⟩ := h topology _ hflight
    by_cases heq : other = topology
    · -- The pass that made the call goes on with what it has learnt.
      subst heq
      obtain rfl : ⟨namespaceName, next answer⟩ = flight := by simpa using hother
      refine ⟨_, hmeets.2 answer _ rfl, ?_⟩
      simpa using hknown.learnt hmeets.1 hanswer
    · -- The others have learnt nothing; in the same namespace they have lost nothing either.
      obtain ⟨known', hmeets', hknown'⟩ := h other flight (by simpa [heq] using hother)
      refine ⟨known', hmeets', ?_⟩
      by_cases hns : flight.namespaceName = namespaceName
      · obtain ⟨given, hgiven⟩ := hanswer.exists_answers
        rw [hns] at hknown' ⊢
        simpa using hknown'.frame (fun he => heq he.symm) hknown hmeets.1 hgiven
      · simpa [hns] using hknown'

theorem sound_steps {w w' : World} {acts : List Act} (h : Sound w)
    (hsteps : World.Steps server w acts w') : Sound w' := by
  induction hsteps with
  | none => exact h
  | snoc _ hstep ih => exact sound_step ih hstep

theorem act_spares_foreign {w w' : World} {acts : List Act} (h : Sound w)
    (hstep : World.Step server w acts w') :
    ∀ act ∈ acts, ∀ object ∈ act.before, object.ownedBy act.topology = false →
      object ∈ act.after ∧ ¬ act.call.Destroys object.key := by
  intro act hact object hmem hforeign
  cases hstep with
  | start _ _ | stop _ => cases hact
  | @call topology namespaceName request next answer t hflight hanswer =>
    obtain rfl := List.mem_singleton.1 hact
    obtain ⟨known, hmeets, hknown⟩ := h topology _ hflight
    obtain ⟨given, hgiven⟩ := hanswer.exists_answers
    exact spares_foreign hknown hmeets.1 hgiven hmem hforeign

/-- **Ownership isolation.**  However the passes of any topologies are interleaved, whatever calls
fail, and whatever lists show: a call of a topology's pass leaves every object that does not carry
the topology's owner label as it is, and never replaces or deletes under its key. -/
theorem acts_spare_foreign {w w' : World} {acts : List Act} (hidle : ∀ topology,
      w.flights topology = none) (hsteps : World.Steps server w acts w') :
    ∀ act ∈ acts, ∀ object ∈ act.before, object.ownedBy act.topology = false →
      object ∈ act.after ∧ ¬ act.call.Destroys object.key := by
  have hsound : Sound w := by
    intro topology flight hflight
    rw [hidle topology] at hflight
    cases hflight
  induction hsteps with
  | none => exact fun act hact => (List.not_mem_nil hact).elim
  | snoc hsteps hstep ih =>
    intro act hact
    rcases List.mem_append.1 hact with hact | hact
    · exact ih act hact
    · exact act_spares_foreign (sound_steps hsound hsteps) hstep act hact

/-! A name that two topologies want: it is that of the node `b-c` in `a`, and of `c` in `a-b`. -/

def sharedName : World where
  stores _ := .ofList [labelled .service "old" "a-b"]
  flights _ := none

/-- One node with the Deployment of that name. -/
def plansForSharedName (topology node : String) : SortedMap String NodePlan :=
  .ofList [(node, ⟨.container, [.free (labelled .deployment "a-b-c" topology)]⟩)]

/-- Two passes take turns, and both find the name free.  The one of `a` gets it; the one of `a-b` is
refused, looks at the object, leaves it alone, and deletes what it has left over itself. -/
theorem shared_name_is_spared : ∃ acts w',
    World.Steps (.plain fun _ _ _ => False) sharedName acts w' ∧
      acts.map Act.topology = ["a", "a-b", "a", "a-b", "a", "a-b", "a", "a-b", "a", "a-b", "a-b",
        "a-b"] ∧
      ∀ act ∈ acts, ∀ object ∈ act.before, object.ownedBy act.topology = false →
        object ∈ act.after ∧ ¬ act.call.Destroys object.key := by
  have hown : ∀ entry ∈ (plansForSharedName "a" "b-c").entries, ∀ planned ∈ entry.2.objects,
      planned.object.ownedBy "a" = true := by decide
  have hown' : ∀ entry ∈ (plansForSharedName "a-b" "c").entries, ∀ planned ∈ entry.2.objects,
      planned.object.ownedBy "a-b" = true := by decide
  have started : World.Steps (.plain fun _ _ _ => False) sharedName _ _ :=
    ((World.Steps.none sharedName).snoc
      (.start rfl (@IsPass.workloads "a" "lab" (plansForSharedName "a" "b-c") hown))).snoc
        (.start rfl (@IsPass.workloads "a-b" "lab" (plansForSharedName "a-b" "c") hown'))
  have deployments := (started.call "a" "lab" (.list .deployment (Labels.ownerSelector "a"))
    (.ok []) rfl ⟨rfl, rfl⟩).call "a-b" "lab" (.list .deployment (Labels.ownerSelector "a-b"))
      (.ok []) rfl ⟨rfl, rfl⟩
  have services := (deployments.call "a" "lab" (.list .service (Labels.ownerSelector "a"))
    (.ok []) rfl ⟨rfl, rfl⟩).call "a-b" "lab" (.list .service (Labels.ownerSelector "a-b"))
      (.ok [labelled .service "old" "a-b"]) rfl ⟨rfl, rfl⟩
  have configMaps := (services.call "a" "lab" (.list .configMap (Labels.ownerSelector "a"))
    (.ok []) rfl ⟨rfl, rfl⟩).call "a-b" "lab" (.list .configMap (Labels.ownerSelector "a-b"))
      (.ok []) rfl ⟨rfl, rfl⟩
  have machines := (configMaps.call "a" "lab" (.list .virtualMachine (Labels.ownerSelector "a"))
    (.ok []) rfl ⟨rfl, rfl⟩).call "a-b" "lab"
      (.list .virtualMachine (Labels.ownerSelector "a-b")) (.ok []) rfl ⟨rfl, rfl⟩
  -- The order of applying is found by well-founded recursion, which `rfl` alone does not unfold.
  have created := machines.call "a" "lab" (.create (labelled .deployment "a-b-c" "a"))
    (.ok ((labelled .deployment "a-b-c" "a").withVersion (some "1"))) (by with_unfolding_all rfl)
    ⟨rfl, ⟨"1", rfl⟩, rfl⟩
  have refused := created.call "a-b" "lab" (.create (labelled .deployment "a-b-c" "a-b"))
    (.error (.alreadyExists "")) (by with_unfolding_all rfl) ⟨.inl ⟨_, rfl⟩, rfl⟩
  have looked := refused.call "a-b" "lab" (.get ⟨.deployment, "a-b-c"⟩)
    (.ok ((labelled .deployment "a-b-c" "a").withVersion (some "1"))) rfl ⟨rfl, rfl⟩
  have deleted := looked.call "a-b" "lab" (.delete ⟨.service, "old"⟩) (.ok ()) rfl ⟨⟨_, rfl⟩, rfl⟩
  exact ⟨_, _, deleted, rfl, acts_spare_foreign (fun _ => rfl) deleted⟩

end Ownership

end NetLab

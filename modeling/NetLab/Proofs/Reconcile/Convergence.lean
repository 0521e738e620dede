import NetLab.Proofs.Cluster.Plain
import NetLab.Proofs.Reconcile.Progress
import NetLab.Proofs.Render.Objects

/-!
# Workload passes converge

Of the workloads that a topology renders, `Converged` is what a clean pass reaches, and
`reconcile_converges` says how:

* if the server refuses nothing for reasons of its own and no rendered name is held by an object of
  another owner, the pass is clean;
* after any clean pass the store has converged;
* a pass over a converged store writes nothing.
-/

namespace NetLab

open Cluster Kube Program

namespace NodePlan

variable {topology namespaceName : String} {plans : SortedMap String NodePlan}

theorem objectsOf_groups : Group.objectsOf (groups plans) = allObjects plans := by
  simp [Group.objectsOf, groups, allObjects, List.flatMap_map]

/-- Plans that a workload pass can carry out are groups that a pass can carry out. -/
theorem fit_groups (hplans : ∀ entry ∈ plans.entries, entry.2.WellFormed topology) :
    Group.Fit (.workloads topology namespaceName) (groups plans) := by
  have hgroup : ∀ group ∈ groups plans, ∃ plan : NodePlan, plan.WellFormed topology ∧
      group.objects = plan.objects := by
    intro group hmem
    obtain ⟨entry, hentry, rfl⟩ := List.mem_map.1 hmem
    exact ⟨entry.2, hplans entry hentry, rfl⟩
  have hobject : ∀ planned ∈ Group.objectsOf (groups plans), ∃ plan : NodePlan,
      plan.WellFormed topology ∧ planned ∈ plan.objects := by
    intro planned hmem
    obtain ⟨group, hmem, hplanned⟩ := List.mem_flatMap.1 hmem
    obtain ⟨plan, hplan, hobjects⟩ := hgroup group hmem
    exact ⟨plan, hplan, hobjects ▸ hplanned⟩
  constructor
  case accepted =>
    intro group hmem
    obtain ⟨plan, hplan, hobjects⟩ := hgroup group hmem
    exact Group.refusal?_eq_none (hobjects ▸ hplan.kinds)
      (hobjects ▸ PlannedObject.applyOrder?_eq_self hplan.inOrder)
  case kinds =>
    intro planned hmem
    obtain ⟨plan, hplan, hplanned⟩ := hobject planned hmem
    exact hplan.kinds planned hplanned
  case owned =>
    intro planned hmem
    obtain ⟨plan, hplan, hplanned⟩ := hobject planned hmem
    exact hplan.owned planned hplanned
  case closed =>
    intro group hmem
    obtain ⟨plan, hplan, hobjects⟩ := hgroup group hmem
    rw [Group.keys, hobjects]
    exact hplan.closed

end NodePlan

namespace Convergence

variable {server : Server} {calm : Prop} {s : Store} {topology namespaceName : String}

/-- **The workloads of the topology are what was planned**: every planned object is there and has
not drifted, and there are no others. -/
structure Converged (topology : String) (all : List PlannedObject) (s : Store) : Prop where
  inSync : ∀ planned ∈ all, InSync topology planned s
  nothingElse : ∀ object ∈ s, object.kind ∈ Kind.workloads → object.ownedBy topology = true →
    ∃ planned ∈ all, planned.key = object.key

section Workloads

variable {plans : SortedMap String NodePlan}

/-- Of workloads, what is to be in place is what the plans say. -/
theorem converged_iff : Converged topology (NodePlan.allObjects plans) s ↔
    InPlace (.workloads topology namespaceName) (NodePlan.groups plans) s := by
  have hkeys (object : Resource) : object.key ∈ Group.keysOf (NodePlan.groups plans) ↔
      ∃ planned ∈ NodePlan.allObjects plans, planned.key = object.key := by
    rw [Group.keysOf_eq, NodePlan.objectsOf_groups, List.mem_map]
  constructor
  · rintro ⟨hsync, helse⟩
    exact ⟨NodePlan.objectsOf_groups ▸ hsync, fun object hmem hkind hown =>
      (hkeys object).2 (helse object hmem hkind hown)⟩
  · rintro ⟨hsync, helse⟩
    exact ⟨NodePlan.objectsOf_groups ▸ hsync, fun object hmem hkind hown =>
      (hkeys object).1 (helse object hmem hkind hown)⟩

variable (hserver : server.Faithful topology)
  (hplans : ∀ entry ∈ plans.entries, entry.2.WellFormed topology)

include hserver hplans

/-- **A clean workload pass converges**, and a calm one is clean. -/
theorem meets_reconcileWorkloads (hcalm : calm → ∀ s call e, ¬ server.refuses s call e)
    (hdistinct : ((NodePlan.allObjects plans).map PlannedObject.key).Nodup)
    (hunclaimed : calm → ∀ planned ∈ NodePlan.allObjects plans, ∀ object,
      s.get? planned.key = some object → object.ownedBy topology = true) :
    (reconcileWorkloads topology namespaceName plans).Meets ⟨fun _ _ => True, server.Answers⟩
      (fun result t => (∀ report, result = .ok report → report.errors = [] →
          Converged topology (NodePlan.allObjects plans) t) ∧
        (calm → ∃ report, result = .ok report ∧ report.errors = [])) s := by
  rw [← NodePlan.objectsOf_groups] at hdistinct hunclaimed
  refine ((Reconciles.workloads topology namespaceName plans).meets_inPlace hserver hcalm
    (NodePlan.fit_groups hplans) (Group.keysOf_eq _ ▸ hdistinct) hunclaimed).mono ?_
  rintro result t ⟨hplace, hclean⟩
  exact ⟨fun report heq herrors => converged_iff.2 (hplace report heq herrors), hclean⟩

/-- A calm pass comes to its end, and leaves a store that has converged. -/
theorem exists_converged (havailable : server.Available)
    (hcalm : ∀ s call e, ¬ server.refuses s call e)
    (hdistinct : ((NodePlan.allObjects plans).map PlannedObject.key).Nodup)
    (hunclaimed : ∀ planned ∈ NodePlan.allObjects plans, ∀ object,
      s.get? planned.key = some object → object.ownedBy topology = true) :
    ∃ events report u, (reconcileWorkloads topology namespaceName plans).Reaches server.Answers s
      events (.done (.ok report)) u ∧ report.isClean = true ∧
        Converged topology (NodePlan.allObjects plans) u := by
  obtain ⟨events, result, u, hreach⟩ := Program.Reaches.exists_done
    (server.exists_answer havailable) (reconcileWorkloads topology namespaceName plans) s
  have hmeets := @meets_reconcileWorkloads _ True s _ namespaceName _ hserver hplans
    (fun _ => hcalm) hdistinct fun _ => hunclaimed
  obtain ⟨hconverges, hclean⟩ := hmeets.post_of_reaches hreach
  obtain ⟨report, rfl, herrors⟩ := hclean trivial
  exact ⟨events, report, u, hreach, by simp [PassReport.isClean, herrors],
    hconverges report rfl herrors⟩

/-- **A pass over a converged store** makes no write, and ends without a change or an error unless
a list is refused. -/
theorem meets_reconcileWorkloads_of_converged
    (hconverged : Converged topology (NodePlan.allObjects plans) s) :
    (reconcileWorkloads topology namespaceName plans).Meets
      ⟨fun t call => t = s ∧ call.isWrite = false, server.Answers⟩
      (fun result t => t = s ∧
        (∀ report, result = .ok report → report.changeCount = 0 ∧ report.errors = []) ∧
        ∀ e, result = .error e → ∃ call source, server.refuses s call source) s :=
  (Reconciles.workloads topology namespaceName plans).meets_of_inPlace hserver
    (NodePlan.fit_groups hplans) (converged_iff.1 hconverged)

end Workloads

/-- **Convergence and idempotence.**  Of a topology that renders to distinct keys, for every content
of the namespace: if the server refuses nothing for reasons of its own and no rendered name is held
by an object of another owner, there is a pass and every pass is clean; after every clean pass the
workloads of the topology are exactly what was rendered; and the pass after that writes nothing,
leaves the store as it is, and reports neither a change nor an error. -/
theorem reconcile_converges {t : Topology} {c : Classifier} {rendered : SortedMap String RenderedNode}
    (hrender : t.render c namespaceName = .ok rendered) (plans : SortedMap String NodePlan)
    (hplans : plans = rendered.map fun _ node => node.plan)
    (hdistinct : ((NodePlan.allObjects plans).map PlannedObject.key).Nodup)
    (hserver : server.Faithful t.name) (havailable : server.Available) :
    let pass := reconcileWorkloads t.name namespaceName plans
    let workloads := NodePlan.allObjects plans
    ((∀ object ∈ s, (∃ planned ∈ workloads, planned.key = object.key) →
        object.ownedBy t.name = true) →
      (∃ events report u, pass.Reaches server.willing.Answers s events (.done (.ok report)) u) ∧
      ∀ events result u, pass.Reaches server.willing.Answers s events (.done result) u →
        ∃ report, result = .ok report ∧ report.isClean = true) ∧
    ∀ events report u, pass.Reaches server.Answers s events (.done (.ok report)) u →
      report.isClean = true → Converged t.name workloads u ∧
        (∀ events result v, pass.Reaches server.Answers u events (.done result) v → v = u ∧
          (∀ event ∈ events, event.call.isWrite = false) ∧
          ∀ report, result = .ok report → report.changeCount = 0 ∧ report.errors = []) ∧
        ∀ events result v, pass.Reaches server.willing.Answers u events (.done result) v →
          ∃ report, result = .ok report := by
  subst hplans
  have hwell := Topology.wellFormed_of_render hrender
  intro pass workloads
  refine ⟨fun hunclaimed => ?_, fun events report u hreach hclean => ?_⟩
  · -- A willing server without foreign objects in the way is calm.
    have hmeets := @meets_reconcileWorkloads _ True s _ namespaceName _ hserver.willing hwell
      (fun _ _ _ _ => id) hdistinct fun _ planned hmem object hget =>
        hunclaimed object (Store.mem_of_get? hget) ⟨planned, hmem, (Store.key_of_get? hget).symm⟩
    have hend : ∀ events result u, pass.Reaches server.willing.Answers s events (.done result) u →
        ∃ report, result = .ok report ∧ report.isClean = true := by
      intro events result u hreach
      obtain ⟨report, hreport, herrors⟩ := (hmeets.post_of_reaches hreach).2 trivial
      exact ⟨report, hreport, by simp [PassReport.isClean, herrors]⟩
    obtain ⟨events, result, u, hreach⟩ := Program.Reaches.exists_done
      (server.willing.exists_answer havailable) pass s
    obtain ⟨report, rfl, -⟩ := hend events result u hreach
    exact ⟨⟨events, report, u, hreach⟩, hend⟩
  · have hmeets := @meets_reconcileWorkloads _ False s _ namespaceName _ hserver hwell
      False.elim hdistinct False.elim
    have hconverged : Converged t.name workloads u :=
      (hmeets.post_of_reaches hreach).1 report rfl (by simpa [PassReport.isClean] using hclean)
    refine ⟨hconverged, fun events result v hreach => ?_, fun events result v hreach => ?_⟩
    · have hidle := @meets_reconcileWorkloads_of_converged _ u _ namespaceName _ hserver hwell
        hconverged
      obtain ⟨hstore, hreport, -⟩ := hidle.post_of_reaches hreach
      exact ⟨hstore, hidle.forall_call (fun _ _ hallowed => hallowed.2) hreach, hreport⟩
    · have hidle := @meets_reconcileWorkloads_of_converged _ u _ namespaceName _ hserver.willing
        hwell hconverged
      obtain ⟨-, -, herror⟩ := hidle.post_of_reaches hreach
      cases result with
      | ok report => exact ⟨report, rfl⟩
      | error e =>
        obtain ⟨call, source, hrefused⟩ := herror e rfl
        exact hrefused.elim

/-! A namespace with a Deployment that has drifted and a Service that is left over. -/

def driftedStore : Store :=
  .ofList [labelled .deployment "lab-r1" "lab", labelled .service "old" "lab"]

/-- There is a clean pass, and it converges. -/
theorem drifted_store_converges : ∃ rendered events report u,
    oneNode.render .bare "lab" = .ok rendered ∧
      (reconcileWorkloads "lab" "lab" (rendered.map fun _ node => node.plan)).Reaches
        (Server.plain fun _ _ _ => False).Answers driftedStore events (.done (.ok report)) u ∧
      Converged "lab" (NodePlan.allObjects (rendered.map fun _ node => node.plan)) u := by
  have hkeys : (match oneNode.render .bare "lab" with
      | .ok rendered => decide ((NodePlan.allObjects (rendered.map fun _ node => node.plan)).map
          PlannedObject.key).Nodup
      | .error _ => false) = true := by decide +kernel
  have hown : ∀ object ∈ driftedStore, object.ownedBy "lab" = true := by
    intro object hmem
    have hobject : object = labelled .deployment "lab-r1" "lab" ∨
        object = labelled .service "old" "lab" := by
      simpa [driftedStore] using Store.mem_of_mem_ofList hmem
    rcases hobject with rfl | rfl <;> decide
  cases hrender : oneNode.render .bare "lab" with
  | error e =>
    rw [hrender] at hkeys
    cases hkeys
  | ok rendered =>
    rw [hrender] at hkeys
    obtain ⟨hcalm, hclean⟩ := reconcile_converges hrender _ rfl (of_decide_eq_true hkeys)
      (Server.plain_faithful "lab") (Server.plain_available _)
    obtain ⟨⟨events, report, u, hreach⟩, hall⟩ := hcalm fun object hmem _ => hown object hmem
    obtain ⟨_, hreport, hok⟩ := hall events _ u hreach
    obtain rfl := Except.ok.inj hreport
    exact ⟨rendered, events, report, u, rfl, hreach, (hclean events report u hreach hok).1⟩

end Convergence

end NetLab

import NetLab.Proofs.Cluster.Contract
import NetLab.Proofs.Maps
import NetLab.Reconcile.Workloads

/-!
# Rules for passes

For every part of a pass, what has to be shown of it so that it keeps a contract
(`Program.Meets`): the call that it makes is allowed, and each outcome leads on.  Later proofs
about passes use these rules and do not open the definitions.
-/

namespace NetLab.Pass

open Cluster Kube Program

variable {σ : Type} {contract : Contract σ} {scope : Scope} {type? : Option WorkloadType}
  {post : Pass → σ → Prop} {pass : Pass} {s : σ}

/-! ## Bookkeeping -/

section

variable (pass : Pass) (error : ResourceError) (key : Key) (object : Resource) (action : Action)
  (change : Change)

@[simp] theorem fail_live : (pass.fail error).live = pass.live := rfl
@[simp] theorem fail_planned : (pass.fail error).planned = pass.planned := rfl
@[simp] theorem fail_errors :
    (pass.fail error).report.errors = pass.report.errors ++ [error] := rfl
@[simp] theorem markReady_live : (pass.markReady key).live = pass.live := rfl
@[simp] theorem markReady_planned : (pass.markReady key).planned = pass.planned := rfl
@[simp] theorem markReady_report : (pass.markReady key).report = pass.report := rfl
@[simp] theorem observe_live :
    (pass.observe key object).live = pass.live.insert key object := rfl
@[simp] theorem observe_planned : (pass.observe key object).planned = pass.planned := rfl
@[simp] theorem observe_report : (pass.observe key object).report = pass.report := rfl
@[simp] theorem record_live : (pass.record action change).live = pass.live := rfl
@[simp] theorem record_planned : (pass.record action change).planned = pass.planned := rfl
@[simp] theorem record_ready : (pass.record action change).ready = pass.ready := rfl

@[simp] theorem record_errors :
    (pass.record action change).report.errors = pass.report.errors := by
  cases action <;> rfl

end

/-! ## Applying -/

theorem exists?_iff {key : Key} :
    pass.exists? key = true ↔ key ∈ pass.ready ∨ ∃ object, pass.live.get? key = some object := by
  simp [exists?, SortedMap.contains, Option.isSome_iff_exists]

@[simp]
theorem exists?_markReady {key other : Key} :
    (pass.markReady key).exists? other = true ↔ pass.exists? other = true ∨ other = key := by
  rw [exists?_iff, exists?_iff]
  simp only [markReady, List.mem_cons]
  exact ⟨fun h => by rcases h with (h | h) | h <;> simp [h],
    fun h => by rcases h with (h | h) | h <;> simp [h]⟩

@[simp]
theorem exists?_observe {key other : Key} {object : Resource} :
    (pass.observe key object).exists? other = true ↔ pass.exists? other = true ∨ other = key := by
  rw [exists?_iff, exists?_iff]
  simp only [observe, SortedMap.get?_insert_ite]
  by_cases h : other = key
  · simp [h]
  · simp [h]

@[simp]
theorem exists?_record {action : Action} {change : Change} {key : Key} :
    (pass.record action change).exists? key = pass.exists? key := rfl

theorem meets_adopt {key : Key} (hallows : contract.allows s (.get key))
    (hown : ∀ existing t, contract.answers s (.get key) (.ok existing) t →
      existing.ownedBy scope.topology = true → post ((pass.observe key existing).markReady key) t)
    (hforeign : ∀ existing t, contract.answers s (.get key) (.ok existing) t →
      existing.ownedBy scope.topology = false →
        post (pass.fail (.nameTaken key (existing.label? Labels.topology))) t)
    (hfail : ∀ e t, contract.answers s (.get key) (.error e) t →
      post (pass.fail (.api key .create e)) t) :
    (adopt scope key pass).Meets contract post s := by
  refine ⟨hallows, fun answer t ha => ?_⟩
  cases answer with
  | error e => exact hfail e t ha
  | ok existing =>
    by_cases hown' : existing.ownedBy scope.topology = true
    · simp only [hown', if_true]
      exact hown existing t ha hown'
    · simp only [hown']
      exact hforeign existing t ha (by simpa using hown')

/-- Creating an object, told apart by what comes of it. -/
theorem meets_create_cases {object : Resource} (hallows : contract.allows s (.create object))
    (hcreated : ∀ created t, contract.answers s (.create object) (.ok created) t →
      post (((pass.record .create (change scope type? object.key)).observe object.key
        created).markReady object.key) t)
    (hexists : ∀ m t, contract.answers s (.create object) (.error (.alreadyExists m)) t →
      (adopt scope object.key pass).Meets contract post t)
    (hfail : ∀ e t, (∀ m, e ≠ .alreadyExists m) →
      contract.answers s (.create object) (.error e) t →
        post (pass.fail (.api object.key .create e)) t) :
    (create scope type? object pass).Meets contract post s := by
  refine ⟨hallows, fun answer t ha => ?_⟩
  cases answer with
  | ok created => exact hcreated created t ha
  | error e =>
    cases e with
    | alreadyExists m => exact hexists m t ha
    | notFound _ | conflict _ | api _ | client => exact hfail _ t nofun ha

theorem meets_create {object : Resource} (hallows : contract.allows s (.create object))
    (hcreated : ∀ created t, contract.answers s (.create object) (.ok created) t →
      post (((pass.record .create (change scope type? object.key)).observe object.key
        created).markReady object.key) t)
    (hexists : ∀ m t, contract.answers s (.create object) (.error (.alreadyExists m)) t →
      (adopt scope object.key pass).Meets contract post t)
    (hfail : ∀ e t, contract.answers s (.create object) (.error e) t →
      post (pass.fail (.api object.key .create e)) t) :
    (create scope type? object pass).Meets contract post s :=
  meets_create_cases hallows hcreated hexists fun e t _ => hfail e t

/-- Replacing an object, told apart by what comes of it. -/
theorem meets_replace_cases {object live : Resource}
    (hallows : contract.allows s (.replace (object.update live)))
    (hreplaced : ∀ replaced t,
      contract.answers s (.replace (object.update live)) (.ok replaced) t →
        post (((pass.record .update (change scope type? object.key)).observe object.key
        replaced).markReady object.key) t)
    (hconflict : ∀ m t,
      contract.answers s (.replace (object.update live)) (.error (.conflict m)) t →
        post (pass.fail (.conflict object.key m)) t)
    (hfail : ∀ e t, (∀ m, e ≠ .conflict m) →
      contract.answers s (.replace (object.update live)) (.error e) t →
        post (pass.fail (.api object.key .update e)) t) :
    (replace scope type? object live pass).Meets contract post s := by
  refine ⟨hallows, fun answer t ha => ?_⟩
  cases answer with
  | ok replaced => exact hreplaced replaced t ha
  | error e =>
    cases e with
    | conflict m => exact hconflict m t ha
    | notFound _ | alreadyExists _ | api _ | client => exact hfail _ t nofun ha

theorem meets_replace {object live : Resource}
    (hallows : contract.allows s (.replace (object.update live)))
    (hreplaced : ∀ replaced t,
      contract.answers s (.replace (object.update live)) (.ok replaced) t →
        post (((pass.record .update (change scope type? object.key)).observe object.key
        replaced).markReady object.key) t)
    (hconflict : ∀ m t,
      contract.answers s (.replace (object.update live)) (.error (.conflict m)) t →
        post (pass.fail (.conflict object.key m)) t)
    (hfail : ∀ e t, contract.answers s (.replace (object.update live)) (.error e) t →
      post (pass.fail (.api object.key .update e)) t) :
    (replace scope type? object live pass).Meets contract post s :=
  meets_replace_cases hallows hreplaced hconflict fun e t _ => hfail e t

/-- Applying an object, told apart by what it finds.  What holds it back is the first thing that it
depends on and that does not exist. -/
theorem meets_applyObject_first {planned : PlannedObject}
    (hblocked : ∀ earlier key later, planned.dependencies = earlier ++ key :: later →
      (∀ other ∈ earlier, pass.exists? other = true) → pass.exists? key = false →
        post (pass.fail (.dependencyNotReady planned.key key)) s)
    (hcreate : (∀ key ∈ planned.dependencies, pass.exists? key = true) →
      pass.live.get? planned.key = none →
        (create scope type? planned.object pass).Meets contract post s)
    (hreplace : ∀ live, (∀ key ∈ planned.dependencies, pass.exists? key = true) →
      pass.live.get? planned.key = some live → planned.object.needsUpdate live = true →
        (replace scope type? planned.object live pass).Meets contract post s)
    (hkeep : ∀ live, (∀ key ∈ planned.dependencies, pass.exists? key = true) →
      pass.live.get? planned.key = some live → planned.object.needsUpdate live = false →
        post (pass.markReady planned.key) s) :
    (applyObject scope type? planned pass).Meets contract post s := by
  unfold applyObject
  split
  · rename_i key hfind
    obtain ⟨hmissing, earlier, later, hsplit, hearlier⟩ := List.find?_eq_some_iff_append.1 hfind
    exact hblocked earlier key later hsplit (by simpa using hearlier) (by simpa using hmissing)
  · rename_i hfind
    have hdeps : ∀ key ∈ planned.dependencies, pass.exists? key = true := by
      intro key hkey
      simpa using List.find?_eq_none.1 hfind key hkey
    split
    · rename_i hlive
      exact hcreate hdeps hlive
    · rename_i live hlive
      by_cases hdrift : planned.object.needsUpdate live = true
      · rw [if_pos hdrift]
        exact hreplace live hdeps hlive hdrift
      · rw [if_neg hdrift]
        exact hkeep live hdeps hlive (by simpa using hdrift)

theorem meets_applyObject {planned : PlannedObject}
    (hblocked : ∀ key ∈ planned.dependencies, pass.exists? key = false →
      post (pass.fail (.dependencyNotReady planned.key key)) s)
    (hcreate : (∀ key ∈ planned.dependencies, pass.exists? key = true) →
      pass.live.get? planned.key = none →
        (create scope type? planned.object pass).Meets contract post s)
    (hreplace : ∀ live, (∀ key ∈ planned.dependencies, pass.exists? key = true) →
      pass.live.get? planned.key = some live → planned.object.needsUpdate live = true →
        (replace scope type? planned.object live pass).Meets contract post s)
    (hkeep : ∀ live, (∀ key ∈ planned.dependencies, pass.exists? key = true) →
      pass.live.get? planned.key = some live → planned.object.needsUpdate live = false →
        post (pass.markReady planned.key) s) :
    (applyObject scope type? planned pass).Meets contract post s :=
  meets_applyObject_first (fun _ key _ hsplit _ => hblocked key (by simp [hsplit])) hcreate
    hreplace hkeep

/-- The pass with the keys of some objects planned. -/
def plan (pass : Pass) (objects : List PlannedObject) : Pass :=
  { pass with planned := pass.planned ++ objects.map PlannedObject.key }

theorem meets_applyGroup {owner : String} {objects : List PlannedObject}
    (hkind : ∀ planned ∈ objects, planned.object.kind ∉ scope.kinds →
      post ((pass.plan objects).fail (.unsupportedKind owner planned.object.kind)) s)
    (hcycle : PlannedObject.applyOrder? objects = none →
      post ((pass.plan objects).fail (.dependencyCycle owner)) s)
    (horder : ∀ order, (∀ planned ∈ objects, planned.object.kind ∈ scope.kinds) →
      PlannedObject.applyOrder? objects = some order →
        (forEach (applyObject scope type?) order (pass.plan objects)).Meets contract post s) :
    (applyGroup scope type? owner objects pass).Meets contract post s := by
  unfold applyGroup
  split
  · rename_i planned hfind
    exact hkind planned (List.mem_of_find?_eq_some hfind) (by simpa using List.find?_some hfind)
  · rename_i hfind
    split
    · exact hcycle ‹_›
    · rename_i order hord
      refine horder order (fun planned hmem => ?_) hord
      simpa using List.find?_eq_none.1 hfind planned hmem

/-! ## Pruning -/

theorem mem_unwanted {entry : Key × Resource} :
    entry ∈ pass.unwanted ↔
      pass.live.get? entry.1 = some entry.2 ∧ entry.1 ∉ pass.planned := by
  simp [unwanted, SortedMap.get?_eq_some_iff]

theorem nodup_unwanted : (pass.unwanted.map Prod.fst).Nodup := by
  unfold unwanted
  rw [List.map_reverse]
  have hkeys := pass.live.nodup_keys.sublist
    ((List.filter_sublist (p := fun entry => !pass.planned.contains entry.1)).map Prod.fst)
  exact List.pairwise_reverse.2 (hkeys.imp Ne.symm)

/-- Deleting an object, told apart by what comes of it. -/
theorem meets_delete_cases {entry : Key × Resource}
    (hallows : contract.allows s (.delete entry.1))
    (hdeleted : ∀ t, contract.answers s (.delete entry.1) (.ok ()) t →
      post (pass.record .delete (change scope (statedType? entry.2) entry.1)) t)
    (hgone : ∀ m t, contract.answers s (.delete entry.1) (.error (.notFound m)) t →
      post (pass.record .delete (change scope (statedType? entry.2) entry.1)) t)
    (hfail : ∀ e t, (∀ m, e ≠ .notFound m) →
      contract.answers s (.delete entry.1) (.error e) t →
        post (pass.fail (.api entry.1 .delete e)) t) :
    (delete scope entry pass).Meets contract post s := by
  refine ⟨hallows, fun answer t ha => ?_⟩
  cases answer with
  | ok _ => exact hdeleted t ha
  | error e =>
    cases e with
    | notFound m => exact hgone m t ha
    | alreadyExists _ | conflict _ | api _ | client => exact hfail _ t nofun ha

theorem meets_delete {entry : Key × Resource} (hallows : contract.allows s (.delete entry.1))
    (hdeleted : ∀ t, contract.answers s (.delete entry.1) (.ok ()) t →
      post (pass.record .delete (change scope (statedType? entry.2) entry.1)) t)
    (hgone : ∀ m t, contract.answers s (.delete entry.1) (.error (.notFound m)) t →
      post (pass.record .delete (change scope (statedType? entry.2) entry.1)) t)
    (hfail : ∀ e t, contract.answers s (.delete entry.1) (.error e) t →
      post (pass.fail (.api entry.1 .delete e)) t) :
    (delete scope entry pass).Meets contract post s :=
  meets_delete_cases hallows hdeleted hgone fun e t _ => hfail e t

/-! ## Snapshot -/

/-- Listed objects of the topology come into the snapshot, and nothing else changes in it. -/
theorem get?_addOwned (topology : String) (live : SortedMap Key Resource) (items : List Resource)
    (key : Key) :
    (∃ item ∈ items, item.ownedBy topology = true ∧ item.key = key ∧
        (addOwned topology live items).get? key = some item) ∨
      (∀ item ∈ items, item.ownedBy topology = true → item.key ≠ key) ∧
        (addOwned topology live items).get? key = live.get? key := by
  unfold addOwned
  induction items generalizing live with
  | nil => exact Or.inr ⟨fun _ hmem => (List.not_mem_nil hmem).elim, rfl⟩
  | cons item rest ih =>
    rw [List.filter_cons]
    split
    · rename_i hown
      rcases ih (live.insert item.key item) with ⟨later, hmem, hlater⟩ | ⟨hnone, hget⟩
      · exact Or.inl ⟨later, List.mem_cons_of_mem _ hmem, hlater⟩
      · simp only [List.foldl_cons, hget, SortedMap.get?_insert_ite]
        by_cases hkey : key = item.key
        · exact Or.inl ⟨item, List.mem_cons_self, hown, hkey.symm, if_pos hkey⟩
        · refine Or.inr ⟨fun other hmem hother => ?_, if_neg hkey⟩
          rcases List.mem_cons.1 hmem with rfl | hmem
          · exact fun heq => hkey heq.symm
          · exact hnone other hmem hother
    · rename_i hforeign
      rcases ih live with ⟨later, hmem, hlater⟩ | ⟨hnone, hget⟩
      · exact Or.inl ⟨later, List.mem_cons_of_mem _ hmem, hlater⟩
      · refine Or.inr ⟨fun other hmem hother => ?_, hget⟩
        rcases List.mem_cons.1 hmem with rfl | hmem
        · exact absurd hother hforeign
        · exact hnone other hmem hother

theorem meets_snapshot {topology : String} {failed : PassError → σ → Prop}
    (inv : List Kind → SortedMap Key Resource → σ → Prop)
    (hallows : ∀ kind rest live t, inv (kind :: rest) live t →
      contract.allows t (.list kind (Labels.ownerSelector topology)))
    (hlisted : ∀ kind rest live t items u, inv (kind :: rest) live t →
      contract.answers t (.list kind (Labels.ownerSelector topology)) (.ok items) u →
        inv rest (addOwned topology live items) u)
    (hunserved : ∀ rest live t m u, inv (.virtualMachine :: rest) live t →
      contract.answers t (.list .virtualMachine (Labels.ownerSelector topology))
        (.error (.notFound m)) u → inv rest live u)
    (hfail : ∀ kind rest live t e u, inv (kind :: rest) live t →
      contract.answers t (.list kind (Labels.ownerSelector topology)) (.error e) u →
        failed (.list kind e) u) :
    ∀ kinds live t, inv kinds live t →
      (snapshot topology live kinds).Meets contract
        (fun result u => match result with
          | .ok live => inv [] live u
          | .error e => failed e u) t
  | [], _, _, h => h
  | kind :: rest, live, t, h => by
    have ih := meets_snapshot inv hallows hlisted hunserved hfail rest
    refine ⟨hallows kind rest live t h, fun answer u ha => ?_⟩
    cases answer with
    | ok items => exact ih _ u (hlisted kind rest live t items u h ha)
    | error e =>
      cases e with
      | notFound m =>
        by_cases hkind : kind = .virtualMachine
        · subst hkind
          exact ih live u (hunserved rest live t m u h ha)
        · simp only [hkind, if_false]
          exact hfail kind rest live t _ u h ha
      | alreadyExists _ | conflict _ | api _ | client => exact hfail kind rest live t _ u h ha

/-- A pass from its snapshot on; `inv` speaks of the kinds that are still to be listed. -/
theorem meets_begin {α : Type} {next : Pass → Program α} {post : Except PassError α → σ → Prop}
    (inv : List Kind → SortedMap Key Resource → σ → Prop)
    (hallows : ∀ kind rest live t, inv (kind :: rest) live t →
      contract.allows t (.list kind (Labels.ownerSelector scope.topology)))
    (hlisted : ∀ kind rest live t items u, inv (kind :: rest) live t →
      contract.answers t (.list kind (Labels.ownerSelector scope.topology)) (.ok items) u →
        inv rest (addOwned scope.topology live items) u)
    (hunserved : ∀ rest live t m u, inv (.virtualMachine :: rest) live t →
      contract.answers t (.list .virtualMachine (Labels.ownerSelector scope.topology))
        (.error (.notFound m)) u → inv rest live u)
    (hfail : ∀ kind rest live t e u, inv (kind :: rest) live t →
      contract.answers t (.list kind (Labels.ownerSelector scope.topology)) (.error e) u →
        post (.error (.list kind e)) u)
    (hnext : ∀ live t, inv [] live t →
      (next (start live)).Meets contract (fun value u => post (.ok value) u) t)
    (hstart : inv scope.kinds ∅ s) : (begin scope next).Meets contract post s := by
  have hsnapshot := @meets_snapshot _ _ _ (fun e u => post (.error e) u) inv hallows hlisted
    hunserved hfail scope.kinds ∅ s hstart
  refine meets_bind.2 (hsnapshot.mono fun result t ht => ?_)
  cases result with
  | ok live => exact meets_bind.2 (hnext live t ht)
  | error e => exact ht

/-- The workload pass after its snapshot: all groups, then what nobody planned. -/
theorem meets_workloads {topology namespaceName : String} {plans : SortedMap String NodePlan}
    {post : PassReport → σ → Prop}
    (h : (forEach (fun entry : String × NodePlan =>
        applyGroup (Scope.workloads topology namespaceName) (some entry.2.workloadType) entry.1
          entry.2.objects) plans.entries pass).Meets contract
      (fun pass t => (prune (Scope.workloads topology namespaceName) pass).Meets contract
        (fun pass u => post { pass.report with nodes := pass.nodeStatus plans } u) t) s) :
    (do
      let pass ← forEach (fun (node, plan) =>
        applyGroup (Scope.workloads topology namespaceName) (some plan.workloadType) node
          plan.objects) plans.entries pass
      let pass ← pass.prune (Scope.workloads topology namespaceName)
      return { pass.report with nodes := pass.nodeStatus plans } : Program PassReport).Meets
        contract post s :=
  meets_bind.2 (h.mono fun _ _ ht => meets_bind.2 ht)

/-- The connectivity pass after its snapshot. -/
theorem meets_policies {topology namespaceName : String} {policies : List PlannedObject}
    {post : PassReport → σ → Prop}
    (h : (applyGroup (Scope.connectivity topology namespaceName) none topology policies
        pass).Meets contract
      (fun pass t => (prune (Scope.connectivity topology namespaceName) pass).Meets contract
        (fun pass u => post pass.report u) t) s) :
    (do
      let pass ← applyGroup (Scope.connectivity topology namespaceName) none topology policies pass
      let pass ← pass.prune (Scope.connectivity topology namespaceName)
      return pass.report : Program PassReport).Meets contract post s :=
  meets_bind.2 (h.mono fun _ _ ht => meets_bind.2 ht)

end NetLab.Pass

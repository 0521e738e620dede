import NetLab.Proofs.Render.References

/-!
# When rendering fails, and what it makes

The nodes of some definitions are rendered in the order of names, and a node cannot be rendered for
one of two reasons: a node before it has its workload name, or two of its contents have one key.
Nothing else is in the way, since every workload can be built (`NodeContext.workload?_eq`).

So rendering succeeds exactly on nodes without such a fault (`Topology.Faultless`), and otherwise
reports the first one in the order of names (`Topology.FirstFault`).  Either way the argument is the
same: some beginning of the list is without fault, and rendering gets through that beginning.
-/

namespace NetLab

open Kube

/-! ## The keys of a node -/

/-- What a definition ships: the names its contents go by, with the keys that they want. -/
def NodeDefinition.configKeys (definition : NodeDefinition) : List (String × String) :=
  (definition.startupConfig.map fun _ => (ConfigEntry.startupKey, ConfigEntry.startupKey)).toList ++
    definition.files.keys.map fun path => (path, ConfigEntry.keyOfPath path)

/-- What a node ships: the names its contents go by, with the keys that they want. -/
def NodeConfig.configKeys (node : NodeConfig) : List (String × String) :=
  (node.startupConfig.map fun _ => (ConfigEntry.startupKey, ConfigEntry.startupKey)).toList ++
    node.files.keys.map fun path => (path, ConfigEntry.keyOfPath path)

/-- The first key that is wanted a second time: all sources before the second one have keys of their
own, and the first one is among them. -/
def KeyCollision.IsFirst (collision : KeyCollision) (sources : List (String × String)) : Prop :=
  ∃ before after, sources = before ++ (collision.second, collision.key) :: after ∧
    (before.map Prod.snd).Nodup ∧ (collision.first, collision.key) ∈ before

/-- Keys are all different, or there is a first one that is not. -/
theorem KeyCollision.nodup_or_isFirst (sources : List (String × String)) :
    (sources.map Prod.snd).Nodup ∨ ∃ collision : KeyCollision, collision.IsFirst sources := by
  rcases holds_or_first_fault (fun sources : List (String × String) =>
    (sources.map Prod.snd).Nodup) List.nodup_nil sources with
    hnodup | ⟨before, ⟨second, key⟩, after, rfl, hbefore, hfault⟩
  · exact Or.inl hnodup
  · rw [nodup_map_concat] at hfault
    push Not at hfault
    obtain ⟨⟨first, other⟩, hmem, hkey⟩ := hfault hbefore
    obtain rfl : other = key := hkey
    exact Or.inr ⟨⟨other, first, second⟩, before, after, rfl, hbefore, hmem⟩

/-- Where a key is wanted twice, keys are not all different. -/
theorem KeyCollision.IsFirst.not_nodup {collision : KeyCollision}
    {sources : List (String × String)} (h : collision.IsFirst sources) :
    ¬ (sources.map Prod.snd).Nodup := by
  obtain ⟨before, after, rfl, -, hmem⟩ := h
  rw [List.map_append, List.map_cons, List.nodup_append]
  rintro ⟨-, -, hdiffer⟩
  exact hdiffer _ (List.mem_map_of_mem hmem) _ List.mem_cons_self rfl

namespace ConfigBundle

variable {seen rest : List (String × ConfigEntry)}

/-- A source with a key of its own collides with none before it. -/
theorem find?_eq_none_of_nodup {source : String × ConfigEntry}
    (h : ((seen ++ source :: rest).map fun s => s.2.key).Nodup) :
    (seen.find? fun earlier => earlier.2.key = source.2.key) = none := by
  rw [List.map_append, List.map_cons, List.nodup_append] at h
  refine List.find?_eq_none.2 fun earlier hmem => ?_
  simpa using h.2.2 _ (List.mem_map_of_mem hmem) _ List.mem_cons_self

theorem firstCollision?_of_nodup (h : ((seen ++ rest).map fun s => s.2.key).Nodup) :
    firstCollision? seen rest = none := by
  induction rest generalizing seen with
  | nil => rfl
  | cons head rest ih =>
    unfold firstCollision?
    rw [find?_eq_none_of_nodup h]
    exact ih (by simpa using h)

/-- The search stops at the first source whose key one before it has. -/
theorem firstCollision?_of_repeated {before after : List (String × ConfigEntry)}
    {first second : String × ConfigEntry}
    (hnodup : ((seen ++ before).map fun s => s.2.key).Nodup) (hfirst : first ∈ seen ++ before)
    (hkey : first.2.key = second.2.key) :
    firstCollision? seen (before ++ second :: after) =
      some ⟨second.2.key, first.1, second.1⟩ := by
  induction before generalizing seen with
  | nil =>
    rw [List.append_nil] at hnodup hfirst
    have hfound : (seen.find? fun earlier => earlier.2.key = second.2.key) = some first := by
      cases hfind : seen.find? fun earlier => earlier.2.key = second.2.key with
      | none => exact absurd (decide_eq_true hkey) (List.find?_eq_none.1 hfind first hfirst)
      | some earlier =>
        have hearlier : earlier.2.key = second.2.key := by simpa using List.find?_some hfind
        rw [List.inj_on_of_nodup_map hnodup (List.mem_of_find?_eq_some hfind) hfirst
          (hearlier.trans hkey.symm)]
    rw [List.nil_append, firstCollision?, hfound]
  | cons head before ih =>
    rw [List.cons_append, firstCollision?, find?_eq_none_of_nodup hnodup]
    exact ih (by simpa using hnodup) (by simpa using hfirst)

theorem map_sources (node : NodeConfig) :
    (sources node).map (fun s => (s.1, s.2.key)) = node.configKeys := by
  rw [sources, NodeConfig.configKeys, SortedMap.keys]
  cases node.startupConfig <;> simp [ConfigEntry.ofStartup, ConfigEntry.ofFile, Function.comp_def]

/-- The search finds the first key that is wanted twice. -/
theorem firstCollision?_of_isFirst {node : NodeConfig} {collision : KeyCollision}
    (h : collision.IsFirst node.configKeys) : firstCollision? [] (sources node) = some collision := by
  obtain ⟨before, after, hkeys, hnodup, hmem⟩ := h
  rw [← map_sources node] at hkeys
  obtain ⟨before, rest, hsources, rfl, hrest⟩ := List.map_eq_append_iff.1 hkeys
  obtain ⟨second, after, rfl, hsecond, -⟩ := List.map_eq_cons_iff.1 hrest
  obtain ⟨first, hfirst, heq⟩ := List.mem_map.1 hmem
  obtain ⟨key, origin, other⟩ := collision
  obtain ⟨rfl, rfl⟩ := Prod.mk.inj hsecond
  obtain ⟨rfl, hkey⟩ := Prod.mk.inj heq
  rw [List.map_map] at hnodup
  rw [hsources]
  exact firstCollision?_of_repeated hnodup hfirst hkey

/-- Whether there is a bundle depends on the sources alone. -/
theorem ofNode_eq (node : NodeConfig) (name : String) :
    ofNode node name = match firstCollision? [] (sources node) with
      | some collision => .error collision
      | none => .ok (if node.hasContent then some ⟨name, (sources node).map Prod.snd⟩ else none) := by
  unfold ofNode
  by_cases hcontent : node.hasContent = true
  · cases firstCollision? [] (sources node) <;> simp only [if_pos hcontent]
  · have hsources : sources node = [] := by
      obtain ⟨hstartup, hfiles⟩ : node.startupConfig = none ∧ node.files.isEmpty = true := by
        simpa [NodeConfig.hasContent] using hcontent
      rw [SortedMap.isEmpty, List.isEmpty_iff] at hfiles
      simp [sources, hstartup, hfiles]
    rw [hsources, if_neg hcontent, if_neg hcontent]
    rfl

end ConfigBundle

/-! ## Nodes -/

namespace NodeConfig

@[simp]
theorem contents_withMode (node : NodeConfig) (mode : ExecutionMode) :
    (node.withMode mode).startupConfig = node.startupConfig ∧
      (node.withMode mode).files = node.files := by
  cases mode <;> exact ⟨rfl, rfl⟩

@[simp]
theorem contents_withPlugin (node : NodeConfig) (cni : Option String) :
    (node.withPlugin cni).startupConfig = node.startupConfig ∧
      (node.withPlugin cni).files = node.files := by
  cases cni <;> exact ⟨rfl, rfl⟩

@[simp]
theorem contents_withOverride (node : NodeConfig) (nodeOverride? : Option NodeOverride) :
    (node.withOverride nodeOverride?).startupConfig = node.startupConfig ∧
      (node.withOverride nodeOverride?).files = node.files := by
  cases nodeOverride? with
  | none => exact ⟨rfl, rfl⟩
  | some nodeOverride => exact contents_withMode node nodeOverride.executionMode

end NodeConfig

namespace Topology

variable {t : Topology} {c : Classifier} {namespaceName : String}

/-- Nothing that a topology says about its nodes changes what they ship. -/
theorem contents_nodeConfig (t : Topology) (name : String) (definition : NodeDefinition) :
    (t.nodeConfig name definition).startupConfig = definition.startupConfig ∧
      (t.nodeConfig name definition).files = definition.files := by
  simp [nodeConfig, NodeConfig.withIdentity]

/-- A node wants the keys of its definition. -/
theorem configKeys_nodeConfig (t : Topology) (name : String) (definition : NodeDefinition) :
    (t.nodeConfig name definition).configKeys = definition.configKeys := by
  obtain ⟨hstartup, hfiles⟩ := t.contents_nodeConfig name definition
  rw [NodeConfig.configKeys, hstartup, hfiles, NodeDefinition.configKeys]

/-- A node whose contents have keys of their own is rendered. -/
theorem renderNode_of_nodup {name : String} {definition : NodeDefinition}
    (h : (definition.configKeys.map Prod.snd).Nodup) :
    ∃ rendered, t.renderNode c namespaceName (t.workloadName name) (t.nodeConfig name definition) =
      .ok rendered := by
  rw [← configKeys_nodeConfig t name definition, ← ConfigBundle.map_sources, List.map_map] at h
  have hfree : ConfigBundle.firstCollision? [] (ConfigBundle.sources (t.nodeConfig name definition)) =
      none := ConfigBundle.firstCollision?_of_nodup h
  unfold renderNode
  simp only [ConfigBundle.ofNode_eq, hfree, NodeContext.workload?_eq]
  exact ⟨_, rfl⟩

/-- A node with a key that is wanted twice is refused for the first such key. -/
theorem renderNode_of_isFirst {name : String} {definition : NodeDefinition}
    {collision : KeyCollision} (h : collision.IsFirst definition.configKeys) :
    t.renderNode c namespaceName (t.workloadName name) (t.nodeConfig name definition) =
      .error (.keyCollision name collision) := by
  rw [← configKeys_nodeConfig t name definition] at h
  unfold renderNode
  simp only [ConfigBundle.ofNode_eq, ConfigBundle.firstCollision?_of_isFirst h, nodeConfig_name]

/-! ## Faults -/

/-- None of these nodes has the workload name of the node. -/
def Free (t : Topology) (earlier : List (String × NodeDefinition)) (node : String) : Prop :=
  ∀ first ∈ earlier, t.workloadName first.1 ≠ t.workloadName node

/-- The nodes have workload names of their own, and so have their contents keys. -/
structure Faultless (t : Topology) (nodes : List (String × NodeDefinition)) : Prop where
  names : (nodes.map fun node => t.workloadName node.1).Nodup
  keys : ∀ node ∈ nodes, (node.2.configKeys.map Prod.snd).Nodup

/-- Why a node cannot be rendered after others: one of them has its workload name; or, if none has,
two of its contents want one key. -/
inductive Fault (t : Topology) (earlier : List (String × NodeDefinition)) (node : String)
    (definition : NodeDefinition) : RenderError → Prop
  | name {first : String × NodeDefinition} (hfirst : first ∈ earlier)
      (hname : t.workloadName first.1 = t.workloadName node) :
      Fault t earlier node definition (.nameCollision (t.workloadName node) first.1 node)
  | key {collision : KeyCollision} (hfree : t.Free earlier node)
      (hcollision : collision.IsFirst definition.configKeys) :
      Fault t earlier node definition (.keyCollision node collision)

/-- The first node that cannot be rendered, and why. -/
def FirstFault (t : Topology) (nodes : List (String × NodeDefinition)) (error : RenderError) :
    Prop :=
  ∃ before node definition after, nodes = before ++ (node, definition) :: after ∧
    t.Faultless before ∧ t.Fault before node definition error

variable {nodes earlier : List (String × NodeDefinition)} {node : String}
  {definition : NodeDefinition} {error : RenderError}

theorem faultless_concat : t.Faultless (nodes ++ [(node, definition)]) ↔
    t.Faultless nodes ∧ t.Free nodes node ∧ (definition.configKeys.map Prod.snd).Nodup := by
  constructor
  · rintro ⟨hnames, hkeys⟩
    obtain ⟨hnodup, hfree⟩ := nodup_map_concat.1 hnames
    exact ⟨⟨hnodup, fun node hmem => hkeys node (List.mem_append_left _ hmem)⟩, hfree,
      hkeys _ List.mem_concat_self⟩
  · rintro ⟨⟨hnodup, hkeys⟩, hfree, hkey⟩
    refine ⟨nodup_map_concat.2 ⟨hnodup, hfree⟩, fun other hmem => ?_⟩
    rcases List.mem_append.1 hmem with hbefore | hlast
    · exact hkeys other hbefore
    · rwa [List.mem_singleton.1 hlast]

theorem Faultless.of_append {after : List (String × NodeDefinition)}
    (h : t.Faultless (nodes ++ after)) : t.Faultless nodes where
  names := (List.nodup_append.1 (List.map_append ▸ h.names)).1
  keys node hmem := h.keys node (List.mem_append_left _ hmem)

/-- A node is spoilt by a fault, and by nothing else. -/
theorem not_faultless_concat_iff (hnodes : t.Faultless nodes) :
    ¬ t.Faultless (nodes ++ [(node, definition)]) ↔ ∃ error, t.Fault nodes node definition error := by
  rw [faultless_concat]
  constructor
  · intro h
    by_cases hfree : t.Free nodes node
    · rcases KeyCollision.nodup_or_isFirst definition.configKeys with hkeys | ⟨collision, hfirst⟩
      · exact absurd ⟨hnodes, hfree, hkeys⟩ h
      · exact ⟨_, .key hfree hfirst⟩
    · unfold Free at hfree
      push Not at hfree
      obtain ⟨first, hfirst, hname⟩ := hfree
      exact ⟨_, .name hfirst hname⟩
  · rintro ⟨error, hfault⟩ ⟨-, hfree, hkeys⟩
    cases hfault with
    | name hfirst hname => exact hfree _ hfirst hname
    | key _ hcollision => exact hcollision.not_nodup hkeys

theorem faultless_or_firstFault (t : Topology) (nodes : List (String × NodeDefinition)) :
    t.Faultless nodes ∨ ∃ error, t.FirstFault nodes error := by
  have hnil : t.Faultless [] := ⟨List.nodup_nil, nofun⟩
  rcases holds_or_first_fault t.Faultless hnil nodes with
    hfine | ⟨before, ⟨node, definition⟩, after, rfl, hbefore, hspoilt⟩
  · exact Or.inl hfine
  · obtain ⟨error, hfault⟩ := (not_faultless_concat_iff hbefore).1 hspoilt
    exact Or.inr ⟨error, before, node, definition, after, rfl, hbefore, hfault⟩

/-! ## Rendering -/

/-- The names taken are those of the nodes before. -/
def Takes (t : Topology) (taken : StringMap) (earlier : List (String × NodeDefinition)) : Prop :=
  ∀ name first, taken.get? name = some first ↔
    ∃ node ∈ earlier, node.1 = first ∧ t.workloadName first = name

theorem takes_nil (t : Topology) : t.Takes ∅ [] := by
  simp [Takes]

variable {taken : StringMap}

theorem Takes.eq_none (h : t.Takes taken earlier) (hfree : t.Free earlier node) :
    taken.get? (t.workloadName node) = none := by
  cases hget : taken.get? (t.workloadName node) with
  | none => rfl
  | some first =>
    obtain ⟨other, hmem, rfl, hname⟩ := (h _ first).1 hget
    exact absurd hname (hfree other hmem)

theorem Takes.insert (h : t.Takes taken earlier) (hfree : t.Free earlier node) :
    t.Takes (taken.insert (t.workloadName node) node) (earlier ++ [(node, definition)]) := by
  intro name first
  rw [SortedMap.get?_insert_ite]
  simp only [List.mem_append, List.mem_singleton, or_and_right, exists_or, exists_eq_left]
  by_cases heq : name = t.workloadName node
  · subst heq
    rw [if_pos rfl, Option.some.injEq]
    constructor
    · rintro rfl
      exact Or.inr ⟨rfl, rfl⟩
    · rintro (⟨other, hmem, rfl, hname⟩ | ⟨rfl, -⟩)
      · exact absurd hname (hfree other hmem)
      · rfl
  · rw [if_neg heq, h name first, or_iff_left]
    rintro ⟨rfl, rfl⟩
    exact heq rfl

variable (c namespaceName) in
/-- A node that spoils nothing is rendered, and then those after it. -/
theorem renderNodes_cons_of_fine (htaken : t.Takes taken earlier)
    (h : t.Faultless (earlier ++ [(node, definition)])) (rest : List (String × NodeDefinition)) :
    ∃ rendered, t.renderNodes c namespaceName taken ((node, definition) :: rest) =
      (t.renderNodes c namespaceName (taken.insert (t.workloadName node) node) rest).map
        ((node, rendered) :: ·) := by
  obtain ⟨-, hfree, hkeys⟩ := faultless_concat.1 h
  obtain ⟨rendered, hrendered⟩ : ∃ rendered, t.renderNode c namespaceName (t.workloadName node)
    (t.nodeConfig node definition) = .ok rendered := renderNode_of_nodup hkeys
  refine ⟨rendered, ?_⟩
  rw [renderNodes, htaken.eq_none hfree]
  dsimp only
  rw [hrendered]
  rfl

variable (c namespaceName) in
/-- Nodes without fault are all rendered. -/
theorem renderNodes_of_faultless (htaken : t.Takes taken earlier)
    (h : t.Faultless (earlier ++ nodes)) :
    ∃ rendered, t.renderNodes c namespaceName taken nodes = .ok rendered := by
  induction nodes generalizing taken earlier with
  | nil => exact ⟨[], rfl⟩
  | cons head rest ih =>
    obtain ⟨node, definition⟩ := head
    rw [List.append_cons] at h
    obtain ⟨rendered, hcons⟩ := renderNodes_cons_of_fine c namespaceName
      htaken h.of_append rest
    obtain ⟨others, hothers⟩ := ih (htaken.insert (faultless_concat.1 h.of_append).2.1) h
    exact ⟨(node, rendered) :: others, by rw [hcons, hothers]; rfl⟩

/-- A fault at the next node is what is reported. -/
theorem renderNodes_cons_of_fault (htaken : t.Takes taken earlier)
    (hfault : t.Fault earlier node definition error) (rest : List (String × NodeDefinition)) :
    t.renderNodes c namespaceName taken ((node, definition) :: rest) = .error error := by
  rw [renderNodes]
  cases hfault with
  | name hfirst hname => rw [(htaken _ _).2 ⟨_, hfirst, rfl, hname⟩]
  | key hfree hcollision =>
    rw [htaken.eq_none hfree]
    dsimp only
    rw [renderNode_of_isFirst hcollision]
    rfl

/-- **The first fault is what is reported.** -/
theorem renderNodes_of_fault {before : List (String × NodeDefinition)}
    (htaken : t.Takes taken earlier) (hbefore : t.Faultless (earlier ++ before))
    (hfault : t.Fault (earlier ++ before) node definition error)
    (after : List (String × NodeDefinition)) :
    t.renderNodes c namespaceName taken (before ++ (node, definition) :: after) = .error error := by
  induction before generalizing taken earlier with
  | nil =>
    rw [List.append_nil] at hbefore hfault
    exact renderNodes_cons_of_fault htaken hfault after
  | cons head before ih =>
    obtain ⟨name, other⟩ := head
    rw [List.append_cons] at hbefore hfault
    obtain ⟨rendered, hcons⟩ := renderNodes_cons_of_fine c namespaceName
      htaken hbefore.of_append (before ++ (node, definition) :: after)
    have hrest := ih (htaken.insert (faultless_concat.1 hbefore.of_append).2.1) hbefore hfault
    rw [List.cons_append, hcons, hrest]
    rfl

section

variable {definitions : SortedMap String NodeDefinition} {rendered : SortedMap String RenderedNode}

variable (c namespaceName) in
theorem exists_renderDefinitions (h : t.Faultless definitions.entries) :
    ∃ rendered, t.renderDefinitions c namespaceName definitions = .ok rendered := by
  obtain ⟨rendered, hrendered⟩ := renderNodes_of_faultless c namespaceName t.takes_nil h
  exact ⟨.ofList rendered, by rw [renderDefinitions, hrendered]; rfl⟩

theorem renderDefinitions_of_firstFault (h : t.FirstFault definitions.entries error) :
    t.renderDefinitions c namespaceName definitions = .error error := by
  obtain ⟨before, node, definition, after, hentries, hbefore, hfault⟩ := h
  rw [renderDefinitions, hentries, renderNodes_of_fault t.takes_nil hbefore hfault]
  rfl

/-- A rendered node for each definition, in their order. -/
theorem keys_of_renderDefinitions
    (h : t.renderDefinitions c namespaceName definitions = .ok rendered) :
    rendered.keys = definitions.keys := by
  unfold renderDefinitions at h
  cases hnodes : t.renderNodes c namespaceName ∅ definitions.entries with
  | error e => simp [hnodes, Except.map] at h
  | ok nodes =>
    obtain rfl : SortedMap.ofList nodes = rendered := by simpa [hnodes, Except.map] using h
    have hnames := names_of_renderNodes hnodes
    have hascending : Assoc.Ascending nodes := by
      have hdefined : (definitions.entries.map Prod.fst).Pairwise fun a b => compare a b = .lt :=
        List.pairwise_map.2 definitions.ascending
      rw [← hnames] at hdefined
      exact List.pairwise_map.1 hdefined
    have hentries : (SortedMap.ofList nodes).entries = nodes :=
      Assoc.ofList_of_ascending hascending
    rw [SortedMap.keys, hentries, hnames]
    rfl

/-- A node that is alone and ships nothing is rendered, whatever it is. -/
theorem exists_render_of_single {name : String} {definition : NodeDefinition}
    (hnodes : t.nodes.entries = [(name, definition)]) (hships : definition.configKeys = []) :
    ∃ rendered, t.render c namespaceName = .ok rendered ∧ rendered.keys = [name] := by
  have hfine : t.Faultless t.nodes.entries := by
    rw [hnodes]
    exact ⟨List.nodup_singleton _, List.forall_mem_singleton.2 (by rw [hships]; exact List.nodup_nil)⟩
  obtain ⟨rendered, hrendered⟩ := exists_renderDefinitions c namespaceName hfine
  refine ⟨rendered, hrendered, ?_⟩
  rw [keys_of_renderDefinitions hrendered, SortedMap.keys, hnodes]
  rfl

end

end Topology

/-! ## What is rendered of a node -/

/-- **All that belongs to a node, in order**: a ConfigMap if it ships contents, the one object that
runs it, of the kind that its workload type asks for, and a Service.  The workload key is that of
the object that runs it. -/
def RenderedNode.IsComplete (rendered : RenderedNode) (definition : NodeDefinition) : Prop :=
  ∃ (config? : Option Resource) (workload service : Resource),
    rendered.objects.map PlannedObject.object = config?.toList ++ [workload, service] ∧
      config?.isSome = (definition.startupConfig.isSome || !definition.files.isEmpty) ∧
      (∀ config ∈ config?, config.kind = .configMap) ∧
      workload.kind = rendered.classification.workloadType.kind ∧
      service.kind = .service ∧
      rendered.plan.workloadKey? = some workload.key

namespace NodeContext

variable (ctx : NodeContext) (defaults : VmDefaults) (bundle? : Option ConfigBundle)

theorem map_objects : (ctx.objects defaults bundle?).map PlannedObject.object =
    (ctx.config? bundle?).toList ++ [ctx.workload defaults bundle?, ctx.service] := by
  cases bundle? <;> rfl

theorem kind_of_mem_config? {config : Resource} (h : config ∈ ctx.config? bundle?) :
    config.kind = .configMap := by
  obtain ⟨bundle, -, rfl⟩ := Option.map_eq_some_iff.1 h
  rfl

/-- The search for the workload passes the ConfigMap, which is of another kind. -/
theorem workloadKey?_objects : NodePlan.workloadKey?
    ⟨ctx.classification.workloadType, ctx.objects defaults bundle?⟩ =
      some (ctx.workload defaults bundle?).key := by
  have hother (type : WorkloadType) : .configMap ≠ type.kind := by
    cases type <;> decide
  have hconfig : (ctx.config? bundle?).toList.find?
      (·.kind = ctx.classification.workloadType.kind) = none := by
    refine List.find?_eq_none.2 fun config hmem => ?_
    rw [ctx.kind_of_mem_config? bundle? (Option.mem_toList.1 hmem)]
    simpa using hother _
  have hworkload := decide_eq_true (ctx.workload_kind defaults bundle?)
  have hfind : NodePlan.object? ⟨ctx.classification.workloadType, ctx.objects defaults bundle?⟩
      ctx.classification.workloadType.kind = some (ctx.workload defaults bundle?) := by
    rw [NodePlan.object?, map_objects, List.find?_append, hconfig, Option.none_or]
    exact List.find?_cons_of_pos hworkload
  rw [NodePlan.workloadKey?, hfind]
  rfl

end NodeContext

namespace Topology

variable {t : Topology} {c : Classifier} {namespaceName : String}

theorem isComplete_of_isRendered {name : String} {definition : NodeDefinition}
    {bundle? : Option ConfigBundle} {rendered : RenderedNode}
    (h : t.IsRendered c namespaceName name definition bundle? rendered) :
    rendered.IsComplete definition := by
  obtain ⟨hbundle, rfl⟩ := h
  obtain ⟨hstartup, hfiles⟩ := t.contents_nodeConfig name definition
  have hcontent : ((t.context c namespaceName name definition).config? bundle?).isSome =
      (definition.startupConfig.isSome || !definition.files.isEmpty) := by
    rw [← hstartup, ← hfiles]
    rcases ConfigBundle.of_ofNode hbundle with ⟨hempty, rfl⟩ | ⟨hships, entries, rfl⟩
    · exact hempty.symm
    · exact hships.symm
  exact ⟨_, _, _, NodeContext.map_objects _ _ _, hcontent,
    fun _ => NodeContext.kind_of_mem_config? _ _, NodeContext.workload_kind _ _ _, rfl,
    NodeContext.workloadKey?_objects _ _ _⟩

/-- How rendering some definitions turns out. -/
structure RendersExactly (t : Topology) (c : Classifier) (namespaceName : String)
    (definitions : SortedMap String NodeDefinition) : Prop where
  /-- It succeeds on nodes without fault and on no others. -/
  ok_iff : (∃ rendered, t.renderDefinitions c namespaceName definitions = .ok rendered) ↔
    t.Faultless definitions.entries
  /-- What it reports is the first fault. -/
  error_iff : ∀ error, t.renderDefinitions c namespaceName definitions = .error error ↔
    t.FirstFault definitions.entries error
  /-- No manifest is at fault. -/
  built : ∀ node, t.renderDefinitions c namespaceName definitions ≠ .error (.manifest node)
  /-- Each node is rendered once. -/
  keys : ∀ rendered, t.renderDefinitions c namespaceName definitions = .ok rendered →
    rendered.keys = definitions.keys
  /-- Each node is rendered with all that belongs to it, as what it was classified. -/
  complete : ∀ rendered, t.renderDefinitions c namespaceName definitions = .ok rendered →
    ∀ node ∈ rendered.entries, ∃ definition, definitions.get? node.1 = some definition ∧
      node.2.classification = c.classify (t.nodeConfig node.1 definition) ∧
      node.2.IsComplete definition

/-- **Rendering fails exactly when it must**, and what it makes is complete. -/
theorem renders_exactly (t : Topology) (c : Classifier) (namespaceName : String)
    (definitions : SortedMap String NodeDefinition) :
    t.RendersExactly c namespaceName definitions := by
  have herror (error : RenderError) :
      t.renderDefinitions c namespaceName definitions = .error error ↔
        t.FirstFault definitions.entries error := by
    refine ⟨fun h => ?_, renderDefinitions_of_firstFault⟩
    rcases t.faultless_or_firstFault definitions.entries with hfine | ⟨first, hfirst⟩
    · obtain ⟨rendered, hrendered⟩ := exists_renderDefinitions c namespaceName hfine
      rw [hrendered] at h
      cases h
    · rw [renderDefinitions_of_firstFault hfirst] at h
      rwa [← Except.error.inj h]
  refine ⟨⟨?_, exists_renderDefinitions c namespaceName⟩, herror, ?_, fun _ => keys_of_renderDefinitions, ?_⟩
  · rintro ⟨rendered, hrendered⟩
    rcases t.faultless_or_firstFault definitions.entries with hfine | ⟨error, hfirst⟩
    · exact hfine
    · rw [(herror error).2 hfirst] at hrendered
      cases hrendered
  · intro node h
    obtain ⟨before, other, definition, after, -, -, hfault⟩ := (herror _).1 h
    cases hfault
  · intro rendered h node hmem
    obtain ⟨definition, bundle?, hdefinition, hrendered⟩ :=
      isRendered_of_renderDefinitions h node hmem
    refine ⟨definition, SortedMap.get?_eq_some_iff.2 hdefinition, ?_,
      isComplete_of_isRendered hrendered⟩
    rw [hrendered.2]
    rfl

end Topology

end NetLab

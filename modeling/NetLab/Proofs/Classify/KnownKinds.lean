import NetLab.Proofs.Classify.Precedence

/-!
# Known kinds

The known kinds of a workload type are listed as the tables spell them
(`ClassifierTables.mem_knownKinds`), but images and kinds are looked up in lower case, and a kind
that is in both tables is that of a machine.  What a listed text resolves to is therefore a matter of
its lower-case form (`Classifier.known_kinds_resolve`): a pattern decides with the type of the first
spelling that it shares the form with, and a kind is found only if the form is itself in the table.
Where the tables are coherent (`ClassifierTables.Coherent`), everything resolves to the type it is
listed under.
-/

namespace NetLab

open Kube Text

namespace ClassifierTables

variable {tables : ClassifierTables} {type : WorkloadType} {entry : String}

/-- Texts are listed as the tables spell them. -/
theorem mem_knownKinds : entry ∈ tables.knownKinds type ↔
    tables.imagePatterns.get? entry = some type ∨ entry ∈ (tables.kinds type).keys := by
  have hpatterns : entry ∈ (tables.imagePatterns.filter fun _ t => t = type).keys ↔
      tables.imagePatterns.get? entry = some type := by
    simp [SortedMap.keys, SortedMap.filter, SortedMap.get?_eq_some_iff]
  rw [knownKinds, NameSet.ofNames, SortedMap.mem_keys_iff, SortedMap.contains_ofList_iff,
    List.map_map, ← hpatterns, ← List.mem_append]
  simp

/-- What the tables say of a kind in lower case. -/
def KindIs (tables : ClassifierTables) (kind : String) : WorkloadType → Prop
  | .vm => kind ∈ tables.vmKinds.keys
  | .container => kind ∈ tables.containerKinds.keys ∧ kind ∉ tables.vmKinds.keys

/-- No pattern and no indicator occurs in an image. -/
structure Unmatched (tables : ClassifierTables) (image : String) : Prop where
  patterns : ∀ spelling ∈ tables.imagePatterns.keys,
    ¬ (lower spelling).toList <:+: (lower image).toList
  vmIndicators : ∀ text ∈ tables.vmImageIndicators, ¬ text.toList <:+: (lower image).toList
  containerIndicators : ∀ text ∈ tables.containerImageIndicators,
    ¬ text.toList <:+: (lower image).toList

/-- The tables agree with themselves in lower case. -/
structure Coherent (tables : ClassifierTables) : Prop where
  patterns : ∀ one ∈ tables.imagePatterns.entries, ∀ other ∈ tables.imagePatterns.entries,
    lower one.1 = lower other.1 → one.2 = other.2
  vmKinds : ∀ kind ∈ tables.vmKinds.keys, lower kind = kind
  containerKinds : ∀ kind ∈ tables.containerKinds.keys, lower kind = kind ∧ kind ∉ tables.vmKinds.keys

/-- The pattern that decides for an image that is itself in the table. -/
theorem bestPattern_self (hentry : entry ∈ tables.imagePatterns.keys) :
    tables.BestPattern (lower entry) (lower entry) where
  listed := ⟨entry, hentry, rfl⟩
  occurs := List.infix_refl _
  best _ _ hoccurs := .of_part hoccurs

end ClassifierTables

namespace Classifier

variable {c : Classifier} {node : NodeConfig} {type : WorkloadType} {entry : String}

/-- Neither the environment of a node nor an override asks for a workload type. -/
structure Undirected (c : Classifier) (node : NodeConfig) : Prop where
  directive : ∀ value, node.environment.get? Labels.executionModeEntry = some value →
    ∀ type : WorkloadType, lower (trim value) ∉ type.directives
  override : c.overrides.get? node.name = none

theorem Undirected.silent (h : c.Undirected node) :
    ∀ level ∈ [Level.directive, .forcedOverride], ∀ other, ¬ c.Answers node level other := by
  intro level hlevel other hanswers
  cases hanswers with
  | directive hentry hasks => exact h.directive _ hentry _ hasks
  | forcedOverride hforced => simp [h.override] at hforced
  | _ => simp at hlevel

theorem silent_of_unmatched (h : c.tables.Unmatched node.image) :
    ∀ level ∈ [Level.imagePattern, .vmIndicator, .containerIndicator],
      ∀ other, ¬ c.Answers node level other := by
  intro level hlevel other hanswers
  cases hanswers with
  | imagePattern hbest _ =>
    obtain ⟨spelling, hkey, rfl⟩ := hbest.listed
    exact h.patterns spelling hkey hbest.occurs
  | vmIndicator hfirst =>
    obtain ⟨_, _, heq, hoccurs, -⟩ := hfirst
    exact h.vmIndicators _ (by simp [heq]) hoccurs
  | containerIndicator hfirst =>
    obtain ⟨_, _, heq, hoccurs, -⟩ := hfirst
    exact h.containerIndicators _ (by simp [heq]) hoccurs
  | _ => simp at hlevel

/-- A node whose image is a pattern of the table is decided by that pattern. -/
theorem classify_of_image (h : c.Undirected node)
    (hentry : node.image ∈ c.tables.imagePatterns.keys) :
    ∃ spelling type, c.tables.FirstSpelling (lower node.image) spelling type ∧
      c.classify node = ⟨type, .imagePattern (lower node.image)⟩ := by
  have hbest := ClassifierTables.bestPattern_self hentry
  obtain ⟨type, hfound⟩ := hbest.found
  obtain ⟨-, spelling, hfirst⟩ := ClassifierTables.best_of_find? hfound
  exact ⟨spelling, type, hfirst, Decides.classify_eq
    ⟨[.directive, .forcedOverride], .imagePattern, _, rfl, .imagePattern hbest hfirst, h.silent⟩⟩

/-- A kind is reported in lower case, and is in a table in that form. -/
theorem kind_of_classify (h : c.classify node = ⟨type, .nodeKind entry⟩) :
    lower node.kind = entry ∧ entry ∈ (c.tables.kinds type).keys := by
  obtain ⟨_, level, _, -, hanswers, -⟩ := c.decides_classify node
  rw [h] at hanswers
  cases hanswers with
  | vmKind hkind => exact ⟨rfl, hkind⟩
  | containerKind hkind => exact ⟨rfl, hkind⟩

theorem classify_of_kindIs (h : c.Undirected node) (himage : c.tables.Unmatched node.image)
    (hkind : c.tables.KindIs (lower node.kind) type) :
    c.classify node = ⟨type, .nodeKind (lower node.kind)⟩ := by
  have hsilent : ∀ level ∈ [Level.directive, .forcedOverride, .imagePattern, .vmIndicator,
      .containerIndicator], ∀ other, ¬ c.Answers node level other :=
    List.forall_mem_append.2 ⟨h.silent, silent_of_unmatched himage⟩
  cases type with
  | vm => exact Decides.classify_eq ⟨_, .vmKind, _, rfl, .vmKind hkind, hsilent⟩
  | container =>
    refine Decides.classify_eq ⟨_ ++ [.vmKind], .containerKind, _, rfl, .containerKind hkind.1,
      List.forall_mem_append.2 ⟨hsilent, ?_⟩⟩
    intro level hlevel other hanswers
    obtain rfl := List.mem_singleton.1 hlevel
    cases hanswers with
    | vmKind hvm => exact hkind.2 hvm

/-- A node that only its kind can decide is decided by it as the tables say of its lower case. -/
theorem classify_eq_nodeKind_iff (h : c.Undirected node) (himage : c.tables.Unmatched node.image) :
    c.classify node = ⟨type, .nodeKind (lower node.kind)⟩ ↔
      c.tables.KindIs (lower node.kind) type := by
  refine ⟨fun hclassify => ?_, classify_of_kindIs h himage⟩
  have hlisted := (kind_of_classify hclassify).2
  cases type with
  | vm => exact hlisted
  | container =>
    refine ⟨hlisted, fun hvm => ?_⟩
    -- A kind that is in both tables has been decided as that of a machine.
    have hmachine : c.classify node = ⟨.vm, .nodeKind (lower node.kind)⟩ :=
      classify_of_kindIs h himage hvm
    rw [hclassify] at hmachine
    cases hmachine

/-- A kind that no table has in lower case has no say. -/
theorem classify_of_unlisted {kind : String}
    (hnode : ∀ type, lower node.kind ∉ (c.tables.kinds type).keys)
    (hkind : ∀ type, lower kind ∉ (c.tables.kinds type).keys) :
    c.classify { node with kind } = c.classify node := by
  simp only [SortedMap.mem_keys_iff, Bool.not_eq_true] at hnode hkind
  have hvm := hnode .vm
  have hvm' := hkind .vm
  have hcontainer := hnode .container
  have hcontainer' := hkind .container
  simp only [ClassifierTables.kinds] at hvm hvm' hcontainer hcontainer'
  simp only [classify, levels, hvm, hvm', hcontainer, hcontainer', Bool.false_eq_true, reduceIte]

/-- **What a text that is listed resolves to**, as an image and as a kind. -/
structure ResolvesExactly (c : Classifier) (entry : String) : Prop where
  listed : ∀ type, entry ∈ c.tables.knownKinds type ↔
    c.tables.imagePatterns.get? entry = some type ∨ entry ∈ (c.tables.kinds type).keys
  /-- As an image, it resolves to the type it is listed under if that is the type of the first
  spelling with its lower-case form. -/
  image : ∀ node type, c.Undirected node → node.image = entry →
    c.tables.imagePatterns.get? entry = some type →
      (c.classify node).rule = .imagePattern (lower entry) ∧
        ((c.classify node).workloadType = type ↔
          ∃ spelling, c.tables.FirstSpelling (lower entry) spelling type)
  /-- As a kind, it resolves to the type it is listed under if the tables say so of its lower-case
  form. -/
  kind : ∀ node type, c.Undirected node → c.tables.Unmatched node.image → node.kind = entry →
    (c.classify node = ⟨type, .nodeKind (lower entry)⟩ ↔ c.tables.KindIs (lower entry) type)
  /-- If no table has its lower-case form, a node of this kind is one of an unknown kind. -/
  unknown : (∀ type, lower entry ∉ (c.tables.kinds type).keys) →
    ∀ node other, (∀ type, lower other ∉ (c.tables.kinds type).keys) → node.kind = entry →
      c.classify { node with kind := other } = c.classify node
  /-- The spelling in which it is listed is found only by kinds with that lower-case form. -/
  spelled : ∀ node type, c.classify node = ⟨type, .nodeKind entry⟩ → lower node.kind = entry

/-- **Listed texts resolve by their lower-case form.** -/
theorem known_kinds_resolve (c : Classifier) (entry : String) : c.ResolvesExactly entry where
  listed _ := ClassifierTables.mem_knownKinds
  image node type h himage hget := by
    subst himage
    obtain ⟨spelling, type', hfirst, hclassify⟩ :=
      classify_of_image h (SortedMap.mem_keys_iff_exists.2 ⟨type, hget⟩)
    rw [hclassify]
    refine ⟨rfl, ?_, ?_⟩
    · rintro rfl
      exact ⟨spelling, hfirst⟩
    · rintro ⟨_, hfirst'⟩
      exact hfirst.unique hfirst'
  kind node type h himage hkind := by
    subst hkind
    exact classify_eq_nodeKind_iff h himage
  unknown hentry node other hother hkind := by
    subst hkind
    exact classify_of_unlisted hentry hother
  spelled _ _ h := (kind_of_classify h).1

/-! ## A kind in capitals -/

/-- Tables in which a kind of machines is spelled with capitals. -/
def capitalTables : ClassifierTables where
  imagePatterns := ∅
  vmImageIndicators := []
  containerImageIndicators := []
  vmKinds := .ofNames ["CSR1000v"]
  containerKinds := ∅
  vmImageExtensions := []
  vmRegistries := []
  containerRegistries := []

/-- A node of this kind. -/
def capitalNode : NodeConfig := .ofImage "r1" "CSR1000v" "acme/router:1"

/-- **Not every kind that is listed resolves**: this one is listed for machines, and the node is
taken for a container because no rule matches it. -/
theorem not_every_kind_resolves :
    ¬ ∀ (c : Classifier) (node : NodeConfig) (type : WorkloadType), c.Undirected node →
      c.tables.Unmatched node.image → node.kind ∈ (c.tables.kinds type).keys →
        node.kind ∈ c.tables.knownKinds type → (c.classify node).workloadType = type := by
  intro hresolves
  have hundirected : (ofTables capitalTables).Undirected capitalNode := by
    refine ⟨fun value hentry => ?_, rfl⟩
    cases hentry
  have hunmatched : capitalTables.Unmatched capitalNode.image :=
    ⟨by decide, by decide, by decide⟩
  have hclassify : (ofTables capitalTables).classify capitalNode = ⟨.container, .default⟩ := by
    decide +kernel
  have hvm := hresolves (ofTables capitalTables) capitalNode .vm hundirected hunmatched
    (by decide) (by decide)
  rw [hclassify] at hvm
  cases hvm

/-! ## Coherent tables -/

/-- By coherent tables, every known kind resolves to the type it is listed under. -/
theorem resolves_of_coherent (h : c.tables.Coherent) (hnode : c.Undirected node)
    (hlisted : c.tables.imagePatterns.get? node.image = some type ∨
      c.tables.Unmatched node.image ∧ node.kind ∈ (c.tables.kinds type).keys) :
    (c.classify node).workloadType = type := by
  rcases hlisted with hget | ⟨himage, hkind⟩
  · obtain ⟨spelling, type', hfirst, hclassify⟩ :=
      classify_of_image hnode (SortedMap.mem_keys_iff_exists.2 ⟨type, hget⟩)
    rw [hclassify]
    exact h.patterns _ (SortedMap.get?_eq_some_iff.1 hfirst.listed) _
      (SortedMap.get?_eq_some_iff.1 hget) hfirst.spells
  · suffices hlower : c.tables.KindIs (lower node.kind) type by
      rw [classify_of_kindIs hnode himage hlower]
    cases type with
    | vm =>
      rw [h.vmKinds _ hkind]
      exact hkind
    | container =>
      obtain ⟨hlower, hapart⟩ := h.containerKinds _ hkind
      rw [hlower]
      exact ⟨hkind, hapart⟩

end Classifier

/-- The tables that the operator starts with are coherent, as they are in lower case. -/
theorem ClassifierTables.coherent_standard : standard.Coherent where
  patterns := by
    have hlower : ∀ entry ∈ standard.imagePatterns.entries, lower entry.1 = entry.1 := by
      decide +kernel
    intro one hone other hother heq
    rw [hlower one hone, hlower other hother] at heq
    have hget := SortedMap.get?_eq_some_iff.2 hone
    rw [heq, SortedMap.get?_eq_some_iff.2 hother] at hget
    exact (Option.some.inj hget).symm
  vmKinds := by decide +kernel
  containerKinds := by decide +kernel

end NetLab

import Mathlib.Tactic.MkIffOfInductiveProp
import NetLab.Proofs.Classify.Patterns

/-!
# Which level decides

A node is classified by the first level that has an answer.  What a level answers is said here
without the classifier (`Classifier.Answers`): by what stands in the node's environment, in the
overrides and in the tables, and by which of the texts of a table comes first.  A classification is
the one that the chain of levels decides (`Classifier.Decides`) and no other
(`Classifier.first_level_decides`).
-/

namespace NetLab

open Kube Text

/-! ## First in a list -/

/-- The first of some texts that has a property. -/
def FirstWith (property : String → Prop) (texts : List String) (text : String) : Prop :=
  ∃ before after, texts = before ++ text :: after ∧ property text ∧
    ∀ earlier ∈ before, ¬ property earlier

theorem find?_eq_some_iff_firstWith {test : String → Bool} {property : String → Prop}
    (htest : ∀ text, test text = true ↔ property text) {texts : List String} {text : String} :
    texts.find? test = some text ↔ FirstWith property texts text := by
  simp only [List.find?_eq_some_iff_append, FirstWith, Bool.not_eq_true', ← Bool.not_eq_true, htest]
  constructor
  · rintro ⟨htext, before, after, rfl, hbefore⟩
    exact ⟨before, after, rfl, htext, hbefore⟩
  · rintro ⟨before, after, rfl, htext, hbefore⟩
    exact ⟨htext, before, after, rfl, hbefore⟩

/-- What is first in a list is its head, or first behind a head that is passed over. -/
theorem exists_first_cons_iff {α : Type} {property passed : α → Prop} {x : α} {xs : List α} :
    (∃ before y after, x :: xs = before ++ y :: after ∧ property y ∧
        ∀ earlier ∈ before, passed earlier) ↔
      property x ∨ passed x ∧ ∃ before y after, xs = before ++ y :: after ∧ property y ∧
        ∀ earlier ∈ before, passed earlier := by
  constructor
  · rintro ⟨before, y, after, hsplit, hy, hbefore⟩
    cases before with
    | nil =>
      obtain ⟨rfl, -⟩ := List.cons.inj hsplit
      exact Or.inl hy
    | cons head before =>
      obtain ⟨rfl, rfl⟩ := List.cons.inj hsplit
      obtain ⟨hx, hbefore⟩ := List.forall_mem_cons.1 hbefore
      exact Or.inr ⟨hx, before, y, after, rfl, hy, hbefore⟩
  · rintro (hx | ⟨hx, before, y, after, rfl, hy, hbefore⟩)
    · exact ⟨[], x, xs, rfl, hx, nofun⟩
    · exact ⟨x :: before, y, after, rfl, hy, List.forall_mem_cons.2 ⟨hx, hbefore⟩⟩

/-- The first answer comes from the first element that has one. -/
theorem findSome?_eq_some_of_forall₂ {α β : Type} {Answers : α → β → Prop} {xs : List α}
    {answers : List (Option β)}
    (h : List.Forall₂ (fun x answer? => ∀ answer, answer? = some answer ↔ Answers x answer) xs
      answers) {answer : β} :
    answers.findSome? id = some answer ↔ ∃ before x after, xs = before ++ x :: after ∧
      Answers x answer ∧ ∀ earlier ∈ before, ∀ other, ¬ Answers earlier other := by
  induction h with
  | nil => simp
  | @cons x answer? xs answers hhead _ ih =>
    rw [exists_first_cons_iff, ← ih, ← hhead]
    cases answer? with
    | some found =>
      have hspeaks : ¬ ∀ other, ¬ Answers x other := fun hsilent =>
        hsilent found ((hhead found).1 rfl)
      simp [hspeaks]
    | none =>
      have hsilent : ∀ other, ¬ Answers x other := fun other hother => by
        cases (hhead other).2 hother
      simp [hsilent]

/-! ## Levels -/

/-- What a classification may rest on. -/
inductive Level where
  | directive
  | forcedOverride
  | imagePattern
  | vmIndicator
  | containerIndicator
  | vmKind
  | containerKind
  | imageExtension
  | vmRegistry
  | containerRegistry
  | default

/-- The levels in the order of precedence. -/
def Level.chain : List Level :=
  [directive, forcedOverride, imagePattern, vmIndicator, containerIndicator, vmKind, containerKind,
    imageExtension, vmRegistry, containerRegistry, default]

/-- The words by which the environment of a node asks for a workload type. -/
def WorkloadType.directives : WorkloadType → List String
  | vm => ["vm", "virtual-machine"]
  | container => ["container", "pod"]

theorem directiveType?_eq_some_iff {value : String} {type : WorkloadType} :
    directiveType? value = some type ↔ lower (trim value) ∈ type.directives := by
  unfold directiveType? WorkloadType.directives
  split <;> cases type <;> simp_all

namespace Classifier

/-- **What a level answers for a node.**  Images and kinds are seen in lower case, and so is the
value of a directive, without the white space around it. -/
@[mk_iff answers_iff]
inductive Answers (c : Classifier) (node : NodeConfig) : Level → Classification → Prop
  | directive {value : String} {type : WorkloadType}
      (hentry : node.environment.get? Labels.executionModeEntry = some value)
      (hasks : lower (trim value) ∈ type.directives) :
      Answers c node .directive ⟨type, .directive value⟩
  | forcedOverride {type : WorkloadType} (hforced : c.overrides.get? node.name = some type) :
      Answers c node .forcedOverride ⟨type, .forcedOverride⟩
  | imagePattern {pattern spelling : String} {type : WorkloadType}
      (hbest : c.tables.BestPattern (lower node.image) pattern)
      (hfirst : c.tables.FirstSpelling pattern spelling type) :
      Answers c node .imagePattern ⟨type, .imagePattern pattern⟩
  | vmIndicator {text : String}
      (hfirst : FirstWith (·.toList <:+: (lower node.image).toList) c.tables.vmImageIndicators text) :
      Answers c node .vmIndicator ⟨.vm, .imageIndicator text⟩
  | containerIndicator {text : String}
      (hfirst : FirstWith (·.toList <:+: (lower node.image).toList)
        c.tables.containerImageIndicators text) :
      Answers c node .containerIndicator ⟨.container, .imageIndicator text⟩
  | vmKind (hkind : lower node.kind ∈ c.tables.vmKinds.keys) :
      Answers c node .vmKind ⟨.vm, .nodeKind (lower node.kind)⟩
  | containerKind (hkind : lower node.kind ∈ c.tables.containerKinds.keys) :
      Answers c node .containerKind ⟨.container, .nodeKind (lower node.kind)⟩
  | imageExtension {text : String}
      (hfirst : FirstWith (·.toList <:+: (lower node.image).toList)
        c.tables.vmImageExtensions text) :
      Answers c node .imageExtension ⟨.vm, .imageExtension text⟩
  | vmRegistry {text : String}
      (hfirst : FirstWith (·.toList <+: (lower node.image).toList) c.tables.vmRegistries text) :
      Answers c node .vmRegistry ⟨.vm, .registry text⟩
  | containerRegistry {text : String}
      (hfirst : FirstWith (·.toList <+: (lower node.image).toList)
        c.tables.containerRegistries text) :
      Answers c node .containerRegistry ⟨.container, .registry text⟩
  | default : Answers c node .default ⟨.container, .default⟩

/-- **The chain of levels decides**: a level answers, and none before it has an answer. -/
def Decides (c : Classifier) (node : NodeConfig) (classification : Classification) : Prop :=
  ∃ before level after, Level.chain = before ++ level :: after ∧
    c.Answers node level classification ∧
      ∀ earlier ∈ before, ∀ other, ¬ c.Answers node earlier other

variable {c : Classifier} {node : NodeConfig} {classification : Classification}

/-! ### The answers of the levels -/

section

variable {level : Level}

/-- A level at which the first of some texts decides. -/
theorem map_find?_eq_some_iff {test : String → Bool} {property : String → Prop}
    {texts : List String} {answer : String → Classification}
    (htest : ∀ text, test text = true ↔ property text)
    (hlevel : c.Answers node level classification ↔
      ∃ text, FirstWith property texts text ∧ classification = answer text) :
    (texts.find? test).map answer = some classification ↔ c.Answers node level classification := by
  rw [hlevel]
  simp only [Option.map_eq_some_iff, find?_eq_some_iff_firstWith htest, eq_comm]

/-- A level at which a name decides that stands in a table. -/
theorem ite_contains_eq_some_iff {names : NameSet} {name : String} {answer : Classification}
    (hlevel : c.Answers node level classification ↔ name ∈ names.keys ∧ classification = answer) :
    (if names.contains name then some answer else none) = some classification ↔
      c.Answers node level classification := by
  rw [hlevel, SortedMap.mem_keys_iff, Option.ite_none_right_eq_some, Option.some.injEq,
    eq_comm (a := answer)]

end

theorem directive_iff :
    ((node.environment.get? Labels.executionModeEntry).bind fun value =>
      (directiveType? value).map fun type => Classification.mk type (.directive value)) =
        some classification ↔ c.Answers node .directive classification := by
  simp only [Option.bind_eq_some_iff, Option.map_eq_some_iff, directiveType?_eq_some_iff]
  constructor
  · rintro ⟨value, hentry, type, hasks, rfl⟩
    exact .directive hentry hasks
  · rintro (⟨hentry, hasks⟩)
    exact ⟨_, hentry, _, hasks, rfl⟩

theorem forcedOverride_iff :
    ((c.overrideOf? node.name).map fun type => Classification.mk type .forcedOverride) =
      some classification ↔ c.Answers node .forcedOverride classification := by
  rw [Option.map_eq_some_iff]
  constructor
  · rintro ⟨type, hforced, rfl⟩
    exact .forcedOverride hforced
  · rintro (_ | hforced)
    exact ⟨_, hforced, rfl⟩

theorem imagePattern_iff :
    ((c.tables.patternOrder.find? fun entry => occursIn entry.1 (lower node.image)).map
      fun entry => Classification.mk entry.2 (.imagePattern entry.1)) =
        some classification ↔ c.Answers node .imagePattern classification := by
  rw [Option.map_eq_some_iff]
  constructor
  · rintro ⟨⟨pattern, type⟩, hfind, rfl⟩
    obtain ⟨hbest, spelling, hfirst⟩ := ClassifierTables.find?_patternOrder_iff.1 hfind
    exact .imagePattern hbest hfirst
  · rintro (_ | _ | ⟨hbest, hfirst⟩)
    exact ⟨(_, _), ClassifierTables.find?_patternOrder_iff.2 ⟨hbest, _, hfirst⟩, rfl⟩

/-- The answers that the classifier looks through are those of the levels, in their order. -/
theorem answers_levels (c : Classifier) (node : NodeConfig) :
    List.Forall₂ (fun level answer? => ∀ answer, answer? = some answer ↔ c.Answers node level answer)
      Level.chain
      (c.levels node (lower node.image) (lower node.kind) ++ [some ⟨.container, .default⟩]) := by
  have hoccurs (text : String) := occursIn_iff text (lower node.image)
  have hbegins (text : String) := beginsWith_iff text (lower node.image)
  unfold Level.chain levels
  refine .cons ?directive (.cons ?forced (.cons ?pattern (.cons ?vmIndicator
    (.cons ?containerIndicator (.cons ?vmKind (.cons ?containerKind (.cons ?extension
      (.cons ?vmRegistry (.cons ?containerRegistry (.cons ?default .nil))))))))))
  case directive => exact fun _ => directive_iff
  case forced => exact fun _ => forcedOverride_iff
  case pattern => exact fun _ => imagePattern_iff
  case vmIndicator => exact fun _ => map_find?_eq_some_iff hoccurs (by simp [answers_iff])
  case containerIndicator => exact fun _ => map_find?_eq_some_iff hoccurs (by simp [answers_iff])
  case vmKind => exact fun _ => ite_contains_eq_some_iff (by simp [answers_iff])
  case containerKind => exact fun _ => ite_contains_eq_some_iff (by simp [answers_iff])
  case extension => exact fun _ => map_find?_eq_some_iff hoccurs (by simp [answers_iff])
  case vmRegistry => exact fun _ => map_find?_eq_some_iff hbegins (by simp [answers_iff])
  case containerRegistry => exact fun _ => map_find?_eq_some_iff hbegins (by simp [answers_iff])
  case default =>
    intro answer
    simp [answers_iff, eq_comm]

/-! ### The chain -/

theorem classify_eq_findSome? (c : Classifier) (node : NodeConfig) :
    (c.levels node (lower node.image) (lower node.kind) ++
        [some (Classification.mk .container .default)]).findSome? id =
      some (c.classify node) := by
  rw [classify, List.findSome?_append]
  cases (c.levels node (lower node.image) (lower node.kind)).findSome? id <;> rfl

theorem decides_classify (c : Classifier) (node : NodeConfig) : c.Decides node (c.classify node) :=
  (findSome?_eq_some_of_forall₂ (c.answers_levels node)).1 (c.classify_eq_findSome? node)

theorem Decides.classify_eq (h : c.Decides node classification) :
    c.classify node = classification := by
  have hfound := (findSome?_eq_some_of_forall₂ (c.answers_levels node)).2 h
  rw [classify_eq_findSome?] at hfound
  exact Option.some.inj hfound

/-- **The first level with an answer decides.** -/
theorem first_level_decides (c : Classifier) (node : NodeConfig) (classification : Classification) :
    c.classify node = classification ↔ c.Decides node classification :=
  ⟨fun h => h ▸ c.decides_classify node, Decides.classify_eq⟩

end Classifier

end NetLab

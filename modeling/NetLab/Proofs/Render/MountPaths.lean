import Mathlib.Data.List.TakeWhile
import NetLab.Proofs.Render.Completeness

/-!
# Where the contents of a bundle are mounted

Two maps lead from the path of a file: to its key in the ConfigMap and to the path at which it is
mounted.  Collisions are looked for among keys only.  An absolute path is mounted as it is, so it
may be where the startup configuration or a file of a relative path is mounted too; and a path of
slashes alone has nothing left to be a key.

`usable_exactly` says that these are the only ways in which a bundle is not fit for use.  They
happen (`not_every_bundle_usable`).
-/

namespace NetLab

/-! ## Paths -/

namespace ConfigEntry

/-- A path that is mounted as it is. -/
def IsAbsolute (path : String) : Prop := path.toList.head? = some '/'

/-- Where the file of a relative path is mounted. -/
def belowFiles (path : String) : String := filesDirectory ++ "/" ++ path

theorem mountOfPath_of_isAbsolute {path : String} (h : IsAbsolute path) :
    mountOfPath path = path :=
  if_pos h

theorem mountOfPath_of_not_isAbsolute {path : String} (h : ¬ IsAbsolute path) :
    mountOfPath path = belowFiles path :=
  if_neg h

theorem toList_belowFiles (path : String) :
    (belowFiles path).toList = "/etc/networksim/files/".toList ++ path.toList := by
  rw [belowFiles, String.toList_append, String.toList_append]
  rfl

theorem isAbsolute_belowFiles (path : String) : IsAbsolute (belowFiles path) := by
  rw [IsAbsolute, toList_belowFiles]
  rfl

theorem belowFiles_inj {a b : String} (h : belowFiles a = belowFiles b) : a = b := by
  have hlist := congrArg String.toList h
  rw [toList_belowFiles, toList_belowFiles] at hlist
  exact String.toList_inj.1 (List.append_cancel_left hlist)

/-- The startup configuration is not among the files of relative paths. -/
theorem belowFiles_ne_startupPath (path : String) : belowFiles path ≠ startupPath := by
  intro h
  have hlist := congrArg (fun text => text.toList[16]?) h
  simp only [toList_belowFiles] at hlist
  rw [List.getElem?_append_left (by decide)] at hlist
  exact absurd hlist (by decide)

theorem mountOfPath_eq_startupPath_iff {path : String} :
    mountOfPath path = startupPath ↔ path = startupPath := by
  by_cases h : IsAbsolute path
  · rw [mountOfPath_of_isAbsolute h]
  · rw [mountOfPath_of_not_isAbsolute h]
    constructor
    · exact fun heq => absurd heq (belowFiles_ne_startupPath path)
    · rintro rfl
      exact absurd rfl h

/-- **Two files at one place**: one of them has a relative path, and the other one the absolute path
at which that is mounted. -/
theorem mountOfPath_eq_iff {a b : String} : mountOfPath a = mountOfPath b ↔
    a = b ∨ (¬ IsAbsolute a ∧ b = belowFiles a) ∨ (¬ IsAbsolute b ∧ a = belowFiles b) := by
  constructor
  · intro heq
    by_cases ha : IsAbsolute a <;> by_cases hb : IsAbsolute b
    · left
      rwa [mountOfPath_of_isAbsolute ha, mountOfPath_of_isAbsolute hb] at heq
    · rw [mountOfPath_of_isAbsolute ha, mountOfPath_of_not_isAbsolute hb] at heq
      exact Or.inr (Or.inr ⟨hb, heq⟩)
    · rw [mountOfPath_of_not_isAbsolute ha, mountOfPath_of_isAbsolute hb] at heq
      exact Or.inr (Or.inl ⟨ha, heq.symm⟩)
    · left
      rw [mountOfPath_of_not_isAbsolute ha, mountOfPath_of_not_isAbsolute hb] at heq
      exact belowFiles_inj heq
  · rintro (rfl | ⟨ha, rfl⟩ | ⟨hb, rfl⟩)
    · rfl
    · rw [mountOfPath_of_not_isAbsolute ha, mountOfPath_of_isAbsolute (isAbsolute_belowFiles a)]
    · rw [mountOfPath_of_not_isAbsolute hb, mountOfPath_of_isAbsolute (isAbsolute_belowFiles b)]

/-! ## Keys -/

/-- A character that the API server accepts in the key of a ConfigMap. -/
def LegalInKey (c : Char) : Prop :=
  ('a' ≤ c ∧ c ≤ 'z') ∨ ('A' ≤ c ∧ c ≤ 'Z') ∨ ('0' ≤ c ∧ c ≤ '9') ∨ c ∈ ['-', '.', '_']

theorem legalInKey_of_isKeyChar {c : Char} (h : isKeyChar c = true) : LegalInKey c := by
  unfold isKeyChar Char.isAlphanum Char.isAlpha Char.isUpper Char.isLower Char.isDigit at h
  simp only [Bool.or_eq_true, Bool.and_eq_true, decide_eq_true_eq] at h
  rcases h with (((((hupper | hlower) | hdigit) | rfl) | rfl) | rfl)
  · exact Or.inr (Or.inl hupper)
  · exact Or.inl hlower
  · exact Or.inr (Or.inr (Or.inl hdigit))
  all_goals exact Or.inr (Or.inr (Or.inr (by decide)))

theorem legalInKey_keyOfPath (path : String) : ∀ c ∈ (keyOfPath path).toList, LegalInKey c := by
  intro c hc
  rw [keyOfPath, String.toList_ofList] at hc
  obtain ⟨original, -, rfl⟩ := List.mem_map.1 hc
  split
  · exact legalInKey_of_isKeyChar ‹_›
  · exact legalInKey_of_isKeyChar rfl

/-- A key is left of a path that has more than slashes. -/
theorem keyOfPath_ne_empty_iff {path : String} :
    keyOfPath path ≠ "" ↔ ∃ c ∈ path.toList, c ≠ '/' := by
  have hempty : keyOfPath path = "" ↔ path.toList.dropWhile (· = '/') = [] := by
    rw [keyOfPath, ← String.toList_inj, String.toList_ofList]
    exact List.map_eq_nil_iff
  rw [ne_eq, hempty, List.dropWhile_eq_nil_iff]
  simp

end ConfigEntry

/-! ## Bundles -/

open ConfigEntry

/-- The files of the node stay clear of the startup configuration, if there is one. -/
def NodeConfig.ClearOfStartup (node : NodeConfig) : Prop :=
  node.startupConfig.isSome = true → startupPath ∉ node.files.keys

/-- No absolute path of the node is where the file of a relative one is mounted. -/
def NodeConfig.ClearOfFiles (node : NodeConfig) : Prop :=
  ∀ path ∈ node.files.keys, ¬ IsAbsolute path → belowFiles path ∉ node.files.keys

namespace ConfigBundle

variable {node : NodeConfig} {name : String} {bundle : ConfigBundle}

/-- A bundle can be mounted and stored: its contents are at different places, and their keys are
such as the API server accepts. -/
structure Usable (bundle : ConfigBundle) : Prop where
  apart : (bundle.entries.map mountPath).Nodup
  named : ∀ key ∈ bundle.entries.map ConfigEntry.key, key ≠ ""
  legal : ∀ key ∈ bundle.entries.map ConfigEntry.key, ∀ c ∈ key.toList, LegalInKey c

theorem entries_eq_of_ofNode (h : ofNode node name = .ok (some bundle)) :
    bundle.entries = (sources node).map Prod.snd := by
  rw [ofNode_eq] at h
  split at h
  · cases h
  · have hbundle := Except.ok.inj h
    split at hbundle
    · rw [← Option.some.inj hbundle]
    · cases hbundle

theorem mountPaths_eq (h : ofNode node name = .ok (some bundle)) :
    bundle.entries.map mountPath =
      (node.startupConfig.map fun _ => startupPath).toList ++ node.files.keys.map mountOfPath := by
  rw [entries_eq_of_ofNode h, sources, SortedMap.keys]
  cases node.startupConfig <;> simp [ofStartup, ofFile]

theorem keys_eq (h : ofNode node name = .ok (some bundle)) :
    bundle.entries.map ConfigEntry.key =
      (node.startupConfig.map fun _ => startupKey).toList ++ node.files.keys.map keyOfPath := by
  rw [entries_eq_of_ofNode h, sources, SortedMap.keys]
  cases node.startupConfig <;> simp [ofStartup, ofFile]

/-- What holds of the key of the startup configuration and of those of all files holds of all
keys. -/
theorem forall_keys_iff (h : ofNode node name = .ok (some bundle)) {property : String → Prop}
    (hstartup : property startupKey) :
    (∀ key ∈ bundle.entries.map ConfigEntry.key, property key) ↔
      ∀ path ∈ node.files.keys, property (keyOfPath path) := by
  rw [keys_eq h, List.forall_mem_append, List.forall_mem_map]
  refine and_iff_right fun key hkey => ?_
  obtain ⟨content, -, rfl⟩ := Option.map_eq_some_iff.1 (Option.mem_toList.1 hkey)
  exact hstartup

/-- The contents are mounted at different places exactly if the absolute paths are clear of all
others. -/
theorem nodup_mountPaths_iff (h : ofNode node name = .ok (some bundle)) :
    (bundle.entries.map mountPath).Nodup ↔ node.ClearOfStartup ∧ node.ClearOfFiles := by
  have hfiles : (node.files.keys.map mountOfPath).Nodup ↔ node.ClearOfFiles := by
    rw [List.nodup_map_iff_inj_on node.files.nodup_keys]
    constructor
    · intro hinj path hpath hrelative hbelow
      have heq : path = belowFiles path :=
        hinj path hpath _ hbelow (mountOfPath_eq_iff.2 (Or.inr (Or.inl ⟨hrelative, rfl⟩)))
      rw [heq] at hrelative
      exact hrelative (isAbsolute_belowFiles path)
    · intro hclear a ha b hb heq
      rcases mountOfPath_eq_iff.1 heq with rfl | ⟨hrelative, rfl⟩ | ⟨hrelative, rfl⟩
      · rfl
      · exact absurd hb (hclear a ha hrelative)
      · exact absurd ha (hclear b hb hrelative)
  have hmem : startupPath ∈ node.files.keys.map mountOfPath ↔ startupPath ∈ node.files.keys := by
    simp [mountOfPath_eq_startupPath_iff]
  rw [mountPaths_eq h, ← hfiles, NodeConfig.ClearOfStartup]
  cases node.startupConfig <;> simp [hmem]

/-- **What is fit for use and what is not** in a bundle. -/
theorem usable_exactly (h : ofNode node name = .ok (some bundle)) :
    ((bundle.entries.map mountPath).Nodup ↔ node.ClearOfStartup ∧ node.ClearOfFiles) ∧
      ((∀ key ∈ bundle.entries.map ConfigEntry.key, key ≠ "") ↔
        ∀ path ∈ node.files.keys, ∃ c ∈ path.toList, c ≠ '/') ∧
      ∀ key ∈ bundle.entries.map ConfigEntry.key, ∀ c ∈ key.toList, LegalInKey c := by
  have hnamed : (∀ key ∈ bundle.entries.map ConfigEntry.key, key ≠ "") ↔
      ∀ path ∈ node.files.keys, ∃ c ∈ path.toList, c ≠ '/' := by
    rw [forall_keys_iff h (by decide)]
    simp only [keyOfPath_ne_empty_iff]
  have hstartup : ∀ c ∈ startupKey.toList, LegalInKey c := by
    rw [← show keyOfPath startupKey = startupKey by decide]
    exact legalInKey_keyOfPath startupKey
  have hlegal : ∀ key ∈ bundle.entries.map ConfigEntry.key, ∀ c ∈ key.toList, LegalInKey c := by
    rw [forall_keys_iff h hstartup]
    exact fun path _ => legalInKey_keyOfPath path
  exact ⟨nodup_mountPaths_iff h, hnamed, hlegal⟩

/-! A node with a startup configuration and a file at the place where that is mounted. -/

/-- The keys of the two are `startup-config` and `etc_networksim_startup-config`. -/
def shadowing : NodeConfig :=
  { NodeConfig.ofImage "r1" "router" "frr" with
    startupConfig := some "hostname r1"
    files := (∅ : StringMap).insert startupPath "hostname other" }

theorem shadowing_bundle : ∃ bundle, ofNode shadowing "lab-r1-config" = .ok (some bundle) := by
  have hcheck : ((ofNode shadowing "lab-r1-config").toOption.any Option.isSome) = true := by
    decide +kernel
  obtain ⟨bundle?, hbundle, hsome⟩ := exists_ok_of_any hcheck
  obtain ⟨bundle, rfl⟩ := Option.isSome_iff_exists.1 hsome
  exact ⟨bundle, hbundle⟩

theorem shadowing_not_clear : ¬ shadowing.ClearOfStartup := by
  intro hclear
  exact hclear rfl List.mem_cons_self

/-- The file is mounted over the startup configuration. -/
theorem startup_shadowed : ∃ bundle, ofNode shadowing "lab-r1-config" = .ok (some bundle) ∧
    ¬ (bundle.entries.map mountPath).Nodup := by
  obtain ⟨bundle, hbundle⟩ := shadowing_bundle
  refine ⟨bundle, hbundle, fun hapart => ?_⟩
  exact shadowing_not_clear ((usable_exactly hbundle).1.1 hapart).1

/-- **Not every bundle can be mounted and stored.** -/
theorem not_every_bundle_usable : ¬ ∀ (node : NodeConfig) (name : String) (bundle : ConfigBundle),
    ofNode node name = .ok (some bundle) → bundle.Usable := by
  intro husable
  obtain ⟨bundle, hbundle⟩ := shadowing_bundle
  have hapart := (husable _ _ bundle hbundle).apart
  exact shadowing_not_clear ((nodup_mountPaths_iff hbundle).1 hapart).1

end ConfigBundle

end NetLab

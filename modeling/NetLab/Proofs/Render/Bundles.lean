import NetLab.Proofs.Render.Completeness

/-!
# Nothing is lost in a bundle

A node ships its startup configuration and its files under keys of their own, or it is refused.
Whether it is, and for which key, can be read off the keys that its contents want
(`NodeConfig.configKeys`): it is for the first key that is wanted a second time
(`KeyCollision.IsFirst`).  Where no key is, the contents, the entries of the ConfigMap and the mounts
are one and the same list, in three forms (`ConfigBundle.Carries`).

`bundles_exactly` says this of every node.
-/

namespace NetLab

/-- A map that was built from entries with keys of their own has these entries and no others. -/
theorem SortedMap.perm_ofList {κ α : Type} [Ord κ] [Std.LawfulEqOrd κ] [Std.TransOrd κ]
    {entries : List (κ × α)} (hnodup : (entries.map Prod.fst).Nodup) :
    (ofList entries).entries.Perm entries := by
  refine (List.perm_ext_iff_of_nodup ((nodup_keys _).of_map _) (hnodup.of_map _)).2 fun entry => ?_
  exact ⟨Assoc.mem_of_mem_ofList, fun hmem => get?_eq_some_iff.1 (get?_ofList_of_mem hnodup hmem)⟩

/-- What a node ships: its contents, as they are, under the keys that they want. -/
def NodeConfig.keyedContents (node : NodeConfig) : List (String × String) :=
  (node.startupConfig.map fun content => (ConfigEntry.startupKey, content)).toList ++
    node.files.entries.map fun (path, content) => (ConfigEntry.keyOfPath path, content)

theorem NodeConfig.map_fst_keyedContents (node : NodeConfig) :
    node.keyedContents.map Prod.fst = node.configKeys.map Prod.snd := by
  rw [keyedContents, configKeys, SortedMap.keys]
  cases node.startupConfig <;> simp [Function.comp_def]

theorem NodeConfig.hasContent_eq_false_iff {node : NodeConfig} :
    node.hasContent = false ↔ node.startupConfig = none ∧ node.files = ∅ := by
  have hempty : node.files.isEmpty = true ↔ node.files = ∅ := by
    rw [SortedMap.isEmpty, List.isEmpty_iff, SortedMap.ext_iff]
    rfl
  rw [← hempty]
  simp [hasContent]

namespace ConfigBundle

variable {node : NodeConfig} {name : String} {bundle : ConfigBundle} {collision : KeyCollision}

/-- **A bundle carries what a node ships.** -/
structure Carries (bundle : ConfigBundle) (node : NodeConfig) : Prop where
  /-- Each entry is one content, as it is, under its key. -/
  entries : bundle.entries.map (fun entry => (entry.key, entry.content)) = node.keyedContents
  /-- So is each entry of the ConfigMap. -/
  data : bundle.data.entries.Perm node.keyedContents
  /-- Keys lead to one content. -/
  keys : (node.keyedContents.map Prod.fst).Nodup
  /-- Each entry is mounted once, at its place. -/
  mounts : bundle.volumeMounts.map (fun mount => (mount.get "subPath", mount.get "mountPath")) =
    bundle.entries.map fun entry => (.string entry.key, .string entry.mountPath)
  /-- What is mounted is what the ConfigMap has. -/
  mounted : (bundle.volumeMounts.map fun mount => mount.get "subPath").Perm
    (bundle.data.keys.map .string)

theorem map_entries_sources (node : NodeConfig) :
    ((sources node).map Prod.snd).map (fun entry => (entry.key, entry.content)) =
      node.keyedContents := by
  rw [sources, NodeConfig.keyedContents]
  cases node.startupConfig <;> simp [ConfigEntry.ofStartup, ConfigEntry.ofFile, Function.comp_def]

theorem map_mount_volumeMounts (bundle : ConfigBundle) :
    bundle.volumeMounts.map (fun mount => (mount.get "subPath", mount.get "mountPath")) =
      bundle.entries.map fun entry => (.string entry.key, .string entry.mountPath) := by
  rw [volumeMounts, List.map_map]
  refine List.map_congr_left fun entry _ => ?_
  simp [mount, Json.get]

/-- Entries with keys of their own are all that the ConfigMap has, and all that is mounted. -/
theorem carries_of_nodup (hentries : bundle.entries = (sources node).map Prod.snd)
    (hnodup : (node.configKeys.map Prod.snd).Nodup) : bundle.Carries node := by
  rw [← node.map_fst_keyedContents] at hnodup
  have hcontents : bundle.entries.map (fun entry => (entry.key, entry.content)) =
      node.keyedContents := by
    rw [hentries, map_entries_sources]
  have hdata : bundle.data.entries.Perm node.keyedContents := by
    rw [ConfigBundle.data, hcontents]
    exact SortedMap.perm_ofList hnodup
  have hsubPaths : (bundle.volumeMounts.map fun mount => mount.get "subPath") =
      (node.keyedContents.map Prod.fst).map .string := by
    have hmounts := congrArg (List.map Prod.fst) (map_mount_volumeMounts bundle)
    rw [List.map_map, List.map_map] at hmounts
    rw [← hcontents, List.map_map, List.map_map]
    exact hmounts
  refine ⟨hcontents, hdata, hnodup, map_mount_volumeMounts bundle, ?_⟩
  rw [hsubPaths]
  exact ((hdata.map Prod.fst).map Json.string).symm

/-! ## Failing -/

/-- A node whose contents have keys of their own is not refused. -/
theorem ofNode_of_nodup (name : String) (h : (node.configKeys.map Prod.snd).Nodup) :
    ofNode node name =
      .ok (if node.hasContent then some ⟨name, (sources node).map Prod.snd⟩ else none) := by
  rw [← map_sources, List.map_map] at h
  have hfree : firstCollision? [] (sources node) = none := firstCollision?_of_nodup h
  rw [ofNode_eq, hfree]

/-- A node is refused for the first key that is wanted twice. -/
theorem ofNode_eq_error_iff :
    ofNode node name = .error collision ↔ collision.IsFirst node.configKeys := by
  have hrefused {collision : KeyCollision} (h : collision.IsFirst node.configKeys) :
      ofNode node name = .error collision := by
    rw [ofNode_eq, firstCollision?_of_isFirst h]
  refine ⟨fun herror => ?_, hrefused⟩
  rcases KeyCollision.nodup_or_isFirst node.configKeys with hnodup | ⟨first, hfirst⟩
  · rw [ofNode_of_nodup name hnodup] at herror
    cases herror
  · rw [hrefused hfirst] at herror
    rwa [← Except.error.inj herror]

theorem nodup_of_ofNode {bundle? : Option ConfigBundle} (h : ofNode node name = .ok bundle?) :
    (node.configKeys.map Prod.snd).Nodup := by
  refine (KeyCollision.nodup_or_isFirst node.configKeys).resolve_right ?_
  rintro ⟨collision, hfirst⟩
  rw [ofNode_eq_error_iff.2 hfirst] at h
  cases h

theorem exists_error_iff : (∃ collision, ofNode node name = .error collision) ↔
    ¬ (node.configKeys.map Prod.snd).Nodup := by
  simp only [ofNode_eq_error_iff]
  constructor
  · rintro ⟨collision, hfirst⟩
    exact hfirst.not_nodup
  · exact (KeyCollision.nodup_or_isFirst node.configKeys).resolve_left

/-! ## Every node -/

/-- **What bundling a node comes to.** -/
structure BundlesExactly (node : NodeConfig) (name : String) : Prop where
  /-- There is nothing to bundle if there is nothing to ship. -/
  none_iff : ofNode node name = .ok none ↔ node.startupConfig = none ∧ node.files = ∅
  /-- It fails if two contents want one key. -/
  fails_iff : (∃ collision, ofNode node name = .error collision) ↔
    ¬ (node.configKeys.map Prod.snd).Nodup
  /-- It fails for the first key that is wanted a second time. -/
  error_iff : ∀ collision, ofNode node name = .error collision ↔ collision.IsFirst node.configKeys
  /-- That is what the node is refused for by name, and all it is refused for. -/
  refused_iff : ∀ (t : Topology) (c : Classifier) (namespaceName workload : String)
    (error : RenderError), t.renderNode c namespaceName workload node = .error error ↔
      ∃ collision, error = .keyCollision node.name collision ∧ collision.IsFirst node.configKeys
  /-- Otherwise all that the node ships is in the bundle. -/
  bundled : (node.configKeys.map Prod.snd).Nodup →
    node.startupConfig.isSome = true ∨ node.files ≠ ∅ →
      ∃ bundle, ofNode node name = .ok (some bundle) ∧ bundle.name = name ∧ bundle.Carries node

/-- **A bundle loses nothing.** -/
theorem bundles_exactly (node : NodeConfig) (name : String) : BundlesExactly node name where
  none_iff := by
    rw [← NodeConfig.hasContent_eq_false_iff]
    constructor
    · intro h
      rw [ofNode_of_nodup name (nodup_of_ofNode h)] at h
      cases hcontent : node.hasContent with
      | false => rfl
      | true => simp [hcontent] at h
    · intro hcontent
      rw [ofNode, if_neg (by simp [hcontent])]
  fails_iff := exists_error_iff
  error_iff _ := ofNode_eq_error_iff
  refused_iff t c namespaceName workload error := by
    unfold Topology.renderNode
    simp only [NodeContext.workload?_eq]
    cases hbundle : ofNode node (t.bundleName node.name) with
    | error found =>
      have hfound := ofNode_eq_error_iff.1 hbundle
      constructor
      · intro h
        exact ⟨found, (Except.error.inj h).symm, hfound⟩
      · rintro ⟨collision, rfl, hfirst⟩
        rw [ofNode_eq_error_iff.2 hfirst] at hbundle
        rw [Except.error.inj hbundle]
    | ok bundle? =>
      refine ⟨nofun, ?_⟩
      rintro ⟨collision, -, hfirst⟩
      exact absurd (nodup_of_ofNode hbundle) hfirst.not_nodup
  bundled hnodup hships := by
    have hcontent : node.hasContent = true := by
      rw [← Bool.not_eq_false, NodeConfig.hasContent_eq_false_iff]
      rintro ⟨hstartup, hfiles⟩
      rcases hships with hsome | hne
      · simp [hstartup] at hsome
      · exact hne hfiles
    refine ⟨⟨name, (sources node).map Prod.snd⟩, ?_, rfl, carries_of_nodup rfl hnodup⟩
    rw [ofNode_of_nodup name hnodup, if_pos hcontent]

end ConfigBundle

end NetLab

import NetLab.Json.Canonical
import NetLab.Node.Config

/-!
# Config bundles

What a node ships, its startup configuration and its files, goes into one ConfigMap.  Each
`ConfigEntry` has a key in it and a path at which the key is mounted.  Keys may hold only letters,
digits, dashes, dots and underscores, so two files may want one key; then there is no bundle, but a
`KeyCollision`.
-/

namespace NetLab

/-- A content of a bundle: its key, where it is mounted, and the content itself. -/
structure ConfigEntry where
  key : String
  mountPath : String
  content : String
deriving DecidableEq

/-- The contents of a node's ConfigMap, and its name. -/
structure ConfigBundle where
  name : String
  entries : List ConfigEntry
deriving DecidableEq

/-- Two contents of a node that want one key. -/
structure KeyCollision where
  key : String
  first : String
  second : String
deriving DecidableEq

namespace ConfigEntry

/-- The key of the startup configuration. -/
def startupKey : String := "startup-config"

/-- Where the startup configuration is found. -/
def startupPath : String := "/etc/networksim/startup-config"

/-- The directory of files whose paths are relative. -/
def filesDirectory : String := "/etc/networksim/files"

/-- A character that keys may hold. -/
def isKeyChar (c : Char) : Bool := c.isAlphanum || c = '-' || c = '.' || c = '_'

/-- The key for a path: without slashes at its beginning, and with an underscore for each
character that a key cannot hold. -/
def keyOfPath (path : String) : String :=
  String.ofList ((path.toList.dropWhile (· = '/')).map fun c => if isKeyChar c then c else '_')

/-- Where the file of a path is found. -/
def mountOfPath (path : String) : String :=
  if path.toList.head? = some '/' then path else filesDirectory ++ "/" ++ path

/-- The entry for a startup configuration. -/
def ofStartup (content : String) : ConfigEntry := ⟨startupKey, startupPath, content⟩

/-- The entry for a file. -/
def ofFile (path content : String) : ConfigEntry := ⟨keyOfPath path, mountOfPath path, content⟩

end ConfigEntry

namespace ConfigBundle

/-- What a node ships, each entry with the name it goes by in the node: the startup configuration
first, then the files by path. -/
def sources (node : NodeConfig) : List (String × ConfigEntry) :=
  (node.startupConfig.map fun content =>
      (ConfigEntry.startupKey, ConfigEntry.ofStartup content)).toList ++
    node.files.entries.map fun (path, content) => (path, ConfigEntry.ofFile path content)

/-- The first of the sources whose key one before it has; those in `seen` come before all. -/
def firstCollision? (seen : List (String × ConfigEntry)) :
    List (String × ConfigEntry) → Option KeyCollision
  | [] => none
  | (origin, entry) :: rest =>
    match seen.find? fun earlier => earlier.2.key = entry.key with
    | some earlier => some ⟨entry.key, earlier.1, origin⟩
    | none => firstCollision? (seen ++ [(origin, entry)]) rest

/-- The bundle of a node under the given name, if the node ships anything. -/
def ofNode (node : NodeConfig) (name : String) : Except KeyCollision (Option ConfigBundle) :=
  if node.hasContent then
    match firstCollision? [] (sources node) with
    | some collision => .error collision
    | none => .ok (some ⟨name, (sources node).map Prod.snd⟩)
  else .ok none

/-- The contents by key. -/
def data (bundle : ConfigBundle) : StringMap :=
  .ofList (bundle.entries.map fun entry => (entry.key, entry.content))

/-- The name of the volume under which a bundle is mounted. -/
def volumeName : String := "node-config"

/-- The volume that holds the bundle. -/
def volume (bundle : ConfigBundle) : Json :=
  .ofMembers [
    ("name", .string volumeName),
    ("configMap", .ofMembers [("name", .string bundle.name)])]

@[simp]
theorem canonical_volume (bundle : ConfigBundle) : bundle.volume.Canonical := by simp [volume]

/-- The read-only mount of one entry. -/
def mount (entry : ConfigEntry) : Json :=
  .ofMembers [
    ("name", .string volumeName),
    ("mountPath", .string entry.mountPath),
    ("subPath", .string entry.key),
    ("readOnly", .bool true)]

def volumeMounts (bundle : ConfigBundle) : List Json := bundle.entries.map mount

theorem canonical_volumeMounts (bundle : ConfigBundle) :
    ∀ item ∈ bundle.volumeMounts, item.Canonical := by
  simp [volumeMounts, mount]

end ConfigBundle

end NetLab

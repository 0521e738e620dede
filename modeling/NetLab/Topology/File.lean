import NetLab.Topology.Format
import NetLab.Yaml.Reader

/-!
# Topology files

A topology is kept in a file, as a YAML document.  `Topology.ofFile` is what a file gives, once it
has been read or could not be read; `LoadError` says what can be wrong with it.
-/

namespace NetLab

/-- Why a file cannot be read. -/
inductive FileError where
  | notFound
  | isDirectory
deriving DecidableEq

namespace FileError

def message : FileError → String
  | notFound => "No such file or directory (os error 2)"
  | isDirectory => "Is a directory (os error 21)"

end FileError

/-- Why a file gives no topology. -/
inductive LoadError where
  | unreadable (path : String) (cause : FileError)
  /-- The text is no YAML document, or the document is no topology. -/
  | malformed
deriving DecidableEq

namespace LoadError

def message : LoadError → String
  | unreadable path cause => "failed to read topology file " ++ path ++ ": " ++ cause.message
  | malformed => "failed to parse topology"

end LoadError

namespace Topology

/-- The topology that a YAML text describes. -/
def ofYaml? (text : String) : Option Topology := (Yaml.parse? text).bind ofDocument?

/-- The topology of a file, given what reading it has led to. -/
def ofFile (path : String) (content : Except FileError String) : Except LoadError Topology :=
  match content with
  | .error cause => .error (.unreadable path cause)
  | .ok text =>
    match ofYaml? text with
    | some t => .ok t
    | none => .error .malformed

end Topology

end NetLab

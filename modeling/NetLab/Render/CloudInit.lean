import NetLab.Node.Bundle
import NetLab.Yaml.Writer

/-!
# User data of machines

A machine reads its host name, its authorized keys and its startup configuration from a
cloud-config document.
-/

namespace NetLab.CloudInit

open Yaml

/-- The file that holds the startup configuration. -/
def startupFile (content : String) : Block :=
  .mapping [
    ("path", .text ConfigEntry.startupPath),
    ("content", .text content),
    ("permissions", .text "0644")]

/-- The document as a mapping: keys and files are left out where there are none. -/
def document (hostname : String) (startupConfig : Option String) (sshKeys : List String) : Block :=
  let keys := if sshKeys.isEmpty then [] else
    [("ssh_authorized_keys", Block.sequence (sshKeys.map .text))]
  let files := match startupConfig with
    | some content => [("write_files", Block.sequence [startupFile content])]
    | none => []
  .mapping (("hostname", .text hostname) :: keys ++ files)

/-- The user data of a machine. -/
def userData (hostname : String) (startupConfig : Option String) (sshKeys : List String) : String :=
  "#cloud-config\n" ++ String.ofList ((document hostname startupConfig sshKeys).write 0)

end NetLab.CloudInit

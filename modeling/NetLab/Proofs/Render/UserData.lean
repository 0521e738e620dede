import NetLab.Proofs.Yaml.Documents
import NetLab.Proofs.Yaml.Types
import NetLab.Render.CloudInit

/-!
# User data is read back

A machine takes its host name, its keys and its startup configuration from the text of its user
data.  That text is a comment line and a document that is read back to what was written, whatever
texts it was made from (`IsDocument.parse?_write`): no text can add an entry or end one early.

Whether the values are texts again to the reader depends on the types it knows.  The texts that read
as null, truth values or numbers to the writer are quoted.  A reader of YAML 1.1 knows more types,
and takes a text of one of these for something else, unless it is quoted for another reason
(`userData_tells`): a machine with the host name `yes` is not named at all.
-/

namespace NetLab.CloudInit

open Yaml

/-- The texts that user data is made from. -/
def inputs (hostname : String) (startupConfig : Option String) (sshKeys : List String) :
    List String :=
  hostname :: sshKeys ++ startupConfig.toList

/-- The entries that a document has to have: the host name, the keys if there are any, and one file if
there is a startup configuration. -/
inductive IsEntry (hostname : String) (startupConfig : Option String) (sshKeys : List String) :
    String × Block → Prop where
  | hostname : IsEntry hostname startupConfig sshKeys ("hostname", .text hostname)
  | keys (h : sshKeys ≠ []) : IsEntry hostname startupConfig sshKeys
      ("ssh_authorized_keys", .sequence (sshKeys.map .text))
  | file {content : String} (h : startupConfig = some content) :
      IsEntry hostname startupConfig sshKeys ("write_files", .sequence [.mapping [
        ("path", .text ConfigEntry.startupPath), ("content", .text content),
        ("permissions", .text "0644")]])

/-- The block has exactly these entries, each once. -/
def IsDocument (hostname : String) (startupConfig : Option String) (sshKeys : List String)
    (block : Block) : Prop :=
  ∃ entries, block = .mapping entries ∧ (entries.map Prod.fst).Nodup ∧
    ∀ entry, entry ∈ entries ↔ IsEntry hostname startupConfig sshKeys entry

/-- To a reader with the given types the user data is a comment line and a document that tells all
that it was made from, and nothing else. -/
def Tells (retypes : List Char → Bool) (hostname : String) (startupConfig : Option String)
    (sshKeys : List String) : Prop :=
  ∃ body part block, userData hostname startupConfig sshKeys = "#cloud-config\n" ++ body ∧
    Yaml.parse? body = some part ∧ part.node.block? retypes = some block ∧
    IsDocument hostname startupConfig sshKeys block

/-- The keys of documents. -/
def keys : List String :=
  ["hostname", "ssh_authorized_keys", "write_files", "path", "content", "permissions"]

section Document

variable (hostname : String) (startupConfig : Option String) (sshKeys : List String)

theorem isDocument_document :
    IsDocument hostname startupConfig sshKeys (document hostname startupConfig sshKeys) := by
  refine ⟨_, rfl, ?_, fun entry => ⟨fun hentry => ?_, ?_⟩⟩
  · cases startupConfig <;> cases sshKeys <;> simp
  · simp only [List.cons_append, List.mem_cons, List.mem_append] at hentry
    rcases hentry with rfl | hkeys | hfile
    · exact .hostname
    · cases sshKeys with
      | nil => cases hkeys
      | cons key sshKeys =>
        obtain rfl := List.mem_singleton.mp hkeys
        exact .keys (List.cons_ne_nil key sshKeys)
    · cases startupConfig with
      | none => cases hfile
      | some content =>
        obtain rfl := List.mem_singleton.mp hfile
        exact .file rfl
  · rintro (_ | hkeys | hfile)
    · exact List.mem_cons_self
    · simp [hkeys]
    · subst hfile
      simp [startupFile]

variable {hostname startupConfig sshKeys} {block : Block}
  (hdocument : IsDocument hostname startupConfig sshKeys block)
include hdocument

theorem IsDocument.hasKeys : block.HasKeys := by
  obtain ⟨entries, rfl, -, hentries⟩ := hdocument
  refine .mapping (fun entry hentry => ?_) fun entry hentry => ?_
  · cases (hentries entry).mp hentry with
    | hostname => exact show isKey "hostname".toList = true by decide +kernel
    | keys => exact show isKey "ssh_authorized_keys".toList = true by decide +kernel
    | file => exact show isKey "write_files".toList = true by decide +kernel
  · cases (hentries entry).mp hentry with
    | hostname => exact .text hostname
    | keys =>
      refine .sequence fun item hitem => ?_
      obtain ⟨key, -, rfl⟩ := List.mem_map.mp hitem
      exact .text key
    | file =>
      refine .sequence (List.forall_mem_singleton.mpr (.mapping ?_ ?_))
      · simp only [List.forall_mem_cons]
        decide +kernel
      · simp [Block.HasKeys.text]

/-- **The body of user data is read back**, whatever texts it is made from. -/
theorem IsDocument.parse?_write :
    Yaml.parse? (String.ofList (block.write 0)) = some ⟨[], block.node⟩ := by
  have hkeys := hdocument.hasKeys
  obtain ⟨entries, rfl, -, hentries⟩ := hdocument
  cases entries with
  | nil => cases (hentries _).mpr .hostname
  | cons entry entries => exact Block.parse?_write hkeys

/-- What a reader gets back depends on the inputs alone, unless it takes a key, or one of the texts
that are the same in all documents, for something else. -/
theorem IsDocument.kept_iff {retypes : List Char → Bool}
    (hkeys : ∀ key ∈ keys, retypes key.toList = false)
    (hfixed : ∀ text ∈ [ConfigEntry.startupPath, "0644"],
      isUnquoted text.toList = true → retypes text.toList = false) :
    block.Kept retypes ↔ ∀ text ∈ inputs hostname startupConfig sshKeys,
      isUnquoted text.toList = true → retypes text.toList = false := by
  simp only [keys, List.forall_mem_cons] at hkeys hfixed
  obtain ⟨hhost, hauthorized, hfiles, hpath, hcontent, hpermissions, -⟩ := hkeys
  obtain ⟨hstartup, hmode, -⟩ := hfixed
  have hfile : ∀ content, (Block.sequence [.mapping [("path", .text ConfigEntry.startupPath),
      ("content", .text content), ("permissions", .text "0644")]]).Kept retypes ↔
      (isUnquoted content.toList = true → retypes content.toList = false) := by
    intro content
    simp only [Block.kept_sequence_iff, Block.kept_mapping_iff, Block.kept_text_iff,
      List.forall_mem_cons, hpath, hcontent, hpermissions, iff_true_intro hstartup,
      iff_true_intro hmode]
    simp
  have hsequence : (Block.sequence (sshKeys.map .text)).Kept retypes ↔
      ∀ key ∈ sshKeys, isUnquoted key.toList = true → retypes key.toList = false := by
    rw [Block.kept_sequence_iff, List.forall_mem_map]
    simp only [Block.kept_text_iff]
  obtain ⟨entries, rfl, -, hentries⟩ := hdocument
  rw [Block.kept_mapping_iff, inputs, List.cons_append, List.forall_mem_cons,
    List.forall_mem_append]
  constructor
  · rintro ⟨-, hvalues⟩
    refine ⟨?_, fun key hkey => ?_, fun content hcontent => ?_⟩
    · exact (Block.kept_text_iff retypes hostname).mp (hvalues _ ((hentries _).mpr .hostname))
    · have hmem := (hentries _).mpr (.keys (List.ne_nil_of_mem hkey))
      exact hsequence.mp (hvalues _ hmem) key hkey
    · have hmem := (hentries _).mpr (.file (Option.mem_toList.mp hcontent))
      exact (hfile content).mp (hvalues _ hmem)
  · rintro ⟨hname, hauth, hconfig⟩
    refine ⟨fun entry hentry => ?_, fun entry hentry => ?_⟩
    · cases (hentries entry).mp hentry with
      | hostname => exact hhost
      | keys => exact hauthorized
      | file => exact hfiles
    · cases (hentries entry).mp hentry with
      | hostname => exact .text hname
      | keys => exact hsequence.mpr hauth
      | @file content hcontent =>
        exact (hfile content).mpr (hconfig content (Option.mem_toList.mpr hcontent))

end Document

section Readers

variable (hostname : String) (startupConfig : Option String) (sshKeys : List String)

theorem tells_iff_kept (retypes : List Char → Bool) : Tells retypes hostname startupConfig sshKeys ↔
    (document hostname startupConfig sshKeys).Kept retypes := by
  have hdocument := isDocument_document hostname startupConfig sshKeys
  have hparse := hdocument.parse?_write
  rw [← Block.block?_node_iff]
  constructor
  · rintro ⟨body, part, block, hdata, hpart, hblock, -⟩
    have hbody : body = String.ofList ((document hostname startupConfig sshKeys).write 0) :=
      ((String.append_right_inj _).mp hdata).symm
    rw [hbody, hparse, Option.some.injEq] at hpart
    rw [← hpart] at hblock
    rw [hblock, Block.eq_of_block?_node retypes _ hblock]
  · exact fun hblock => ⟨_, _, _, rfl, hparse, hblock, hdocument⟩

/-- **User data is the marking line and a document that is read back.**  To a reader that knows the
types of the writer it tells what it was made from.  To a reader of YAML 1.1 it does so exactly if
none of the inputs that are written as they are is of one of its types. -/
theorem userData_tells :
    (∃ body block, userData hostname startupConfig sshKeys = "#cloud-config\n" ++ body ∧
      Yaml.parse? body = some ⟨[], block.node⟩ ∧
      IsDocument hostname startupConfig sshKeys block) ∧
    Tells readsAsOther hostname startupConfig sshKeys ∧
    (Tells isTyped hostname startupConfig sshKeys ↔
      ∀ text ∈ inputs hostname startupConfig sshKeys,
        isUnquoted text.toList = true → isTyped text.toList = false) := by
  have hdocument := isDocument_document hostname startupConfig sshKeys
  refine ⟨⟨_, _, rfl, hdocument.parse?_write, hdocument⟩, ?_, ?_⟩
  · rw [tells_iff_kept, hdocument.kept_iff]
    · -- the writer leaves no text of its own types unquoted
      intro text _ hunquoted
      simp only [isUnquoted, Bool.and_eq_true, Bool.not_eq_true'] at hunquoted
      exact hunquoted.1
    · decide +kernel
    · decide +kernel
  · rw [tells_iff_kept, hdocument.kept_iff]
    · decide +kernel
    · decide +kernel

end Readers

/-- A machine with the host name `yes` gets a truth value for it. -/
theorem not_every_name_is_told : ¬∀ hostname startupConfig sshKeys,
    Tells isTyped hostname startupConfig sshKeys := by
  intro htells
  have hkept := (tells_iff_kept "yes" none [] isTyped).mp (htells "yes" none [])
  have hwords : ∀ key ∈ keys, isTyped key.toList = false := by decide +kernel
  have hfixed : ∀ text ∈ [ConfigEntry.startupPath, "0644"],
      isUnquoted text.toList = true → isTyped text.toList = false := by decide +kernel
  have hinputs := ((isDocument_document "yes" none []).kept_iff hwords hfixed).mp hkept
  have htyped : isTyped "yes".toList = false := hinputs "yes" List.mem_cons_self (by decide +kernel)
  exact absurd htyped (by decide +kernel)

end NetLab.CloudInit

import NetLab.Json.Basic

/-!
# Merge patches

`Json.mergePatch` is the merge of RFC 7386: a `null` member of the patch removes the member of that
name, an object member is merged into it, and anything else replaces it.  A patch that is no
object replaces the whole value.
-/

namespace NetLab.Json

/-- The members of an object; none for anything else. -/
def membersOrNone : Json → List (String × Json)
  | .object members => members
  | _ => []

mutual

/-- The target changed as the patch says. -/
def mergePatch (target : Json) : (patch : Json) → Json
  | .object members => .object (mergeMembers (membersOrNone target) members)
  | patch => patch
termination_by structural patch => patch

/-- The members of the target changed by the members of the patch, one after the other. -/
def mergeMembers (target : List (String × Json)) :
    (patch : List (String × Json)) → List (String × Json)
  | [] => target
  | (name, member) :: rest =>
    let changed :=
      match member with
      | .null => Assoc.erase name target
      | _ => Assoc.insert name (mergePatch ((Assoc.find? name target).getD .null) member) target
    mergeMembers changed rest
termination_by structural patch => patch

end

end NetLab.Json

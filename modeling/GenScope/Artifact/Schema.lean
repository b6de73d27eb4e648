import GenScope.Artifact
import GenScope.Schema

/-!
# Artifacts from values

An artifact is read from an object and checked: it has a name and the path of a file, and everything
else has a default.
-/

namespace GenScope

/-- Reads a variable, whose type may be left out. -/
def Variable.ofValue : Reader Variable := fun v =>
  (Reader.object "VarDecl" v).andThen fun members =>
    ((members.required "name" Reader.text).map Variable.mk).seq
      (members.optional "cpp_type" [] Reader.text)

/-- Reads a list of variables, which may be left out. -/
def Members.variables (members : Members) (key : Text) : Checked (List Variable) :=
  members.optional key [] (Reader.list Variable.ofValue)

def FunctionArtifact.ofValue : Reader FunctionArtifact := fun v =>
  (Reader.object "FunctionArtifact" v).andThen fun members =>
    ((members.required "name" Reader.text).map FunctionArtifact.mk)
      |>.seq (members.required "path" Reader.nonEmptyText)
      |>.seq (members.optional "was_inlined" false Reader.boolean)
      |>.seq (members.optional "is_resumable" false Reader.boolean)
      |>.seq (members.optional "return_type" [] Reader.text)
      |>.seq (members.variables "parameters")
      |>.seq (members.variables "local_vars")
      |>.seq (members.optional "source" [] Reader.text)

def ClassArtifact.ofValue : Reader ClassArtifact := fun v =>
  (Reader.object "ClassArtifact" v).andThen fun members =>
    ((members.required "name" Reader.text).map ClassArtifact.mk)
      |>.seq (members.required "path" Reader.nonEmptyText)
      |>.seq (members.variables "instance_vars")
      |>.seq (members.optional "source" [] Reader.text)

end GenScope

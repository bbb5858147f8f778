import Compliance.Files.Tree

/-!
# Artifacts

The files a run leaves in its output directory.
-/

namespace Compliance.Cli

inductive Artifact where
  | summary
  | state
  | pending
  | effectiveConfig
  deriving DecidableEq

namespace Artifact

def fileName : Artifact → String
  | summary => "suite_summary.json"
  | state => "suite_state.json"
  | pending => "pending_reports.json"
  | effectiveConfig => "effective_config.json"

def path (a : Artifact) (out : String) : String :=
  Files.join out a.fileName

/-- Writes an artifact; one that cannot be written is left as it was. -/
def write (a : Artifact) (out text : String) (t : Files.Tree) : Files.Tree :=
  (t.writeText (a.path out) text).toOption.getD t

/-- Removes an artifact, if it is there as a file. -/
def remove (a : Artifact) (out : String) (t : Files.Tree) : Files.Tree :=
  (t.removeFile (a.path out)).toOption.getD t

end Artifact

end Compliance.Cli

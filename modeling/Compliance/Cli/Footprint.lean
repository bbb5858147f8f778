import Compliance.Cli.Flushing
import Compliance.Cli.Listing

/-!
# Footprints

The paths whose entries a command can look at or change.  A tree that holds
these paths is enough to perform the command.
-/

namespace Compliance.Cli

open Compliance.Files (Tree)
open Compliance.Suite (SetLimit)

/-- The temporary files of artifacts. -/
def temporariesIn (out : String) : List String :=
  [Files.withExtension (Artifact.path .state out) "tmp",
    Files.withExtension (Artifact.path .pending out) "json.tmp"]

def artifactsIn (out : String) : List String :=
  [Artifact.path .summary out, Artifact.path .state out,
    Artifact.path .pending out, Artifact.path .effectiveConfig out]

/-- The paths a command names, and those that follow from them. -/
def Command.paths (home : Option String) : Command → List String
  | run c =>
      (c.overrides.hostPath? home).toList ++ [c.suite, c.device] ++
        artifactsIn c.out ++ temporariesIn c.out
  | flush c => artifactsIn c.out ++ temporariesIn c.out
  | list c =>
      (c.overrides.hostPath? home).toList ++ [c.suite] ++ c.device.toList
  | config c => (c.overrides.hostPath? home).toList ++ c.suite.toList

/-- Where batches go, once the files of a command are known. -/
def Command.collectorPaths [SetLimit] (s : Setting) : Command → List String
  | run c =>
      match c.prepare s with
      | .ok (chosen, _) => [Files.join c.out chosen.config.reportDir]
      | .error _ => []
  | flush c => [Files.join c.out (c.reportDirIn s.tree)]
  | _ => []

end Compliance.Cli

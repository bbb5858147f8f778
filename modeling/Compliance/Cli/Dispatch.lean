import Compliance.Cli.Flushing
import Compliance.Cli.Help
import Compliance.Cli.Listing

/-!
# Performing a command line

The words of a command line, performed on a file tree.
-/

namespace Compliance.Cli

open Compliance.Suite (SetLimit)

variable [SetLimit]

def ConfigCommand.perform (c : ConfigCommand) (s : Setting) : Reply :=
  .ofExcept s do
    let effective ← loadEffective s c.suite c.overrides
    return .text s (effective.toText ++ "\n")

def Command.perform (c : Command) (s : Setting) : Reply :=
  match c with
  | run c => c.perform s
  | flush c => c.perform s
  | list c => c.perform s
  | config c => c.perform s

def usageComplaint : String :=
  "error: these words do not make a command\n\nFor more information, try '--help'."

def Invocation.perform (i : Invocation) (s : Setting) : Reply :=
  match i with
  | command c => c.perform s
  | help t => .text s t.text
  | version => .text s versionText
  | misuse => .misuse s usageComplaint

/-- What comes of the words of a command line. -/
def perform (words : List String) (s : Setting) : Reply :=
  (Invocation.ofWords words).perform s

end Compliance.Cli

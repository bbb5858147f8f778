import Compliance.Files.Tree
import Compliance.Run.Status
import Compliance.Time.Timestamp

/-!
# Replies

What a command is given and what it leaves behind: an exit code, text for the
two outputs, and the files.
-/

namespace Compliance.Cli

open Compliance.Run (ExitCode)
open Compliance.Time (Timestamp)

/-- What a command has to work with. -/
structure Setting where
  tree : Files.Tree
  /-- The home directory, if it is known. -/
  home : Option String
  /-- The time in milliseconds. -/
  clock : Nat
  /-- An id for the next suite run. -/
  suiteId : String
  /-- An id for the next batch. -/
  batchId : String

def Setting.now (s : Setting) : Timestamp :=
  .ofMillis s.clock

structure Reply where
  exit : Nat
  output : String
  complaint : String
  tree : Files.Tree

namespace Reply

/-- Text on the output and nothing changed. -/
def text (s : Setting) (output : String) : Reply :=
  ⟨0, output, "", s.tree⟩

/-- The command cannot begin; nothing was printed or changed. -/
def refusal (s : Setting) (complaint : String) : Reply :=
  ⟨ExitCode.config.value, "", complaint ++ "\n", s.tree⟩

/-- The words do not make a command. -/
def misuse (s : Setting) (complaint : String) : Reply :=
  ⟨2, "", complaint ++ "\n", s.tree⟩

/-- The reply of a computation that may be refused. -/
def ofExcept (s : Setting) : Except String Reply → Reply
  | .ok r => r
  | .error complaint => refusal s complaint

end Reply

end Compliance.Cli

import Compliance.Cli.Dispatch
import Compliance.Cli.Footprint
import Compliance.Time.Ulid
import Std.Time.DateTime.Timestamp

/-!
# The program

Reads what a command needs from the file system, performs the command on that
tree, and writes back what changed.
-/

namespace Compliance.Main

open Compliance.Files (Entry Location Tree)

/-- The path of a location. -/
def absolute (l : Location) : String :=
  "/" ++ "/".intercalate l

/-- What stands at a location; a directory cannot be read as a file. -/
def look (l : Location) : IO (Option Entry) := do
  try
    return some (.file (← IO.FS.readBinFile (absolute l)))
  catch e =>
    match e with
    | .inappropriateType .. => return some .directory
    | _ => return none

/-- Adds what stands on the way along some components. -/
def loadAlong (t : Tree) (l : Location) : List String → IO Tree
  | [] => return t
  | piece :: rest => do
      if piece.isEmpty || piece == "." then loadAlong t l rest
      else if piece == ".." then loadAlong t l.dropLast rest
      else
        let next := l ++ [piece]
        match t.entry? next with
        | some .directory => loadAlong t next rest
        | some (.file _) => return t
        | none =>
            match ← look next with
            | none => return t
            | some e => loadAlong (t.put next e) next rest

def load (t : Tree) (path : String) : IO Tree :=
  loadAlong t (if Files.isAbsolute path then [] else t.here)
    ((Files.pieces path.toList).map String.ofList)

/-- The same entry in both trees, as far as the file system can tell. -/
def unchanged (before : Tree) (l : Location) : Entry → Bool
  | .directory => before.isDirectory l
  | .file content =>
      match before.entry? l with
      | some (.file old) => old == content
      | _ => false

/-- Makes the file system agree with the later tree. -/
def save (before after : Tree) : IO Unit := do
  for (l, e) in after.entries do
    if !unchanged before l e then
      match e with
      | .directory => IO.FS.createDirAll (absolute l)
      | .file content => IO.FS.writeBinFile (absolute l) content
  for (l, _) in before.entries do
    if (after.entry? l).isNone then IO.FS.removeFile (absolute l)

/-- Performs the words of a command line. -/
def run (words : List String) : IO UInt32 := do
  let here := ((← IO.currentDir).toString.splitOn "/").filter fun p => !p.isEmpty
  let home ← IO.getEnv "HOME"
  let time ← Std.Time.Timestamp.now
  let clock := time.toMillisecondsSinceUnixEpoch.val.toNat
  let suiteId := Time.ulid clock (← IO.rand 0 (Number.twoTo 80 - 1))
  let batchId := Time.ulid clock (← IO.rand 0 (Number.twoTo 80 - 1))
  let setting (t : Tree) : Cli.Setting := ⟨t, home, clock, suiteId, batchId⟩
  let base ← loadAlong ⟨[], here⟩ [] here
  let tree ← match Cli.Invocation.ofWords words with
    | .command c => do
        let tree ← (c.paths home).foldlM load base
        (c.collectorPaths (setting tree)).foldlM load tree
    | _ => pure base
  let reply := Cli.perform words (setting tree)
  save tree reply.tree
  (← IO.getStdout).putStr reply.output
  (← IO.getStderr).putStr reply.complaint
  return reply.exit.toUInt32

end Compliance.Main

def main (words : List String) : IO UInt32 :=
  Compliance.Main.run words

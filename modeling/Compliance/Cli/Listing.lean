import Compliance.Cli.Selection
import Compliance.Text.Columns

/-!
# Listing a suite

A row for each selected entry: what it needs, and what of that the device does
not have.
-/

namespace Compliance.Cli

open Compliance.Device (Capability CapabilitySet Script)
open Compliance.Suite (CaseKind Entry SetLimit)

structure Row where
  id : String
  kind : CaseKind
  requires : CapabilitySet
  /-- Whether the device has everything, if there is a device. -/
  runnable : Option Bool
  missing : List Capability
  deriving DecidableEq

namespace Row

/-- The row of an entry, which stands for a check with the given needs. -/
def ofEntry (device : Option Script) (e : Entry) (requires : CapabilitySet) :
    Row :=
  let missing := match device with
    | none => []
    | some d => d.profile.missing requires
  ⟨e.id.text, e.kind, requires, device.map fun _ => missing.isEmpty, missing⟩

def toJson (r : Row) : Json :=
  .object [("id", .string r.id), ("kind", .string r.kind.wire),
    ("missing", .array (r.missing.map Capability.toJson)),
    ("requires", r.requires.toJson),
    ("runnable", match r.runnable with
      | none => .null
      | some b => .bool b)]

def runnableText : Option Bool → String
  | some true => "yes"
  | some false => "no"
  | none => "-"

def render (r : Row) : String :=
  Text.padRight 48 r.id ++ " " ++ Text.padRight 28 r.kind.wire ++ " runnable: " ++
    Text.padRight 3 (runnableText r.runnable) ++ " requires: " ++
    ", ".intercalate r.requires.names ++ "\n"

end Row

/-- The rows of entries; the first entry that stands for no check stops it. -/
def rowsOf (device : Option Script) : List Entry → Except String (List Row)
  | [] => .ok []
  | e :: rest =>
      match e.toCase with
      | .error err => .error (entryComplaint err)
      | .ok c => (rowsOf device rest).map fun rows =>
          Row.ofEntry device e c.requires :: rows

def renderRows (json : Bool) (rows : List Row) : String :=
  if json then (Json.array (rows.map Row.toJson)).print .pretty ++ "\n"
  else if rows.isEmpty then "No tests selected.\n"
  else String.join (rows.map Row.render)

def ListCommand.perform [SetLimit] (c : ListCommand) (s : Setting) : Reply :=
  .ofExcept s do
    let chosen ← select s c.suite c.overrides (loadDevice? s c.device)
    let rows ← rowsOf chosen.device chosen.entries
    return .text s (renderRows c.json rows)

end Compliance.Cli

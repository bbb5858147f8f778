import Compliance.Cli.Command
import Compliance.Cli.Reply
import Compliance.Device.Script
import Compliance.Suite.Effective

/-!
# Selections

What `run` and `list` share: the effective configuration, the device, and the
entries that are selected.  Whatever is wrong with them is found here, before
any file is written.
-/

namespace Compliance.Cli

open Compliance.Device (Script)
open Compliance.Suite (Config ConfigError Effective Entry EntryError SetLimit)

def configComplaint (e : ConfigError) : String :=
  "Configuration error: " ++ e.message

def entryComplaint (e : EntryError) : String :=
  "Configuration error: " ++ e.message

def deviceComplaint (detail : String) : String :=
  "Error loading device file: " ++ detail

/-- The effective configuration of the files and overrides. -/
def loadEffective [SetLimit] (s : Setting) (suite : Option String) (o : Overrides) :
    Except String Effective :=
  (Effective.build s.tree (o.hostPath? s.home) suite o.layer? s.now).mapError
    configComplaint

def loadDevice (s : Setting) (path : String) : Except String Script :=
  match s.tree.readText path with
  | .error e => .error (deviceComplaint (path ++ ": " ++ e.message))
  | .ok text =>
      match (Toml.ofText? text).bind (Script.ofJson? .toml) with
      | none => .error (deviceComplaint (path ++ ": not a device file"))
      | some script => .ok script

/-- A device that need not be given. -/
def loadDevice? (s : Setting) : Option String → Except String (Option Script)
  | none => .ok none
  | some path => (loadDevice s path).map some

structure Selection (δ : Type) where
  effective : Effective
  config : Config
  device : δ
  entries : List Entry

/-- Loads what a suite file says and, on the way, a device. -/
def select [SetLimit] {δ : Type} (s : Setting) (suite : String) (o : Overrides)
    (device : Except String δ) : Except String (Selection δ) := do
  let effective ← loadEffective s (some suite) o
  let config ← effective.suiteConfig.mapError configComplaint
  let device ← device
  let entries ← config.selected.mapError configComplaint
  return ⟨effective, config, device, entries⟩

end Compliance.Cli

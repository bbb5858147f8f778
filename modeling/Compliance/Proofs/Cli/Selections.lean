import Compliance.Cli.Running
import Compliance.Proofs.Device.Script
import Compliance.Proofs.Suite.Selected

/-!
# What is selected

Only configurations that were found valid get to a selection, so that its ids
are distinct and its times within bounds.  What is selected depends on the files
and on nothing else but, for a note, the time.
-/

namespace Compliance.Cli

open Compliance.Check (TestCase)
open Compliance.Device (Script)
open Compliance.Suite (Config Effective Entry SetLimit)

variable {s s' : Setting} {suite : String} {o : Overrides}

/-- What holds of any selection. -/
structure Selection.Valid {δ : Type} (chosen : Selection δ) : Prop where
  test : chosen.config.settings.timeouts.test ≤ Check.Timeouts.maxTest
  ids : (chosen.entries.map (·.id)).Nodup

theorem select_valid [SetLimit] {δ : Type} {device : Except String δ} {chosen : Selection δ}
    (h : select s suite o device = .ok chosen) : chosen.Valid ∧ device = .ok chosen.device := by
  obtain ⟨effective, -, h⟩ := bind_eq_ok.1 h
  obtain ⟨config, hconfig, h⟩ := bind_eq_ok.1 h
  obtain ⟨device', hdevice, h⟩ := bind_eq_ok.1 h
  obtain ⟨entries, hentries, h⟩ := bind_eq_ok.1 h
  cases h
  have hvalid := Effective.validate_of_suiteConfig (mapError_eq_ok.1 hconfig)
  obtain ⟨htest, hids⟩ := Config.bounded_of_validate hvalid
  have hsublist := Config.sublist_of_selected (mapError_eq_ok.1 hentries)
  exact ⟨⟨htest, hids.sublist (hsublist.map _)⟩, hdevice⟩

/-- A device was read from its file. -/
theorem ofJson?_of_loadDevice {path : String} {device : Script}
    (h : loadDevice s path = .ok device) : ∃ v, Script.ofJson? .toml v = some device := by
  unfold loadDevice at h
  split at h
  · cases h
  · split at h
    · cases h
    · rename_i hread
      cases h
      obtain ⟨v, -, hv⟩ := Option.bind_eq_some_iff.1 hread
      exact ⟨v, hv⟩

/-- What a run prepares: a valid selection with a device from a file, and the
checks of its entries. -/
structure Prepared [SetLimit] (c : RunCommand) (s : Setting) (chosen : Selection Script)
    (cases : List TestCase) : Prop where
  selected : select s c.suite c.overrides (loadDevice s c.device) = .ok chosen
  valid : chosen.Valid
  device : ∃ v, Script.ofJson? .toml v = some chosen.device
  cases : chosen.entries.mapM Entry.toCase = .ok cases

theorem RunCommand.prepared_of_prepare [SetLimit] {c : RunCommand} {chosen : Selection Script}
    {cases : List TestCase} (h : c.prepare s = .ok (chosen, cases)) :
    Prepared c s chosen cases := by
  obtain ⟨chosen', hselect, h⟩ := bind_eq_ok.1 h
  obtain ⟨cases', hcases, h⟩ := bind_eq_ok.1 h
  cases h
  obtain ⟨hvalid, hdevice⟩ := select_valid hselect
  refine ⟨hselect, hvalid, ofJson?_of_loadDevice hdevice, ?_⟩
  rw [← Suite.casesOf_eq_mapM hvalid.ids]
  exact mapError_eq_ok.1 hcases

end Compliance.Cli

import Compliance.Cli.Flushing
import Compliance.Proofs.Files.Trees

/-!
# Artifacts of an output directory

Each artifact has its name in the directory that the output path leads to, and
so have the files under which states and pending reports are written first.
-/

namespace Compliance.Cli

open Compliance.Files (IsName Location Tree)
open Compliance.Report (Outbox)
open Compliance.Run (State)

/-- The name pending reports are written under first. -/
def pendingDraft : String := "pending_reports.json.tmp"

/-- The name states are written under first. -/
def stateDraft : String := "suite_state.tmp"

theorem isName_pendingDraft : IsName pendingDraft := by decide

theorem isName_stateDraft : IsName stateDraft := by decide

theorem Artifact.isName_fileName (a : Artifact) : IsName a.fileName := by
  cases a <;> decide

theorem withExtension_pending (out : String) :
    Files.withExtension (Artifact.path .pending out) "json.tmp" =
      Files.join out pendingDraft :=
  Files.withExtension_join (Artifact.isName_fileName .pending) (by decide) out (by decide)

theorem withExtension_state (out : String) :
    Files.withExtension (Artifact.path .state out) "tmp" = Files.join out stateDraft :=
  Files.withExtension_join (Artifact.isName_fileName .state) (by decide) out (by decide)

/-- Writing an artifact changes nothing but files of its name. -/
theorem Artifact.kept_write (a : Artifact) (out text : String) (t : Tree) :
    Tree.Kept (fun l => l.getLast? = some a.fileName) (fun _ => False) t
      (a.write out text t) := by
  unfold write
  cases hw : t.writeText (a.path out) text with
  | error e => exact .refl t
  | ok u =>
      obtain ⟨l, hl, hd, rfl⟩ := Tree.write_eq_ok hw
      obtain ⟨m, _, rfl⟩ := Tree.locate_join_eq_ok a.isName_fileName hl
      refine (Tree.kept_putFile hd _).mono ?_ fun _ h => h
      rintro _ rfl
      simp

/-- Replacing a file in a directory changes nothing but files of the two names. -/
theorem kept_replaceNamed {draft name : String} (hd : IsName draft) (hn : IsName name)
    (out text : String) (t : Tree) :
    Tree.Kept (fun l => l.getLast? = some draft ∨ l.getLast? = some name) (fun _ => False) t
      (t.replaceText (Files.join out draft) (Files.join out name) text).1 := by
  apply Tree.kept_replaceText
  · intro l hl
    obtain ⟨m, _, rfl⟩ := Tree.locate_join_eq_ok hd hl
    exact Or.inl (by simp)
  · intro u l hl
    obtain ⟨m, _, rfl⟩ := Tree.locate_join_eq_ok hn hl
    exact Or.inr (by simp)

theorem kept_saveState (s : State) (out : String) (t : Tree) :
    Tree.Kept (fun l => l.getLast? = some stateDraft ∨
        l.getLast? = some (Artifact.fileName .state)) (fun _ => False) t
      (s.save t (Artifact.path .state out)).1 := by
  rw [State.save, withExtension_state]
  exact kept_replaceNamed isName_stateDraft (Artifact.isName_fileName .state) out _ t

theorem kept_savePending (o : Outbox) (out : String) (t : Tree) :
    Tree.Kept (fun l => l.getLast? = some pendingDraft ∨
        l.getLast? = some (Artifact.fileName .pending)) (fun _ => False) t
      (o.save t (Artifact.path .pending out)).1 := by
  rw [Outbox.save, withExtension_pending]
  exact kept_replaceNamed isName_pendingDraft (Artifact.isName_fileName .pending) out _ t

/-- Removing an artifact changes nothing but files of its name. -/
theorem Artifact.kept_remove (a : Artifact) (out : String) (t : Tree) :
    Tree.Kept (fun l => l.getLast? = some a.fileName) (fun _ => False) t
      (a.remove out t) := by
  unfold remove
  cases hr : t.removeFile (a.path out) with
  | error e => exact .refl t
  | ok u =>
      obtain ⟨l, content, hl, he, rfl⟩ := Tree.removeFile_eq_ok hr
      obtain ⟨m, -, rfl⟩ := Tree.locate_join_eq_ok a.isName_fileName hl
      refine (Tree.kept_erase he).mono ?_ fun _ h => h
      rintro _ rfl
      simp

section Home

variable {t : Tree} {out : String} {home : Location} (hp : t.place out = .ok home)
  (hd : t.isDirectory home = true)

include hp hd

theorem Artifact.locate_path (a : Artifact) :
    t.locate (a.path out) = .ok (home ++ [a.fileName]) :=
  Tree.locate_join_of_place hp hd a.isName_fileName

theorem Artifact.write_of_place (a : Artifact)
    (hf : t.isDirectory (home ++ [a.fileName]) = false) (text : String) :
    a.write out text t = t.put (home ++ [a.fileName]) (.file text.toUTF8) := by
  have hw : t.writeText (a.path out) text = .ok (t.put (home ++ [a.fileName]) _) :=
    Tree.write_of_locate (a.locate_path hp hd) hf _
  rw [write, hw]
  rfl

theorem Artifact.remove_of_place (a : Artifact) {content : ByteArray}
    (he : t.entry? (home ++ [a.fileName]) = some (.file content)) :
    a.remove out t = t.erase (home ++ [a.fileName]) := by
  rw [remove, Tree.removeFile_of_locate (a.locate_path hp hd) he]
  rfl

theorem Artifact.exists?_path (a : Artifact) :
    t.exists? (a.path out) = (t.entry? (home ++ [a.fileName])).isSome :=
  Tree.exists?_of_locate (a.locate_path hp hd)

theorem Artifact.readText_path (a : Artifact) {text : String}
    (he : t.entry? (home ++ [a.fileName]) = some (.file text.toUTF8)) :
    t.readText (a.path out) = .ok text :=
  Tree.readText_of_locate (a.locate_path hp hd) he

/-- Saved pending reports are in their place, and only they have changed. -/
theorem save_pending (o : Outbox)
    (hf : t.isDirectory (home ++ [Artifact.fileName .pending]) = false)
    (hdraft : t.isDirectory (home ++ [pendingDraft]) = false) :
    Tree.entry? (o.save t (Artifact.path .pending out)).1
        (home ++ [Artifact.fileName .pending]) = some (.file o.toText.toUTF8) ∧
      (o.save t (Artifact.path .pending out)).1.isDirectory (home ++ [pendingDraft]) =
        false ∧
      Tree.Kept (fun l => l = home ++ [pendingDraft] ∨
          l = home ++ [Artifact.fileName .pending]) (fun _ => False) t
        (o.save t (Artifact.path .pending out)).1 := by
  have hl := Tree.locate_join_of_place hp hd isName_pendingDraft
  have hm := Artifact.locate_path hp hd .pending
  have hname : Artifact.fileName .pending ≠ pendingDraft := by decide
  have hne : home ++ [Artifact.fileName .pending] ≠ home ++ [pendingDraft] := by
    simpa using hname
  unfold Outbox.save
  rw [withExtension_pending, Tree.replaceText_of_locate hl hm hdraft hf]
  refine ⟨?_, ?_, ?_⟩
  · rw [Tree.entry?_put (by simp), if_pos rfl]
  · unfold Tree.isDirectory
    rw [Tree.entry?_put (by simp), if_neg hne.symm, Tree.entry?_erase (by simp), if_pos rfl]
  · exact Tree.kept_replaced hdraft (Tree.isDirectory_put_file (by simp) t _ hf) (Or.inl rfl)
      (Or.inr rfl)

theorem load_pending {o : Outbox}
    (he : t.entry? (home ++ [Artifact.fileName .pending]) = some (.file o.toText.toUTF8))
    (ho : Outbox.ofText? o.toText = some o) :
    Outbox.load t (Artifact.path .pending out) = .ok o := by
  unfold Outbox.load
  rw [Artifact.readText_path hp hd .pending he]
  simp only [ho]

end Home

/-- Pending reports that are read are in a file below the output directory. -/
theorem place_of_load {t : Tree} {out : String} {o : Outbox}
    (h : Outbox.load t (Artifact.path .pending out) = .ok o) :
    ∃ home content, t.place out = .ok home ∧ t.isDirectory home = true ∧
      t.entry? (home ++ [Artifact.fileName .pending]) = some (.file content) := by
  unfold Outbox.load at h
  cases hr : t.readText (Artifact.path .pending out) with
  | error e =>
      rw [hr] at h
      cases h
  | ok text =>
      obtain ⟨l, content, hl, he⟩ := Tree.readText_eq_ok hr
      have hname := Artifact.isName_fileName .pending
      obtain ⟨home, hp, rfl⟩ := Tree.locate_join_eq_ok hname hl
      rw [Artifact.path, Tree.locate_join hname, hp] at hl
      exact ⟨home, content, hp, (Tree.follow_name_ok hname hl).1, he⟩

theorem load_congr {t t' : Tree} {out : String} {home : Location}
    (hp : t.place out = .ok home) (hd : t.isDirectory home = true)
    (hp' : t'.place out = .ok home) (hd' : t'.isDirectory home = true)
    (he : t'.entry? (home ++ [Artifact.fileName .pending]) =
      t.entry? (home ++ [Artifact.fileName .pending])) :
    Outbox.load t' (Artifact.path .pending out) = Outbox.load t (Artifact.path .pending out) := by
  have hl := Artifact.locate_path hp hd .pending
  have hl' := Artifact.locate_path hp' hd' .pending
  simp only [Outbox.load, Tree.readText, Tree.read, hl, hl', he, bind, Except.bind]

end Compliance.Cli

import Compliance.Proofs.Files.Trees
import Compliance.Proofs.Report.Outbox
import Compliance.Report.Collector

/-!
# Batches in a directory

A collector that writes to a directory either takes a batch, which is then one
new file under the name of its id, or leaves at most a draft and some
directories on the way.
-/

namespace Compliance.Report

open Compliance.Files (IsName Location Tree)

/-- The name of the file of a batch. -/
def batchName (batchId : String) : String :=
  "batch-" ++ batchId ++ ".json"

/-- The name of the file a batch is written to first. -/
def draftName (batchId : String) : String :=
  ".batch-" ++ batchId ++ ".json.tmp"

/-- The id can be part of the name of a file. -/
def IsPlain (batchId : String) : Prop :=
  '/' ∉ batchId.toList

instance (batchId : String) : Decidable (IsPlain batchId) :=
  inferInstanceAs (Decidable (¬ _))

theorem toList_batchName (batchId : String) : (batchName batchId).toList =
    'b' :: ("atch-".toList ++ batchId.toList ++ ".json".toList) := by
  simp [batchName]

theorem toList_draftName (batchId : String) : (draftName batchId).toList =
    '.' :: 'b' :: ("atch-".toList ++ batchId.toList ++ ".json.tmp".toList) := by
  simp [draftName]

theorem isName_batchName {batchId : String} (h : IsPlain batchId) :
    IsName (batchName batchId) := by
  have hlist := toList_batchName batchId
  refine ⟨?_, ?_, ?_, ?_⟩
  · intro he
    simp [he] at hlist
  · intro he
    simp [he] at hlist
  · intro he
    simp [he] at hlist
  · rw [hlist]
    unfold IsPlain at h
    simp [h]

theorem isName_draftName {batchId : String} (h : IsPlain batchId) :
    IsName (draftName batchId) := by
  have hlist := toList_draftName batchId
  refine ⟨?_, ?_, ?_, ?_⟩
  · intro he
    simp [he] at hlist
  · intro he
    simp [he] at hlist
  · intro he
    simp [he] at hlist
  · rw [hlist]
    unfold IsPlain at h
    simp [h]

theorem batchName_ne {batchId name : String} (h : name.toList.head? ≠ some 'b') :
    batchName batchId ≠ name := by
  rintro rfl
  exact h (by rw [toList_batchName]; rfl)

theorem draftName_ne {batchId name : String} (h : name.toList.head? ≠ some '.') :
    draftName batchId ≠ name := by
  rintro rfl
  exact h (by rw [toList_draftName]; rfl)

namespace Collector

variable {directory : String} {b : Batch} {t t' : Tree}

/-- Where a directory may come when batches go to a path. -/
def NewOnWay (t : Tree) (directory : String) (l : Location) : Prop :=
  l ∈ t.way directory ∧ t.entry? l = none

/-- A batch that is refused leaves a draft at most. -/
theorem kept_of_error (hb : IsPlain b.batchId) {e : TransportError}
    (h : (toDirectory directory).accept b t = (.error e, t')) :
    Tree.Kept (fun l => l.getLast? = some (draftName b.batchId)) (NewOnWay t directory)
      t t' := by
  have hway := Tree.kept_createDirectories t directory
  simp only [toDirectory] at h
  cases hc : t.createDirectories directory with
  | mk u answer =>
      rw [hc] at h hway
      have hkept : Tree.Kept (fun l => l.getLast? = some (draftName b.batchId))
          (NewOnWay t directory) t u := hway.mono (fun _ h => h.elim) fun _ h => h
      cases answer with
      | error e =>
          obtain ⟨_, rfl⟩ := Prod.mk.inj h
          exact hkept
      | ok _ =>
          simp only at h
          split at h
          · rename_i v e hr
            obtain ⟨_, rfl⟩ := Prod.mk.inj h
            rcases Tree.replaceText_eq_error hr with rfl | ⟨l, hl, hd, rfl⟩
            · exact hkept
            · obtain ⟨m, _, rfl⟩ := Tree.locate_join_eq_ok (isName_draftName hb) hl
              refine hkept.trans ((Tree.kept_putFile hd _).mono ?_ fun _ h => h.elim)
              rintro _ rfl
              simp
          · simp at h

/-- A batch that is taken is a new file with its text. -/
theorem filed_of_ok (hb : IsPlain b.batchId) {a : Acceptance}
    (h : (toDirectory directory).accept b t = (.ok a, t')) :
    ∃ m : Location, t'.entry? (m ++ [batchName b.batchId]) = some (.file b.toText.toUTF8) ∧
      Tree.Kept (fun l => l.getLast? = some (draftName b.batchId) ∨
        l = m ++ [batchName b.batchId]) (NewOnWay t directory) t t' := by
  have hway := Tree.kept_createDirectories t directory
  simp only [toDirectory] at h
  cases hc : t.createDirectories directory with
  | mk u answer =>
      rw [hc] at h hway
      cases answer with
      | error e => simp at h
      | ok _ =>
          simp only at h
          split at h
          · simp at h
          · rename_i v hr
            obtain ⟨_, rfl⟩ := Prod.mk.inj h
            obtain ⟨l, m, hl, hd, hm, hd', rfl⟩ := Tree.replaceText_eq_ok hr
            obtain ⟨_, _, rfl⟩ := Tree.locate_join_eq_ok (isName_draftName hb) hl
            obtain ⟨k, _, rfl⟩ := Tree.locate_join_eq_ok (isName_batchName hb) hm
            refine ⟨k, ?_, ?_⟩
            · rw [Tree.entry?_put (by simp), if_pos rfl]
            · refine (hway.mono (fun _ h => h.elim) fun _ h => h).trans
                ((Tree.kept_replaced hd hd' ?_ ?_).mono (fun _ h => h) fun _ h => h.elim)
              · exact Or.inl (by simp)
              · exact Or.inr rfl

/-- A batch is taken where its directory can be made and no directory has one of its
names. -/
theorem accept_of_free (hb : IsPlain b.batchId) {u : Tree} {home : Location}
    (hc : t.createDirectories directory = (u, .ok ())) (hp : u.place directory = .ok home)
    (hd : u.isDirectory home = true)
    (hdraft : u.isDirectory (home ++ [draftName b.batchId]) = false)
    (hbatch : u.isDirectory (home ++ [batchName b.batchId]) = false) :
    ∃ a t', (toDirectory directory).accept b t = (.ok a, t') := by
  have hfrom := Tree.locate_join_of_place hp hd (isName_draftName hb)
  have hto := Tree.locate_join_of_place hp hd (isName_batchName hb)
  have hreplace : u.replaceText (Files.join directory (draftName b.batchId))
      (Files.join directory (batchName b.batchId)) b.toText = _ :=
    Tree.replaceText_of_locate hfrom hto hdraft hbatch
  have htemporary : batchTemporary directory b.batchId =
      Files.join directory (draftName b.batchId) := rfl
  have hpath : batchPath directory b.batchId = Files.join directory (batchName b.batchId) := rfl
  simp only [toDirectory, hc, htemporary, hpath, hreplace]
  exact ⟨_, _, rfl⟩

/-- A batch is taken by a directory that is made for it. -/
theorem accept_of_new (hb : IsPlain b.batchId) {out name : String} {home : Location}
    (hp : t.place out = .ok home) (hd : t.isDirectory home = true) (hname : IsName name)
    (hnone : t.entry? (home ++ [name]) = none)
    (hbelow : ∀ last, t.isDirectory (home ++ [name] ++ [last]) = false) :
    ∃ a t', (toDirectory (Files.join out name)).accept b t = (.ok a, t') := by
  have hkept := Tree.kept_putDirectory hnone
  have hfree (last : String) : Tree.isDirectory (t.put (home ++ [name]) .directory)
      (home ++ [name] ++ [last]) = false := by
    have hsame := Tree.entry?_put (l := home ++ [name]) (by simp) t .directory
      (home ++ [name] ++ [last])
    rw [if_neg (by simp)] at hsame
    rw [Tree.isDirectory_congr hsame]
    exact hbelow last
  have hplace : Tree.place (t.put (home ++ [name]) .directory) (Files.join out name) =
      .ok (home ++ [name]) := by
    rw [Tree.place_join hname, hkept.place hp]
    exact Tree.follow_name (hkept.directory home hd) hname
  have hmade : Tree.isDirectory (t.put (home ++ [name]) .directory) (home ++ [name]) = true := by
    rw [Tree.isDirectory_iff, Tree.entry?_put (by simp), if_pos rfl]
  exact accept_of_free hb (Tree.createDirectories_join_of_none hp hd hname hnone) hplace hmade
    (hfree _) (hfree _)

theorem readText_of_ok {a : Acceptance}
    (h : (toDirectory directory).accept b t = (.ok a, t')) :
    a = ⟨b.batchId, batchPath directory b.batchId⟩ ∧ t'.readText a.location = .ok b.toText := by
  simp only [toDirectory] at h
  split at h
  · simp at h
  · split at h
    · simp at h
    · rename_i u _ v hr
      obtain ⟨ha, rfl⟩ := Prod.mk.inj h
      cases ha
      exact ⟨rfl, Tree.readText_of_replaceText hr⟩

end Collector

/-- A flush writes one batch file at most. -/
theorem Outbox.kept_flush (o : Outbox) (directory : String) (stamp : Stamp)
    (hb : IsPlain stamp.batchId) (t : Tree) :
    Tree.Kept (fun l => l.getLast? = some (draftName stamp.batchId) ∨
        l.getLast? = some (batchName stamp.batchId))
      (Collector.NewOnWay t directory) t (o.flush (.toDirectory directory) stamp t).2.2 := by
  rcases Outbox.flush_cases (o := o) (.toDirectory directory) stamp t with
    ⟨-, hflush⟩ | ⟨-, ⟨e, u, hacc, hflush⟩ | ⟨a, u, hacc, hflush⟩⟩
  · rw [hflush]
    exact .refl t
  · rw [hflush]
    have hk := Collector.kept_of_error (b := .assemble stamp.batchId stamp.now o.unsent) hb hacc
    exact hk.mono (fun _ => Or.inl) fun _ h => h
  · rw [hflush]
    obtain ⟨m, -, hk⟩ := Collector.filed_of_ok
      (b := .assemble stamp.batchId stamp.now o.unsent) hb hacc
    refine hk.mono ?_ fun _ h => h
    rintro l (hl | rfl)
    · exact Or.inl hl
    · exact Or.inr List.getLast?_concat

end Compliance.Report

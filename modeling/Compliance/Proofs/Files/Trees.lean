import Compliance.Proofs.Files.Places
import Compliance.Proofs.SortedMaps

/-!
# What operations on a tree keep

Every operation names the locations where files may come, change or go, and
those where directories may come.  Elsewhere nothing changes, no directory ever
goes, and so a path goes on leading where it led.
-/

namespace Compliance.Files

namespace Tree

/-- The content of a file. -/
def file? (t : Tree) (l : Location) : Option ByteArray :=
  match t.entry? l with
  | some (.file content) => some content
  | _ => none

theorem file?_eq_some {t : Tree} {l : Location} {content : ByteArray} :
    t.file? l = some content ↔ t.entry? l = some (.file content) := by
  unfold file?
  split
  · rename_i c he
    rw [he]
    simp
  · rename_i hno
    constructor
    · intro h
      simp at h
    · intro h
      exact absurd h (hno content)

theorem isDirectory_iff {t : Tree} {l : Location} :
    t.isDirectory l = true ↔ t.entry? l = some .directory := by
  unfold isDirectory
  split
  · rename_i he
    simp [he]
  · rename_i hno
    constructor
    · intro h
      simp at h
    · intro h
      exact absurd h hno

/-! ## Entries -/

theorem entry?_put {l : Location} (hl : l ≠ []) (t : Tree) (e : Entry) (m : Location) :
    Tree.entry? (t.put l e) m = if m = l then some e else t.entry? m := by
  unfold entry? put
  by_cases hm : m = l
  · subst hm
    simp [hl]
  · rw [if_neg hm, Ordered.find?_put_of_ne hm]

theorem entry?_erase {l : Location} (hl : l ≠ []) (t : Tree) (m : Location) :
    Tree.entry? (t.erase l) m = if m = l then none else t.entry? m := by
  unfold entry? erase
  rw [Ordered.find?_filter_ne]
  by_cases hm : m = l
  · subst hm
    simp [hl]
  · simp [hm]

theorem isDirectory_of_file {t : Tree} {l : Location} {content : ByteArray}
    (h : t.entry? l = some (.file content)) : t.isDirectory l = false := by
  unfold isDirectory
  rw [h]

@[simp] theorem isDirectory_root (t : Tree) : t.isDirectory [] = true := rfl

theorem ne_root_of_file {t : Tree} {l : Location} {content : ByteArray}
    (h : t.entry? l = some (.file content)) : l ≠ [] := by
  rintro rfl
  simp [Tree.entry?] at h

theorem ne_root_of_none {t : Tree} {l : Location} (h : t.entry? l = none) : l ≠ [] := by
  rintro rfl
  simp [Tree.entry?] at h

theorem ne_root_of_not_directory {t : Tree} {l : Location} (h : t.isDirectory l = false) :
    l ≠ [] := by
  rintro rfl
  simp at h

theorem mem_entries_of_file {t : Tree} {l : Location} {content : ByteArray}
    (h : t.file? l = some content) : l ∈ t.entries.map (·.1) := by
  have he := file?_eq_some.1 h
  have hne : ¬ l.isEmpty = true := by simpa using ne_root_of_file he
  rw [Tree.entry?, if_neg hne] at he
  exact List.mem_map_of_mem (f := (·.1)) (Ordered.mem_of_find? he)

theorem isDirectory_congr {t t' : Tree} {l : Location} (h : t'.entry? l = t.entry? l) :
    t'.isDirectory l = t.isDirectory l := by
  unfold isDirectory
  rw [h]

theorem isDirectory_put_file {l : Location} (hl : l ≠ []) (t : Tree) (content : ByteArray)
    {m : Location} (hm : t.isDirectory m = false) :
    (t.put l (.file content)).isDirectory m = false := by
  rw [← Bool.not_eq_true, isDirectory_iff, entry?_put hl]
  rw [← Bool.not_eq_true, isDirectory_iff] at hm
  split
  · simp
  · exact hm

theorem isDirectory_erase {l : Location} (hl : l ≠ []) (t : Tree) {m : Location}
    (hm : t.isDirectory m = false) : (t.erase l).isDirectory m = false := by
  rw [← Bool.not_eq_true, isDirectory_iff, entry?_erase hl]
  rw [← Bool.not_eq_true, isDirectory_iff] at hm
  split
  · simp
  · exact hm

/-! ## Keeping -/

/-- Files change only at some locations, directories come only at others, and
none goes. -/
structure Kept (files way : Location → Prop) (t t' : Tree) : Prop where
  here : t'.here = t.here
  entry : ∀ l, ¬ files l → ¬ way l → t'.entry? l = t.entry? l
  file : ∀ l, ¬ files l → t'.file? l = t.file? l
  directory : ∀ l, t.isDirectory l = true → t'.isDirectory l = true

namespace Kept

variable {files files' way way' : Location → Prop} {t t' t'' : Tree}

theorem refl (t : Tree) : Kept files way t t :=
  ⟨rfl, fun _ _ _ => rfl, fun _ _ => rfl, fun _ h => h⟩

theorem trans (h : Kept files way t t') (h' : Kept files way t' t'') :
    Kept files way t t'' :=
  ⟨h'.here.trans h.here, fun l hf hw => (h'.entry l hf hw).trans (h.entry l hf hw),
    fun l hf => (h'.file l hf).trans (h.file l hf),
    fun l hl => h'.directory l (h.directory l hl)⟩

theorem mono (h : Kept files way t t') (hf : ∀ l, files l → files' l)
    (hw : ∀ l, way l → way' l) : Kept files' way' t t' :=
  ⟨h.here, fun l hl hl' => h.entry l (fun h => hl (hf l h)) fun h => hl' (hw l h),
    fun l hl => h.file l fun h => hl (hf l h), h.directory⟩

theorem follow (h : Kept files way t t') {l m : Location} {ps : List String}
    (hf : t.follow l ps = .ok m) : t'.follow l ps = .ok m := by
  induction ps generalizing l with
  | nil => exact hf
  | cons piece ps ih =>
      unfold Tree.follow at hf
      split at hf
      · simp at hf
      · simp at hf
      · rename_i he
        have he' := isDirectory_iff.1 (h.directory l (isDirectory_iff.2 he))
        unfold Tree.follow
        rw [he']
        simp only
        split at hf
        · rename_i hblank
          rw [if_pos hblank]
          exact ih hf
        · rename_i hblank
          rw [if_neg hblank]
          split at hf
          · rename_i hup
            rw [if_pos hup]
            exact ih hf
          · rename_i hup
            rw [if_neg hup]
            exact ih hf

theorem place (h : Kept files way t t') {path : String} {m : Location}
    (hp : t.place path = .ok m) : t'.place path = .ok m := by
  have horigin : t'.origin path = t.origin path := by
    unfold origin
    rw [h.here]
  unfold Tree.place at hp ⊢
  rw [horigin]
  exact h.follow hp

theorem locate (h : Kept files way t t') {path : String} {m : Location}
    (hl : t.locate path = .ok m) : t'.locate path = .ok m := by
  have hne : path ≠ "" := by
    rintro rfl
    simp [Tree.locate] at hl
  rw [locate_eq hne] at hl ⊢
  exact h.place hl

end Kept

theorem kept_putFile {t : Tree} {l : Location} (h : t.isDirectory l = false)
    (content : ByteArray) :
    Kept (· = l) (fun _ => False) t (t.put l (.file content)) := by
  have hl := ne_root_of_not_directory h
  refine ⟨rfl, fun m hm _ => ?_, fun m hm => ?_, fun m hm => ?_⟩
  · rw [entry?_put hl, if_neg hm]
  · unfold file?
    rw [entry?_put hl, if_neg hm]
  · have hne : m ≠ l := by
      rintro rfl
      rw [h] at hm
      exact Bool.false_ne_true hm
    rw [isDirectory_iff, entry?_put hl, if_neg hne]
    exact isDirectory_iff.1 hm

theorem kept_putDirectory {t : Tree} {l : Location} (h : t.entry? l = none) :
    Kept (fun _ => False) (· = l) t (t.put l .directory) := by
  have hl := ne_root_of_none h
  refine ⟨rfl, fun m _ hm => ?_, fun m _ => ?_, fun m hm => ?_⟩
  · rw [entry?_put hl, if_neg hm]
  · unfold file?
    rw [entry?_put hl]
    by_cases hm : m = l
    · rw [if_pos hm, hm, h]
    · rw [if_neg hm]
  · rw [isDirectory_iff, entry?_put hl]
    by_cases hne : m = l
    · rw [if_pos hne]
    · rw [if_neg hne]
      exact isDirectory_iff.1 hm

theorem kept_erase {t : Tree} {l : Location} {content : ByteArray}
    (h : t.entry? l = some (.file content)) :
    Kept (· = l) (fun _ => False) t (t.erase l) := by
  have hl := ne_root_of_file h
  refine ⟨rfl, fun m hm _ => ?_, fun m hm => ?_, fun m hm => ?_⟩
  · rw [entry?_erase hl, if_neg hm]
  · unfold file?
    rw [entry?_erase hl, if_neg hm]
  · have hne : m ≠ l := by
      rintro rfl
      rw [isDirectory_iff, h] at hm
      simp at hm
    rw [isDirectory_iff, entry?_erase hl, if_neg hne]
    exact isDirectory_iff.1 hm

/-! ## Writing and removing -/

theorem write_eq_ok {t t' : Tree} {path : String} {content : ByteArray}
    (h : t.write path content = .ok t') :
    ∃ l, t.locate path = .ok l ∧ t.isDirectory l = false ∧
      t' = t.put l (.file content) := by
  unfold write at h
  cases hl : t.locate path with
  | error e => simp [hl, bind, Except.bind] at h
  | ok l =>
      cases hd : t.isDirectory l with
      | true => simp [hl, hd, bind, Except.bind, throw, throwThe, MonadExceptOf.throw] at h
      | false =>
          simp only [hl, hd, bind, Except.bind, pure, Except.pure, Bool.false_eq_true, ↓reduceIte,
            Except.ok.injEq] at h
          exact ⟨l, rfl, hd, h.symm⟩

theorem write_of_locate {t : Tree} {path : String} {l : Location}
    (hl : t.locate path = .ok l) (hd : t.isDirectory l = false) (content : ByteArray) :
    t.write path content = .ok (t.put l (.file content)) := by
  simp [write, hl, hd, bind, Except.bind, pure, Except.pure]

theorem rename_eq_ok {t t' : Tree} {source target : String}
    (h : t.rename source target = .ok t') :
    ∃ l m content, t.locate source = .ok l ∧ t.locate target = .ok m ∧
      t.entry? l = some (.file content) ∧ t.isDirectory m = false ∧
      t' = (t.erase l).put m (.file content) := by
  unfold rename at h
  cases hl : t.locate source with
  | error e => simp [hl, bind, Except.bind] at h
  | ok l =>
      cases hm : t.locate target with
      | error e => simp [hl, hm, bind, Except.bind] at h
      | ok m =>
          simp only [hl, hm, bind, Except.bind] at h
          split at h
          · rename_i content he
            cases hd : t.isDirectory m with
            | true => simp [hd, throw, throwThe, MonadExceptOf.throw] at h
            | false =>
                simp only [hd, pure, Except.pure, Bool.false_eq_true, ↓reduceIte,
                  Except.ok.injEq] at h
                exact ⟨l, m, content, rfl, rfl, he, hd, h.symm⟩
          · simp [throw, throwThe, MonadExceptOf.throw] at h
          · simp [throw, throwThe, MonadExceptOf.throw] at h

theorem rename_of_locate {t : Tree} {source target : String} {l m : Location}
    {content : ByteArray} (hl : t.locate source = .ok l) (hm : t.locate target = .ok m)
    (he : t.entry? l = some (.file content)) (hd : t.isDirectory m = false) :
    t.rename source target = .ok ((t.erase l).put m (.file content)) := by
  simp [rename, hl, hm, he, hd, bind, Except.bind, pure, Except.pure]

theorem removeFile_eq_ok {t t' : Tree} {path : String} (h : t.removeFile path = .ok t') :
    ∃ l content, t.locate path = .ok l ∧ t.entry? l = some (.file content) ∧
      t' = t.erase l := by
  unfold removeFile at h
  cases hl : t.locate path with
  | error e => simp [hl, bind, Except.bind] at h
  | ok l =>
      simp only [hl, bind, Except.bind] at h
      split at h
      · rename_i content he
        simp only [pure, Except.pure, Except.ok.injEq] at h
        exact ⟨l, content, rfl, he, h.symm⟩
      · simp [throw, throwThe, MonadExceptOf.throw] at h
      · simp [throw, throwThe, MonadExceptOf.throw] at h

theorem removeFile_of_locate {t : Tree} {path : String} {l : Location}
    {content : ByteArray} (hl : t.locate path = .ok l)
    (he : t.entry? l = some (.file content)) : t.removeFile path = .ok (t.erase l) := by
  simp [removeFile, hl, he, bind, Except.bind, pure, Except.pure]

/-- Moving a file changes its old and its new location. -/
theorem kept_move {t : Tree} {l m : Location} {content : ByteArray}
    (he : t.entry? l = some (.file content)) (hd : t.isDirectory m = false) :
    Kept (fun k => k = l ∨ k = m) (fun _ => False) t
      ((t.erase l).put m (.file content)) := by
  have herase := kept_erase he
  have hd' : (t.erase l).isDirectory m = false :=
    isDirectory_erase (ne_root_of_file he) t hd
  exact (herase.mono (fun _ => Or.inl) fun _ h => h).trans
    ((kept_putFile hd' content).mono (fun _ => Or.inr) fun _ h => h)

/-! ## Replacing -/

/-- A replacement that succeeds moves the text from the temporary to its place. -/
theorem replaceText_eq_ok {t t' : Tree} {temporary path text : String}
    (h : t.replaceText temporary path text = (t', .ok ())) :
    ∃ l m, t.locate temporary = .ok l ∧ t.isDirectory l = false ∧
      (t.put l (.file text.toUTF8)).locate path = .ok m ∧
      (t.put l (.file text.toUTF8)).isDirectory m = false ∧
      t' = ((t.put l (.file text.toUTF8)).erase l).put m (.file text.toUTF8) := by
  unfold replaceText at h
  split at h
  · simp at h
  · rename_i u hw
    obtain ⟨l, hl, hd, rfl⟩ := write_eq_ok hw
    split at h
    · simp at h
    · rename_i v hr
      obtain ⟨l', m, content, hl', hm, he, hd', rfl⟩ := rename_eq_ok hr
      have hsame : l' = l := by
        rw [(kept_putFile hd _).locate hl] at hl'
        exact (Except.ok.inj hl').symm
      subst hsame
      rw [entry?_put (ne_root_of_not_directory hd), if_pos rfl] at he
      cases he
      exact ⟨l', m, hl, hd, hm, hd', (Prod.mk.inj h).1.symm⟩

/-- A replacement that fails leaves at most the temporary. -/
theorem replaceText_eq_error {t t' : Tree} {temporary path text : String} {e : FileError}
    (h : t.replaceText temporary path text = (t', .error e)) :
    t' = t ∨ ∃ l, t.locate temporary = .ok l ∧ t.isDirectory l = false ∧
      t' = t.put l (.file text.toUTF8) := by
  unfold replaceText at h
  split at h
  · exact Or.inl (Prod.mk.inj h).1.symm
  · rename_i u hw
    obtain ⟨l, hl, hd, rfl⟩ := write_eq_ok hw
    split at h
    · exact Or.inr ⟨l, hl, hd, (Prod.mk.inj h).1.symm⟩
    · simp at h

section Replace

variable {t : Tree} {temporary path text : String} {files : Location → Prop}

theorem kept_replaced {l m : Location} (hd : t.isDirectory l = false)
    (hd' : (t.put l (.file text.toUTF8)).isDirectory m = false) (hl : files l) (hm : files m) :
    Kept files (fun _ => False) t
      (((t.put l (.file text.toUTF8)).erase l).put m (.file text.toUTF8)) := by
  have he : Tree.entry? (t.put l (.file text.toUTF8)) l = some (.file text.toUTF8) := by
    rw [entry?_put (ne_root_of_not_directory hd), if_pos rfl]
  refine ((kept_putFile hd _).mono ?_ fun _ h => h).trans
    ((kept_move he hd').mono ?_ fun _ h => h)
  · rintro _ rfl
    exact hl
  · rintro _ (rfl | rfl)
    · exact hl
    · exact hm

/-- A replacement touches no more than the two files. -/
theorem kept_replaceText (ht : ∀ l, t.locate temporary = .ok l → files l)
    (hp : ∀ (u : Tree) l, u.locate path = .ok l → files l) :
    Kept files (fun _ => False) t (t.replaceText temporary path text).1 := by
  cases hr : t.replaceText temporary path text with
  | mk t' answer =>
      cases answer with
      | ok _ =>
          obtain ⟨l, m, hl, hd, hm, hd', rfl⟩ := replaceText_eq_ok hr
          exact kept_replaced hd hd' (ht l hl) (hp _ m hm)
      | error e =>
          rcases replaceText_eq_error hr with rfl | ⟨l, hl, hd, rfl⟩
          · exact .refl t'
          · refine (kept_putFile hd _).mono ?_ fun _ h => h
            rintro _ rfl
            exact ht _ hl

/-- Where nothing stands in the way, the text comes to its place. -/
theorem replaceText_of_locate {l m : Location} (hl : t.locate temporary = .ok l)
    (hm : t.locate path = .ok m) (hd : t.isDirectory l = false)
    (hd' : t.isDirectory m = false) :
    t.replaceText temporary path text =
      (((t.put l (.file text.toUTF8)).erase l).put m (.file text.toUTF8), .ok ()) := by
  have hkept := kept_putFile hd text.toUTF8
  have he : Tree.entry? (t.put l (.file text.toUTF8)) l = some (.file text.toUTF8) := by
    rw [entry?_put (ne_root_of_not_directory hd), if_pos rfl]
  have hstill : (t.put l (.file text.toUTF8)).isDirectory m = false :=
    isDirectory_put_file (ne_root_of_not_directory hd) t _ hd'
  have hwrite : t.writeText temporary text = .ok (t.put l (.file text.toUTF8)) :=
    write_of_locate hl hd text.toUTF8
  unfold replaceText
  rw [hwrite]
  simp only
  rw [rename_of_locate (hkept.locate hl) (hkept.locate hm) he hstill]

theorem replaceText_of_directory {l : Location} (hl : t.locate temporary = .ok l)
    (hd : t.isDirectory l = true) :
    t.replaceText temporary path text = (t, .error .isADirectory) := by
  have hwrite : t.writeText temporary text = .error .isADirectory := by
    simp only [writeText, write, hl, hd, bind, Except.bind]
    rfl
  simp only [replaceText, hwrite]

end Replace

/-! ## Reading -/

theorem fromUTF8?_toUTF8 (text : String) : String.fromUTF8? text.toUTF8 = some text := by
  unfold String.fromUTF8?
  rw [dif_pos (by exact text.isValidUTF8)]
  rfl

theorem readText_of_locate {t : Tree} {path text : String} {l : Location}
    (hl : t.locate path = .ok l) (he : t.entry? l = some (.file text.toUTF8)) :
    t.readText path = .ok text := by
  have hread : t.read path = .ok text.toUTF8 := by
    simp only [read, hl, he, bind, Except.bind, pure, Except.pure]
  simp only [readText, hread, fromUTF8?_toUTF8, bind, Except.bind, pure, Except.pure]

/-- A text is read from a file. -/
theorem readText_eq_ok {t : Tree} {path text : String} (h : t.readText path = .ok text) :
    ∃ l content, t.locate path = .ok l ∧ t.entry? l = some (.file content) := by
  unfold readText read at h
  cases hl : t.locate path with
  | error e =>
      rw [hl] at h
      cases h
  | ok l =>
      cases he : t.entry? l with
      | none => simp [hl, he, bind, Except.bind, throw, throwThe, MonadExceptOf.throw] at h
      | some e =>
          cases e with
          | directory =>
              simp [hl, he, bind, Except.bind, throw, throwThe, MonadExceptOf.throw] at h
          | file content => exact ⟨l, content, rfl, he⟩

/-- What was written in place of a file is read there. -/
theorem readText_of_replaceText {t t' : Tree} {temporary path text : String}
    (h : t.replaceText temporary path text = (t', .ok ())) : t'.readText path = .ok text := by
  obtain ⟨l, m, -, hd, hm, hd', rfl⟩ := replaceText_eq_ok h
  have he : Tree.entry? (t.put l (.file text.toUTF8)) l = some (.file text.toUTF8) := by
    rw [entry?_put (ne_root_of_not_directory hd), if_pos rfl]
  apply readText_of_locate ((kept_move he hd').locate hm)
  rw [entry?_put (ne_root_of_not_directory hd'), if_pos rfl]

theorem exists?_of_locate {t : Tree} {path : String} {l : Location}
    (hl : t.locate path = .ok l) : t.exists? path = (t.entry? l).isSome := by
  simp [exists?, hl]

/-! ## Directories -/

/-- The locations on the way along parts. -/
def wayFrom (l : Location) : List String → List Location
  | [] => []
  | piece :: rest =>
      if piece.isEmpty || piece == "." then wayFrom l rest
      else if piece == ".." then wayFrom l.dropLast rest
      else (l ++ [piece]) :: wayFrom (l ++ [piece]) rest

/-- The locations on the way to where a path leads. -/
def way (t : Tree) (path : String) : List Location :=
  wayFrom (t.origin path) (parts path)

theorem kept_addDirectories (t : Tree) (l : Location) (ps : List String) :
    Kept (fun _ => False) (fun m => m ∈ wayFrom l ps ∧ t.entry? m = none) t
      (t.addDirectories l ps).1 := by
  induction ps generalizing t l with
  | nil => exact .refl t
  | cons piece ps ih =>
      unfold addDirectories wayFrom
      split
      · exact ih t l
      · split
        · exact ih t l.dropLast
        · simp only
          split
          · refine (ih t (l ++ [piece])).mono (fun _ h => h) ?_
            rintro m ⟨hm, hnone⟩
            exact ⟨List.mem_cons_of_mem _ hm, hnone⟩
          · exact .refl t
          · rename_i he
            refine ((kept_putDirectory he).mono (fun _ h => h) ?_).trans
              ((ih _ (l ++ [piece])).mono (fun _ h => h) ?_)
            · rintro _ rfl
              exact ⟨List.mem_cons_self, he⟩
            · rintro m ⟨hm, hnone⟩
              refine ⟨List.mem_cons_of_mem _ hm, ?_⟩
              rw [entry?_put (ne_root_of_none he)] at hnone
              split at hnone
              · simp at hnone
              · exact hnone

theorem kept_createDirectories (t : Tree) (path : String) :
    Kept (fun _ => False) (fun m => m ∈ t.way path ∧ t.entry? m = none) t
      (t.createDirectories path).1 :=
  kept_addDirectories t (t.origin path) (parts path)

theorem addDirectories_of_free {t : Tree} {l : Location} {ps : List String}
    (h : ∀ m ∈ wayFrom l ps, t.file? m = none) :
    (t.addDirectories l ps).2 = .ok () ∧
      ∀ m ∈ wayFrom l ps, (t.addDirectories l ps).1.isDirectory m = true := by
  induction ps generalizing t l with
  | nil => exact ⟨rfl, by simp [wayFrom]⟩
  | cons piece ps ih =>
      unfold wayFrom at h ⊢
      unfold addDirectories
      split
      · rename_i hblank
        rw [if_pos hblank] at h
        exact ih h
      · rename_i hblank
        rw [if_neg hblank] at h
        split
        · rename_i hup
          rw [if_pos hup] at h
          exact ih h
        · rename_i hup
          rw [if_neg hup] at h
          simp only
          have hnext := h (l ++ [piece]) List.mem_cons_self
          have hrest := fun m hm => h m (List.mem_cons_of_mem _ hm)
          split
          · rename_i he
            obtain ⟨hok, hmade⟩ := ih hrest
            refine ⟨hok, ?_⟩
            intro m hm
            rcases List.mem_cons.1 hm with rfl | hm
            · exact (kept_addDirectories _ _ _).directory _ (isDirectory_iff.2 he)
            · exact hmade m hm
          · rename_i content he
            rw [file?_eq_some.2 he] at hnext
            simp at hnext
          · rename_i he
            have hput := kept_putDirectory he
            obtain ⟨hok, hmade⟩ := ih fun m hm => by
              rw [hput.file m not_false]
              exact hrest m hm
            refine ⟨hok, ?_⟩
            intro m hm
            rcases List.mem_cons.1 hm with rfl | hm
            · refine (kept_addDirectories _ _ _).directory _ (isDirectory_iff.2 ?_)
              rw [entry?_put (ne_root_of_none he), if_pos rfl]
            · exact hmade m hm

theorem createDirectories_of_free {t : Tree} {path : String}
    (h : ∀ m ∈ t.way path, t.file? m = none) :
    ∀ m ∈ t.way path, (t.createDirectories path).1.isDirectory m = true :=
  (addDirectories_of_free h).2

/-! ## Directories that are there -/

theorem isDirectory_of_follow {t : Tree} {l m : Location} {ps : List String}
    (hf : t.follow l ps = .ok m) (hd : t.isDirectory m = true) : t.isDirectory l = true := by
  cases ps with
  | nil =>
      cases hf
      exact hd
  | cons piece ps =>
      unfold follow at hf
      split at hf
      · cases hf
      · cases hf
      · rename_i he
        exact isDirectory_iff.2 he

/-- Nothing is added on a way that leads to a directory. -/
theorem addDirectories_append {t : Tree} {l m : Location} {front : List String}
    (hf : t.follow l front = .ok m) (hd : t.isDirectory m = true) (back : List String) :
    t.addDirectories l (front ++ back) = t.addDirectories m back := by
  induction front generalizing l with
  | nil =>
      cases hf
      rfl
  | cons piece front ih =>
      unfold follow at hf
      rw [List.cons_append, addDirectories]
      split at hf
      · cases hf
      · cases hf
      · split
        · rename_i hblank
          rw [if_pos hblank] at hf
          exact ih hf
        · rename_i hblank
          rw [if_neg hblank] at hf
          split
          · rename_i hup
            rw [if_pos hup] at hf
            exact ih hf
          · rename_i hup
            rw [if_neg hup] at hf
            have hnext := isDirectory_iff.1 (isDirectory_of_follow hf hd)
            simp only [hnext]
            exact ih hf

theorem createDirectories_of_place {t : Tree} {path : String} {home : Location}
    (hp : t.place path = .ok home) (hd : t.isDirectory home = true) :
    t.createDirectories path = (t, .ok ()) := by
  have hall := addDirectories_append hp hd []
  rw [List.append_nil] at hall
  exact hall

/-- Below a directory that is there, only the last name is added. -/
theorem createDirectories_join {t : Tree} {path name : String} {home : Location}
    (hp : t.place path = .ok home) (hd : t.isDirectory home = true) (h : IsName name) :
    t.createDirectories (join path name) = t.addDirectories home [name] := by
  obtain ⟨horigin, ps, hjoined, hparts⟩ := parts_join h t path
  have hfollow : t.follow (t.origin path) ps = .ok home := by
    unfold place at hp
    rcases hparts with hparts | hparts
    · rw [hparts] at hp
      exact hp
    · rw [hparts, follow_append] at hp
      cases hm : t.follow (t.origin path) ps with
      | error e =>
          rw [hm] at hp
          cases hp
      | ok m =>
          rw [hm, Except.bind, follow] at hp
          split at hp
          · cases hp
          · cases hp
          · exact hp
  have hcreate : t.createDirectories (join path name) =
      t.addDirectories (t.origin (join path name)) (parts (join path name)) := rfl
  rw [hcreate, horigin, hjoined, addDirectories_append hfollow hd]

/-- No directory is made in the place of a file. -/
theorem createDirectories_join_of_file {t : Tree} {path name : String} {home : Location}
    {content : ByteArray} (hp : t.place path = .ok home) (hd : t.isDirectory home = true)
    (h : IsName name) (he : t.entry? (home ++ [name]) = some (.file content)) :
    t.createDirectories (join path name) = (t, .error .alreadyExists) := by
  rw [createDirectories_join hp hd h, addDirectories]
  obtain ⟨hne, hdot, hdots, -⟩ := h
  simp [hne, hdot, hdots, he]

theorem createDirectories_join_of_none {t : Tree} {path name : String} {home : Location}
    (hp : t.place path = .ok home) (hd : t.isDirectory home = true) (h : IsName name)
    (he : t.entry? (home ++ [name]) = none) :
    t.createDirectories (join path name) = (t.put (home ++ [name]) .directory, .ok ()) := by
  rw [createDirectories_join hp hd h, addDirectories]
  obtain ⟨hne, hdot, hdots, -⟩ := h
  simp [hne, hdot, hdots, he, addDirectories]

end Tree

end Compliance.Files

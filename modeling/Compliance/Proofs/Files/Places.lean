import Mathlib.Tactic.Common
import Compliance.Files.Tree

/-!
# Places

A path leads from a first directory along its parts.  A plain name joined to a
path names an entry of the directory that the path leads to.
-/

namespace Compliance.Files

/-- The name of one entry of a directory. -/
def IsName (name : String) : Prop :=
  name ≠ "" ∧ name ≠ "." ∧ name ≠ ".." ∧ '/' ∉ name.toList

instance (name : String) : Decidable (IsName name) :=
  inferInstanceAs (Decidable (_ ∧ _))

theorem IsName.isAbsolute {name : String} (h : IsName name) : isAbsolute name = false := by
  obtain ⟨_, _, _, hslash⟩ := h
  unfold Files.isAbsolute
  cases hl : name.toList with
  | nil => rfl
  | cons c cs =>
      have hc : c ≠ '/' := fun hc => hslash (by simp [hl, hc])
      simp [hc]

/-! ## Parts of a path -/

theorem pieces_eq_cons (cs : List Char) : ∃ p ps, pieces cs = p :: ps := by
  cases cs with
  | nil => exact ⟨[], [], rfl⟩
  | cons c cs =>
      unfold pieces
      split
      · exact ⟨_, _, rfl⟩
      · split <;> exact ⟨_, _, rfl⟩

theorem pieces_append (front back : List Char) :
    pieces (front ++ '/' :: back) = pieces front ++ pieces back := by
  induction front with
  | nil =>
      obtain ⟨p, ps, hb⟩ := pieces_eq_cons back
      simp [pieces, hb]
  | cons c front ih =>
      obtain ⟨p, ps, hf⟩ := pieces_eq_cons front
      rw [List.cons_append, pieces, pieces, ih, hf]
      simp only [List.cons_append]
      split <;> rfl

theorem pieces_of_not_mem {cs : List Char} (h : '/' ∉ cs) : pieces cs = [cs] := by
  induction cs with
  | nil => rfl
  | cons c cs ih =>
      have hc : c ≠ '/' := fun hc => h (by simp [hc])
      rw [pieces, ih fun hm => h (List.mem_cons_of_mem c hm)]
      simp [hc]

def parts (path : String) : List String :=
  (pieces path.toList).map String.ofList

theorem parts_append_slash (front back : String) :
    parts (front ++ "/" ++ back) = parts front ++ parts back := by
  have hlist : (front ++ "/" ++ back).toList = front.toList ++ '/' :: back.toList := by simp
  simp only [parts, hlist, pieces_append, List.map_append]

theorem IsName.parts_eq {name : String} (h : IsName name) : parts name = [name] := by
  simp [parts, pieces_of_not_mem h.2.2.2]

/-! ## Joined paths -/

/-- What stands in front of a name that is joined to a path. -/
def front (path : String) : String :=
  if path.isEmpty then ""
  else if path.toList.getLast? == some '/' then path
  else path ++ "/"

theorem IsName.join_eq {name : String} (h : IsName name) (path : String) :
    join path name = front path ++ name := by
  unfold join front
  rw [h.isAbsolute]
  by_cases hp : path.isEmpty = true
  · simp [hp]
  · simp only [Bool.not_eq_true] at hp
    simp only [hp, Bool.or_self, Bool.false_eq_true, ↓reduceIte]
    split <;> rfl

theorem front_ends (path : String) :
    front path = "" ∨ ∃ rest, front path = rest ++ "/" := by
  unfold front
  split
  · exact Or.inl rfl
  · split
    · rename_i hlast
      simp only [beq_iff_eq] at hlast
      obtain ⟨cs, hcs⟩ := List.getLast?_eq_some_iff.1 hlast
      refine Or.inr ⟨String.ofList cs, ?_⟩
      rw [← String.toList_inj]
      simp [hcs]
    · exact Or.inr ⟨path, rfl⟩

theorem trimmed_cons {c : Char} (hslash : c ≠ '/') (hdot : c ≠ '.') (cs : List Char) :
    trimmed (c :: cs) = c :: cs := by
  unfold trimmed
  split
  · rename_i heq
    exact absurd (List.cons.inj heq).1 hslash
  · rename_i heq
    exact absurd (List.cons.inj heq).1 hdot
  · rfl

/-- Read from its end, a joined path shows the whole name first. -/
theorem IsName.takeWhile_eq {name : String} (h : IsName name) (path : String) :
    (name.toList.reverse ++ (front path).toList.reverse).takeWhile (· != '/') =
      name.toList.reverse := by
  have hkept : ∀ c ∈ name.toList.reverse, (c != '/') = true := by
    intro c hc
    rw [bne_iff_ne]
    rintro rfl
    exact h.2.2.2 (List.mem_reverse.1 hc)
  rw [List.takeWhile_append_of_pos hkept]
  rcases front_ends path with he | ⟨rest, he⟩
  · simp [he]
  · simp [he]

theorem withExtension_join {name extension : String} (h : IsName name)
    (hlast : name.toList.getLast? ≠ some '.') (path : String)
    (hnew : IsName (String.ofList (stem name.toList ++ '.' :: extension.toList))) :
    withExtension (join path name) extension =
      join path (String.ofList (stem name.toList ++ '.' :: extension.toList)) := by
  have hname := h.takeWhile_eq path
  rw [h.join_eq, hnew.join_eq]
  obtain ⟨hne, hdot, hdots, hslash⟩ := h
  have hreversed : (front path ++ name).toList.reverse =
      name.toList.reverse ++ (front path).toList.reverse := by simp
  have htrimmed : trimmed (name.toList.reverse ++ (front path).toList.reverse) =
      name.toList.reverse ++ (front path).toList.reverse := by
    cases hr : name.toList.reverse with
    | nil =>
        rw [List.reverse_eq_nil_iff, String.toList_eq_nil_iff] at hr
        exact absurd hr hne
    | cons c cs =>
        apply trimmed_cons
        · rintro rfl
          exact hslash (List.mem_reverse.1 (hr ▸ List.mem_cons_self))
        · rintro rfl
          exact hlast (by rw [← List.head?_reverse, hr]; rfl)
  have hnotEmpty : name.toList.isEmpty = false := by
    rw [List.isEmpty_eq_false_iff]
    simpa using hne
  have hnotDots : (name.toList == ['.', '.']) = false := by
    rw [beq_eq_false_iff_ne]
    intro he
    exact hdots (by rw [← String.toList_inj, he]; rfl)
  have hnotDot : (name.toList == ['.']) = false := by
    rw [beq_eq_false_iff_ne]
    intro he
    exact hdot (by rw [← String.toList_inj, he]; rfl)
  unfold withExtension
  simp only [hreversed, htrimmed, hname, List.reverse_reverse, hnotEmpty, hnotDots, hnotDot]
  rw [← String.toList_inj]
  simp

/-! ## Where paths lead -/

namespace Tree

def origin (t : Tree) (path : String) : Location :=
  if isAbsolute path then [] else t.here

/-- The location that a path leads to, the empty path to where it starts. -/
def place (t : Tree) (path : String) : Except FileError Location :=
  t.follow (t.origin path) (parts path)

theorem locate_eq {path : String} (h : path ≠ "") (t : Tree) :
    t.locate path = t.place path := by
  have hne : path.isEmpty = false := by simpa using h
  simp [locate, hne, place, origin, parts]

theorem follow_append (t : Tree) (l : Location) (front back : List String) :
    t.follow l (front ++ back) =
      (t.follow l front).bind fun m => t.follow m back := by
  induction front generalizing l with
  | nil => rfl
  | cons piece front ih =>
      rw [List.cons_append, follow, follow]
      split
      · rfl
      · rfl
      · split
        · exact ih l
        · split
          · exact ih _
          · exact ih _

/-- An empty part leads nowhere else. -/
theorem follow_blank_cons (t : Tree) (l : Location) (piece : String)
    (rest : List String) : t.follow l ("" :: piece :: rest) = t.follow l (piece :: rest) := by
  rw [follow]
  split
  · rename_i he
    rw [follow, he]
  · rename_i he
    rw [follow, he]
  · simp

theorem follow_name {t : Tree} {l : Location} (hl : t.isDirectory l = true) {name : String}
    (h : IsName name) : t.follow l [name] = .ok (l ++ [name]) := by
  obtain ⟨hne, hdot, hdots, _⟩ := h
  unfold isDirectory at hl
  unfold follow
  split
  · rename_i he
    simp [he] at hl
  · rename_i he
    simp [he] at hl
  · simp [hne, hdot, hdots, follow]

theorem follow_name_ok {t : Tree} {l m : Location} {name : String} (h : IsName name)
    (hf : t.follow l [name] = .ok m) : t.isDirectory l = true ∧ m = l ++ [name] := by
  obtain ⟨hne, hdot, hdots, _⟩ := h
  unfold follow at hf
  split at hf
  · simp at hf
  · simp at hf
  · rename_i he
    simp [hne, hdot, hdots, follow] at hf
    exact ⟨by simp [isDirectory, he], hf.symm⟩

theorem origin_append {path : String} (h : path ≠ "") (t : Tree) (back : String) :
    t.origin (path ++ back) = t.origin path := by
  cases hl : path.toList with
  | nil =>
      rw [String.toList_eq_nil_iff] at hl
      exact absurd hl h
  | cons c cs => simp [origin, isAbsolute, hl]

/-- A joined name comes last, after the parts of the path; an empty part at the end of
the path is dropped. -/
theorem parts_join {name : String} (h : IsName name) (t : Tree) (path : String) :
    t.origin (join path name) = t.origin path ∧
      ∃ ps, parts (join path name) = ps ++ [name] ∧ (parts path = ps ∨ parts path = ps ++ [""]) := by
  rw [h.join_eq]
  by_cases hempty : path = ""
  · subst hempty
    have hleft := h.isAbsolute
    have hright : isAbsolute "" = false := rfl
    rw [show front "" = "" from rfl, String.empty_append]
    refine ⟨?_, [], h.parts_eq, Or.inr rfl⟩
    rw [origin, origin, hleft, hright]
  · have hne : path.isEmpty = false := by simpa using hempty
    unfold front
    rw [hne]
    simp only [Bool.false_eq_true, ↓reduceIte]
    split
    · rename_i hlast
      simp only [beq_iff_eq] at hlast
      obtain ⟨cs, hcs⟩ := List.getLast?_eq_some_iff.1 hlast
      -- the path ends in a slash, and so in an empty part
      have hpath : path = String.ofList cs ++ "/" ++ "" := by
        rw [← String.toList_inj]
        simp [hcs]
      refine ⟨origin_append hempty t name, parts (String.ofList cs), ?_, Or.inr ?_⟩
      · rw [hpath, String.append_empty, parts_append_slash, h.parts_eq]
      · rw [hpath, parts_append_slash]
        rfl
    · rw [String.append_assoc]
      refine ⟨origin_append hempty t _, parts path, ?_, Or.inl rfl⟩
      rw [← String.append_assoc, parts_append_slash, h.parts_eq]

/-- A joined name is looked for where the path leads. -/
theorem place_join {name : String} (h : IsName name) (t : Tree) (path : String) :
    t.place (join path name) = (t.place path).bind fun m => t.follow m [name] := by
  obtain ⟨horigin, ps, hjoined, hparts⟩ := parts_join h t path
  rw [place, place, horigin, hjoined, follow_append]
  rcases hparts with hparts | hparts
  · rw [hparts]
  · rw [hparts, follow_append]
    cases t.follow (t.origin path) ps with
    | error e => rfl
    | ok m =>
        have hblank := t.follow_blank_cons m name []
        rw [show ["", name] = [""] ++ [name] from rfl, follow_append] at hblank
        exact hblank.symm

theorem locate_join {name : String} (h : IsName name) (t : Tree) (path : String) :
    t.locate (join path name) = (t.place path).bind fun m => t.follow m [name] := by
  have hne : join path name ≠ "" := by
    rw [h.join_eq]
    intro he
    exact h.1 (String.append_eq_empty_iff.1 he).2
  rw [locate_eq hne, place_join h]

theorem locate_join_eq_ok {name : String} (h : IsName name) {t : Tree} {path : String}
    {l : Location} (hl : t.locate (join path name) = .ok l) :
    ∃ m, t.place path = .ok m ∧ l = m ++ [name] := by
  rw [locate_join h] at hl
  cases hp : t.place path with
  | error e => simp [hp, Except.bind] at hl
  | ok m =>
      rw [hp] at hl
      exact ⟨m, rfl, (follow_name_ok h hl).2⟩

theorem locate_join_of_place {t : Tree} {path : String} {home : Location}
    (hp : t.place path = .ok home) (hd : t.isDirectory home = true) {name : String}
    (h : IsName name) : t.locate (join path name) = .ok (home ++ [name]) := by
  rw [locate_join h, hp]
  exact follow_name hd h

end Tree

end Compliance.Files

import Mathlib.Data.List.Nodup
import Mathlib.Tactic.Common
import Compliance.Ordered

/-!
# Maps with increasing keys

A list of pairs is a map when its keys strictly increase.  Such a list is
determined by its lookups, and putting an entry in keeps it a map.
-/

namespace Compliance.Ordered

/-- What keys have to satisfy for their maps to have one form. -/
class KeyOrder (κ : Type) [LT κ] : Prop where
  irrefl (a : κ) : ¬ a < a
  trans {a b c : κ} : a < b → b < c → a < c
  connected {a b : κ} : ¬ a < b → ¬ b < a → a = b

theorem KeyOrder.asymm {κ : Type} [LT κ] [KeyOrder κ] {a b : κ} (h : a < b) :
    ¬ b < a := fun h' => irrefl a (trans h h')

theorem KeyOrder.ne {κ : Type} [LT κ] [KeyOrder κ] {a b : κ} (h : a < b) :
    a ≠ b := by
  rintro rfl
  exact irrefl a h

instance : KeyOrder String where
  irrefl := String.lt_irrefl
  trans := String.lt_trans
  connected := fun h h' => String.le_antisymm h' h

instance {κ : Type} [DecidableEq κ] [LT κ] [DecidableLT κ] [KeyOrder κ] :
    KeyOrder (List κ) where
  irrefl := by
    intro l
    induction l with
    | nil => exact List.not_lt_nil []
    | cons a l ih =>
        rw [List.cons_lt_cons_iff]
        rintro (h | ⟨_, h⟩)
        · exact KeyOrder.irrefl a h
        · exact ih h
  trans := by
    intro l m n
    induction l generalizing m n with
    | nil =>
        cases n with
        | nil => exact fun _ h => (List.not_lt_nil m h).elim
        | cons c n => exact fun _ _ => List.nil_lt_cons c n
    | cons a l ih =>
        cases m with
        | nil => exact fun h => (List.not_lt_nil _ h).elim
        | cons b m =>
            cases n with
            | nil => exact fun _ h => (List.not_lt_nil _ h).elim
            | cons c n =>
                simp only [List.cons_lt_cons_iff]
                rintro (hab | ⟨rfl, hlm⟩) (hbc | ⟨rfl, hmn⟩)
                · exact Or.inl (KeyOrder.trans hab hbc)
                · exact Or.inl hab
                · exact Or.inl hbc
                · exact Or.inr ⟨rfl, ih hlm hmn⟩
  connected := by
    intro l m
    induction l generalizing m with
    | nil =>
        cases m with
        | nil => exact fun _ _ => rfl
        | cons b m => exact fun h _ => (h (List.nil_lt_cons b m)).elim
    | cons a l ih =>
        cases m with
        | nil => exact fun _ h => (h (List.nil_lt_cons a l)).elim
        | cons b m =>
            simp only [List.cons_lt_cons_iff, not_or, not_and]
            rintro ⟨hab, hlm⟩ ⟨hba, hml⟩
            have heq : a = b := KeyOrder.connected hab hba
            subst heq
            rw [ih (hlm rfl) (hml rfl)]

variable {κ α : Type} [DecidableEq κ] [LT κ] [DecidableLT κ]

/-- The keys of a table strictly increase. -/
def Sorted (table : List (κ × α)) : Prop :=
  (table.map (·.1)).Pairwise (· < ·)

omit [DecidableEq κ] [DecidableLT κ] in
@[simp] theorem sorted_nil : Sorted ([] : List (κ × α)) := List.Pairwise.nil

omit [DecidableEq κ] [DecidableLT κ] in
theorem sorted_cons {k : κ} {v : α} {rest : List (κ × α)} :
    Sorted ((k, v) :: rest) ↔ (∀ e ∈ rest, k < e.1) ∧ Sorted rest := by
  simp [Sorted]

theorem key_of_mem_put {key : κ} {v : α} {table : List (κ × α)} {e : κ × α}
    (h : e ∈ put key v table) : e = (key, v) ∨ e ∈ table := by
  induction table with
  | nil => simpa [put] using h
  | cons entry rest ih =>
      obtain ⟨k, w⟩ := entry
      unfold put at h
      split at h
      · rcases List.mem_cons.1 h with rfl | h
        · exact Or.inl rfl
        · exact Or.inr (List.mem_cons_of_mem _ h)
      · split at h
        · rcases List.mem_cons.1 h with rfl | h
          · exact Or.inl rfl
          · exact Or.inr h
        · rcases List.mem_cons.1 h with rfl | h
          · exact Or.inr List.mem_cons_self
          · exact (ih h).imp id (List.mem_cons_of_mem _)

theorem add_perm {key : κ} {set : List κ} (h : key ∉ set) :
    (add key set).Perm (key :: set) := by
  induction set with
  | nil => exact .refl _
  | cons k rest ih =>
      rw [List.mem_cons, not_or] at h
      unfold add
      rw [if_neg h.1]
      split
      · exact .refl _
      · exact ((ih h.2).cons k).trans (.swap _ _ _)

/-- Under a new key there comes one entry more. -/
theorem put_perm {key : κ} {table : List (κ × α)} (h : find? key table = none) (v : α) :
    (Ordered.put key v table).Perm ((key, v) :: table) := by
  induction table with
  | nil => exact .refl _
  | cons e rest ih =>
      obtain ⟨k, w⟩ := e
      have hne : k ≠ key := by
        rintro rfl
        simp [find?_cons] at h
      rw [find?_cons, if_neg hne] at h
      unfold Ordered.put
      rw [if_neg hne.symm]
      split
      · exact .refl _
      · exact ((ih h).cons (k, w)).trans (.swap _ _ _)

omit [LT κ] [DecidableLT κ] in
theorem find?_eq_none_iff {key : κ} {table : List (κ × α)} :
    find? key table = none ↔ key ∉ table.map (·.1) := by
  induction table with
  | nil => simp
  | cons e table ih =>
      obtain ⟨k, v⟩ := e
      rw [find?_cons, List.map_cons, List.mem_cons, not_or]
      split
      · rename_i heq
        simp [heq]
      · rename_i hne
        rw [ih]
        simp [Ne.symm hne]

omit [LT κ] [DecidableLT κ] in
theorem find?_cons_self (key : κ) (v : α) (rest : List (κ × α)) :
    find? key ((key, v) :: rest) = some v := by
  rw [find?_cons, if_pos rfl]

omit [LT κ] [DecidableLT κ] in
theorem find?_cons_of_ne {key k : κ} (h : k ≠ key) (v : α) (rest : List (κ × α)) :
    find? key ((k, v) :: rest) = find? key rest := by
  rw [find?_cons, if_neg h]

omit [LT κ] [DecidableLT κ] in
theorem find?_append (key : κ) (front back : List (κ × α)) :
    find? key (front ++ back) = (find? key front).or (find? key back) := by
  induction front with
  | nil => rfl
  | cons e front ih =>
      obtain ⟨k, v⟩ := e
      rw [List.cons_append, find?_cons, find?_cons, ih]
      split <;> rfl

omit [LT κ] [DecidableLT κ] in
theorem find?_filter_ne [BEq κ] [LawfulBEq κ] (key other : κ) (table : List (κ × α)) :
    find? other (table.filter fun e => e.1 != key) =
      if other = key then none else find? other table := by
  induction table with
  | nil => simp
  | cons e table ih =>
      obtain ⟨k, v⟩ := e
      rw [List.filter_cons, find?_cons]
      by_cases hk : k = key
      · subst hk
        simp only [bne_self_eq_false, Bool.false_eq_true, ↓reduceIte, ih]
        by_cases hm : other = k
        · simp [hm]
        · simp [hm, Ne.symm hm]
      · simp only [bne_iff_ne, ne_eq, hk, not_false_eq_true, ↓reduceIte, find?_cons, ih]
        by_cases hm : k = other
        · subst hm
          simp [hk]
        · simp [hm]

variable [KeyOrder κ]

theorem Sorted.put {table : List (κ × α)} (h : Sorted table) (key : κ) (v : α) :
    Sorted (Ordered.put key v table) := by
  induction table with
  | nil => simp [Ordered.put, Sorted]
  | cons entry rest ih =>
      obtain ⟨k, w⟩ := entry
      obtain ⟨hfirst, hrest⟩ := sorted_cons.1 h
      unfold Ordered.put
      split
      · rename_i heq
        subst heq
        exact sorted_cons.2 ⟨hfirst, hrest⟩
      · rename_i hne
        split
        · rename_i hlt
          refine sorted_cons.2 ⟨?_, h⟩
          intro e he
          rcases List.mem_cons.1 he with rfl | he
          · exact hlt
          · exact KeyOrder.trans hlt (hfirst e he)
        · rename_i hnlt
          have hk : k < key := by
            by_contra hcon
            exact hne (KeyOrder.connected hnlt hcon)
          refine sorted_cons.2 ⟨?_, ih hrest⟩
          intro e he
          rcases key_of_mem_put he with rfl | he
          · exact hk
          · exact hfirst e he

omit [LT κ] [DecidableLT κ] [KeyOrder κ] in
theorem mem_of_find? {key : κ} {v : α} {table : List (κ × α)}
    (h : find? key table = some v) : (key, v) ∈ table := by
  induction table with
  | nil => simp at h
  | cons entry rest ih =>
      obtain ⟨k, w⟩ := entry
      rw [find?_cons] at h
      split at h
      · rename_i heq
        cases h
        subst heq
        exact List.mem_cons_self
      · exact List.mem_cons_of_mem _ (ih h)

omit [DecidableLT κ] in
/-- In a map the entries are the lookups. -/
theorem Sorted.mem_iff {table : List (κ × α)} (h : Sorted table) {key : κ}
    {v : α} : (key, v) ∈ table ↔ find? key table = some v := by
  refine ⟨?_, mem_of_find?⟩
  induction table with
  | nil => simp
  | cons entry rest ih =>
      obtain ⟨k, w⟩ := entry
      obtain ⟨hfirst, hrest⟩ := sorted_cons.1 h
      intro hmem
      rw [find?_cons]
      rcases List.mem_cons.1 hmem with heq | hmem
      · cases heq
        simp
      · have hne : k ≠ key := KeyOrder.ne (hfirst _ hmem)
        rw [if_neg hne]
        exact ih hrest hmem

/-- Putting what is already there changes nothing. -/
theorem Sorted.put_of_find? {table : List (κ × α)} (h : Sorted table) {key : κ}
    {v : α} (hf : find? key table = some v) :
    Ordered.put key v table = table := by
  induction table with
  | nil => simp at hf
  | cons entry rest ih =>
      obtain ⟨k, w⟩ := entry
      obtain ⟨hfirst, hrest⟩ := sorted_cons.1 h
      rw [find?_cons] at hf
      unfold Ordered.put
      split at hf
      · rename_i heq
        cases hf
        simp [heq]
      · rename_i hne
        have hlt : k < key := hfirst _ (mem_of_find? hf)
        rw [if_neg (fun he => hne he.symm), if_neg (KeyOrder.asymm hlt),
          ih hrest hf]

/-- An entry behind all others goes to the end. -/
theorem put_append_of_lt {table : List (κ × α)} {key : κ} (v : α)
    (h : ∀ e ∈ table, e.1 < key) :
    Ordered.put key v table = table ++ [(key, v)] := by
  induction table with
  | nil => rfl
  | cons entry rest ih =>
      obtain ⟨k, w⟩ := entry
      have hlt : k < key := h (k, w) List.mem_cons_self
      rw [Ordered.put, if_neg (fun he => KeyOrder.ne hlt he.symm),
        if_neg (KeyOrder.asymm hlt),
        ih fun e he => h e (List.mem_cons_of_mem _ he)]
      rfl

/-- Entries under different keys may be put in either order. -/
theorem put_comm {a b : κ} (h : a ≠ b) (v w : α) (table : List (κ × α)) :
    Ordered.put a v (Ordered.put b w table) = Ordered.put b w (Ordered.put a v table) := by
  have hirrefl := KeyOrder.irrefl (κ := κ)
  have hconnected := @KeyOrder.connected κ
  induction table with
  | nil =>
      simp only [Ordered.put]
      grind [KeyOrder.asymm]
  | cons e rest ih =>
      obtain ⟨k, u⟩ := e
      simp only [Ordered.put]
      grind [Ordered.put, KeyOrder.trans]

/-- Entries under different keys make the same table in any order. -/
theorem putAll_perm {entries others : List (κ × α)} (h : entries.Perm others)
    (hn : (entries.map (·.1)).Nodup) (table : List (κ × α)) :
    putAll entries table = putAll others table := by
  apply h.foldl_eq'
  intro d hd e he table
  by_cases hkey : d.1 = e.1
  · rw [List.inj_on_of_nodup_map hn hd he hkey]
  · exact (put_comm hkey d.2 e.2 table).symm

theorem putAll_append {front back : List (κ × α)} (h : Sorted (front ++ back)) :
    putAll back front = front ++ back := by
  induction back generalizing front with
  | nil => simp [putAll]
  | cons entry rest ih =>
      obtain ⟨k, v⟩ := entry
      have hsplit : front ++ (k, v) :: rest = (front ++ [(k, v)]) ++ rest := by
        simp
      have hlt : ∀ e ∈ front, e.1 < k := by
        intro e he
        have hpair := h
        unfold Sorted at hpair
        rw [List.map_append, List.pairwise_append] at hpair
        exact hpair.2.2 e.1 (List.mem_map_of_mem he) k (by simp)
      have hstep : putAll ((k, v) :: rest) front =
          putAll rest (Ordered.put k v front) := rfl
      rw [hstep, put_append_of_lt v hlt, hsplit]
      exact ih (hsplit ▸ h)

theorem Sorted.putAll_eq {table : List (κ × α)} (h : Sorted table) :
    putAll table [] = table :=
  putAll_append h

end Compliance.Ordered

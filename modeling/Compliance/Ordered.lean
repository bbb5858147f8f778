/-!
# Lists in key order

Maps are lists of pairs with strictly increasing keys and sets are strictly
increasing lists.  Insertion keeps the order; for maps it replaces an equal key.
-/

namespace Compliance.Ordered

variable {κ : Type} {α : Type} [DecidableEq κ] [LT κ] [DecidableLT κ]

def find? (key : κ) : List (κ × α) → Option α
  | [] => none
  | (k, v) :: rest => if k = key then some v else find? key rest

/-- Puts a value under a key, in place of any earlier one. -/
def put (key : κ) (v : α) : List (κ × α) → List (κ × α)
  | [] => [(key, v)]
  | (k, w) :: rest =>
      if key = k then (key, v) :: rest
      else if key < k then (key, v) :: (k, w) :: rest
      else (k, w) :: put key v rest

def putAll (entries : List (κ × α)) (table : List (κ × α)) : List (κ × α) :=
  entries.foldl (fun table (k, v) => put k v table) table

/-- Adds a member to a set. -/
def add (key : κ) : List κ → List κ
  | [] => [key]
  | k :: rest =>
      if key = k then k :: rest
      else if key < k then key :: k :: rest
      else k :: add key rest

def ofList (keys : List κ) : List κ :=
  keys.foldl (fun set k => add k set) []

omit [LT κ] [DecidableLT κ] in
@[simp] theorem find?_nil (key : κ) :
    find? key ([] : List (κ × α)) = none := rfl

omit [LT κ] [DecidableLT κ] in
theorem find?_cons (key k : κ) (v : α) (rest : List (κ × α)) :
    find? key ((k, v) :: rest) =
      if k = key then some v else find? key rest := rfl

@[simp] theorem find?_put_self (key : κ) (v : α) (table : List (κ × α)) :
    find? key (put key v table) = some v := by
  induction table with
  | nil => simp [put, find?]
  | cons entry rest ih =>
      obtain ⟨k, w⟩ := entry
      unfold put
      split
      · simp [find?]
      · rename_i hne
        split
        · simp [find?]
        · rw [find?_cons, if_neg (fun h => hne h.symm), ih]

theorem find?_put_of_ne {key other : κ} (h : other ≠ key) (v : α)
    (table : List (κ × α)) :
    find? other (put key v table) = find? other table := by
  induction table with
  | nil => simp [put, find?, h.symm]
  | cons entry rest ih =>
      obtain ⟨k, w⟩ := entry
      unfold put
      split
      · rename_i heq
        subst heq
        simp [find?, h.symm]
      · split
        · rw [find?_cons, if_neg h.symm]
        · rw [find?_cons, ih, find?_cons]

@[simp] theorem mem_add {key x : κ} {set : List κ} :
    x ∈ add key set ↔ x = key ∨ x ∈ set := by
  induction set with
  | nil => simp [add]
  | cons k rest ih =>
      unfold add
      split
      · rename_i heq
        subst heq
        simp
      · split
        · simp
        · simp [ih, or_left_comm]

end Compliance.Ordered

import Mathlib.Data.List.Infix

/-!
# Joined texts

What the characters of all parts and of the separator have in common, those of the
joined text have too.  A pattern occurs across a place in the text only if a part of
the pattern stands on either side of it.
-/

namespace Compliance.Text

variable {α : Type}

theorem all_intercalate {p : α → Bool} {sep : List α} {parts : List (List α)}
    (hsep : sep.all p = true) (hparts : ∀ part ∈ parts, part.all p = true) :
    (sep.intercalate parts).all p = true := by
  induction parts with
  | nil => rfl
  | cons part rest ih =>
      cases rest with
      | nil => simpa using hparts
      | cons next rest =>
          have hrest := ih fun part' h => hparts part' (List.mem_cons_of_mem part h)
          rw [List.intercalate_cons_cons, List.all_append, List.all_append,
            hparts part List.mem_cons_self, hsep, hrest]
          rfl

/-- A pattern does not reach across something that is not in it. -/
theorem infix_append_cons_iff {pattern : List α} {c : α} (hc : c ∉ pattern)
    (front rest : List α) :
    pattern <:+: front ++ c :: rest ↔ pattern <:+: front ∨ pattern <:+: rest := by
  constructor
  · intro h
    rcases List.infix_append_iff.1 h with h | h | ⟨left, right, rfl, hleft, hright⟩
    · exact Or.inl h
    · rcases List.infix_cons_iff.1 h with h | h
      · cases pattern with
        | nil => exact Or.inl (List.nil_infix)
        | cons d pattern =>
            obtain ⟨rfl, -⟩ := List.cons_prefix_cons.1 h
            exact absurd List.mem_cons_self hc
      · exact Or.inr h
    · cases right with
      | nil =>
          rw [List.append_nil]
          exact Or.inl hleft.isInfix
      | cons d right =>
          obtain ⟨rfl, -⟩ := List.cons_prefix_cons.1 hright
          exact absurd (List.mem_append_right left List.mem_cons_self) hc
  · rintro (h | h)
    · exact h.trans (List.prefix_append front (c :: rest)).isInfix
    · exact (h.trans (List.suffix_cons c rest).isInfix).trans
        (List.suffix_append front (c :: rest)).isInfix

theorem infix_append_iff_of_disjoint {pattern front : List α} (h : ∀ c ∈ front, c ∉ pattern)
    (hne : pattern ≠ []) (rest : List α) :
    pattern <:+: front ++ rest ↔ pattern <:+: rest := by
  induction front with
  | nil => rfl
  | cons c front ih =>
      have hc := infix_append_cons_iff (h c List.mem_cons_self) [] (front ++ rest)
      rw [List.nil_append, List.infix_nil] at hc
      rw [List.cons_append, hc, ih fun d hd => h d (List.mem_cons_of_mem c hd)]
      exact or_iff_right hne

end Compliance.Text

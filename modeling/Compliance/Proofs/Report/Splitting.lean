import Mathlib.Data.List.Infix
import Mathlib.Tactic.Common
import Compliance.Report.ResultString

/-!
# The last four plus signs

A text is cut where four plus signs stand for the last time.  The text behind them
has no such place and does not begin with a plus sign, as otherwise the last four
would begin one sign later; that is all there is to know about the halves.
-/

namespace Compliance.Report.ResultString

theorem toList_halves : halves.toList = ['+', '+', '+', '+'] := rfl

theorem toList_between : between.toList = ['+', '+', '+'] := rfl

/-- Four plus signs in front of the text are the last ones. -/
def Clear (cs : List Char) : Prop :=
  cs.head? ≠ some '+' ∧ ¬ halves.toList <:+: cs

instance (cs : List Char) : Decidable (Clear cs) :=
  inferInstanceAs (Decidable (_ ∧ _))

theorem infix_between_iff (cs : List Char) :
    halves.toList <:+: between.toList ++ cs ↔ cs.head? = some '+' ∨ halves.toList <:+: cs := by
  rw [toList_halves, toList_between]
  cases cs with
  | nil => decide
  | cons c cs =>
      simp only [List.cons_append, List.nil_append, List.infix_cons_iff, List.cons_prefix_cons,
        List.nil_prefix, List.head?_cons, Option.some.injEq, true_and, and_true]
      tauto

theorem splitAtLast_cons_of_some {rest a b : List Char} (h : splitAtLast rest = some (a, b))
    (c : Char) : splitAtLast (c :: rest) = some (c :: a, b) := by
  simp only [splitAtLast, h]

theorem splitAtLast_cons_of_none {rest : List Char} (h : splitAtLast rest = none) (c : Char) :
    splitAtLast (c :: rest) = none ↔ ¬ halves.toList <+: c :: rest := by
  simp only [splitAtLast, h, toList_halves]
  split
  · simp
  · rename_i hno
    simp only [true_iff]
    rintro ⟨tail, htail⟩
    cases htail
    exact hno tail rfl rfl

theorem splitAtLast_eq_none_iff {cs : List Char} :
    splitAtLast cs = none ↔ ¬ halves.toList <:+: cs := by
  induction cs with
  | nil => decide
  | cons c rest ih =>
      rw [List.infix_cons_iff, not_or, ← ih]
      cases h : splitAtLast rest with
      | none => simp [splitAtLast_cons_of_none h]
      | some parts => simp [splitAtLast_cons_of_some h]

theorem splitAtLast_append {cs a b : List Char} (h : splitAtLast cs = some (a, b))
    (front : List Char) : splitAtLast (front ++ cs) = some (front ++ a, b) := by
  induction front with
  | nil => exact h
  | cons c front ih => exact splitAtLast_cons_of_some ih c

/-- Of five plus signs the last four are the last ones. -/
theorem splitAtLast_halves_iff (cs : List Char) :
    splitAtLast (halves.toList ++ cs) = some ([], cs) ↔ Clear cs := by
  have hrest : splitAtLast (between.toList ++ cs) = none ↔ Clear cs := by
    rw [splitAtLast_eq_none_iff, infix_between_iff, not_or]
    rfl
  have hfour : halves.toList ++ cs = '+' :: (between.toList ++ cs) := rfl
  rw [← hrest, hfour]
  cases h : splitAtLast (between.toList ++ cs) with
  | none =>
      rw [toList_between] at h ⊢
      simp only [List.cons_append, List.nil_append] at h ⊢
      rw [splitAtLast, h]
      simp
  | some parts => simp [splitAtLast_cons_of_some h]

theorem splitAtLast_joined_iff (front back : List Char) :
    splitAtLast (front ++ (halves.toList ++ back)) = some (front, back) ↔ Clear back := by
  cases h : splitAtLast (halves.toList ++ back) with
  | none =>
      rw [splitAtLast_eq_none_iff] at h
      exact absurd (List.prefix_append halves.toList back).isInfix h
  | some parts =>
      rw [splitAtLast_append h, ← splitAtLast_halves_iff, h]
      simp [Prod.ext_iff]

/-- Nothing is lost at the cut but the four plus signs. -/
theorem eq_append_of_splitAtLast {cs a b : List Char} (h : splitAtLast cs = some (a, b)) :
    cs = a ++ (halves.toList ++ b) := by
  induction cs generalizing a with
  | nil => cases h
  | cons c rest ih =>
      cases hrest : splitAtLast rest with
      | some parts =>
          obtain ⟨front, back⟩ := parts
          rw [splitAtLast_cons_of_some hrest, Option.some.injEq, Prod.mk.injEq] at h
          obtain ⟨rfl, rfl⟩ := h
          rw [List.cons_append, ← ih hrest]
      | none =>
          -- no later place is left, so the four signs stand right here
          simp only [splitAtLast, hrest] at h
          split at h
          · cases h
            rfl
          · cases h

theorem splitAtLast_eq_some_iff {cs a b : List Char} :
    splitAtLast cs = some (a, b) ↔ cs = a ++ (halves.toList ++ b) ∧ Clear b := by
  constructor
  · intro h
    have hcs := eq_append_of_splitAtLast h
    rw [hcs] at h
    exact ⟨hcs, (splitAtLast_joined_iff a b).1 h⟩
  · rintro ⟨rfl, hb⟩
    exact (splitAtLast_joined_iff a b).2 hb

theorem split_eq_ok_iff {text front back : String} :
    split text = .ok (front, back) ↔
      splitAtLast text.toList = some (front.toList, back.toList) := by
  unfold split
  cases splitAtLast text.toList with
  | none => simp
  | some parts => simp [Prod.ext_iff, ← String.toList_inj]

theorem split_eq_error_iff {text : String} {e : ReportError} :
    split text = .error e ↔ e = .unrecognizedResult text ∧ ¬ halves.toList <:+: text.toList := by
  rw [← splitAtLast_eq_none_iff]
  unfold split
  cases splitAtLast text.toList with
  | none => simp [eq_comm]
  | some parts => simp

theorem split_eq_ok_iff_joined {text front back : String} :
    split text = .ok (front, back) ↔ front ++ halves ++ back = text ∧ Clear back.toList := by
  rw [split_eq_ok_iff, splitAtLast_eq_some_iff, ← String.toList_inj, String.toList_append,
    String.toList_append, List.append_assoc, eq_comm]

/-- Only a text without four plus signs in a row is refused.  Any other has exactly one
pair of halves such that the last four plus signs stand between them, and is cut into
these; so halves that were joined come apart again, whatever plus signs the first has. -/
theorem split_exactly :
    (∀ text e, split text = .error e ↔
      e = .unrecognizedResult text ∧ ¬ halves.toList <:+: text.toList) ∧
    (∀ text, halves.toList <:+: text.toList →
      ∃ p : String × String, split text = .ok p ∧
        ∀ front back, front ++ halves ++ back = text ∧ Clear back.toList ↔ (front, back) = p) ∧
    ∀ front back, Clear back.toList → split (front ++ halves ++ back) = .ok (front, back) := by
  refine ⟨fun text e => split_eq_error_iff, fun text h => ?_, fun front back hb => ?_⟩
  · cases hsplit : split text with
    | error e => exact absurd h (split_eq_error_iff.1 hsplit).2
    | ok p =>
        refine ⟨p, rfl, fun front back => ?_⟩
        rw [← split_eq_ok_iff_joined, hsplit, Except.ok.injEq, eq_comm]
  · exact split_eq_ok_iff_joined.2 ⟨rfl, hb⟩

/-- Of six plus signs in a row the first two belong to the first half. -/
example : split "a++++++b" = .ok ("a++", "b") := by decide +kernel

end Compliance.Report.ResultString

import Mathlib.Data.List.Induction
import Mathlib.Data.List.TakeDrop
import Mathlib.Tactic.Linarith
import Mathlib.Tactic.Ring
import Compliance.Number.Decimal

/-!
# Digits and their values

The digits of a number are digits, have no zero in front, and are as many as
its order of magnitude says.  Zeros behind them multiply by powers of ten.
-/

namespace Compliance.Number

theorem tenTo_eq (n : Nat) : tenTo n = 10 ^ n := rfl

theorem twoTo_eq (n : Nat) : twoTo n = 2 ^ n := rfl

theorem twoTo_pos (n : Nat) : 0 < twoTo n := Nat.two_pow_pos n

theorem isDigit_digitChar {d : Nat} (h : d < 10) : isDigit (digitChar d) = true := by
  have hall : ∀ k : Fin 10, isDigit (digitChar k.1) = true := by decide
  exact hall ⟨d, h⟩

theorem digitChar_ne_zero {d : Nat} (h : d < 10) (hpos : 0 < d) : digitChar d ≠ '0' := by
  have hall : ∀ k : Fin 10, 0 < k.1 → digitChar k.1 ≠ '0' := by decide
  exact hall ⟨d, h⟩ hpos

theorem isDigit_of_mem_digits {n : Nat} {c : Char} (hc : c ∈ digits n) :
    isDigit c = true := by
  induction n using Nat.strongRecOn with
  | _ n ih =>
      by_cases h : n < 10
      · rw [digits_of_lt h, List.mem_singleton] at hc
        exact hc ▸ isDigit_digitChar h
      · rw [digits_of_ge h, List.mem_append, List.mem_singleton] at hc
        rcases hc with hc | rfl
        · exact ih (n / 10) (by omega) hc
        · exact isDigit_digitChar (Nat.mod_lt _ (by omega))

@[simp] theorem digits_zero : digits 0 = ['0'] := digits_of_lt (by omega)

theorem digits_ne_nil (n : Nat) : digits n ≠ [] := by
  by_cases h : n < 10
  · simp [digits_of_lt h]
  · simp [digits_of_ge h]

theorem length_digits_pos (n : Nat) : 0 < (digits n).length :=
  List.length_pos_iff.2 (digits_ne_nil n)

theorem head_digits_ne_zero {n : Nat} (hn : 0 < n) : (digits n).head? ≠ some '0' := by
  induction n using Nat.strongRecOn with
  | _ n ih =>
      by_cases h : n < 10
      · rw [digits_of_lt h]
        simpa using digitChar_ne_zero h hn
      · have hfront := ih (n / 10) (by omega) (by omega)
        rw [digits_of_ge h, List.head?_append]
        cases hds : (digits (n / 10)).head? with
        | none => exact absurd (List.head?_eq_none_iff.1 hds) (digits_ne_nil _)
        | some c => simpa [hds] using hfront

theorem ofDigits_cons (c : Char) (cs : List Char) :
    ofDigits (c :: cs) = digitValue c * 10 ^ cs.length + ofDigits cs := by
  induction cs using List.reverseRecOn with
  | nil => simp [ofDigits]
  | append_singleton cs d ih =>
      rw [← List.cons_append, ofDigits_append_singleton, ih, ofDigits_append_singleton,
        List.length_append, List.length_singleton, pow_succ]
      ring

theorem ofDigits_append (cs ds : List Char) :
    ofDigits (cs ++ ds) = ofDigits cs * 10 ^ ds.length + ofDigits ds := by
  induction cs with
  | nil => simp
  | cons c cs ih =>
      rw [List.cons_append, ofDigits_cons, ih, ofDigits_cons, List.length_append, pow_add]
      ring

@[simp] theorem ofDigits_replicate_zero (k : Nat) :
    ofDigits (List.replicate k '0') = 0 := by
  induction k with
  | zero => rfl
  | succ k ih =>
      rw [List.replicate_succ, ofDigits_cons, ih]
      simp [digitValue]

theorem ofDigits_lt_of_isDigit {cs : List Char} (h : ∀ c ∈ cs, isDigit c = true) :
    ofDigits cs < 10 ^ cs.length := by
  induction cs with
  | nil => simp
  | cons c cs ih =>
      have htail := ih fun d hd => h d (List.mem_cons_of_mem c hd)
      have hvalue : digitValue c ≤ 9 := by
        have hc := h c List.mem_cons_self
        simp only [isDigit, Bool.and_eq_true, decide_eq_true_eq, Char.le_def] at hc
        have hle : c.toNat ≤ 57 := by
          have := UInt32.le_iff_toNat_le.1 hc.2
          simpa using this
        simp only [digitValue]
        omega
      rw [ofDigits_cons, List.length_cons, pow_succ]
      nlinarith [pow_pos (show 0 < 10 by omega) cs.length]

theorem lt_pow_length_digits (n : Nat) : n < 10 ^ (digits n).length := by
  have hlt : ofDigits (digits n) < 10 ^ (digits n).length :=
    ofDigits_lt_of_isDigit fun _ => isDigit_of_mem_digits
  rwa [ofDigits_digits] at hlt

theorem pow_length_digits_le {n : Nat} (hn : 0 < n) :
    10 ^ ((digits n).length - 1) ≤ n := by
  induction n using Nat.strongRecOn with
  | _ n ih =>
      by_cases h : n < 10
      · rw [digits_of_lt h]
        simpa using Nat.succ_le_of_lt hn
      · have hlast := ih (n / 10) (by omega) (by omega)
        have hpos := length_digits_pos (n / 10)
        obtain ⟨k, hk⟩ : ∃ k, (digits (n / 10)).length = k + 1 :=
          ⟨_, (Nat.sub_add_cancel hpos).symm⟩
        rw [digits_of_ge h, List.length_append, List.length_singleton, hk]
        rw [hk] at hlast
        simp only [Nat.add_sub_cancel, pow_succ] at hlast ⊢
        omega

theorem length_digits_le {n k : Nat} (hk : 0 < k) (h : n < 10 ^ k) :
    (digits n).length ≤ k := by
  by_contra hlong
  have hn : 0 < n := by
    rcases Nat.eq_zero_or_pos n with rfl | hn
    · rw [digits_zero] at hlong
      simp at hlong
      omega
    · exact hn
  have hle := pow_length_digits_le hn
  have hmono : 10 ^ k ≤ 10 ^ ((digits n).length - 1) :=
    Nat.pow_le_pow_right (by omega) (by omega)
  omega

theorem lt_length_digits {n k : Nat} (h : 10 ^ k ≤ n) : k < (digits n).length := by
  by_contra hshort
  have hlt := lt_pow_length_digits n
  have hmono : 10 ^ (digits n).length ≤ 10 ^ k :=
    Nat.pow_le_pow_right (by omega) (by omega)
  omega

theorem digits_mul_ten {n : Nat} (hn : 0 < n) : digits (n * 10) = digits n ++ ['0'] := by
  rw [digits_of_ge (show ¬ n * 10 < 10 by omega), Nat.mul_div_cancel n (by omega),
    Nat.mul_mod_left]
  rfl

theorem digits_mul_pow {n : Nat} (hn : 0 < n) (k : Nat) :
    digits (n * 10 ^ k) = digits n ++ List.replicate k '0' := by
  induction k with
  | zero => simp
  | succ k ih =>
      have hpos : 0 < n * 10 ^ k := Nat.mul_pos hn (pow_pos (by omega) k)
      rw [pow_succ, ← mul_assoc, digits_mul_ten hpos, ih, List.replicate_succ',
        List.append_assoc]

theorem span_digits {ds rest : List Char} (hds : ∀ c ∈ ds, isDigit c = true)
    (hrest : ∀ c, rest.head? = some c → isDigit c = false) :
    (ds ++ rest).span isDigit = (ds, rest) := by
  have htake : rest.takeWhile isDigit = [] := by
    cases rest with
    | nil => rfl
    | cons c cs => simp [hrest c rfl]
  have hdrop : rest.dropWhile isDigit = rest := by
    cases rest with
    | nil => rfl
    | cons c cs => simp [hrest c rfl]
  rw [List.span_eq_takeWhile_dropWhile, List.takeWhile_append_of_pos hds,
    List.dropWhile_append_of_pos hds, htake, hdrop, List.append_nil]

/-! ## Numbers in a given width -/

theorem toList_padded (width n : Nat) : (padded width n).toList =
    List.replicate (width - (digits n).length) '0' ++ digits n := by
  simp [padded]

theorem ofDigits_padded (width n : Nat) : ofDigits (padded width n).toList = n := by
  rw [toList_padded, ofDigits_append, ofDigits_replicate_zero, ofDigits_digits]
  simp

theorem isDigit_of_mem_padded {width n : Nat} {c : Char}
    (hc : c ∈ (padded width n).toList) : isDigit c = true := by
  rw [toList_padded, List.mem_append] at hc
  rcases hc with hc | hc
  · rw [List.eq_of_mem_replicate hc]
    rfl
  · exact isDigit_of_mem_digits hc

theorem length_padded {w n : Nat} (hw : 0 < w) (h : n < 10 ^ w) :
    (padded w n).toList.length = w := by
  have hle := length_digits_le hw h
  rw [toList_padded, List.length_append, List.length_replicate]
  omega

end Compliance.Number

import Compliance.Proofs.Number.ReadingBack
import Compliance.Time.Duration

/-!
# Finite results

Where a bound on the exact result is known, rounding does not reach infinity.  A
whole number of a machine is rounded to a finite one, and a duration of so many
milliseconds comes to a finite number of them.
-/

namespace Compliance.Number.Binary64

variable {x y : Binary64} {j k m : Nat}

/-- A number without a sign, its exponent below a bound.  The least exponent is 0, and
that of the infinities is 2047. -/
structure Within (k : Nat) (x : Binary64) : Prop where
  unsigned : x.isNegative = false
  below : x.magnitude < k * twoTo 52

namespace Within

theorem mono (h : x.Within j) (hjk : j ≤ k) : x.Within k :=
  ⟨h.unsigned, h.below.trans_le (Nat.mul_le_mul_right _ hjk)⟩

theorem isFinite (h : x.Within k) (hk : k ≤ 2047) : x.isFinite = true :=
  decide_eq_true (h.mono hk).below

theorem units_lt (h : x.Within k) : x.units < 2 ^ (52 + k) := by
  have hbelow := h.below
  unfold units unitsOf
  split
  · rename_i hsmall
    exact hsmall.trans_le (Nat.pow_le_pow_right (by omega) (by omega))
  · have hexponent : x.magnitude / twoTo 52 < k := (Nat.div_lt_iff_lt_mul (by decide)).2 hbelow
    have hk : 0 < k := Nat.zero_lt_of_lt hexponent
    have hsignificand : twoTo 52 + x.magnitude % twoTo 52 < 2 ^ 53 := by
      simp only [twoTo_eq]
      omega
    have hpow : twoTo (x.magnitude / twoTo 52 - 1) ≤ 2 ^ (k - 1) :=
      Nat.pow_le_pow_right (by omega) (Nat.sub_le_sub_right hexponent.le 1)
    have hlt := Nat.mul_lt_mul_of_lt_of_le hsignificand hpow (Nat.two_pow_pos _)
    rwa [← pow_add, show 53 + (k - 1) = 52 + k by omega] at hlt

theorem signedUnits_eq (h : x.Within k) : x.signedUnits = x.units := by
  simp [signedUnits, h.unsigned]

theorem signsDiffer_eq (hx : x.Within j) (hy : y.Within k) : signsDiffer x y = false := by
  simp [signsDiffer, hx.unsigned, hy.unsigned]

end Within

theorem within_ofMagnitude (h : m < k * twoTo 52) (hk : k ≤ 2047) :
    (ofMagnitude false m).Within k := by
  have hinfinite : k * twoTo 52 ≤ infinite := by
    unfold infinite
    exact Nat.mul_le_mul_right _ hk
  have hfinite := h.trans_le hinfinite
  have hword : m < 2 ^ 63 := hfinite.trans_le (by decide)
  refine ⟨?_, (magnitude_ofMagnitude hfinite).trans_lt h⟩
  simp only [isNegative, ofMagnitude, Bool.false_eq_true, ↓reduceIte, UInt64.toNat_ofNat', twoTo_eq,
    decide_eq_false_iff_not]
  omega

/-- What is cut back to 53 bits and rounded has an exponent not far above its own. -/
theorem within_nearest {num den : Nat} (h : num < den * 2 ^ (52 + k)) (hk : k + 3 ≤ 2047) :
    (ofMagnitude false (nearest num den)).Within (k + 3) := by
  apply within_ofMagnitude _ hk
  have hwhole : num / den < 2 ^ (52 + k) := Nat.div_lt_of_lt_mul h
  have hshift : (num / den).log2 - 52 ≤ k := by
    rcases Nat.eq_zero_or_pos (num / den) with hzero | hpos
    · simp [hzero]
    · have hlog := (Nat.log2_lt (by omega)).2 hwhole
      omega
  have hquotient : num / (den * 2 ^ ((num / den).log2 - 52)) < 2 ^ 53 := by
    rw [← Nat.div_div_eq_div_mul, Nat.div_lt_iff_lt_mul (Nat.two_pow_pos _), ← pow_add]
    exact Nat.lt_log2_self.trans_le (Nat.pow_le_pow_right (by omega) (by omega))
  have hup (b : Bool) : b.toNat ≤ 1 := by cases b <;> decide
  simp only [nearest, twoTo_eq]
  apply Nat.lt_of_le_of_lt (Nat.min_le_left _ _)
  apply Nat.lt_of_le_of_lt (Nat.add_le_add_left (hup _) _)
  have hleading := Nat.mul_le_mul_right (2 ^ 52) hshift
  omega

/-! ## Whole numbers of a machine -/

theorem within_ofNat {n : Nat} (h : n < 2 ^ 64) : (ofNat n).Within 1089 := by
  have hunits (e : Nat) : n * twoTo e < 2 ^ (52 + (e + 12)) := by
    have hlt := Nat.mul_lt_mul_of_pos_right h (twoTo_pos e)
    rwa [twoTo_eq, ← pow_add, show 64 + e = 52 + (e + 12) by omega] at hlt
  have hdigits : (digits n).length ≤ 20 := length_digits_le (by omega) (by omega)
  unfold ofNat ofDecimal
  split
  · exact within_ofMagnitude (by decide) (by decide)
  · rw [if_neg (by omega), if_neg (by omega), if_pos (le_refl 0)]
    apply within_nearest (k := 1074 + 12) _ (by decide)
    rw [Int.toNat_zero, tenTo_eq, pow_zero, mul_one, one_mul]
    exact hunits 1074

theorem isFinite_ofNat {n : Nat} (h : n < 2 ^ 64) : (ofNat n).isFinite = true :=
  (within_ofNat h).isFinite (by decide)

/-! ## Operations -/

theorem add_of_within (hx : x.Within k) (hy : y.Within k) (hk : k ≤ 2047) :
    x.add y = ofMagnitude false (nearest (x.units + y.units) 1) := by
  have hfx := hx.isFinite hk
  have hfy := hy.isFinite hk
  have hsum : (x.units : Int) + y.units = (x.units + y.units : Nat) := by push_cast; rfl
  have hpos : ¬ ((x.units + y.units : Nat) : Int) < 0 := by omega
  simp only [add, isNaN_eq_false hfx, isNaN_eq_false hfy, hfx, hfy, hx.signedUnits_eq,
    hy.signedUnits_eq, hsum, hx.unsigned, decide_eq_false hpos, Int.natAbs_natCast,
    Bool.or_false, Bool.false_and, Bool.not_true, Bool.false_eq_true, ↓reduceIte, ite_self]

theorem Within.add (hx : x.Within k) (hy : y.Within k) (hk : k + 4 ≤ 2047) :
    (x.add y).Within (k + 4) := by
  rw [add_of_within hx hy (by omega)]
  apply within_nearest (k := k + 1) _ hk
  have hux := hx.units_lt
  have huy := hy.units_lt
  rw [one_mul, ← add_assoc, pow_succ]
  omega

theorem mul_of_within (hx : x.Within j) (hy : y.Within k) (hj : j ≤ 2047) (hk : k ≤ 2047) :
    x.mul y = ofMagnitude false (nearest (x.units * y.units) (twoTo 1074)) := by
  have hfx := hx.isFinite hj
  have hfy := hy.isFinite hk
  simp only [mul, isNaN_eq_false hfx, isNaN_eq_false hfy, hfx, hfy, hx.signsDiffer_eq hy,
    Bool.or_false, Bool.not_true, Bool.false_eq_true, ↓reduceIte]

/-- A factor is told by its units, 2 ^ 1074 of which are one. -/
theorem Within.mul (hx : x.Within j) (hy : y.Within k) (hk : k ≤ 2047)
    (hfactor : y.units ≤ twoTo 1074 * 2 ^ m) (hj : j + m + 3 ≤ 2047) :
    (x.mul y).Within (j + m + 3) := by
  rw [mul_of_within hx hy (by omega) hk]
  apply within_nearest _ hj
  have hlt := Nat.mul_lt_mul_of_lt_of_le hx.units_lt hfactor
    (Nat.mul_pos (twoTo_pos 1074) (Nat.two_pow_pos m))
  rwa [← mul_assoc, mul_comm (2 ^ (52 + j)), mul_assoc, ← pow_add, add_assoc] at hlt

theorem div_of_within (hx : x.Within j) (hy : y.Within k) (hj : j ≤ 2047) (hk : k ≤ 2047)
    (hne : y.isZero = false) :
    x.div y = ofMagnitude false (nearest (x.units * twoTo 1074) y.units) := by
  have hfx := hx.isFinite hj
  have hfy := hy.isFinite hk
  simp only [div, isNaN_eq_false hfx, isNaN_eq_false hfy, hfx, hfy, hx.signsDiffer_eq hy, hne,
    Bool.or_false, Bool.not_true, Bool.false_eq_true, ↓reduceIte]

/-- Division by one or more. -/
theorem Within.div (hx : x.Within j) (hy : y.Within k) (hk : k ≤ 2047)
    (hone : twoTo 1074 ≤ y.units) (hj : j + 3 ≤ 2047) : (x.div y).Within (j + 3) := by
  have hne : y.isZero = false := by
    cases hzero : y.isZero with
    | false => rfl
    | true =>
        have hmagnitude : y.magnitude = 0 := by simpa [isZero] using hzero
        have hunits : y.units = 0 := by simp [units, unitsOf, hmagnitude, twoTo_eq]
        have hpos := twoTo_pos 1074
        omega
  rw [div_of_within hx hy (by omega) hk hne]
  apply within_nearest _ hj
  rw [mul_comm]
  exact Nat.mul_lt_mul_of_le_of_lt hone hx.units_lt ((twoTo_pos 1074).trans_le hone)

end Compliance.Number.Binary64

namespace Compliance.Time.Duration

open Compliance.Number (Binary64 twoTo)

theorem isFinite_asMillis {ms : Nat} (h : ms < 2 ^ 64) :
    (ofMillis ms).asMillis.isFinite = true := by
  have hseconds : (Binary64.ofNat (ofMillis ms).seconds).Within 1092 :=
    (Binary64.within_ofNat (Nat.lt_of_le_of_lt (Nat.div_le_self ms 1000) h)).mono (by decide)
  have hnanos : (Binary64.ofNat (ofMillis ms).nanos).Within 1089 := by
    apply Binary64.within_ofNat
    simp only [ofMillis]
    omega
  have hbillion : twoTo 1074 ≤ (Binary64.ofNat 1000000000).units := by decide +kernel
  have hthousand : (Binary64.ofNat 1000).units ≤ twoTo 1074 * 2 ^ 10 := by decide +kernel
  have hpart := hnanos.div (Binary64.within_ofNat (by decide)) (by decide) hbillion (by decide)
  have hsum := hseconds.add hpart (by decide)
  exact (hsum.mul (Binary64.within_ofNat (by decide)) (by decide) hthousand (by decide)).isFinite
    (by decide)

end Compliance.Time.Duration

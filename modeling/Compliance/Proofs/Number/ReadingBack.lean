import Compliance.Number.Shortest
import Compliance.Proofs.Number.Digits

/-!
# Decimals that read back

Rounding depends on the value of a fraction only, so zeros may move between
significand and exponent.  The exact expansion of a finite number is rounded to
the number itself, and with it the shortest decimal reads back.
-/

namespace Compliance.Number

namespace Binary64

/-- Rounding sees the value of a fraction, not its terms. -/
theorem nearest_mul_right (num den : Nat) {c : Nat} (hc : 0 < c) :
    nearest (num * c) (den * c) = nearest num den := by
  have hgrain (shift : Nat) : den * c * twoTo shift = den * twoTo shift * c := by
    ring
  have htwice (a : Nat) : 2 * (a * c) = 2 * a * c := by
    ring
  unfold nearest
  simp only [Nat.mul_div_mul_right num den hc, hgrain, Nat.mul_div_mul_right _ _ hc,
    Nat.mul_mod_mul_right, htwice, Nat.mul_lt_mul_right hc]
  have heq (a b : Nat) : (a * c == b * c) = (a == b) := by
    rw [Bool.eq_iff_iff, beq_iff_eq, beq_iff_eq]
    exact Nat.mul_left_inj (by omega)
  simp only [heq]

/-- Below the first full significand a unit is a step of the magnitude. -/
theorem nearest_of_lt {m : Nat} (h : m < twoTo 52) : nearest m 1 = m := by
  have hlog : m = 0 ∨ m.log2 < 52 := by
    rcases Nat.eq_zero_or_pos m with h0 | h0
    · exact Or.inl h0
    · exact Or.inr ((Nat.log2_lt (by omega)).2 h)
  have hshift : m.log2 - 52 = 0 := by
    rcases hlog with rfl | hlog
    · rfl
    · omega
  have hexact : nearest m 1 = min m infinite := by
    simp [nearest, hshift, twoTo_eq, Nat.mod_one]
  rw [hexact]
  exact Nat.min_eq_left (h.le.trans (by decide))

theorem log2_significand {f : Nat} (hf : f < twoTo 52) (e : Nat) :
    ((twoTo 52 + f) * twoTo e).log2 = 52 + e := by
  have hpos : 0 < twoTo e := Nat.two_pow_pos e
  rw [Nat.log2_eq_iff (Nat.mul_ne_zero (by simp [twoTo_eq]) (by omega))]
  constructor
  · rw [pow_add]
    exact Nat.mul_le_mul_right _ (Nat.le_add_right _ f)
  · rw [show 52 + e + 1 = 53 + e by omega, pow_add]
    exact Nat.mul_lt_mul_of_pos_right (by simp only [twoTo_eq] at hf ⊢; omega) hpos

/-- A full significand is cut back to its own 53 bits, with nothing left to round. -/
theorem nearest_significand {f e : Nat} (hf : f < twoTo 52)
    (hfinite : (e + 1) * twoTo 52 + f < infinite) :
    nearest ((twoTo 52 + f) * twoTo e) 1 = (e + 1) * twoTo 52 + f := by
  have hpos : 0 < twoTo e := Nat.two_pow_pos e
  have hdown : (decide (twoTo e < 2 * 0) ||
      2 * 0 == twoTo e && (twoTo 52 + f) % 2 == 1) = false := by
    have hne : (2 * 0 == twoTo e) = false := by
      rw [beq_eq_false_iff_ne]
      omega
    rw [hne]
    simp
  have hword : e * twoTo 52 + (twoTo 52 + f) = (e + 1) * twoTo 52 + f := by ring
  simp only [nearest, Nat.div_one, log2_significand hf, Nat.add_sub_cancel_left, one_mul,
    Nat.mul_div_cancel _ hpos, Nat.mul_mod_left, hdown, Bool.toNat_false, add_zero, hword]
  exact Nat.min_eq_left hfinite.le

/-- A finite magnitude is the nearest one to its own units. -/
theorem nearest_unitsOf {m : Nat} (hm : m < infinite) : nearest (unitsOf m) 1 = m := by
  unfold unitsOf
  split
  · rename_i hsmall
    exact nearest_of_lt hsmall
  · rename_i hfull
    have hdiv : 1 ≤ m / twoTo 52 := (Nat.le_div_iff_mul_le (by decide)).2 (by omega)
    have hsplit : (m / twoTo 52 - 1 + 1) * twoTo 52 + m % twoTo 52 = m := by
      rw [Nat.sub_add_cancel hdiv, mul_comm]
      exact Nat.div_add_mod m (twoTo 52)
    rw [nearest_significand (Nat.mod_lt _ (by decide)) (hsplit.symm ▸ hm), hsplit]

theorem ofMagnitude_magnitude (x : Binary64) :
    ofMagnitude x.isNegative x.magnitude = x := by
  obtain ⟨bits⟩ := x
  have hbits := bits.toNat_lt
  by_cases h : twoTo 63 ≤ bits.toNat
  · have hword : twoTo 63 + bits.toNat % twoTo 63 = bits.toNat := by
      simp only [twoTo_eq] at h ⊢
      omega
    simp [ofMagnitude, isNegative, magnitude, h, hword]
  · have hword : bits.toNat % twoTo 63 = bits.toNat := Nat.mod_eq_of_lt (by omega)
    simp [ofMagnitude, isNegative, magnitude, h, hword]

/-- Zeros behind the significand may be counted in the exponent. -/
theorem ofDecimal_mul_pow (negative : Bool) (s k : Nat) (e : Int) :
    ofDecimal negative (s * 10 ^ k) e = ofDecimal negative s (e + k) := by
  rcases Nat.eq_zero_or_pos s with rfl | hs
  · simp [ofDecimal]
  have hpow : 0 < 10 ^ k := by positivity
  have hne : s * 10 ^ k ≠ 0 := Nat.mul_ne_zero (by omega) (by omega)
  have horder : ((digits (s * 10 ^ k)).length : Int) + e = (digits s).length + (e + k) := by
    rw [digits_mul_pow hs, List.length_append, List.length_replicate]
    push_cast
    ring
  simp only [ofDecimal, if_neg hne, if_neg (show s ≠ 0 by omega), horder]
  split
  · rfl
  split
  · rfl
  simp only [tenTo_eq]
  by_cases hek : 0 ≤ e + k
  · by_cases he : 0 ≤ e
    · rw [if_pos he, if_pos hek]
      have hexp : (e + k).toNat = k + e.toNat := by omega
      rw [hexp, pow_add, mul_assoc s]
    · rw [if_neg he, if_pos hek]
      obtain ⟨d, hd⟩ : ∃ d : Nat, (-e).toNat = d := ⟨_, rfl⟩
      obtain ⟨q, hq⟩ : ∃ q : Nat, (e + k).toNat = q := ⟨_, rfl⟩
      have hk : k = q + d := by omega
      have hterms : s * 10 ^ k * twoTo 1074 = s * 10 ^ q * twoTo 1074 * 10 ^ d := by
        rw [hk, pow_add]
        ring
      have hscale := nearest_mul_right (s * 10 ^ q * twoTo 1074) 1
        (c := 10 ^ d) (by positivity)
      rw [one_mul] at hscale
      rw [hd, hq, hterms, hscale]
  · have he : ¬ 0 ≤ e := by omega
    rw [if_neg he, if_neg hek]
    have hexp : (-e).toNat = (-(e + k)).toNat + k := by omega
    rw [hexp, pow_add, mul_right_comm s]
    rw [nearest_mul_right _ _ hpow]

theorem ofDecimal_stripFrom (negative : Bool) (s : Nat) (e : Int) :
    ofDecimal negative (Scientific.stripFrom s e).significand
        (Scientific.stripFrom s e).exponent = ofDecimal negative s e := by
  induction s using Nat.strongRecOn generalizing e with
  | _ s ih =>
      rw [Scientific.stripFrom]
      split
      · rfl
      · rename_i hs
        rw [ih (s / 10) (by omega) (e + 1)]
        have hmul := ofDecimal_mul_pow negative (s / 10) 1 e
        rw [pow_one, Nat.div_mul_cancel (by omega)] at hmul
        exact hmul.symm

theorem ofDecimal_strip (negative : Bool) (d : Scientific) :
    ofDecimal negative d.strip.significand d.strip.exponent =
      ofDecimal negative d.significand d.exponent :=
  ofDecimal_stripFrom negative d.significand d.exponent

theorem units_pos {x : Binary64} (hz : x.isZero = false) : 0 < x.units := by
  have hm : 0 < x.magnitude := by
    simp only [isZero, beq_eq_false_iff_ne] at hz
    omega
  unfold units unitsOf
  split
  · exact hm
  · exact Nat.mul_pos (by simp [twoTo_eq]) (Nat.pow_pos (by omega))

theorem units_lt {x : Binary64} (hx : x.isFinite = true) : x.units < 2 ^ 2098 := by
  have hm : x.magnitude < 2047 * 2 ^ 52 := of_decide_eq_true hx
  unfold units unitsOf
  split
  · rename_i hsmall
    have hbeyond (n : Nat) (hn : 52 ≤ n) : x.magnitude < 2 ^ n :=
      Nat.lt_of_lt_of_le hsmall (Nat.pow_le_pow_right (by omega) hn)
    exact hbeyond 2098 (by omega)
  · have hexponent : x.magnitude / twoTo 52 - 1 ≤ 2045 := by
      simp only [twoTo_eq]
      omega
    have hsignificand : twoTo 52 + x.magnitude % twoTo 52 < 2 ^ 53 := by
      simp only [twoTo_eq]
      omega
    have hpow : twoTo (x.magnitude / twoTo 52 - 1) ≤ 2 ^ 2045 :=
      Nat.pow_le_pow_right (by omega) hexponent
    have hlt := Nat.mul_lt_mul_of_lt_of_le hsignificand hpow (Nat.pow_pos (by omega))
    rwa [← pow_add] at hlt

/-- The expansion is not so far out that its order of magnitude settles it. -/
theorem order_exactDecimal {x : Binary64} (hx : x.isFinite = true)
    (hz : x.isZero = false) :
    -330 ≤ ((digits (x.units * 5 ^ 1074)).length : Int) - 1074 ∧
      ((digits (x.units * 5 ^ 1074)).length : Int) - 1074 ≤ 310 := by
  have hlow : 10 ^ 744 ≤ x.units * 5 ^ 1074 := by
    have hbase : 10 ^ 744 ≤ 5 ^ 1074 := by decide +kernel
    exact hbase.trans (Nat.le_mul_of_pos_left _ (units_pos hz))
  have hhigh : x.units * 5 ^ 1074 < 10 ^ 1384 := by
    have hbase : 2 ^ 2098 * 5 ^ 1074 < 10 ^ 1384 := by decide +kernel
    have hscaled (n : Nat) : x.units * 5 ^ n < 2 ^ 2098 * 5 ^ n :=
      Nat.mul_lt_mul_of_pos_right (units_lt hx) (Nat.pow_pos (by omega))
    exact (hscaled 1074).trans hbase
  have hmore := lt_length_digits hlow
  have hless := length_digits_le (by omega) hhigh
  omega

theorem ofDecimal_neg (negative : Bool) {s k : Nat} (hs : s ≠ 0) (hk : 0 < k)
    (hlow : -330 ≤ ((digits s).length : Int) - k)
    (hhigh : ((digits s).length : Int) - k ≤ 310) :
    ofDecimal negative s (-k) =
      ofMagnitude negative (nearest (s * twoTo 1074) (10 ^ k)) := by
  have hden : (-(-(k : Int))).toNat = k := by omega
  simp only [ofDecimal, if_neg hs, if_neg (show ¬ 310 < ((digits s).length : Int) + -k by omega),
    if_neg (show ¬ ((digits s).length : Int) + -k < -330 by omega),
    if_neg (show ¬ 0 ≤ -(k : Int) by omega), hden, tenTo_eq]

theorem nearest_five_two (units k : Nat) :
    nearest (units * 5 ^ k * twoTo k) (10 ^ k) = nearest units 1 := by
  have hterms : units * 5 ^ k * twoTo k = units * 10 ^ k := by
    have hten : 5 * 2 = 10 := rfl
    rw [twoTo_eq, mul_assoc, ← mul_pow, hten]
  have hscale := nearest_mul_right units 1 (c := 10 ^ k) (Nat.pow_pos (by decide))
  rw [one_mul] at hscale
  rw [hterms, hscale]

theorem ofDecimal_exactDecimal {x : Binary64} (hx : x.isFinite = true) :
    ofDecimal x.isNegative x.exactDecimal.significand x.exactDecimal.exponent = x := by
  have hsignificand : x.exactDecimal.significand = x.units * 5 ^ 1074 := rfl
  have hexponent : x.exactDecimal.exponent = -1074 := rfl
  rw [hsignificand, hexponent]
  cases hz : x.isZero with
  | true =>
      have hm : x.magnitude = 0 := by simpa [isZero] using hz
      have hunits : x.units = 0 := by simp [units, unitsOf, hm, twoTo_eq]
      rw [hunits, zero_mul]
      have hx := ofMagnitude_magnitude x
      rw [hm] at hx
      exact hx
  | false =>
      obtain ⟨hlow, hhigh⟩ := order_exactDecimal hx hz
      have hne (n : Nat) : x.units * 5 ^ n ≠ 0 :=
        Nat.ne_of_gt (Nat.mul_pos (units_pos hz) (Nat.pow_pos (by omega)))
      have hround := ofDecimal_neg x.isNegative (hne 1074) (k := 1074) (by decide)
        (by push_cast; omega) (by push_cast; omega)
      rw [nearest_five_two] at hround
      rw [units, nearest_unitsOf (of_decide_eq_true hx), ofMagnitude_magnitude] at hround
      exact hround

/-- The decimal that is stripped to the shortest one. -/
def chosen (x : Binary64) : Scientific :=
  (((List.range 17).map fun (n : Nat) => leadingPower x.units - n).findSome?
    (onGrid? x)).getD x.exactDecimal

theorem ofDecimal_chosen {x : Binary64} (hx : x.isFinite = true) :
    ofDecimal x.isNegative x.chosen.significand x.chosen.exponent = x := by
  unfold chosen
  cases h : ((List.range 17).map fun (n : Nat) => leadingPower x.units - n).findSome?
      (onGrid? x) with
  | none => exact ofDecimal_exactDecimal hx
  | some d =>
      obtain ⟨power, -, hgrid⟩ := List.exists_of_findSome?_eq_some h
      have hback : readsBack x d = true := List.find?_some hgrid
      simpa [readsBack] using hback

theorem ofDecimal_shortest {x : Binary64} (hx : x.isFinite = true) :
    ofDecimal x.isNegative x.shortest.significand x.shortest.exponent = x := by
  have hshortest : x.shortest = x.chosen.strip := rfl
  rw [hshortest, ofDecimal_strip]
  exact ofDecimal_chosen hx

/-! ## Without the sign of zero -/

/-- The number with one zero for two. -/
def unsigned (x : Binary64) : Binary64 :=
  if x.isZero then zero else x

theorem isFinite_unsigned {x : Binary64} (hx : x.isFinite = true) :
    x.unsigned.isFinite = true := by
  unfold unsigned
  split
  · decide
  · exact hx

theorem isNaN_eq_false {x : Binary64} (hx : x.isFinite = true) : x.isNaN = false := by
  simp only [isFinite, isNaN, decide_eq_true_eq, decide_eq_false_iff_not] at hx ⊢
  omega

/-- Among finite numbers only the two zeros are equal without being the same. -/
theorem numEq_iff {x y : Binary64} (hx : x.isFinite = true) (hy : y.isFinite = true) :
    x.numEq y = true ↔ x.unsigned = y.unsigned := by
  have hzero : zero.isZero = true := by decide
  simp only [numEq, isNaN_eq_false hx, isNaN_eq_false hy, unsigned, Bool.not_false,
    Bool.true_and, Bool.or_eq_true, beq_iff_eq, Bool.and_eq_true]
  constructor
  · rintro (rfl | ⟨hzx, hzy⟩)
    · rfl
    · rw [if_pos hzx, if_pos hzy]
  · intro h
    split at h
    · rename_i hzx
      split at h
      · rename_i hzy
        exact Or.inr ⟨hzx, hzy⟩
      · rename_i hzy
        exact absurd (h ▸ hzero) hzy
    · rename_i hzx
      split at h
      · exact absurd (h ▸ hzero) hzx
      · exact Or.inl h

/-! ## Whole numbers -/

theorem ofInt_natCast (n : Nat) : ofInt n = ofDecimal false n 0 := by
  have hpos : ¬ (n : Int) < 0 := by omega
  rw [ofInt, decide_eq_false hpos, Int.natAbs_natCast]

theorem ofInt_neg {n : Nat} (hn : 0 < n) : ofInt (-n) = ofDecimal true n 0 := by
  have hneg : -(n : Int) < 0 := by omega
  rw [ofInt, decide_eq_true hneg, Int.natAbs_neg, Int.natAbs_natCast]

theorem magnitude_ofMagnitude {m : Nat} (hm : m < infinite) :
    (ofMagnitude false m).magnitude = m := by
  have hsmall : m < 2 ^ 63 := by
    simp only [infinite, twoTo_eq] at hm
    omega
  simp only [magnitude, ofMagnitude, Bool.false_eq_true, ↓reduceIte, UInt64.toNat_ofNat', twoTo_eq]
  omega

end Binary64

end Compliance.Number

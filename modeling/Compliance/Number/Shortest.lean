import Compliance.Number.Binary64

/-!
# Shortest decimals

The decimal with the fewest digits that reads back as a given finite number;
of two such decimals, the nearer one, and on a tie the one with the even last
digit.
-/

namespace Compliance.Number

/-- The value `significand * 10 ^ exponent`. -/
structure Scientific where
  significand : Nat
  exponent : Int
  deriving DecidableEq

namespace Scientific

/-- Moves trailing zeros of the significand into the exponent. -/
def stripFrom (significand : Nat) (exponent : Int) : Scientific :=
  if h : significand = 0 ∨ significand % 10 ≠ 0 then
    ⟨significand, exponent⟩
  else
    have : significand / 10 < significand := by omega
    stripFrom (significand / 10) (exponent + 1)

def strip (d : Scientific) : Scientific :=
  stripFrom d.significand d.exponent

end Scientific

namespace Binary64

/-- The power of ten of the leading digit of a positive number of units. -/
def leadingPower (units : Nat) : Int :=
  (digits (units * tenTo 324 / twoTo 1074)).length - 325

/-- `units / 2 ^ 1074` as a fraction of whole steps of `10 ^ power`. -/
def inSteps (units : Nat) (power : Int) : Nat × Nat :=
  (units * tenTo (-power).toNat, twoTo 1074 * tenTo power.toNat)

def readsBack (x : Binary64) (d : Scientific) : Bool :=
  ofDecimal x.isNegative d.significand d.exponent == x

/-- The best decimal on the grid of steps `10 ^ power`, if one reads back. -/
def onGrid? (x : Binary64) (power : Int) : Option Scientific :=
  let (num, den) := inSteps x.units power
  let low : Scientific := ⟨num / den, power⟩
  let high : Scientific := ⟨num / den + 1, power⟩
  let twice := 2 * (num % den)
  let lowFirst := twice < den || (twice == den && num / den % 2 == 0)
  let ordered := if lowFirst then [low, high] else [high, low]
  ordered.find? (readsBack x)

/-- The exact decimal expansion, which always reads back. -/
def exactDecimal (x : Binary64) : Scientific :=
  ⟨x.units * Nat.pow 5 1074, -1074⟩

/-- The shortest decimal of the magnitude of a finite nonzero number. -/
def shortest (x : Binary64) : Scientific :=
  let top := leadingPower x.units
  let grids := (List.range 17).map fun (n : Nat) => top - n
  ((grids.findSome? (onGrid? x)).getD x.exactDecimal).strip

example : (ofDecimal false 1 (-1)).shortest = ⟨1, -1⟩ := by decide +kernel

example : (⟨1⟩ : Binary64).shortest = ⟨5, -324⟩ := by decide +kernel

end Binary64

end Compliance.Number

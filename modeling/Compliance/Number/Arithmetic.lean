import Compliance.Number.Binary64

/-!
# Sums, products and quotients

Each operation rounds its exact result once, to the nearest number.  Infinities
and words that are not numbers go through as IEEE 754 has it.
-/

namespace Compliance.Number.Binary64

/-- The units of a finite number, with its sign. -/
def signedUnits (x : Binary64) : Int :=
  if x.isNegative then -(x.units : Int) else x.units

/-- The sign of a product or quotient. -/
def signsDiffer (x y : Binary64) : Bool :=
  x.isNegative != y.isNegative

def add (x y : Binary64) : Binary64 :=
  if x.isNaN || y.isNaN then notANumber
  else if !x.isFinite then
    if !y.isFinite && signsDiffer x y then notANumber else x
  else if !y.isFinite then y
  else
    let total := x.signedUnits + y.signedUnits
    -- A sum of zero is negative only if both terms are.
    let negative :=
      if total = 0 then x.isNegative && y.isNegative else decide (total < 0)
    ofMagnitude negative (nearest total.natAbs 1)

def mul (x y : Binary64) : Binary64 :=
  if x.isNaN || y.isNaN then notANumber
  else if !x.isFinite || !y.isFinite then
    if x.isZero || y.isZero then notANumber else infinity (signsDiffer x y)
  else
    ofMagnitude (signsDiffer x y) (nearest (x.units * y.units) (twoTo 1074))

def div (x y : Binary64) : Binary64 :=
  if x.isNaN || y.isNaN then notANumber
  else if !x.isFinite then
    if !y.isFinite then notANumber else infinity (signsDiffer x y)
  else if !y.isFinite then ofMagnitude (signsDiffer x y) 0
  else if y.isZero then
    if x.isZero then notANumber else infinity (signsDiffer x y)
  else
    ofMagnitude (signsDiffer x y) (nearest (x.units * twoTo 1074) y.units)

example : ((ofNat 1).div (ofNat 10)).add ((ofNat 2).div (ofNat 10)) =
    ofDecimal false 30000000000000004 (-17) := by decide +kernel

end Compliance.Number.Binary64

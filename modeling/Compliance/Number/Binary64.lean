import Compliance.Number.Decimal

/-!
# Binary floating point

A 64-bit binary floating-point number is kept as its word.  The magnitude of a
finite word is a natural number of units of `2 ^ -1074`, so decimals are
compared and rounded in exact arithmetic.
-/

namespace Compliance.Number

structure Binary64 where
  bits : UInt64
  deriving DecidableEq

namespace Binary64

/-- The word without its sign. -/
def magnitude (x : Binary64) : Nat :=
  x.bits.toNat % twoTo 63

def isNegative (x : Binary64) : Bool :=
  twoTo 63 ≤ x.bits.toNat

/-- The magnitude of the infinities; larger ones are not numbers. -/
def infinite : Nat :=
  2047 * twoTo 52

def isFinite (x : Binary64) : Bool :=
  x.magnitude < infinite

def isNaN (x : Binary64) : Bool :=
  infinite < x.magnitude

def isZero (x : Binary64) : Bool :=
  x.magnitude == 0

def ofMagnitude (negative : Bool) (m : Nat) : Binary64 :=
  ⟨UInt64.ofNat (if negative then twoTo 63 + m else m)⟩

def zero : Binary64 :=
  ofMagnitude false 0

def negativeZero : Binary64 :=
  ofMagnitude true 0

def infinity (negative : Bool) : Binary64 :=
  ofMagnitude negative infinite

def notANumber : Binary64 :=
  ofMagnitude false (infinite + twoTo 51)

/-- How many units of `2 ^ -1074` a finite magnitude stands for. -/
def unitsOf (m : Nat) : Nat :=
  if m < twoTo 52 then m
  else (twoTo 52 + m % twoTo 52) * twoTo (m / twoTo 52 - 1)

def units (x : Binary64) : Nat :=
  unitsOf x.magnitude

/-- The magnitude nearest to `num / den` units, a tie going to the even word;
what lies beyond the last finite magnitude is infinite. -/
def nearest (num den : Nat) : Nat :=
  let shift := (num / den).log2 - 52
  let grain := den * twoTo shift
  let quotient := num / grain
  let twice := 2 * (num % grain)
  let up := grain < twice || (twice == grain && quotient % 2 == 1)
  min (shift * twoTo 52 + quotient + up.toNat) infinite

/-- The number nearest to `significand * 10 ^ exponent`, with the given sign.
Decimals far outside the range are settled by their order of magnitude. -/
def ofDecimal (negative : Bool) (significand : Nat) (exponent : Int) :
    Binary64 :=
  if significand = 0 then ofMagnitude negative 0
  else
    let order := (digits significand).length + exponent
    if 310 < order then infinity negative
    else if order < -330 then ofMagnitude negative 0
    else if 0 ≤ exponent then
      ofMagnitude negative
        (nearest (significand * tenTo exponent.toNat * twoTo 1074) 1)
    else
      ofMagnitude negative
        (nearest (significand * twoTo 1074) (tenTo (-exponent).toNat))

def ofNat (n : Nat) : Binary64 :=
  ofDecimal false n 0

def ofInt (i : Int) : Binary64 :=
  ofDecimal (i < 0) i.natAbs 0

/-- Numerical equality: the two zeros are equal and a word that is not a number
equals nothing. -/
def numEq (x y : Binary64) : Bool :=
  !x.isNaN && !y.isNaN && (x == y || (x.isZero && y.isZero))

example : (ofDecimal false 1 0).bits = 0x3FF0000000000000 := by decide +kernel

example : (ofDecimal false 5 (-324)).bits = 1 := by decide +kernel

example : ofDecimal false 9007199254740993 0 = ofNat 9007199254740992 := by
  decide +kernel

end Binary64

end Compliance.Number

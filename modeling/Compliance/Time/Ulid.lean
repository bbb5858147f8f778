import Compliance.Number.Decimal

/-!
# Sortable ids

An id of 128 bits, 48 of them a time in milliseconds and 80 of them arbitrary,
as 26 digits of base 32.  Later ids sort behind earlier ones.
-/

namespace Compliance.Time

def ulidAlphabet : List Char :=
  "0123456789abcdefghjkmnpqrstvwxyz".toList

/-- The last `width` digits of a number in base 32. -/
def ulidDigits : Nat → Nat → List Char → List Char
  | 0, _, done => done
  | width + 1, n, done =>
      ulidDigits width (n / 32) ((ulidAlphabet.getD (n % 32) '0') :: done)

def ulid (ms chance : Nat) : String :=
  let time := ms % Number.twoTo 48
  String.ofList (ulidDigits 26
    (time * Number.twoTo 80 + chance % Number.twoTo 80) [])

example : ulid 0 33 = "00000000000000000000000011" := by decide +kernel

end Compliance.Time

/-!
# Decimal numerals

The digits of a natural number, most significant first, and the value of a
list of digits.  Powers of two and of ten have names of their own.
-/

namespace Compliance.Number

/-- The power of two with the given exponent. -/
def twoTo (n : Nat) : Nat :=
  Nat.pow 2 n

/-- The power of ten with the given exponent. -/
def tenTo (n : Nat) : Nat :=
  Nat.pow 10 n

def digitChar (d : Nat) : Char :=
  Char.ofNat (48 + d)

def digitValue (c : Char) : Nat :=
  c.toNat - 48

/-- The digits of `n` put in front of `rest`. -/
def digitsOnto (n : Nat) (rest : List Char) : List Char :=
  if n < 10 then digitChar n :: rest
  else digitsOnto (n / 10) (digitChar (n % 10) :: rest)

def digits (n : Nat) : List Char :=
  digitsOnto n []

def decimal (n : Nat) : String :=
  String.ofList (digits n)

def decimalInt (i : Int) : String :=
  if i < 0 then "-" ++ decimal i.natAbs else decimal i.natAbs

/-- The value of a list of digits; the caller has checked that they are digits. -/
def ofDigits (cs : List Char) : Nat :=
  cs.foldl (fun n c => 10 * n + digitValue c) 0

/-- `n` in exactly `width` digits when it has no more than that. -/
def padded (width n : Nat) : String :=
  let ds := digits n
  String.ofList (List.replicate (width - ds.length) '0' ++ ds)

def isDigit (c : Char) : Bool :=
  '0' ≤ c && c ≤ '9'

@[simp] theorem ofDigits_nil : ofDigits [] = 0 := rfl

theorem ofDigits_append_singleton (cs : List Char) (c : Char) :
    ofDigits (cs ++ [c]) = 10 * ofDigits cs + digitValue c := by
  simp [ofDigits, List.foldl_append]

theorem digitsOnto_eq_append (n : Nat) (rest : List Char) :
    digitsOnto n rest = digits n ++ rest := by
  induction n using Nat.strongRecOn generalizing rest with
  | _ n ih =>
      unfold digits digitsOnto
      split
      · rfl
      · rw [ih (n / 10) (by omega), ih (n / 10) (by omega) [_]]
        simp

theorem digits_of_lt {n : Nat} (h : n < 10) : digits n = [digitChar n] := by
  rw [digits, digitsOnto, if_pos h]

theorem digits_of_ge {n : Nat} (h : ¬ n < 10) :
    digits n = digits (n / 10) ++ [digitChar (n % 10)] := by
  rw [digits, digitsOnto, if_neg h, digitsOnto_eq_append]

theorem digitValue_digitChar {d : Nat} (h : d < 10) :
    digitValue (digitChar d) = d := by
  have : ∀ k : Fin 10, digitValue (digitChar k.1) = k.1 := by decide
  exact this ⟨d, h⟩

theorem ofDigits_digits (n : Nat) : ofDigits (digits n) = n := by
  induction n using Nat.strongRecOn with
  | _ n ih =>
      by_cases h : n < 10
      · rw [digits_of_lt h, ← List.nil_append [digitChar n],
          ofDigits_append_singleton, digitValue_digitChar h]
        simp
      · rw [digits_of_ge h, ofDigits_append_singleton, ih (n / 10) (by omega),
          digitValue_digitChar (Nat.mod_lt _ (by omega))]
        omega

end Compliance.Number

import Compliance.Number.Decimal
import Compliance.Text.Blank
import Compliance.Time.Calendar

/-!
# Timestamps

An instant of universal time with nanoseconds.  A leap second is kept as a
fraction of one second or more.  The written form is RFC 3339 with `Z` and 0, 3,
6 or 9 fraction digits; the reader takes any offset and blanks between parts.
-/

namespace Compliance.Time

structure Timestamp where
  /-- Seconds from 1970-01-01T00:00:00Z. -/
  seconds : Int
  /-- Nanoseconds; a leap second counts from 10 ^ 9. -/
  nanos : Nat
  deriving DecidableEq

namespace Timestamp

def ofMillis (ms : Nat) : Timestamp :=
  ⟨ms / 1000, ms % 1000 * 1000000⟩

/-! ## Writing -/

def renderYear (year : Int) : String :=
  if 0 ≤ year ∧ year ≤ 9999 then Number.padded 4 year.toNat
  else (if year < 0 then "-" else "+") ++ Number.padded 4 year.natAbs

def renderFraction (nanos : Nat) : String :=
  if nanos = 0 then ""
  else if nanos % 1000000 = 0 then "." ++ Number.padded 3 (nanos / 1000000)
  else if nanos % 1000 = 0 then "." ++ Number.padded 6 (nanos / 1000)
  else "." ++ Number.padded 9 nanos

def render (t : Timestamp) : String :=
  let date := Date.ofDays (t.seconds / 86400)
  let ofDay := (t.seconds % 86400).toNat
  let leap := 1000000000 ≤ t.nanos
  let second := ofDay % 60 + if leap then 1 else 0
  let nanos := if leap then t.nanos - 1000000000 else t.nanos
  renderYear date.year ++ "-" ++ Number.padded 2 date.month.toNat ++ "-" ++
    Number.padded 2 date.day.toNat ++ "T" ++
    Number.padded 2 (ofDay / 3600) ++ ":" ++
    Number.padded 2 (ofDay / 60 % 60) ++ ":" ++ Number.padded 2 second ++
    renderFraction nanos ++ "Z"

/-! ## Reading -/

/-- Between one and `width` digits. -/
def readUpTo (width : Nat) (cs : List Char) : Option (Nat × List Char) :=
  let ds := (cs.take width).takeWhile Number.isDigit
  if ds.isEmpty then none
  else some (Number.ofDigits ds, cs.drop ds.length)

def readAll (cs : List Char) : Option (Nat × List Char) :=
  readUpTo cs.length cs

def readSigned (cs : List Char) : Option (Int × List Char) :=
  match cs with
  | '-' :: rest => (readAll rest).map fun (n, rest) => (-(n : Int), rest)
  | '+' :: rest => (readAll rest).map fun (n, rest) => ((n : Int), rest)
  | _ => (readUpTo 4 cs).map fun (n, rest) => ((n : Int), rest)

def expect (c : Char) (cs : List Char) : Option (List Char) :=
  match cs with
  | d :: rest => if d = c then some rest else none
  | [] => none

/-- Two digits after blanks, at most `high`. -/
def readPair (low high : Nat) (cs : List Char) : Option (Nat × List Char) := do
  let (n, rest) ← readUpTo 2 (Text.skipBlank cs)
  if low ≤ n ∧ n ≤ high then return (n, rest) else none

/-- A separator after blanks and then a pair. -/
def readNext (separator : Char) (low high : Nat) (cs : List Char) :
    Option (Nat × List Char) := do
  let rest ← expect separator (Text.skipBlank cs)
  readPair low high rest

/-- A fraction of a second in nanoseconds; further digits are dropped. -/
def readFraction (cs : List Char) : Option (Nat × List Char) :=
  match cs with
  | '.' :: rest =>
      let ds := (rest.take 9).takeWhile Number.isDigit
      if ds.isEmpty then none
      else some (Number.ofDigits ds * Number.tenTo (9 - ds.length),
        (rest.drop ds.length).dropWhile Number.isDigit)
  | _ => some (0, cs)

/-- Hours and minutes east of the meridian, in seconds. -/
def readShift (cs : List Char) : Option (Int × List Char) :=
  match cs with
  | a :: b :: rest =>
      if Number.isDigit a && Number.isDigit b then
        match rest.dropWhile fun c => c == ':' || Text.isBlank c with
        | c :: d :: rest =>
            if '0' ≤ c && c ≤ '5' && Number.isDigit d then
              some (Number.ofDigits [a, b] * 3600 + Number.ofDigits [c, d] * 60,
                rest)
            else none
        | _ => none
      else none
  | _ => none

def readOffset (cs : List Char) : Option (Int × List Char) :=
  match cs with
  | 'Z' :: rest => some (0, rest)
  | 'z' :: rest => some (0, rest)
  | '+' :: rest => readShift rest
  | '-' :: rest => (readShift rest).map fun (s, rest) => (-s, rest)
  | '−' :: rest => (readShift rest).map fun (s, rest) => (-s, rest)
  | a :: b :: c :: rest =>
      if [a, b, c].map Char.toLower = ['u', 't', 'c'] then some (0, rest)
      else none
  | _ => none

/-- The years a date may have. -/
def yearInRange (year : Int) : Bool :=
  -262143 ≤ year && year ≤ 262142

def read? (text : String) : Option Timestamp := do
  let (year, cs) ← readSigned (Text.skipBlank text.toList)
  let (month, cs) ← readNext '-' 1 12 cs
  let (day, cs) ← readNext '-' 1 31 cs
  let cs ← match cs with
    | c :: rest => if c == 't' || c == 'T' || c == ' ' then some rest else none
    | [] => none
  let (hour, cs) ← readPair 0 23 cs
  let (minute, cs) ← readNext ':' 0 59 cs
  let (second, cs) ← readNext ':' 0 60 cs
  let (fraction, cs) ← readFraction cs
  let (offset, cs) ← readOffset (Text.skipBlank cs)
  let date : Date := ⟨year, month, day⟩
  if (Text.skipBlank cs).isEmpty && yearInRange year && date.isValid &&
      offset.natAbs < 86400 then
    let leap := second == 60
    let whole := date.toDays * 86400 + hour * 3600 + minute * 60 +
      (if leap then 59 else second : Nat)
    return ⟨whole - offset, fraction + if leap then 1000000000 else 0⟩
  else none

end Timestamp

end Compliance.Time

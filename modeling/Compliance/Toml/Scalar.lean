import Compliance.Json.Basic
import Compliance.Toml.Lexeme

/-!
# Numbers, dates and times of TOML

A date or time is kept as text in its normal form.
-/

namespace Compliance.Toml

open Compliance.Number (Binary64 isDigit ofDigits padded)

/-! ## Numbers -/

/-- Digits of a class, single underscores between them left out. -/
def digitRun (p : Char → Bool) : Rest → List Char × Rest
  | '_' :: c :: rest =>
      if p c then
        let (ds, rest) := digitRun p rest
        (c :: ds, rest)
      else ([], '_' :: c :: rest)
  | c :: rest =>
      if p c then
        let (ds, rest) := digitRun p rest
        (c :: ds, rest)
      else ([], c :: rest)
  | [] => ([], [])

/-- At least one digit, the first without an underscore in front. -/
def digits? (p : Char → Bool) (cs : Rest) : Option (List Char × Rest) :=
  match cs with
  | c :: _ => if p c then some (digitRun p cs) else none
  | [] => none

def sign : Rest → Bool × Rest
  | '-' :: rest => (true, rest)
  | '+' :: rest => (false, rest)
  | cs => (false, cs)

/-- A whole number in decimal; a leading zero stands alone. -/
def wholePart? : Rest → Option (List Char × Rest)
  | '0' :: rest => some (['0'], rest)
  | cs => digits? isDigit cs

def integerOf? (negative : Bool) (n : Nat) : Option Json :=
  let i : Int := if negative then -n else n
  let limit : Int := Number.twoTo 63
  if -limit ≤ i ∧ i < limit then some (.number (.whole i)) else none

def isHexDigit (c : Char) : Bool :=
  (hexValue? c).isSome

def isBelow (limit : Char) (c : Char) : Bool :=
  '0' ≤ c && c < limit

/-- A whole number in a base that is a power of two. -/
def radix? (base : Nat) (p : Char → Bool) (cs : Rest) : Option (Json × Rest) :=
  match digits? p cs with
  | none => none
  | some (ds, rest) =>
      let n := ds.foldl (fun n c => base * n + (hexValue? c).getD 0) 0
      (integerOf? false n).map fun v => (v, rest)

/-- Digits behind a point. -/
def fraction? : Rest → Option (List Char × Rest)
  | '.' :: rest => digits? isDigit rest
  | cs => some ([], cs)

/-- The exponent, if there is one. -/
def exponent? : Rest → Option (Int × Rest)
  | 'e' :: rest => signed rest
  | 'E' :: rest => signed rest
  | cs => some (0, cs)
where
  signed (cs : Rest) : Option (Int × Rest) :=
    let (negative, cs) := sign cs
    (digits? isDigit cs).map fun (ds, rest) =>
      (if negative then -(ofDigits ds : Int) else ofDigits ds, rest)

def startsFraction : Rest → Bool
  | c :: _ => c == '.' || c == 'e' || c == 'E'
  | [] => false

/-- A number beyond the largest is refused, but not one below the smallest. -/
def real? (x : Binary64) : Option Json :=
  if x = .infinity false then none else some (.number (.real x))

def decimalNumber? (cs : Rest) : Option (Json × Rest) := do
  let (negative, cs) := sign cs
  let (whole, rest) ← wholePart? cs
  if startsFraction rest then
    let (places, rest) ← fraction? rest
    let (e, rest) ← exponent? rest
    let x := Binary64.ofDecimal negative (ofDigits (whole ++ places))
      (e - places.length)
    return (← real? x, rest)
  else return (← integerOf? negative (ofDigits whole), rest)

/-- The words for numbers that are not finite. -/
def special? (cs : Rest) : Option (Json × Rest) :=
  match sign cs with
  | (negative, 'i' :: 'n' :: 'f' :: rest) =>
      some (.number (.real (.infinity negative)), rest)
  | (_, 'n' :: 'a' :: 'n' :: rest) =>
      some (.number (.real .notANumber), rest)
  | _ => none

def number? : Rest → Option (Json × Rest)
  | '0' :: 'x' :: rest => radix? 16 isHexDigit rest
  | '0' :: 'o' :: rest => radix? 8 (isBelow '8') rest
  | '0' :: 'b' :: rest => radix? 2 (isBelow '2') rest
  | cs => (special? cs).or (decimalNumber? cs)

/-! ## Dates and times -/

/-- Exactly so many digits, with a value in a range. -/
def field? (width low high : Nat) (cs : Rest) : Option (Nat × Rest) :=
  let ds := cs.take width
  if ds.length = width ∧ ds.all isDigit ∧ low ≤ ofDigits ds ∧
      ofDigits ds ≤ high then
    some (ofDigits ds, cs.drop width)
  else none

def sep? (c : Char) : Rest → Option Rest
  | d :: rest => if d = c then some rest else none
  | [] => none

def isLeapYear (year : Nat) : Bool :=
  year % 4 == 0 && (year % 100 != 0 || year % 400 == 0)

def daysIn (year month : Nat) : Nat :=
  if month = 2 then if isLeapYear year then 29 else 28
  else if month = 4 ∨ month = 6 ∨ month = 9 ∨ month = 11 then 30
  else 31

def date? (cs : Rest) : Option (String × Rest) := do
  let (year, cs) ← field? 4 0 9999 cs
  let (month, cs) ← field? 2 1 12 (← sep? '-' cs)
  let (day, cs) ← field? 2 1 (daysIn year month) (← sep? '-' cs)
  return (padded 4 year ++ "-" ++ padded 2 month ++ "-" ++ padded 2 day, cs)

/-- A fraction of a second, in nanoseconds and without zeros at its end. -/
def secondFraction? : Rest → Option (String × Rest)
  | '.' :: rest =>
      match rest.takeWhile isDigit with
      | [] => none
      | ds =>
          let kept := ((ds.take 9).reverse.dropWhile (· == '0')).reverse
          some (if kept.isEmpty then "" else "." ++ String.ofList kept,
            rest.dropWhile isDigit)
  | cs => some ("", cs)

def time? (cs : Rest) : Option (String × Rest) := do
  let (hour, cs) ← field? 2 0 23 cs
  let (minute, cs) ← field? 2 0 59 (← sep? ':' cs)
  let (second, cs) ← field? 2 0 60 (← sep? ':' cs)
  let (fraction, cs) ← secondFraction? cs
  return (padded 2 hour ++ ":" ++ padded 2 minute ++ ":" ++ padded 2 second ++
    fraction, cs)

def offset? : Rest → Option (String × Rest)
  | 'Z' :: rest => some ("Z", rest)
  | 'z' :: rest => some ("Z", rest)
  | c :: rest =>
      if c = '+' ∨ c = '-' then do
        let (hour, cs) ← field? 2 0 23 rest
        let (minute, cs) ← field? 2 0 59 (← sep? ':' cs)
        let mark := if c = '-' ∧ (hour, minute) ≠ (0, 0) then "-" else "+"
        return (mark ++ padded 2 hour ++ ":" ++ padded 2 minute, cs)
      else some ("", c :: rest)
  | [] => some ("", [])

/-- The time behind a date.  A blank with no time behind it ends the value. -/
def timeBehind? (date : String) : Rest → Option (String × Rest)
  | c :: rest =>
      if c = 'T' ∨ c = 't' ∨ c = ' ' then
        match field? 2 0 23 rest with
        | some (_, ':' :: _) => do
            let (time, cs) ← time? rest
            let (offset, cs) ← offset? cs
            return (date ++ "T" ++ time ++ offset, cs)
        | _ => some (date, c :: rest)
      else some (date, c :: rest)
  | [] => some (date, [])

/-- Whether a date starts here: four digits and a hyphen. -/
def startsDate (cs : Rest) : Bool :=
  match field? 4 0 9999 cs with
  | some (_, '-' :: _) => true
  | _ => false

/-- Whether a time starts here: an hour and a colon. -/
def startsTime (cs : Rest) : Bool :=
  match field? 2 0 23 cs with
  | some (_, ':' :: _) => true
  | _ => false

/-- A date or time is an object with its text as the only member. -/
def dateTimeValue (text : String) : Json :=
  .object [("$__toml_private_datetime", .string text)]

/-- A number, a date or a time. -/
def numeric? (cs : Rest) : Option (Json × Rest) :=
  if startsDate cs then do
    let (date, rest) ← date? cs
    let (text, rest) ← timeBehind? date rest
    return (dateTimeValue text, rest)
  else if startsTime cs then
    (time? cs).map fun (text, rest) => (dateTimeValue text, rest)
  else number? cs

end Compliance.Toml

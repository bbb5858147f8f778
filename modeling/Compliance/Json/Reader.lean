import Compliance.Json.Basic

/-!
# Reading JSON

The reader works on a list of characters and returns the value with the text
that follows it.  Values nest through at most `maxDepth` containers.
-/

namespace Compliance.Json

/-- The number of containers a value may be nested in, itself included. -/
def maxDepth : Nat := 127

def isSpace (c : Char) : Bool :=
  c == ' ' || c == '\n' || c == '\t' || c == '\r'

def skipSpace (cs : List Char) : List Char :=
  cs.dropWhile isSpace

def hexValue? (c : Char) : Option Nat :=
  if '0' ≤ c && c ≤ '9' then some (c.toNat - 48)
  else if 'a' ≤ c && c ≤ 'f' then some (c.toNat - 87)
  else if 'A' ≤ c && c ≤ 'F' then some (c.toNat - 55)
  else none

def hexFour? (a b c d : Char) : Option Nat := do
  let a ← hexValue? a
  let b ← hexValue? b
  let c ← hexValue? c
  let d ← hexValue? d
  return ((a * 16 + b) * 16 + c) * 16 + d

/-- The character a one-letter escape stands for. -/
def escaped? : Char → Option Char
  | '"' => some '"'
  | '\\' => some '\\'
  | '/' => some '/'
  | 'b' => some '\x08'
  | 'f' => some '\x0c'
  | 'n' => some '\n'
  | 'r' => some '\r'
  | 't' => some '\t'
  | _ => none

/-- The text of a string and what follows it; no text when a surrogate is
alone. -/
abbrev ReadText := Option (List Char) × List Char

def ReadText.push (c : Char) (r : ReadText) : ReadText :=
  (r.1.map (c :: ·), r.2)

def ReadText.spoil (r : ReadText) : ReadText :=
  (none, r.2)

/-- Reads on after the opening quote.  `high` is a leading surrogate that waits
for its partner. -/
def readText (high : Option Nat) : List Char → Option ReadText
  | [] => none
  | '"' :: rest => some (if high.isSome then none else some [], rest)
  | '\\' :: 'u' :: a :: b :: c :: d :: rest =>
      match hexFour? a b c d, high with
      | none, _ => none
      | some code, none =>
          if 0xD800 ≤ code ∧ code < 0xDC00 then readText (some code) rest
          else if 0xDC00 ≤ code ∧ code < 0xE000 then
            (readText none rest).map .spoil
          else (readText none rest).map (.push (Char.ofNat code))
      | some code, some lead =>
          if 0xDC00 ≤ code ∧ code < 0xE000 then
            let full := 0x10000 + (lead - 0xD800) * 0x400 + (code - 0xDC00)
            (readText none rest).map (.push (Char.ofNat full))
          else (readText none rest).map .spoil
  | '\\' :: c :: rest =>
      match escaped? c with
      | none => none
      | some e =>
          if high.isSome then (readText none rest).map .spoil
          else (readText none rest).map (.push e)
  | c :: rest =>
      if c.toNat < 0x20 || c == '\\' then none
      else if high.isSome then (readText none rest).map .spoil
      else (readText none rest).map (.push c)

/-- The characters of a number: sign, whole digits, fraction, exponent. -/
structure NumberText where
  negative : Bool
  whole : List Char
  fraction : Option (List Char)
  exponent : Option (Bool × List Char)

/-- Digits of which there is at least one. -/
def readDigits (cs : List Char) : Option (List Char × List Char) :=
  let (ds, rest) := cs.span Number.isDigit
  if ds.isEmpty then none else some (ds, rest)

def readWhole (cs : List Char) : Option (List Char × List Char) :=
  match cs with
  | '0' :: rest => some (['0'], rest)
  | _ => readDigits cs

def readFraction (cs : List Char) :
    Option (Option (List Char) × List Char) :=
  match cs with
  | '.' :: rest => (readDigits rest).map fun (ds, rest) => (some ds, rest)
  | _ => some (none, cs)

def readExponent (cs : List Char) :
    Option (Option (Bool × List Char) × List Char) :=
  let after (negative : Bool) (rest : List Char) :=
    (readDigits rest).map fun (ds, rest) => (some (negative, ds), rest)
  match cs with
  | c :: rest =>
      if c == 'e' || c == 'E' then
        match rest with
        | '+' :: rest => after false rest
        | '-' :: rest => after true rest
        | _ => after false rest
      else some (none, cs)
  | [] => some (none, [])

def readNumber (cs : List Char) : Option (NumberText × List Char) := do
  let (negative, cs) := match cs with
    | '-' :: rest => (true, rest)
    | _ => (false, cs)
  let (whole, cs) ← readWhole cs
  let (fraction, cs) ← readFraction cs
  let (exponent, cs) ← readExponent cs
  return (⟨negative, whole, fraction, exponent⟩, cs)

/-- A number without fraction and exponent is whole if it fits 64 bits, and
negative zero is not whole. -/
def NumberText.value (t : NumberText) : Json :=
  let fraction := t.fraction.getD []
  let power : Int := match t.exponent with
    | none => 0
    | some (negative, ds) =>
        if negative then -(Number.ofDigits ds : Int) else Number.ofDigits ds
  let significand := Number.ofDigits (t.whole ++ fraction)
  let real : Json :=
    let x := Number.Binary64.ofDecimal t.negative significand
      (power - fraction.length)
    if x.isFinite then number (.real x) else unreadable
  if t.fraction.isSome || t.exponent.isSome then real
  else if t.negative then
    if 0 < significand ∧ significand ≤ Number.twoTo 63 then
      number (.whole (-(significand : Int)))
    else real
  else if significand < Number.twoTo 64 then number (.whole significand)
  else real

/-- A container deeper than the limit has no value. -/
def limited (depth : Nat) (v : Json) : Json :=
  if depth < maxDepth then v else unreadable

mutual

/-- Reads a value that starts at the first character. -/
def readValue (fuel depth : Nat) (cs : List Char) :
    Option (Json × List Char) :=
  match fuel with
  | 0 => none
  | fuel + 1 =>
      match cs with
      | 'n' :: 'u' :: 'l' :: 'l' :: rest => some (null, rest)
      | 't' :: 'r' :: 'u' :: 'e' :: rest => some (bool true, rest)
      | 'f' :: 'a' :: 'l' :: 's' :: 'e' :: rest => some (bool false, rest)
      | '"' :: rest =>
          (readText none rest).map fun (text, rest) =>
            (match text with
              | some s => string (String.ofList s)
              | none => unreadable, rest)
      | '[' :: rest =>
          match skipSpace rest with
          | ']' :: rest => some (limited depth (array []), rest)
          | rest =>
              (readItems fuel (depth + 1) rest).map fun (items, rest) =>
                (limited depth (array items), rest)
      | '{' :: rest =>
          match skipSpace rest with
          | '}' :: rest => some (limited depth (object []), rest)
          | rest =>
              (readMembers fuel (depth + 1) rest).map fun (members, rest) =>
                (match members with
                  | some members => limited depth (object members)
                  | none => unreadable, rest)
      | _ => (readNumber cs).map fun (t, rest) => (t.value, rest)

/-- Reads the items of an array up to its end; there is at least one. -/
def readItems (fuel depth : Nat) (cs : List Char) :
    Option (List Json × List Char) :=
  match fuel with
  | 0 => none
  | fuel + 1 => do
      let (v, rest) ← readValue fuel depth (skipSpace cs)
      match skipSpace rest with
      | ']' :: rest => return ([v], rest)
      | ',' :: rest =>
          let (items, rest) ← readItems fuel depth rest
          return (v :: items, rest)
      | _ => none

/-- Reads the members of an object up to its end; there is at least one.  A key
without a text leaves the object without a value. -/
def readMembers (fuel depth : Nat) (cs : List Char) :
    Option (Option (List (String × Json)) × List Char) :=
  match fuel with
  | 0 => none
  | fuel + 1 =>
      match skipSpace cs with
      | '"' :: rest => do
          let (key, rest) ← readText none rest
          match skipSpace rest with
          | ':' :: rest =>
              let (v, rest) ← readValue fuel depth (skipSpace rest)
              let first := key.map fun k => (String.ofList k, v)
              match skipSpace rest with
              | '}' :: rest => return (first.map fun m => [m], rest)
              | ',' :: rest =>
                  let (members, rest) ← readMembers fuel depth rest
                  return (first.bind fun m => members.map (m :: ·), rest)
              | _ => none
          | _ => none
      | _ => none

end

def ofChars? (cs : List Char) : Option Json :=
  match readValue (2 * cs.length + 2) 0 (skipSpace cs) with
  | some (v, rest) => if (skipSpace rest).isEmpty then some v else none
  | none => none

/-- Reads a whole text as one JSON value. -/
def ofText? (text : String) : Option Json :=
  ofChars? text.toList

end Compliance.Json

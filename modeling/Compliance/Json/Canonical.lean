import Compliance.Json.Printer

/-!
# Canonical JSON

One text for each value: no blanks, members in the order of the UTF-16 units of
their keys, numbers in the shortest form.  Digests are taken over this text.
-/

namespace Compliance.Json

/-- The UTF-16 units of a character. -/
def unitsOfChar (c : Char) : List Nat :=
  let n := c.toNat
  if n < 0x10000 then [n]
  else [0xD800 + (n - 0x10000) / 0x400, 0xDC00 + (n - 0x10000) % 0x400]

def units (s : String) : List Nat :=
  s.toList.flatMap unitsOfChar

/-- Puts a member at its place in the order of UTF-16 units. -/
def insertByUnits (key : String) (text : List Char) :
    List (String × List Char) → List (String × List Char)
  | [] => [(key, text)]
  | (k, t) :: rest =>
      if units key < units k then (key, text) :: (k, t) :: rest
      else (k, t) :: insertByUnits key text rest

def joined : List (List Char) → List Char
  | [] => []
  | [t] => t
  | t :: rest => t ++ ',' :: joined rest

mutual

def canonical : Json → List Char
  | null => "null".toList
  | bool true => "true".toList
  | bool false => "false".toList
  | number n => canonicalNumber n
  | string s => quote s
  | array items => '[' :: (joined (canonicalItems items) ++ [']'])
  | object members =>
      let texts := (canonicalMembers members).map fun (k, t) =>
        quote k ++ ':' :: t
      '\x7b' :: (joined texts ++ ['\x7d'])
  | unreadable => "null".toList

def canonicalNumber : Numeral → List Char
  | .whole i => Numeral.render .canonical (.real (Number.Binary64.ofInt i))
  | .real x => Numeral.render .canonical (.real x)

def canonicalItems : List Json → List (List Char)
  | [] => []
  | v :: rest => canonical v :: canonicalItems rest

def canonicalMembers : List (String × Json) → List (String × List Char)
  | [] => []
  | (k, v) :: rest => insertByUnits k (canonical v) (canonicalMembers rest)

end

def canonicalText (v : Json) : String :=
  String.ofList v.canonical

end Compliance.Json

import Compliance.Text.Unprinted

/-!
# Quoted text

Text as diagnostics show it: in double quotes, with escapes for what would not
be seen.
-/

namespace Compliance.Text

/-- Hexadecimal digits without leading zeros. -/
def hexDigits (n : Nat) : List Char :=
  Nat.toDigits 16 n

def escapeChar (c : Char) : List Char :=
  if c = '"' then ['\\', '"']
  else if c = '\\' then ['\\', '\\']
  else if c = '\n' then ['\\', 'n']
  else if c = '\r' then ['\\', 'r']
  else if c = '\t' then ['\\', 't']
  else if c = '\x00' then ['\\', '0']
  else if isUnprinted c then "\\u\x7b".toList ++ hexDigits c.toNat ++ ['\x7d']
  else [c]

def quoted (s : String) : String :=
  String.ofList ('"' :: s.toList.flatMap escapeChar ++ ['"'])

/-- Labelled values in braces behind the name of what they belong to. -/
def record (name : String) (fields : List (String × String)) : String :=
  name ++ " \x7b " ++
    ", ".intercalate (fields.map fun (label, v) => label ++ ": " ++ v) ++ " \x7d"

/-- Pairs of quoted texts in braces. -/
def quotedMap (entries : List (String × String)) : String :=
  "\x7b" ++
    ", ".intercalate (entries.map fun (k, v) => quoted k ++ ": " ++ quoted v) ++
    "\x7d"

example : quoted "a\"\x1b'" = "\"a\\\"\\u\x7b1b\x7d'\"" := by
  decide +kernel

end Compliance.Text

import Compliance.Json.Basic
import Compliance.Number.Layout

/-!
# Printing JSON

Two styles: on one line without blanks, and over several lines with an
indentation of two blanks for each level.
-/

namespace Compliance.Json

inductive Style where
  | compact
  | pretty
  deriving DecidableEq

/-- The break in front of an item or a closing bracket at a level. -/
def Style.break : Style → Nat → List Char
  | .compact, _ => []
  | .pretty, level => '\n' :: List.replicate (2 * level) ' '

def Style.colon : Style → List Char
  | .compact => [':']
  | .pretty => [':', ' ']

def hexDigit (d : Nat) : Char :=
  if d < 10 then Char.ofNat (48 + d) else Char.ofNat (87 + d)

/-- A character as it stands between quotes. -/
def escape (c : Char) : List Char :=
  if c = '"' then ['\\', '"']
  else if c = '\\' then ['\\', '\\']
  else if c = '\n' then ['\\', 'n']
  else if c = '\r' then ['\\', 'r']
  else if c = '\t' then ['\\', 't']
  else if c = '\x08' then ['\\', 'b']
  else if c = '\x0c' then ['\\', 'f']
  else if c.toNat < 0x20 then
    ['\\', 'u', '0', '0', hexDigit (c.toNat / 16), hexDigit (c.toNat % 16)]
  else [c]

def escapeAll (cs : List Char) : List Char :=
  cs.flatMap escape

def quote (s : String) : List Char :=
  '"' :: (escapeAll s.toList ++ ['"'])

/-- A number that is not finite has no JSON form and is written as null. -/
def Numeral.render (layout : Number.Layout) : Numeral → List Char
  | .whole i => (Number.decimalInt i).toList
  | .real x =>
      if x.isFinite then (layout.render x).toList else "null".toList

mutual

def render (style : Style) (level : Nat) : Json → List Char
  | null => "null".toList
  | bool true => "true".toList
  | bool false => "false".toList
  | number n => n.render .artifact
  | string s => quote s
  | array [] => ['[', ']']
  | array (v :: rest) =>
      '[' :: (style.break (level + 1) ++ render style (level + 1) v ++
        renderItems style (level + 1) rest ++ style.break level ++ [']'])
  | object [] => ['\x7b', '\x7d']
  | object ((k, v) :: rest) =>
      '\x7b' :: (style.break (level + 1) ++ quote k ++ style.colon ++
        render style (level + 1) v ++ renderMembers style (level + 1) rest ++
        style.break level ++ ['\x7d'])
  | unreadable => "null".toList

/-- The items after the first, each behind a comma. -/
def renderItems (style : Style) (level : Nat) : List Json → List Char
  | [] => []
  | v :: rest =>
      ',' :: (style.break level ++ render style level v ++
        renderItems style level rest)

def renderMembers (style : Style) (level : Nat) :
    List (String × Json) → List Char
  | [] => []
  | (k, v) :: rest =>
      ',' :: (style.break level ++ quote k ++ style.colon ++
        render style level v ++ renderMembers style level rest)

end

def print (style : Style) (v : Json) : String :=
  String.ofList (v.render style 0)

@[simp] theorem escapeAll_nil : escapeAll [] = [] := rfl

@[simp] theorem escapeAll_cons (c : Char) (cs : List Char) :
    escapeAll (c :: cs) = escape c ++ escapeAll cs := by
  simp [escapeAll]

end Compliance.Json

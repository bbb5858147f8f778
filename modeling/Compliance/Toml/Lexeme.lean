import Compliance.Number.Decimal

/-!
# Words of TOML

Blanks, comments, line ends, strings and keys.  Each reader answers with what it
read and the rest of the text.
-/

namespace Compliance.Toml

abbrev Rest := List Char

def isSpace (c : Char) : Bool :=
  c == ' ' || c == '\t'

def skipSpace (cs : Rest) : Rest :=
  cs.dropWhile isSpace

/-- No control character but the tab; a delete character counts as text here. -/
def isCommentChar (c : Char) : Bool :=
  c == '\t' || ' ' ≤ c

/-- Text that a string may hold as it is, delimiters and escapes apart. -/
def isStringChar (c : Char) : Bool :=
  isCommentChar c && c != '\x7f'

def newline? : Rest → Option Rest
  | '\n' :: rest => some rest
  | '\r' :: '\n' :: rest => some rest
  | _ => none

def skipComment : Rest → Rest
  | '#' :: rest => rest.dropWhile isCommentChar
  | cs => cs

/-- The rest of a line that may hold nothing more than a comment. -/
def lineEnd? (cs : Rest) : Option Rest :=
  match skipComment (skipSpace cs) with
  | [] => some []
  | cs => newline? cs

/-- Skips blanks, line ends and comments. -/
def skipLines (inComment : Bool) : Rest → Rest
  | [] => []
  | '\n' :: rest => skipLines false rest
  | '\r' :: '\n' :: rest => skipLines false rest
  | c :: rest =>
      if inComment then
        if isCommentChar c then skipLines true rest else c :: rest
      else if isSpace c then skipLines false rest
      else if c = '#' then skipLines true rest
      else c :: rest

/-! ## Strings -/

def hexValue? (c : Char) : Option Nat :=
  if Number.isDigit c then some (c.toNat - '0'.toNat)
  else if 'a' ≤ c ∧ c ≤ 'f' then some (c.toNat - 'a'.toNat + 10)
  else if 'A' ≤ c ∧ c ≤ 'F' then some (c.toNat - 'A'.toNat + 10)
  else none

def ofHex? (cs : List Char) : Option Nat :=
  cs.foldl (fun n c => n.bind fun n => (hexValue? c).map (16 * n + ·)) (some 0)

/-- The character of a code point, surrogates excepted. -/
def scalar? (cs : List Char) : Option Char :=
  (ofHex? cs).bind fun n =>
    if n.isValidChar then some (Char.ofNat n) else none

def escaped? : Char → Option Char
  | 'b' => some '\x08'
  | 't' => some '\t'
  | 'n' => some '\n'
  | 'f' => some '\x0c'
  | 'r' => some '\r'
  | '"' => some '"'
  | '\\' => some '\\'
  | _ => none

/-- Puts a character in front of what was read behind it. -/
def push? (c : Option Char) (read : Option (List Char × Rest)) :
    Option (List Char × Rest) :=
  match c, read with
  | some c, some (cs, rest) => some (c :: cs, rest)
  | _, _ => none

/-- A string on one line, behind its opening quote. -/
def basic : Rest → Option (List Char × Rest)
  | [] => none
  | '"' :: rest => some ([], rest)
  | '\\' :: 'u' :: a :: b :: c :: d :: rest =>
      push? (scalar? [a, b, c, d]) (basic rest)
  | '\\' :: 'U' :: a :: b :: c :: d :: e :: f :: g :: h :: rest =>
      push? (scalar? [a, b, c, d, e, f, g, h]) (basic rest)
  | '\\' :: c :: rest => push? (escaped? c) (basic rest)
  | c :: rest => if isStringChar c then push? (some c) (basic rest) else none

/-- A string of several lines.  A backslash at the end of a line takes away all
blanks and line ends up to the next text; a line end is read as one character.
Up to two quotes may stand directly in front of the closing ones. -/
def multilineBasic (trimming : Bool) : Rest → Option (List Char × Rest)
  | [] => none
  | '"' :: '"' :: '"' :: '"' :: '"' :: rest => some (['"', '"'], rest)
  | '"' :: '"' :: '"' :: '"' :: rest => some (['"'], rest)
  | '"' :: '"' :: '"' :: rest => some ([], rest)
  | '\r' :: '\n' :: rest =>
      if trimming then multilineBasic true rest
      else push? (some '\n') (multilineBasic false rest)
  | '\\' :: 'u' :: a :: b :: c :: d :: rest =>
      push? (scalar? [a, b, c, d]) (multilineBasic false rest)
  | '\\' :: 'U' :: a :: b :: c :: d :: e :: f :: g :: h :: rest =>
      push? (scalar? [a, b, c, d, e, f, g, h]) (multilineBasic false rest)
  | '\\' :: c :: rest =>
      match escaped? c with
      | some c => push? (some c) (multilineBasic false rest)
      | none =>
          if (newline? (skipSpace (c :: rest))).isSome then
            multilineBasic true (c :: rest)
          else none
  | c :: rest =>
      if trimming && (isSpace c || c == '\n') then multilineBasic true rest
      else if isStringChar c || c == '\n' then
        push? (some c) (multilineBasic false rest)
      else none

/-- A string on one line without escapes. -/
def literal : Rest → Option (List Char × Rest)
  | [] => none
  | '\'' :: rest => some ([], rest)
  | c :: rest => if isStringChar c then push? (some c) (literal rest) else none

def multilineLiteral : Rest → Option (List Char × Rest)
  | [] => none
  | '\'' :: '\'' :: '\'' :: '\'' :: '\'' :: rest => some (['\'', '\''], rest)
  | '\'' :: '\'' :: '\'' :: '\'' :: rest => some (['\''], rest)
  | '\'' :: '\'' :: '\'' :: rest => some ([], rest)
  | '\r' :: '\n' :: rest => push? (some '\n') (multilineLiteral rest)
  | c :: rest =>
      if isStringChar c || c == '\n' then push? (some c) (multilineLiteral rest)
      else none

/-- A line end directly behind the opening quotes is not part of the string. -/
def skipFirstNewline (cs : Rest) : Rest :=
  (newline? cs).getD cs

/-- Any string, its opening quotes included. -/
def string? : Rest → Option (String × Rest)
  | '"' :: '"' :: '"' :: rest =>
      (multilineBasic false (skipFirstNewline rest)).map fun (cs, rest) =>
        (String.ofList cs, rest)
  | '"' :: rest => (basic rest).map fun (cs, rest) => (String.ofList cs, rest)
  | '\'' :: '\'' :: '\'' :: rest =>
      (multilineLiteral (skipFirstNewline rest)).map fun (cs, rest) =>
        (String.ofList cs, rest)
  | '\'' :: rest =>
      (literal rest).map fun (cs, rest) => (String.ofList cs, rest)
  | _ => none

/-! ## Keys -/

def isBareChar (c : Char) : Bool :=
  c.isAlphanum || c == '_' || c == '-'

def simpleKey : Rest → Option (String × Rest)
  | '"' :: rest => (basic rest).map fun (cs, rest) => (String.ofList cs, rest)
  | '\'' :: rest =>
      (literal rest).map fun (cs, rest) => (String.ofList cs, rest)
  | cs =>
      match cs.takeWhile isBareChar with
      | [] => none
      | name => some (String.ofList name, cs.dropWhile isBareChar)

/-- A dotted key of at most so many parts. -/
def dottedKey : Nat → Rest → Option (List String × Rest)
  | 0, _ => none
  | limit + 1, cs =>
      match simpleKey (skipSpace cs) with
      | none => none
      | some (k, rest) =>
          match skipSpace rest with
          | '.' :: rest =>
              (dottedKey limit rest).map fun (ks, rest) => (k :: ks, rest)
          | rest => some ([k], rest)

/-- The number of parts a key may have, and of containers around a value. -/
def nestingLimit : Nat := 79

def key? (cs : Rest) : Option (List String × Rest) :=
  dottedKey nestingLimit cs

end Compliance.Toml

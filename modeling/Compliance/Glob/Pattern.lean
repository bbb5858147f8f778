/-!
# Glob patterns

A pattern is matched against the bytes of a text.  Matching carries the set of
suffixes that are still to be matched through the parts of the pattern.
-/

namespace Compliance.Glob

inductive Part where
  | literal (c : Char)
  /-- One byte. -/
  | anyByte
  /-- Any run of bytes. -/
  | anyRun
  /-- Any number of leading components. -/
  | leading
  /-- A slash and all that follows. -/
  | trailing
  /-- A slash, or two slashes with anything between them. -/
  | inner
  | oneOf (negated : Bool) (ranges : List (Char × Char))
  | choice (branches : List (List Part))

abbrev Bytes := List UInt8

def bytesOf (c : Char) : Bytes :=
  (String.singleton c).toUTF8.toList

/-- Suffixes of one text, each once, the longest first. -/
abbrev Suffixes := List Bytes

/-- The union of two sets of suffixes of one text. -/
def union (xs ys : Suffixes) : Suffixes :=
  match xs, ys with
  | [], ys => ys
  | xs, [] => xs
  | x :: xs, y :: ys =>
      if x.length = y.length then x :: union xs ys
      else if y.length < x.length then x :: union xs (y :: ys)
      else y :: union (x :: xs) ys
termination_by xs.length + ys.length

/-- Behind a byte of a set. -/
def behindByte (p : UInt8 → Bool) (s : Suffixes) : Suffixes :=
  s.filterMap fun
    | b :: rest => if p b then some rest else none
    | [] => none

def behindBytes (bs : Bytes) (s : Suffixes) : Suffixes :=
  bs.foldl (fun s b => behindByte (· == b) s) s

def suffixes : Bytes → Suffixes
  | [] => [[]]
  | b :: rest => (b :: rest) :: suffixes rest

/-- Behind any run of bytes. -/
def behindRun (s : Suffixes) : Suffixes :=
  match s with
  | [] => []
  | longest :: _ => suffixes longest

def slash : UInt8 := 47

def behindSlash (s : Suffixes) : Suffixes :=
  behindByte (· == slash) s

/-- The members of a range between two characters, byte by byte: the bytes of
its ends, and all from the last byte of the one to the first of the other. -/
def inRange (b : UInt8) (range : Char × Char) : Bool :=
  let low := bytesOf range.1
  let high := bytesOf range.2
  low.contains b || high.contains b ||
    (range.1 != range.2 && low.getLast?.any (· ≤ b) && high.head?.any (b ≤ ·))

mutual

/-- The part is written as nothing: a choice all of whose branches are. -/
def Part.isBlank : Part → Bool
  | .choice branches => allBlank branches
  | _ => false

def isBlank : List Part → Bool
  | [] => true
  | p :: rest => p.isBlank && isBlank rest

def allBlank : List (List Part) → Bool
  | [] => true
  | b :: rest => isBlank b && allBlank rest

end

mutual

/-- The suffixes left behind a part. -/
def Part.behind : Part → Suffixes → Suffixes
  | .literal c, s => behindBytes (bytesOf c) s
  | .anyByte, s => behindByte (fun _ => true) s
  | .anyRun, s => behindRun s
  | .leading, s => union s (behindSlash (behindRun s))
  | .trailing, s => behindRun (behindSlash s)
  | .inner, s => union (behindSlash s) (behindSlash (behindRun (behindSlash s)))
  | .oneOf negated ranges, s =>
      behindByte (fun b => ranges.any (inRange b) != negated) s
  | .choice branches, s =>
      if allBlank branches then s else behindAny branches s

def behindAll : List Part → Suffixes → Suffixes
  | [], s => s
  | p :: rest, s => behindAll rest (p.behind s)

/-- Behind any of the branches; blank branches do not count. -/
def behindAny : List (List Part) → Suffixes → Suffixes
  | [], _ => []
  | b :: rest, s =>
      if isBlank b then behindAny rest s
      else union (behindAll b s) (behindAny rest s)

end

structure Pattern where
  parts : List Part

/-- The whole text is matched.  Leading components alone match everything. -/
def Pattern.accepts (p : Pattern) (text : String) : Bool :=
  match p.parts with
  | [.leading] => true
  | parts => (behindAll parts [text.toUTF8.toList]).any (·.isEmpty)

end Compliance.Glob

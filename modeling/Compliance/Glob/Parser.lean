import Compliance.Glob.Pattern

/-!
# Reading glob patterns

A star matches any run, a question mark one byte, brackets a class and braces a
choice.  Two stars that make up a whole component match any number of
components.  A backslash takes away the meaning of what follows it, except in a
class.
-/

namespace Compliance.Glob

inductive GlobError where
  | unclosedClass
  | reversedRange (first last : Char)
  | unopenedChoice
  | unclosedChoice
  | danglingEscape
  deriving DecidableEq

def GlobError.message : GlobError → String
  | unclosedClass => "unclosed character class; missing ']'"
  | reversedRange first last =>
      "invalid range; '" ++ first.toString ++ "' > '" ++ last.toString ++ "'"
  | unopenedChoice => "unopened alternate group; missing opening brace"
  | unclosedChoice => "unclosed alternate group; missing closing brace"
  | danglingEscape => "dangling '\\'"

/-! ## Classes -/

/-- Where the reader of a class stands: the ranges read so far, the last first,
and whether a hyphen waits for the end of a range. -/
structure ClassState where
  ranges : List (Char × Char)
  inRange : Bool

/-- Ends the last range at a character. -/
def ClassState.extend (s : ClassState) (c : Char) :
    Except GlobError ClassState :=
  match s.ranges with
  | (first, _) :: rest =>
      if c < first then .error (.reversedRange first c)
      else .ok ⟨(first, c) :: rest, false⟩
  | [] => .ok ⟨[(c, c)], false⟩

/-- Reads a class behind its first character, up to its closing bracket. -/
def readClass (negated : Bool) (s : ClassState) :
    List Char → Except GlobError (Part × List Char)
  | [] => .error .unclosedClass
  | ']' :: rest =>
      let ranges := if s.inRange then ('-', '-') :: s.ranges else s.ranges
      .ok (.oneOf negated ranges.reverse, rest)
  | c :: rest =>
      if s.inRange then
        match s.extend c with
        | .error e => .error e
        | .ok s => readClass negated s rest
      else if c = '-' then readClass negated { s with inRange := true } rest
      else readClass negated ⟨(c, c) :: s.ranges, false⟩ rest

/-- The first character of a class stands for itself, whatever it is. -/
def openClass (negated : Bool) :
    List Char → Except GlobError (Part × List Char)
  | [] => .error .unclosedClass
  | c :: rest => readClass negated ⟨[(c, c)], false⟩ rest

theorem length_of_readClass {negated : Bool} {s : ClassState} {cs rest : List Char}
    {p : Part} (h : readClass negated s cs = .ok (p, rest)) :
    rest.length < cs.length := by
  fun_induction readClass negated s cs with
  | case1 => simp at h
  | case2 => simp_all
  | case3 => simp at h
  | case4 s c _ _ _ _ _ ih => exact Nat.lt_succ_of_lt (ih h)
  | case5 s _ _ _ ih => exact Nat.lt_succ_of_lt (ih h)
  | case6 s c _ _ _ _ ih => exact Nat.lt_succ_of_lt (ih h)

theorem length_of_openClass {negated : Bool} {cs rest : List Char} {p : Part}
    (h : openClass negated cs = .ok (p, rest)) : rest.length < cs.length := by
  cases cs with
  | nil => simp [openClass] at h
  | cons c cs => exact Nat.lt_succ_of_lt (length_of_readClass h)

/-! ## Patterns -/

/-- The branches of an open choice, the last first; each is read backwards. -/
structure Level where
  done : List (List Part)
  parts : List Part

/-- Where the reader stands: the open choices around it, innermost first, and
the parts read so far at the innermost level, the last first. -/
structure Reader where
  outer : List Level
  level : Level
  /-- The character in front. -/
  previous : Option Char

namespace Reader

def fresh : Reader :=
  ⟨[], ⟨[], []⟩, none⟩

def push (r : Reader) (p : Part) : Reader :=
  { r with level := { r.level with parts := p :: r.level.parts } }

/-- Puts a part in place of the last one. -/
def replaceLast (r : Reader) (p : Part) : Reader :=
  { r with level := { r.level with parts := p :: r.level.parts.tail } }

def after (r : Reader) (c : Char) : Reader :=
  { r with previous := some c }

def isNested (r : Reader) : Bool :=
  !r.outer.isEmpty

/-- Two stars that are no component of their own. -/
def pushRuns (r : Reader) : Reader :=
  ((r.push .anyRun).push .anyRun).after '*'

/-- Two stars that are a component behind others; the slash in front of them is
already read. -/
def pushComponents (r : Reader) (p : Part) : Reader :=
  match r.level.parts with
  | .leading :: _ => r
  | .trailing :: _ => r
  | _ => r.replaceLast p

/-- Two stars may start a component here. -/
def atComponent (r : Reader) : Bool :=
  r.previous == some '/' ||
    (r.isNested && (r.previous == some ',' || r.previous == some '\x7b'))

/-- What two stars mean, with the rest of the text behind them. -/
def readStars (r : Reader) (rest : List Char) : Reader × List Char :=
  if r.level.parts.isEmpty then
    match rest with
    | [] => ((r.push .leading).after '*', [])
    | '/' :: rest => ((r.push .leading).after '/', rest)
    | rest => (r.pushRuns, rest)
  else if !r.atComponent then (r.pushRuns, rest)
  else
    match rest with
    | [] => ((r.pushComponents .trailing).after '*', [])
    | '/' :: rest => ((r.pushComponents .inner).after '/', rest)
    | c :: rest =>
        if r.isNested && (c = ',' || c = '\x7d') then
          ((r.pushComponents .trailing).after '*', c :: rest)
        else (r.pushRuns, c :: rest)

theorem length_readStars (r : Reader) (rest : List Char) :
    (r.readStars rest).2.length ≤ rest.length := by
  unfold readStars
  split
  · split <;> simp
  · split
    · simp
    · split
      · simp
      · simp
      · split <;> simp

def openChoice (r : Reader) : Reader :=
  ⟨r.level :: r.outer, ⟨[], []⟩, some '\x7b'⟩

def nextBranch (r : Reader) : Reader :=
  ⟨r.outer, ⟨r.level.parts.reverse :: r.level.done, []⟩, some ','⟩

def closeChoice (r : Reader) : Except GlobError Reader :=
  match r.outer with
  | [] => .error .unopenedChoice
  | level :: outer =>
      let branches := (r.level.parts.reverse :: r.level.done).reverse
      .ok ⟨outer, { level with parts := .choice branches :: level.parts },
        some '\x7d'⟩

def finish (r : Reader) : Except GlobError Pattern :=
  if r.isNested then .error .unclosedChoice
  else .ok ⟨r.level.parts.reverse⟩

/-- The sign of a class, and the rest behind it. -/
def classSign : List Char → Bool × List Char
  | '!' :: rest => (true, rest)
  | '^' :: rest => (true, rest)
  | cs => (false, cs)

theorem length_classSign (cs : List Char) :
    (classSign cs).2.length ≤ cs.length := by
  unfold classSign
  split <;> simp

def read (r : Reader) (cs : List Char) : Except GlobError Pattern :=
  match cs with
  | [] => r.finish
  | '*' :: '*' :: rest =>
      have := length_readStars r rest
      (r.readStars rest).1.read (r.readStars rest).2
  | '*' :: rest => ((r.push .anyRun).after '*').read rest
  | '?' :: rest => ((r.push .anyByte).after '?').read rest
  | '[' :: rest =>
      have := length_classSign rest
      match h : openClass (classSign rest).1 (classSign rest).2 with
      | .error e => .error e
      | .ok (p, rest) =>
          have := length_of_openClass h
          ((r.push p).after ']').read rest
  | '\x7b' :: rest => r.openChoice.read rest
  | '\x7d' :: rest =>
      match r.closeChoice with
      | .error e => .error e
      | .ok r => r.read rest
  | ',' :: rest =>
      if r.isNested then r.nextBranch.read rest
      else ((r.push (.literal ',')).after ',').read rest
  | '\\' :: [] => .error .danglingEscape
  | '\\' :: c :: rest => ((r.push (.literal c)).after c).read rest
  | c :: rest => ((r.push (.literal c)).after c).read rest
termination_by cs.length

end Reader

def Pattern.ofText (text : String) : Except GlobError Pattern :=
  Reader.fresh.read text.toList

end Compliance.Glob

import Compliance.Number.Decimal

/-!
# Flags

The words of a command line cut into flags and their values.  A flag has a long
name and may have a letter.  Its value is the next word, or stands behind an
equals sign, or behind the letter; letters without values can be run together.
Reading stops at the first word that is neither a flag nor a value.
-/

namespace Compliance.Cli

/-- What a flag takes. -/
inductive FlagKind where
  | switch
  | path
  | text
  /-- Some text; the flag may be given more than once. -/
  | texts
  /-- A number that fits 64 bits. -/
  | number
  | help
  | version
  deriving DecidableEq

structure Flag where
  letter : Option Char
  name : String
  kind : FlagKind
  about : String
  /-- The value of a flag that is not given, if the help shows one. -/
  standard : Option String
  deriving DecidableEq

/-- Why reading ends before a command is complete. -/
inductive Interruption where
  | help
  | version
  | misuse
  deriving DecidableEq

/-- Names of flags and the values they were given, in order. -/
abbrev Given := List (String × String)

namespace Given

def value? (g : Given) (name : String) : Option String :=
  (g.find? fun p => p.1 == name).map (·.2)

def has (g : Given) (name : String) : Bool :=
  (g.value? name).isSome

def values (g : Given) (name : String) : List String :=
  (g.filter fun p => p.1 == name).map (·.2)

end Given

/-- The number some digits stand for, if they are digits. -/
def digits? : List Char → Nat → Option Nat
  | [], n => some n
  | c :: rest, n =>
      if c.isDigit then digits? rest (10 * n + (c.toNat - '0'.toNat)) else none

/-- A number that fits 64 bits; a plus sign may stand in front. -/
def number? (text : String) : Option Nat :=
  let cs := match text.toList with
    | '+' :: rest => rest
    | cs => cs
  if cs.isEmpty then none else (digits? cs 0).filter fun n => n < Number.twoTo 64

namespace FlagKind

def takesValue : FlagKind → Bool
  | switch => false
  | help => false
  | version => false
  | _ => true

def admits : FlagKind → String → Bool
  | path, value => !value.isEmpty
  | number, value => (number? value).isSome
  | _, _ => true

end FlagKind

/-- Gives a flag.  Most flags can be given once. -/
def Flag.give (f : Flag) (value : String) (g : Given) :
    Except Interruption Given :=
  match f.kind with
  | .help => .error .help
  | .version => .error .version
  | kind =>
      if (kind = .texts ∨ !g.has f.name) ∧ kind.admits value then
        .ok (g ++ [(f.name, value)])
      else .error .misuse

/-- How a word looks. -/
inductive Word where
  /-- Two dashes; no flag stands behind them. -/
  | escape
  | long (name : String) (value : Option String)
  | letters (cs : List Char)
  | plain
  deriving DecidableEq

def Word.ofText (text : String) : Word :=
  match text.toList with
  | ['-', '-'] => .escape
  | '-' :: '-' :: cs =>
      let name := String.ofList (cs.takeWhile (· != '='))
      match cs.dropWhile (· != '=') with
      | [] => .long name none
      | _ :: value => .long name (some (String.ofList value))
  | '-' :: c :: cs => .letters (c :: cs)
  | _ => .plain

/-- What has been read, and the flag that waits for its value. -/
structure Reading where
  given : Given
  waiting : Option Flag

def readLong (flags : List Flag) (g : Given) (name : String)
    (value : Option String) : Except Interruption Reading :=
  match flags.find? fun f => f.name == name with
  | none => .error .misuse
  | some f =>
      match f.kind.takesValue, value with
      | true, none => .ok ⟨g, some f⟩
      | false, some _ => .error .misuse
      | _, value => (f.give (value.getD "") g).map fun g => ⟨g, none⟩

/-- Letters of one word; the first that takes a value takes the rest. -/
def readLetters (flags : List Flag) (g : Given) :
    List Char → Except Interruption Reading
  | [] => .ok ⟨g, none⟩
  | c :: rest =>
      match flags.find? fun f => f.letter == some c with
      | none => .error .misuse
      | some f =>
          if f.kind.takesValue then
            match rest with
            | [] => .ok ⟨g, some f⟩
            | '=' :: value => (f.give (String.ofList value) g).map (⟨·, none⟩)
            | value => (f.give (String.ofList value) g).map (⟨·, none⟩)
          else
            match f.give "" g with
            | .error i => .error i
            | .ok g => readLetters flags g rest

/-- Reads flags up to the first plain word; it and what follows are left. -/
def readFlags (flags : List Flag) :
    Reading → List String → Except Interruption (Given × List String)
  | ⟨g, none⟩, [] => .ok (g, [])
  | ⟨_, some _⟩, [] => .error .misuse
  | ⟨g, some f⟩, word :: rest =>
      match Word.ofText word, f.give word g with
      | .plain, .ok g => readFlags flags ⟨g, none⟩ rest
      | _, _ => .error .misuse
  | ⟨g, none⟩, word :: rest =>
      match Word.ofText word with
      | .plain => .ok (g, word :: rest)
      | .escape => if rest.isEmpty then .ok (g, []) else .error .misuse
      | .long name value =>
          match readLong flags g name value with
          | .error i => .error i
          | .ok r => readFlags flags r rest
      | .letters cs =>
          match readLetters flags g cs with
          | .error i => .error i
          | .ok r => readFlags flags r rest

example : Word.ofText "--out=a=b" = .long "out" (some "a=b") := by decide +kernel

example : Word.ofText "-" = .plain := by decide +kernel

example : number? "+12" = some 12 := by decide +kernel

end Compliance.Cli

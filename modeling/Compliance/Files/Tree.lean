import Compliance.Files.Path
import Compliance.Number.Decimal
import Compliance.Ordered

/-!
# File trees

A tree of directories and files, kept as a map from full paths, and the
directory that relative paths start from.  The root is always a directory.
-/

namespace Compliance.Files

inductive FileError where
  | notFound
  | alreadyExists
  | notADirectory
  | isADirectory
  | notUtf8
  deriving DecidableEq

namespace FileError

def describe (text : String) (code : Nat) : String :=
  text ++ " (os error " ++ Number.decimal code ++ ")"

def message : FileError → String
  | notFound => describe "No such file or directory" 2
  | alreadyExists => describe "File exists" 17
  | notADirectory => describe "Not a directory" 20
  | isADirectory => describe "Is a directory" 21
  | notUtf8 => "stream did not contain valid UTF-8"

end FileError

inductive Entry where
  | directory
  | file (content : ByteArray)

/-- The full path of an entry, from the root. -/
abbrev Location := List String

structure Tree where
  entries : List (Location × Entry)
  /-- The directory relative paths start from. -/
  here : Location

namespace Tree

def empty : Tree :=
  ⟨[], []⟩

def entry? (t : Tree) (l : Location) : Option Entry :=
  if l.isEmpty then some .directory else Ordered.find? l t.entries

def isDirectory (t : Tree) (l : Location) : Bool :=
  match t.entry? l with
  | some .directory => true
  | _ => false

/-- Follows the remaining components; each step leaves from a directory. -/
def follow (t : Tree) (l : Location) : List String → Except FileError Location
  | [] => .ok l
  | piece :: rest =>
      match t.entry? l with
      | none => .error .notFound
      | some (.file _) => .error .notADirectory
      | some .directory =>
          if piece.isEmpty || piece == "." then t.follow l rest
          else if piece == ".." then t.follow l.dropLast rest
          else t.follow (l ++ [piece]) rest

/-- The location a path names; only the last component may be missing. -/
def locate (t : Tree) (path : String) : Except FileError Location :=
  if path.isEmpty then .error .notFound
  else
    t.follow (if isAbsolute path then [] else t.here)
      ((pieces path.toList).map String.ofList)

def exists? (t : Tree) (path : String) : Bool :=
  match t.locate path with
  | .ok l => (t.entry? l).isSome
  | .error _ => false

def read (t : Tree) (path : String) : Except FileError ByteArray := do
  match t.entry? (← t.locate path) with
  | some (.file content) => return content
  | some .directory => throw .isADirectory
  | none => throw .notFound

def readText (t : Tree) (path : String) : Except FileError String := do
  match String.fromUTF8? (← t.read path) with
  | some text => return text
  | none => throw .notUtf8

def put (t : Tree) (l : Location) (e : Entry) : Tree :=
  { t with entries := Ordered.put l e t.entries }

def write (t : Tree) (path : String) (content : ByteArray) :
    Except FileError Tree := do
  let l ← t.locate path
  if t.isDirectory l then throw .isADirectory
  return t.put l (.file content)

def writeText (t : Tree) (path text : String) : Except FileError Tree :=
  t.write path text.toUTF8

/-- Adds every missing directory on the way to a location. -/
def addDirectories (t : Tree) (l : Location) :
    List String → Tree × Except FileError Unit
  | [] => (t, .ok ())
  | piece :: rest =>
      if piece.isEmpty || piece == "." then t.addDirectories l rest
      else if piece == ".." then t.addDirectories l.dropLast rest
      else
        let next := l ++ [piece]
        match t.entry? next with
        | some .directory => t.addDirectories next rest
        | some (.file _) =>
            (t, .error (if rest.isEmpty then .alreadyExists else .notADirectory))
        | none => (t.put next .directory).addDirectories next rest

def createDirectories (t : Tree) (path : String) :
    Tree × Except FileError Unit :=
  t.addDirectories (if isAbsolute path then [] else t.here)
    ((pieces path.toList).map String.ofList)

def erase (t : Tree) (l : Location) : Tree :=
  { t with entries := t.entries.filter fun e => e.1 != l }

/-- Moves a file onto a path, in place of any file there. -/
def rename (t : Tree) (source target : String) : Except FileError Tree := do
  let l ← t.locate source
  let m ← t.locate target
  match t.entry? l with
  | some (.file content) =>
      if t.isDirectory m then throw .isADirectory
      return (t.erase l).put m (.file content)
  | some .directory => throw .isADirectory
  | none => throw .notFound

def removeFile (t : Tree) (path : String) : Except FileError Tree := do
  let l ← t.locate path
  match t.entry? l with
  | some (.file _) => return t.erase l
  | some .directory => throw .isADirectory
  | none => throw .notFound

/-- Removes an entry with everything below it. -/
def removeAll (t : Tree) (path : String) : Except FileError Tree := do
  let l ← t.locate path
  if (t.entry? l).isNone then throw .notFound
  return { t with entries := t.entries.filter fun e => !l.isPrefixOf e.1 }

/-- Writes a whole file under a temporary name first, so that a reader never
sees half of it. -/
def replaceText (t : Tree) (temporary path text : String) :
    Tree × Except FileError Unit :=
  match t.writeText temporary text with
  | .error e => (t, .error e)
  | .ok t =>
      match t.rename temporary path with
      | .error e => (t, .error e)
      | .ok t => (t, .ok ())

/-- The names in a directory, in order. -/
def names (t : Tree) (l : Location) : List String :=
  t.entries.filterMap fun e =>
    if e.1.length == l.length + 1 && l.isPrefixOf e.1 then e.1.getLast?
    else none

/-- How a location below another looks in a listing; a directory ends in a
slash. -/
def listed (below : Location) (e : Location × Entry) : String :=
  "/".intercalate (e.1.drop below.length) ++ match e.2 with
    | .directory => "/"
    | .file _ => ""

/-- Everything below the directory that relative paths start from, in order. -/
def listing (t : Tree) : List String :=
  ((t.entries.filter fun e => t.here.length < e.1.length &&
      t.here.isPrefixOf e.1).map (listed t.here)).mergeSort (· ≤ ·)

end Tree

end Compliance.Files

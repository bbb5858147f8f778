/-!
# Paths as text

Joining paths and replacing the extension of their last component, on the text
of a path alone.
-/

namespace Compliance.Files

def isAbsolute (path : String) : Bool :=
  path.toList.head? == some '/'

/-- An absolute right side replaces the left side. -/
def join (left right : String) : String :=
  if isAbsolute right || left.isEmpty then right
  else if left.toList.getLast? == some '/' then left ++ right
  else left ++ "/" ++ right

/-- The text cut at every slash. -/
def pieces : List Char → List (List Char)
  | [] => [[]]
  | c :: rest =>
      match pieces rest with
      | [] => [[c]]
      | p :: ps => if c = '/' then [] :: p :: ps else (c :: p) :: ps

/-- A path without the slashes and single dots at its end, reversed. -/
def trimmed : List Char → List Char
  | '/' :: rest => trimmed rest
  | '.' :: '/' :: rest => trimmed rest
  | cs => cs

/-- The last component, in front of its extension if it has one; a dot at the
very front starts no extension. -/
def stem (name : List Char) : List Char :=
  let cut := name.reverse.dropWhile (· != '.')
  if cut.length ≤ 1 then name else (cut.drop 1).reverse

/-- The path with the extension of its last component replaced.  A path without
a last component has none to replace. -/
def withExtension (path extension : String) : String :=
  let reversed := trimmed path.toList.reverse
  let name := (reversed.takeWhile (· != '/')).reverse
  if name.isEmpty || name == ['.', '.'] || name == ['.'] then path
  else
    let front := (reversed.drop name.length).reverse
    String.ofList (front ++ stem name ++ '.' :: extension.toList)

example : withExtension "a/b.c.json" "tmp" = "a/b.c.tmp" := by decide +kernel

example : withExtension "a/.hidden" "tmp" = "a/.hidden.tmp" := by decide +kernel

example : join "out" "reports" = "out/reports" := by decide +kernel

end Compliance.Files

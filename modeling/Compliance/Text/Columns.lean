/-!
# Columns

Text laid out in columns: cells filled up with spaces, and words broken into
lines.  Widths count characters.
-/

namespace Compliance.Text

def spaces (n : Nat) : String :=
  String.ofList (List.replicate n ' ')

/-- A cell at least so wide; a longer text is left whole. -/
def padRight (width : Nat) (s : String) : String :=
  s ++ spaces (width - s.length)

/-- Lines of words, each as full as the width allows; the first argument is the
line begun. -/
def fill (width : Nat) (line : String) : List String → List String
  | [] => [line]
  | word :: rest =>
      if line.length + 1 + word.length ≤ width then
        fill width (line ++ " " ++ word) rest
      else line :: fill width word rest

/-- The words of a text in lines. -/
def linesOf (width : Nat) (s : String) : List String :=
  match s.splitOn " " with
  | [] => []
  | word :: rest => fill width word rest

example : padRight 5 "abc" = "abc  " := by decide +kernel

example : fill 5 "ab" ["cd", "ef"] = ["ab cd", "ef"] := by decide +kernel

end Compliance.Text

import Compliance.Toml.Scalar
import Compliance.Toml.Table

/-!
# Reading TOML

A document is read line by line into a draft.  Values may be nested to a fixed
depth.
-/

namespace Compliance.Toml

/-- The words for truth values. -/
def truth? : Rest → Option (Json × Rest)
  | 't' :: 'r' :: 'u' :: 'e' :: rest => some (.bool true, rest)
  | 'f' :: 'a' :: 'l' :: 's' :: 'e' :: rest => some (.bool false, rest)
  | _ => none

def scalar : Rest → Option (Json × Rest)
  | [] => none
  | c :: rest =>
      if c = '"' ∨ c = '\'' then
        (string? (c :: rest)).map fun (s, rest) => (.string s, rest)
      else if c = 't' ∨ c = 'f' then truth? (c :: rest)
      else numeric? (c :: rest)

mutual

/-- A value inside at most `depth` more containers. -/
def value? (depth : Nat) (cs : Rest) : Option (Json × Rest) :=
  match depth, cs with
  | depth + 1, '[' :: rest => items? depth rest.length [] rest
  | depth + 1, '\x7b' :: rest =>
      match skipSpace rest with
      | '\x7d' :: rest => some (.object [], rest)
      | rest => entries? depth rest.length [] rest
  | 0, '[' :: _ => none
  | 0, '\x7b' :: _ => none
  | _, cs => scalar cs
termination_by (depth, 0)

/-- The items of an array that are still to come; a comma may follow the last. -/
def items? (depth fuel : Nat) (done : List Json) (cs : Rest) :
    Option (Json × Rest) :=
  match fuel with
  | 0 => none
  | fuel + 1 =>
      match skipLines false cs with
      | ']' :: rest => some (.array done.reverse, rest)
      | cs =>
          match value? depth cs with
          | none => none
          | some (v, rest) =>
              match skipLines false rest with
              | ',' :: rest => items? depth fuel (v :: done) rest
              | ']' :: rest => some (.array (v :: done).reverse, rest)
              | _ => none
termination_by (depth, fuel + 1)

/-- The entries of an inline table that are still to come, all on one line. -/
def entries? (depth fuel : Nat) (done : Members) (cs : Rest) :
    Option (Json × Rest) :=
  match fuel with
  | 0 => none
  | fuel + 1 =>
      match key? cs with
      | some (key, '=' :: rest) =>
          match value? depth (skipSpace rest) with
          | none => none
          | some (v, rest) =>
              match addValue key v done with
              | none => none
              | some done =>
                  match skipSpace rest with
                  | ',' :: rest => entries? depth fuel done rest
                  | '\x7d' :: rest => some (.object (membersToJson done), rest)
                  | _ => none
      | _ => none
termination_by (depth, fuel + 1)

end

/-- A header or an entry, with the rest of its line. -/
def line? (d : Draft) : Rest → Option (Draft × Rest)
  | '[' :: '[' :: rest =>
      match key? rest with
      | some (path, ']' :: ']' :: rest) =>
          (d.openElement path).map fun d => (d, rest)
      | _ => none
  | '[' :: rest =>
      match key? rest with
      | some (path, ']' :: rest) => (d.openTable path).map fun d => (d, rest)
      | _ => none
  | cs =>
      match key? cs with
      | some (key, '=' :: rest) =>
          match value? nestingLimit (skipSpace rest) with
          | none => none
          | some (v, rest) => (d.add key v).map fun d => (d, rest)
      | _ => none

/-- The lines of a document that are still to come. -/
def lines? (fuel : Nat) (d : Draft) (cs : Rest) : Option Draft :=
  match fuel with
  | 0 => none
  | fuel + 1 =>
      match skipLines false cs with
      | [] => some d
      | cs =>
          match line? d cs with
          | none => none
          | some (d, rest) =>
              match lineEnd? rest with
              | none => none
              | some rest => lines? fuel d rest

def skipByteOrderMark : Rest → Rest
  | '\uFEFF' :: rest => rest
  | cs => cs

def ofText? (text : String) : Option Json := do
  let cs := skipByteOrderMark text.toList
  let d ← lines? (cs.length + 1) .empty cs
  return .object (membersToJson (← d.close))

mutual

/-- Numbers that are not finite have no place among configuration values. -/
def nullNonFinite : Json → Json
  | .number (.real x) => if x.isFinite then .number (.real x) else .null
  | .array items => .array (nullItems items)
  | .object members => .object (nullMembers members)
  | v => v

def nullItems : List Json → List Json
  | [] => []
  | v :: rest => nullNonFinite v :: nullItems rest

def nullMembers : List (String × Json) → List (String × Json)
  | [] => []
  | (k, v) :: rest => (k, nullNonFinite v) :: nullMembers rest

end

/-- A document as a configuration layer. -/
def layerOfText? (text : String) : Option Json :=
  (ofText? text).map nullNonFinite

end Compliance.Toml

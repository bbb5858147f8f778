import Compliance.Json.Basic

/-!
# Decoding records

A record is read from an object by its field names or from an array by
position.  A field is required, or has a default, or is optional; null stands
for a missing value of optional fields only.
-/

namespace Compliance.Json

/-- The forms a value comes in, where they differ in what they accept.  Parts
of a value whose shape depends on a tag are first read into a buffer. -/
inductive Form where
  | json
  | toml
  | buffered
  deriving DecidableEq

/-- The fields of a record as they were given. -/
structure Fields where
  given : List (String × Json)
  byPosition : Bool

/-- A field name that is given twice makes the record invalid. -/
def hasRepeat : List String → Bool
  | [] => false
  | k :: rest => rest.contains k || hasRepeat rest

/-- The fields of a record with these names.  Other members are ignored unless
the record is `closed`. -/
def fields? (form : Form) (names : List String) (closed : Bool) :
    Json → Option Fields
  | object members =>
      let known := members.filter fun m => names.contains m.1
      if closed && known.length != members.length then none
      else if hasRepeat (known.map (·.1)) then none
      else some ⟨known, false⟩
  | array items =>
      if form != .toml && names.length < items.length then none
      else some ⟨names.zip items, true⟩
  | _ => none

namespace Fields

variable {α : Type}

def required (f : Fields) (name : String) (decode : Json → Option α) :
    Option α :=
  (Ordered.find? name f.given).bind decode

def defaulted (f : Fields) (name : String) (default : α)
    (decode : Json → Option α) : Option α :=
  match Ordered.find? name f.given with
  | none => some default
  | some v => decode v

/-- An optional field may be left out, but by position it is counted. -/
def optional (f : Fields) (name : String) (decode : Json → Option α) :
    Option (Option α) :=
  match Ordered.find? name f.given with
  | none => if f.byPosition then none else some none
  | some null => some none
  | some v => (decode v).map some

/-- An optional field that may be left out by position too. -/
def omittable (f : Fields) (name : String) (decode : Json → Option α) :
    Option (Option α) :=
  match Ordered.find? name f.given with
  | none => some none
  | some null => some none
  | some v => (decode v).map some

end Fields

/-- What an enumeration case may carry when it is written as an object. -/
def isUnit : Form → Json → Bool
  | .json, null => true
  | .buffered, null => true
  | .buffered, object [] => true
  | .toml, object [] => true
  | .toml, array [] => true
  | _, _ => false

/-- A case of an enumeration, by name. -/
def choice? {α : Type} (form : Form) (cases : List (String × α)) :
    Json → Option α
  | string s => Ordered.find? s cases
  | object [(k, v)] => if isUnit form v then Ordered.find? k cases else none
  | _ => none

/-- The tag of a tagged record and its other fields. -/
def tagged? (tag : String) : Json → Option (String × Json)
  | object members =>
      let rest := members.filter fun m => m.1 != tag
      if !readableMembers rest then none
      else match members.filter fun m => m.1 == tag with
        | [(_, string t)] => some (t, object rest)
        | _ => none
  | array (string t :: items) =>
      if readableItems items then some (t, array items) else none
  | _ => none

/-- A whole number that fits so many bits, one of them the sign. -/
def signed? (bits : Nat) : Json → Option Int
  | number (.whole i) =>
      let limit : Int := Number.twoTo (bits - 1)
      if -limit ≤ i ∧ i < limit then some i else none
  | _ => none

/-- A natural number that fits so many bits. -/
def unsigned? (bits : Nat) : Json → Option Nat
  | number (.whole i) =>
      if 0 ≤ i ∧ i < Number.twoTo bits then some i.toNat else none
  | _ => none

def binary64? : Json → Option Number.Binary64
  | number (.whole i) => some (.ofInt i)
  | number (.real x) => some x
  | _ => none

def listOf? {α : Type} (decode : Json → Option α) : Json → Option (List α)
  | array items => items.mapM decode
  | _ => none

/-- An object read as a map; the last of equal keys is kept. -/
def mapOf? {α : Type} (decode : Json → Option α) :
    Json → Option (List (String × α))
  | object members => do
      let entries ← members.mapM fun (k, v) => (decode v).map fun a => (k, a)
      return Ordered.putAll entries []
  | _ => none

end Compliance.Json

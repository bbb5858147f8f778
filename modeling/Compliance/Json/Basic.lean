import Compliance.Number.Binary64
import Compliance.Ordered

/-!
# JSON values

A JSON value as it was read: members keep their order and repetitions.  A value
is *tidy* when the members of every object are in strictly increasing order of
their keys; configuration layers and free-form parameters are kept tidy.

The leaf `unreadable` stands for a literal that is well formed but denotes no
value: a lone surrogate, a number beyond the range, a container nested too
deep.  Nothing but skipping accepts it.
-/

namespace Compliance

namespace Json

/-- Whole numbers are kept apart from numbers with a fraction or an exponent. -/
inductive Numeral where
  | whole (i : Int)
  | real (x : Number.Binary64)
  deriving DecidableEq

end Json

inductive Json where
  | null
  | bool (b : Bool)
  | number (n : Json.Numeral)
  | string (s : String)
  | array (items : List Json)
  | object (members : List (String × Json))
  | unreadable

namespace Json

instance : Inhabited Json := ⟨null⟩

def ofNat (n : Nat) : Json :=
  number (.whole n)

def ofStrings (ss : List String) : Json :=
  array (ss.map string)

/-- An optional member is left out when it has no value. -/
def member? (key : String) (v : Option Json) : List (String × Json) :=
  v.toList.map fun v => (key, v)

mutual

/-- Members in key order, the last of equal keys being kept. -/
def tidy : Json → Json
  | array items => array (tidyItems items)
  | object members => object (tidyMembers [] members)
  | v => v

def tidyItems : List Json → List Json
  | [] => []
  | v :: rest => tidy v :: tidyItems rest

def tidyMembers (done : List (String × Json)) :
    List (String × Json) → List (String × Json)
  | [] => done
  | (k, v) :: rest => tidyMembers (Ordered.put k (tidy v) done) rest

end

mutual

/-- No part of the value is `unreadable`. -/
def readable : Json → Bool
  | array items => readableItems items
  | object members => readableMembers members
  | unreadable => false
  | _ => true

def readableItems : List Json → Bool
  | [] => true
  | v :: rest => readable v && readableItems rest

def readableMembers : List (String × Json) → Bool
  | [] => true
  | (_, v) :: rest => readable v && readableMembers rest

end

def get? (v : Json) (key : String) : Option Json :=
  match v with
  | object members => Ordered.find? key members
  | _ => none

/-- The value at a path of keys. -/
def at? (v : Json) : List String → Option Json
  | [] => some v
  | key :: path => (v.get? key).bind fun w => w.at? path

def asString? : Json → Option String
  | string s => some s
  | _ => none

def asBool? : Json → Option Bool
  | bool b => some b
  | _ => none

def asArray? : Json → Option (List Json)
  | array items => some items
  | _ => none

/-- A whole number in the 64-bit unsigned range. -/
def asNat? : Json → Option Nat
  | number (.whole i) => if 0 ≤ i ∧ i < Number.twoTo 64 then some i.toNat else none
  | _ => none

@[simp] theorem at?_nil (v : Json) : v.at? [] = some v := rfl

theorem at?_cons (v : Json) (key : String) (path : List String) :
    v.at? (key :: path) = (v.get? key).bind fun w => w.at? path := rfl

end Json

end Compliance

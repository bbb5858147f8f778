import Compliance.Json.Decode

/-!
# Capabilities

Names of hardware features, and ordered sets of them.
-/

namespace Compliance.Device

def isNameChar (c : Char) : Bool :=
  c.isLower || c.isDigit || c == '.' || c == '_' || c == '-'

/-- A name has no dot at either end. -/
def IsCapabilityName (s : String) : Prop :=
  s ≠ "" ∧ s.toList.head? ≠ some '.' ∧ s.toList.getLast? ≠ some '.' ∧
    s.toList.all isNameChar = true

instance (s : String) : Decidable (IsCapabilityName s) :=
  inferInstanceAs (Decidable (_ ∧ _))

structure Capability where
  name : String
  valid : IsCapabilityName name
  deriving DecidableEq

inductive CapabilityError where
  | invalidName (name : String)
  deriving DecidableEq

def CapabilityError.message : CapabilityError → String
  | invalidName name =>
      "invalid capability name '" ++ name ++
        "': use lowercase letters, digits, '.', '_' or '-'"

namespace Capability

instance : LT Capability := ⟨fun a b => a.name < b.name⟩

instance : DecidableLT Capability := fun a b =>
  inferInstanceAs (Decidable (a.name < b.name))

def ofName (name : String) : Except CapabilityError Capability :=
  if h : IsCapabilityName name then .ok ⟨name, h⟩
  else .error (.invalidName name)

def ofJson? (v : Json) : Option Capability :=
  v.asString?.bind fun s => (ofName s).toOption

def toJson (c : Capability) : Json :=
  .string c.name

/-- Low-energy radio links. -/
def lowEnergy : Capability :=
  ⟨"bluetooth.le", by decide +kernel⟩

/-- Encrypted low-energy radio links. -/
def lowEnergySecure : Capability :=
  ⟨"bluetooth.le.secure", by decide +kernel⟩

def peerToPeer : Capability :=
  ⟨"wifi.p2p", by decide +kernel⟩

def serviceDiscovery : Capability :=
  ⟨"wifi.p2p.service_discovery", by decide +kernel⟩

end Capability

structure CapabilitySet where
  /-- Members in name order. -/
  members : List Capability
  deriving DecidableEq

namespace CapabilitySet

def empty : CapabilitySet :=
  ⟨[]⟩

def insert (s : CapabilitySet) (c : Capability) : CapabilitySet :=
  ⟨Ordered.add c s.members⟩

def ofList (cs : List Capability) : CapabilitySet :=
  cs.foldl insert empty

def ofNames (names : List String) : Except CapabilityError CapabilitySet := do
  return ofList (← names.mapM Capability.ofName)

def contains (s : CapabilitySet) (c : Capability) : Bool :=
  s.members.contains c

def union (s extra : CapabilitySet) : CapabilitySet :=
  extra.members.foldl insert s

/-- The required capabilities that the set lacks. -/
def missing (s required : CapabilitySet) : List Capability :=
  required.members.filter fun c => !s.contains c

def names (s : CapabilitySet) : List String :=
  s.members.map (·.name)

def size (s : CapabilitySet) : Nat :=
  s.members.length

def text (s : CapabilitySet) : String :=
  ",".intercalate s.names

def toJson (s : CapabilitySet) : Json :=
  Json.ofStrings s.names

def ofJson? (v : Json) : Option CapabilitySet :=
  (Json.listOf? Capability.ofJson? v).map ofList

@[simp] theorem contains_iff {s : CapabilitySet} {c : Capability} :
    s.contains c = true ↔ c ∈ s.members := by
  simp [contains]

@[simp] theorem mem_insert {s : CapabilitySet} {c x : Capability} :
    x ∈ (s.insert c).members ↔ x = c ∨ x ∈ s.members :=
  Ordered.mem_add

theorem mem_foldl_insert {cs : List Capability} {s : CapabilitySet}
    {x : Capability} :
    x ∈ (cs.foldl insert s).members ↔ x ∈ cs ∨ x ∈ s.members := by
  induction cs generalizing s with
  | nil => simp
  | cons c rest ih => simp [ih, or_assoc, or_left_comm]

@[simp] theorem mem_union {s extra : CapabilitySet} {x : Capability} :
    x ∈ (s.union extra).members ↔ x ∈ extra.members ∨ x ∈ s.members :=
  mem_foldl_insert

@[simp] theorem mem_ofList {cs : List Capability} {x : Capability} :
    x ∈ (ofList cs).members ↔ x ∈ cs := by
  simp [ofList, mem_foldl_insert, empty]

theorem mem_missing {s required : CapabilitySet} {c : Capability} :
    c ∈ s.missing required ↔ c ∈ required.members ∧ c ∉ s.members := by
  simp [missing, contains]

end CapabilitySet

end Compliance.Device

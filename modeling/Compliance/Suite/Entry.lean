import Compliance.Check.Discovery
import Compliance.Check.Link

/-!
# Suite entries

A test as a suite lists it, and the check it stands for.
-/

namespace Compliance.Suite

open Compliance.Check (Discovery DiscoveryParams Link LinkParams TestCase)
open Compliance.Device (CapabilitySet)
open Compliance.Report (TestId)

inductive CaseKind where
  | serviceDiscovery
  | connect
  deriving DecidableEq

def CaseKind.wire : CaseKind → String
  | serviceDiscovery => "wifi_p2p_service_discovery"
  | connect => "ble_secure_connect"

def CaseKind.cases : List (String × CaseKind) :=
  [.serviceDiscovery, .connect].map fun k => (k.wire, k)

structure Entry where
  id : TestId
  kind : CaseKind
  /-- Required on top of what the kind needs. -/
  requires : CapabilitySet
  params : Json

inductive EntryError where
  /-- The parameters are not of the shape the kind has. -/
  | malformedParams (id : TestId)
  | invalidParams (id : TestId) (reason : String)
  | duplicateId (id : TestId)
  deriving DecidableEq

def EntryError.message : EntryError → String
  | malformedParams id => id.text ++ ": invalid params: not of this kind"
  | invalidParams id reason => id.text ++ ": invalid params: " ++ reason
  | duplicateId id => "duplicate test id '" ++ id.text ++ "'"

namespace Entry

def idOfJson? (v : Json) : Option TestId :=
  v.asString?.bind TestId.ofText?

def ofJson? (v : Json) : Option Entry := do
  let f ← v.fields? .json ["id", "kind", "requires", "params"] false
  return {
    id := ← f.required "id" idOfJson?
    kind := ← f.required "kind" (Json.choice? .json CaseKind.cases)
    requires := ← f.defaulted "requires" .empty CapabilitySet.ofJson?
    params := ← f.defaulted "params" .null some }

def toJson (e : Entry) : Json :=
  .object [("id", .string e.id.text), ("kind", .string e.kind.wire),
    ("requires", e.requires.toJson), ("params", e.params)]

/-- No parameters at all are the empty object. -/
def givenParams (e : Entry) : Json :=
  match e.params with
  | .null => .object []
  | v => v

/-- Reads the parameters and makes something of them. -/
def withParams {α β : Type} (e : Entry) (decode : Json → Option α)
    (make : α → Except String β) : Except EntryError β :=
  match decode e.givenParams with
  | none => .error (.malformedParams e.id)
  | some p =>
      match make p with
      | .error reason => .error (.invalidParams e.id reason)
      | .ok b => .ok b

def toCase (e : Entry) : Except EntryError TestCase :=
  match e.kind with
  | .serviceDiscovery =>
      (e.withParams DiscoveryParams.ofJson? Discovery.ofParams).map fun d =>
        d.toCase e.id e.requires
  | .connect =>
      (e.withParams LinkParams.ofJson? Link.ofParams).map fun l =>
        l.toCase e.id e.requires

end Entry

/-- The checks of entries behind others with the given ids, in order. -/
def casesBehind (seen : List TestId) :
    List Entry → Except EntryError (List TestCase)
  | [] => .ok []
  | e :: rest =>
      if seen.contains e.id then .error (.duplicateId e.id)
      else
        match e.toCase with
        | .error err => .error err
        | .ok c =>
            match casesBehind (e.id :: seen) rest with
            | .error err => .error err
            | .ok cs => .ok (c :: cs)

/-- The checks of a suite, which has every id once. -/
def casesOf (entries : List Entry) : Except EntryError (List TestCase) :=
  casesBehind [] entries

theorem id_toCase {e : Entry} {c : TestCase} (h : e.toCase = .ok c) :
    c.id = e.id := by
  unfold Entry.toCase at h
  split at h
  · cases hw : e.withParams DiscoveryParams.ofJson? Discovery.ofParams with
    | error err => simp [hw, Except.map] at h
    | ok d =>
        simp only [hw, Except.map, Except.ok.injEq] at h
        rw [← h]
        rfl
  · cases hw : e.withParams LinkParams.ofJson? Link.ofParams with
    | error err => simp [hw, Except.map] at h
    | ok l =>
        simp only [hw, Except.map, Except.ok.injEq] at h
        rw [← h]
        rfl

end Compliance.Suite

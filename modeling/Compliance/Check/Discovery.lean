import Compliance.Check.Program
import Compliance.Time.Duration

/-!
# Service discovery

One discovery request, then a stream of reported services.  A positive check
passes when every expected instance was reported, or some service at all if
none is named; a negative check passes when discovery completes without an
answer to its query.
-/

namespace Compliance.Check

open Compliance.Device (Capability CapabilitySet Event Request ServiceFamily)
open Compliance.Number (Binary64)
open Compliance.Report (Metric)
open Compliance.Text (quoted record)
open Compliance.Time (Duration)

/-- What to ask peers for. -/
inductive ServiceQuery where
  /-- All instances of a service. -/
  | pointer (service : String)
  /-- The record of one instance of a service. -/
  | instanceRecord (service instanceName : String)
  | searchTarget (target : String)
  | all
  deriving DecidableEq

namespace ServiceQuery

/-- The search target that every service of its family answers. -/
def searchAll : String := "ssdp:all"

def family : ServiceQuery → ServiceFamily
  | pointer _ => .bonjour
  | instanceRecord _ _ => .bonjour
  | searchTarget _ => .upnp
  | all => .all

def request (q : ServiceQuery) : Request :=
  .discoverServices q.family (match q with
    | pointer service => some service
    | instanceRecord service instanceName =>
        some (instanceName ++ "." ++ service)
    | searchTarget target => some target
    | all => none)

/-- Whether services of a family can answer the query at all. -/
def covers (q : ServiceQuery) (f : ServiceFamily) : Bool :=
  match q.family with
  | .all => true
  | wanted => f == wanted

def matchesService (q : ServiceQuery) (service instanceName : String) : Bool :=
  match q with
  | pointer wanted => service == wanted
  | instanceRecord wanted wantedInstance =>
      service == wanted && instanceName == wantedInstance
  | searchTarget target => target == searchAll || service == target
  | all => true

/-- Whether an event answers the query. -/
def accepts (q : ServiceQuery) : Event → Bool
  | .serviceFound f service instanceName _ =>
      q.covers f && q.matchesService service instanceName
  | _ => false

def describe : ServiceQuery → String
  | pointer service => record "DnsPtr" [("service", quoted service)]
  | instanceRecord service instanceName =>
      record "DnsTxt" [("service", quoted service),
        ("instance", quoted instanceName)]
  | searchTarget target => record "Upnp" [("search_target", quoted target)]
  | all => "All"

end ServiceQuery

inductive Expectation where
  | found
  | none
  deriving DecidableEq

def Expectation.wire : Expectation → String
  | found => "found"
  | none => "none"

def Expectation.cases : List (String × Expectation) :=
  [.found, .none].map fun e => (e.wire, e)

inductive QueryKind where
  | pointer
  | instanceRecord
  | searchTarget
  | all
  deriving DecidableEq

def QueryKind.wire : QueryKind → String
  | pointer => "dns_ptr"
  | instanceRecord => "dns_txt"
  | searchTarget => "upnp"
  | all => "all"

def QueryKind.cases : List (String × QueryKind) :=
  [.pointer, .instanceRecord, .searchTarget, .all].map fun k => (k.wire, k)

/-- The parameters of a discovery check as suites write them. -/
structure DiscoveryParams where
  query : QueryKind
  service : Option String
  instanceName : Option String
  searchTarget : Option String
  expect : Expectation
  instances : List String
  /-- Record entries in key order. -/
  txt : List (String × String)
  deriving DecidableEq

namespace DiscoveryParams

def fieldNames : List String :=
  ["query", "service", "instance", "search_target", "expect", "instances",
    "txt"]

def ofJson? (v : Json) : Option DiscoveryParams := do
  let f ← v.fields? .json fieldNames true
  return {
    query := ← f.required "query" (Json.choice? .json QueryKind.cases)
    service := ← f.omittable "service" Json.asString?
    instanceName := ← f.omittable "instance" Json.asString?
    searchTarget := ← f.omittable "search_target" Json.asString?
    expect := ← f.defaulted "expect" .found
      (Json.choice? .json Expectation.cases)
    instances := ← f.defaulted "instances" [] (Json.listOf? Json.asString?)
    txt := ← f.defaulted "txt" [] (Json.mapOf? Json.asString?) }

def toJson (p : DiscoveryParams) : Json :=
  .object ([("query", .string p.query.wire)] ++
    Json.member? "service" (p.service.map .string) ++
    Json.member? "instance" (p.instanceName.map .string) ++
    Json.member? "search_target" (p.searchTarget.map .string) ++
    [("expect", .string p.expect.wire), ("instances", Json.ofStrings p.instances),
      ("txt", .object (p.txt.map fun (k, v) => (k, .string v)))])

/-- A field that the kind of query needs. -/
def needed (kind : QueryKind) (field : String) (v : Option String) :
    Except String String :=
  match v with
  | some s =>
      if s.isEmpty then
        .error ("query '" ++ kind.wire ++ "' requires '" ++ field ++ "'")
      else .ok s
  | none => .error ("query '" ++ kind.wire ++ "' requires '" ++ field ++ "'")

def toQuery (p : DiscoveryParams) : Except String ServiceQuery := do
  match p.query with
  | .pointer => return .pointer (← needed p.query "service" p.service)
  | .instanceRecord =>
      let service ← needed p.query "service" p.service
      return .instanceRecord service
        (← needed p.query "instance" p.instanceName)
  | .searchTarget =>
      return .searchTarget (← needed p.query "search_target" p.searchTarget)
  | .all => return .all

end DiscoveryParams

structure Discovery where
  query : ServiceQuery
  expect : Expectation
  /-- Instances that must all be reported. -/
  instances : List String
  /-- Entries that every accepted record must carry. -/
  txt : List (String × String)
  deriving DecidableEq

/-- What one event means to the check. -/
inductive Bearing where
  | accepted (instanceName : String)
  | ignored
  | complete
  | offending (f : Failure)
  deriving DecidableEq

namespace Discovery

def ofQuery (q : ServiceQuery) : Discovery :=
  ⟨q, .found, [], []⟩

def ofParams (p : DiscoveryParams) : Except String Discovery := do
  let q ← p.toQuery
  if p.expect = .none ∧ p.instances ≠ [] then
    throw "'instances' cannot be combined with expect = \"none\""
  return ⟨q, p.expect, p.instances, p.txt⟩

def mismatch (detail : String) : Failure :=
  ⟨.protocolMismatch, detail⟩

/-- The first required entry that a record lacks or has with another value. -/
def txtFault? (d : Discovery) (instanceName : String)
    (given : List (String × String)) : Option Failure :=
  d.txt.findSome? fun (key, expected) =>
    match Ordered.find? key given with
    | some actual =>
        if actual = expected then none
        else some (mismatch (instanceName ++ ": TXT '" ++ key ++ "' is '" ++
          actual ++ "', expected '" ++ expected ++ "'"))
    | none =>
        some (mismatch (instanceName ++ ": TXT record lacks '" ++ key ++ "'"))

def bearing (d : Discovery) (e : Event) : Bearing :=
  match e with
  | .serviceFound family _ instanceName txt =>
      if d.query.accepts e then
        if d.expect = .none then
          .offending (mismatch
            ("unexpected service response from '" ++ instanceName ++ "'"))
        else match d.txtFault? instanceName txt with
          | some f => .offending f
          | none => .accepted instanceName
      else if d.query.covers family then .ignored
      else .offending (mismatch (family.describe ++ " response from '" ++
        instanceName ++ "' to a " ++ d.query.family.describe ++ " query"))
  | .discoveryComplete => .complete
  | .error code message =>
      .offending ⟨.unexpectedResponse, "discovery error " ++
        Number.decimalInt code ++ ": " ++ message⟩
  | e =>
      .offending ⟨.unexpectedResponse,
        "unexpected event during discovery: " ++ e.describe⟩

/-- The instance a sighting shows, if it answers the query. -/
def accepted? (d : Discovery) (s : Sighting) : Option String :=
  match d.bearing s.event with
  | .accepted instanceName => some instanceName
  | _ => none

/-- The accepted instances, each once, in the order they were reported. -/
def reported (d : Discovery) (seen : List Sighting) : List String :=
  seen.foldl (fun found s =>
    match d.accepted? s with
    | some i => if found.contains i then found else found ++ [i]
    | none => found) []

/-- Every expected instance was reported, and at least one is expected. -/
def isFulfilled (d : Discovery) (found : List String) : Bool :=
  !d.instances.isEmpty && d.instances.all found.contains

/-- No later event can change the verdict. -/
def isSettled (d : Discovery) (seen : List Sighting) : Bool :=
  match seen.getLast? with
  | none => false
  | some s =>
      match d.bearing s.event with
      | .complete => true
      | .offending _ => true
      | .ignored => false
      | .accepted _ => d.isFulfilled (d.reported seen)

def latencyMetric (elapsed : Nat) : Metric :=
  ⟨"discovery_latency_ms", .single (Duration.ofMillis elapsed).asMillis, .ms,
    .lowerBetter⟩

def countMetric (n : Nat) : Metric :=
  ⟨"services_found", .single (.ofNat n), .count, .neutral⟩

/-- The verdict on a settled list of sightings. -/
def conclude (d : Discovery) (seen : List Sighting) : Program Outcome :=
  match seen.getLast?.map fun s => d.bearing s.event with
  | some (.offending f) => .fail f
  | _ =>
      if d.expect = .none then
        .record (countMetric 0)
          (.pure (.noting "no matching service, as expected"))
      else
        match seen.find? fun s => (d.accepted? s).isSome with
        | none =>
            .fail (mismatch "discovery completed without a matching service")
        | some first =>
            let found := d.reported seen
            match d.instances.filter fun i => !found.contains i with
            | [] =>
                .record (latencyMetric first.elapsed)
                  (.record (countMetric found.length)
                    (.pure (.noting ("found " ++ ", ".intercalate found))))
            | missing =>
                .fail (mismatch
                  ("instances not reported: " ++ ", ".intercalate missing))

def program (d : Discovery) : Program Outcome :=
  .look fun v =>
    if v.hasSession then .send d.query.request (.gather d.isSettled d.conclude)
    else .fail ⟨.platform, "discovery session not open"⟩

def requirements : CapabilitySet :=
  .ofList [.peerToPeer, .serviceDiscovery]

def toCase (d : Discovery) (id : Report.TestId) (extra : CapabilitySet) :
    TestCase where
  id := id
  requires := requirements.union extra
  prepare := .acquire .serviceDiscovery .ready
  execute := d.program
  cleanup := .release .done

end Discovery

end Compliance.Check

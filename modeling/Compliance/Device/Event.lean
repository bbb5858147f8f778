import Compliance.Json.Decode
import Compliance.Text.Quoted

/-!
# Requests and events

What is asked of a device over a session, and what the device reports back.
-/

namespace Compliance.Device

open Compliance.Text (quoted quotedMap record)

/-- Families of discovery protocols. -/
inductive ServiceFamily where
  | bonjour
  | upnp
  | all
  deriving DecidableEq

namespace ServiceFamily

def wire : ServiceFamily → String
  | bonjour => "bonjour"
  | upnp => "upnp"
  | all => "all"

def cases : List (String × ServiceFamily) :=
  [bonjour, upnp, all].map fun f => (f.wire, f)

def describe : ServiceFamily → String
  | bonjour => "Bonjour"
  | upnp => "Upnp"
  | all => "All"

end ServiceFamily

inductive RequestKind where
  | discoverServices
  | connect
  deriving DecidableEq

def RequestKind.wire : RequestKind → String
  | discoverServices => "discover_services"
  | connect => "ble_connect"

def RequestKind.cases : List (String × RequestKind) :=
  [.discoverServices, .connect].map fun k => (k.wire, k)

inductive Request where
  | discoverServices (family : ServiceFamily) (query : Option String)
  | connect (address : String) (secure : Bool)
  deriving DecidableEq

namespace Request

def kind : Request → RequestKind
  | discoverServices _ _ => .discoverServices
  | connect _ _ => .connect

def toJson (r : Request) : Json :=
  .object (("kind", .string r.kind.wire) :: match r with
    | discoverServices family query =>
        ("service_type", .string family.wire) ::
          Json.member? "query" (query.map .string)
    | connect address secure =>
        [("address", .string address), ("secure", .bool secure)])

def ofJson? (v : Json) : Option Request := do
  let (tag, rest) ← v.tagged? "kind"
  match ← Ordered.find? tag RequestKind.cases with
  | .discoverServices =>
      let f ← rest.fields? .buffered ["service_type", "query"] false
      return .discoverServices
        (← f.required "service_type"
          (Json.choice? .buffered ServiceFamily.cases))
        (← f.omittable "query" Json.asString?)
  | .connect =>
      let f ← rest.fields? .buffered ["address", "secure"] false
      return .connect (← f.required "address" Json.asString?)
        (← f.required "secure" Json.asBool?)

end Request

inductive Event where
  /-- A peer offers a service; `txt` is in key order. -/
  | serviceFound (family : ServiceFamily) (service : String)
      (instanceName : String) (txt : List (String × String))
  | discoveryComplete
  | connected (address : String) (encrypted : Bool) (mtu : Nat)
  | disconnected (reason : String)
  | error (code : Int) (message : String)
  deriving DecidableEq

namespace Event

def wire : Event → String
  | serviceFound _ _ _ _ => "service_found"
  | discoveryComplete => "discovery_complete"
  | connected _ _ _ => "connected"
  | disconnected _ => "disconnected"
  | error _ _ => "error"

def toJson (e : Event) : Json :=
  .object (("kind", .string e.wire) :: match e with
    | serviceFound family service instanceName txt =>
        [("service_type", .string family.wire), ("service", .string service),
          ("instance", .string instanceName),
          ("txt", .object (txt.map fun (k, v) => (k, .string v)))]
    | discoveryComplete => []
    | connected address encrypted mtu =>
        [("address", .string address), ("encrypted", .bool encrypted),
          ("mtu", Json.ofNat mtu)]
    | disconnected reason => [("reason", .string reason)]
    | error code message =>
        [("code", .number (.whole code)), ("message", .string message)])

def ofJson? (v : Json) : Option Event := do
  let (tag, rest) ← v.tagged? "kind"
  match tag with
  | "service_found" =>
      let f ← rest.fields? .buffered
        ["service_type", "service", "instance", "txt"] false
      return serviceFound
        (← f.required "service_type"
          (Json.choice? .buffered ServiceFamily.cases))
        (← f.required "service" Json.asString?)
        (← f.required "instance" Json.asString?)
        (← f.defaulted "txt" [] (Json.mapOf? Json.asString?))
  | "discovery_complete" =>
      match rest with
      | .object _ => return discoveryComplete
      | .array [] => return discoveryComplete
      | _ => none
  | "connected" =>
      let f ← rest.fields? .buffered ["address", "encrypted", "mtu"] false
      return connected (← f.required "address" Json.asString?)
        (← f.required "encrypted" Json.asBool?)
        (← f.required "mtu" (Json.unsigned? 16))
  | "disconnected" =>
      let f ← rest.fields? .buffered ["reason"] false
      return disconnected (← f.required "reason" Json.asString?)
  | "error" =>
      let f ← rest.fields? .buffered ["code", "message"] false
      return error (← f.required "code" (Json.signed? 32))
        (← f.required "message" Json.asString?)
  | _ => none

/-- The event as diagnostics show it. -/
def describe : Event → String
  | serviceFound family service instanceName txt =>
      record "ServiceFound" [("service_type", family.describe),
        ("service", quoted service), ("instance", quoted instanceName),
        ("txt", quotedMap txt)]
  | discoveryComplete => "DiscoveryComplete"
  | connected address encrypted mtu =>
      record "Connected" [("address", quoted address),
        ("encrypted", if encrypted then "true" else "false"),
        ("mtu", Number.decimal mtu)]
  | disconnected reason => record "Disconnected" [("reason", quoted reason)]
  | error code message =>
      record "Error" [("code", Number.decimalInt code),
        ("message", quoted message)]

end Event

end Compliance.Device

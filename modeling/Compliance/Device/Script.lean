import Compliance.Device.Event
import Compliance.Device.Profile

/-!
# Device scripts

A simulated device: its profile and, for each kind of request, the events that
answer it and their delays in milliseconds.
-/

namespace Compliance.Device

structure ScheduledEvent where
  delay : Nat
  event : Event
  deriving DecidableEq

structure Response where
  kind : RequestKind
  /-- Answers only discovery of this family, if given. -/
  family : Option ServiceFamily
  /-- Answers only connections to this address, if given. -/
  address : Option String
  events : List ScheduledEvent
  deriving DecidableEq

/-- A device file: what the simulator plays. -/
structure Script where
  profile : Profile
  responses : List Response
  deriving DecidableEq

def ScheduledEvent.toJson (s : ScheduledEvent) : Json :=
  .object [("delay_ms", Json.ofNat s.delay), ("event", s.event.toJson)]

def ScheduledEvent.ofJson? (form : Json.Form) (v : Json) :
    Option ScheduledEvent := do
  let f ← v.fields? form ["delay_ms", "event"] false
  return {
    delay := ← f.defaulted "delay_ms" 0 (Json.unsigned? 64)
    event := ← f.required "event" Event.ofJson? }

namespace Response

def answers (r : Response) (q : Request) : Bool :=
  r.kind == q.kind && match q with
    | .discoverServices family _ => r.family.all (· == family)
    | .connect address _ => r.address.all (· == address)

def toJson (r : Response) : Json :=
  .object ([("on", .string r.kind.wire)] ++
    Json.member? "service_type" (r.family.map fun f => .string f.wire) ++
    Json.member? "address" (r.address.map .string) ++
    [("events", .array (r.events.map ScheduledEvent.toJson))])

def ofJson? (form : Json.Form) (v : Json) : Option Response := do
  let f ← v.fields? form ["on", "service_type", "address", "events"] false
  return {
    kind := ← f.required "on" (Json.choice? form RequestKind.cases)
    family := ← f.omittable "service_type"
      (Json.choice? form ServiceFamily.cases)
    address := ← f.omittable "address" Json.asString?
    events := ← f.defaulted "events" []
      (Json.listOf? (ScheduledEvent.ofJson? form)) }

end Response

namespace Script

def toJson (s : Script) : Json :=
  .object [("device", s.profile.toJson),
    ("responses", .array (s.responses.map Response.toJson))]

def ofJson? (form : Json.Form) (v : Json) : Option Script := do
  let f ← v.fields? form ["device", "responses"] false
  return {
    profile := ← f.required "device" (Profile.ofJson? form)
    responses := ← f.defaulted "responses" []
      (Json.listOf? (Response.ofJson? form)) }

end Script

end Compliance.Device

import Compliance.Check.Program
import Compliance.Time.Duration

/-!
# Low-energy links

Connects to a peer and checks the link that comes up: the peer's address,
encryption, and the size of a transmission unit.
-/

namespace Compliance.Check

open Compliance.Device (Capability CapabilitySet Event)
open Compliance.Report (Metric)
open Compliance.Time (Duration)

structure LinkParams where
  address : String
  secure : Bool
  /-- Whether the link must be encrypted, if not as `secure` says. -/
  requireEncryption : Option Bool
  minMtu : Option Nat
  deriving DecidableEq

def LinkParams.ofJson? (v : Json) : Option LinkParams := do
  let f ← v.fields? .json
    ["address", "secure", "require_encryption", "min_mtu"] true
  return {
    address := ← f.required "address" Json.asString?
    secure := ← f.defaulted "secure" true Json.asBool?
    requireEncryption := ← f.omittable "require_encryption" Json.asBool?
    minMtu := ← f.omittable "min_mtu" (Json.unsigned? 16) }

structure Link where
  address : String
  secure : Bool
  requireEncryption : Bool
  minMtu : Option Nat
  deriving DecidableEq

namespace Link

def ofParams (p : LinkParams) : Except String Link :=
  if Text.allBlank p.address then .error "'address' must not be empty"
  else .ok ⟨p.address, p.secure, p.requireEncryption.getD p.secure, p.minMtu⟩

/-- Addresses are compared without regard to the case of ASCII letters. -/
def sameAddress (a b : String) : Bool :=
  a.toLower == b.toLower

/-- What is wrong with a link that came up. -/
def fault? (l : Link) (address : String) (encrypted : Bool) (mtu : Nat) :
    Option Failure :=
  if !sameAddress address l.address then
    some ⟨.protocolMismatch,
      "connected to " ++ address ++ ", expected " ++ l.address⟩
  else if l.requireEncryption && !encrypted then
    some ⟨.protocolMismatch, "link to " ++ address ++ " is not encrypted"⟩
  else
    match l.minMtu with
    | none => none
    | some least =>
        if mtu < least then
          some ⟨.protocolMismatch, "negotiated MTU " ++ Number.decimal mtu ++
            " below minimum " ++ Number.decimal least⟩
        else none

def latencyMetric (elapsed : Nat) : Metric :=
  ⟨"connect_latency_ms", .single (Duration.ofMillis elapsed).asMillis, .ms,
    .lowerBetter⟩

def mtuMetric (mtu : Nat) : Metric :=
  ⟨"negotiated_mtu", .single (.ofNat mtu), .byte, .higherBetter⟩

/-- The verdict on the first event after the request. -/
def conclude (l : Link) (s : Sighting) : Program Outcome :=
  match s.event with
  | .connected address encrypted mtu =>
      match l.fault? address encrypted mtu with
      | some f => .fail f
      | none =>
          .headline (latencyMetric s.elapsed)
            (.record (mtuMetric mtu)
              (.pure (.noting ("connected to " ++ address ++ " (mtu " ++
                Number.decimal mtu ++ ", encrypted: " ++
                (if encrypted then "true" else "false") ++ ")"))))
  | .disconnected reason =>
      .fail ⟨.unexpectedResponse, "disconnected before connecting: " ++ reason⟩
  | .error code message =>
      .fail ⟨.unexpectedResponse, "connect error " ++ Number.decimalInt code ++
        ": " ++ message⟩
  | e =>
      .fail ⟨.unexpectedResponse,
        "unexpected event during connect: " ++ e.describe⟩

def program (l : Link) : Program Outcome :=
  .look fun v =>
    if v.hasSession then
      .send (.connect l.address l.secure) (.awaitOne l.conclude)
    else .fail ⟨.platform, "LE session not open"⟩

/-- The capability a link takes a session on. -/
def channel (secure : Bool) : Capability :=
  if secure then .lowEnergySecure else .lowEnergy

def requirements (secure : Bool) : CapabilitySet :=
  .ofList (if secure then [.lowEnergy, .lowEnergySecure] else [.lowEnergy])

def toCase (l : Link) (id : Report.TestId) (extra : CapabilitySet) :
    TestCase where
  id := id
  requires := (requirements l.secure).union extra
  prepare := .acquire (channel l.secure) .ready
  execute := l.program
  cleanup := .release .done

end Link

end Compliance.Check

import Compliance.Device.Capability

/-!
# Device profiles

What a device under test declares about itself.
-/

namespace Compliance.Device

structure Profile where
  model : String
  /-- The ABI its reports are filed under. -/
  abi : String
  capabilities : CapabilitySet
  deriving DecidableEq

namespace Profile

def missing (p : Profile) (required : CapabilitySet) : List Capability :=
  p.capabilities.missing required

def toJson (p : Profile) : Json :=
  .object [("model", .string p.model), ("abi", .string p.abi),
    ("capabilities", p.capabilities.toJson)]

def ofJson? (form : Json.Form) (v : Json) : Option Profile := do
  let f ← v.fields? form ["model", "abi", "capabilities"] false
  return {
    model := ← f.defaulted "model" "unknown" Json.asString?
    abi := ← f.required "abi" Json.asString?
    capabilities := ← f.defaulted "capabilities" .empty CapabilitySet.ofJson? }

end Profile

end Compliance.Device

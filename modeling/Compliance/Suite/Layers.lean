import Compliance.Json.Basic

/-!
# Configuration layers

A later layer overrides an earlier one.  Only objects are merged member by
member; lists and scalars are replaced, and an explicit null clears a value.
-/

namespace Compliance.Suite

mutual

/-- Lays a value over a base. -/
def overlay (base : Json) : Json → Json
  | .object members =>
      match base with
      | .object below => .object (overlayMembers below members)
      | _ => .object members
  | v => v

def overlayMembers (below : List (String × Json)) :
    List (String × Json) → List (String × Json)
  | [] => below
  | (k, v) :: rest =>
      let merged := match Ordered.find? k below with
        | some w => overlay w v
        | none => v
      overlayMembers (Ordered.put k merged below) rest

end

/-- Layers from the lowest precedence to the highest. -/
def mergeLayers (layers : List Json) : Json :=
  layers.foldl overlay .null

@[simp] theorem mergeLayers_nil : mergeLayers [] = .null := rfl

theorem mergeLayers_append_singleton (layers : List Json) (v : Json) :
    mergeLayers (layers ++ [v]) = overlay (mergeLayers layers) v := by
  simp [mergeLayers, List.foldl_append]

end Compliance.Suite

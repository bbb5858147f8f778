import Compliance.Proofs.SortedMaps
import Compliance.Suite.Layers

/-!
# The value at a path of merged layers

Along a path a layer has a value, is silent, or cuts the path off.  Whatever the
layers say, the last one that is not silent decides: laying one layer over a base
changes the value at a path exactly as far as the layer says something there.
-/

namespace Compliance

open Ordered (Sorted)

namespace Json

/-- Every object has its members in key order, each key once, as a map holds them. -/
inductive Tidy : Json → Prop
  | null : Tidy null
  | bool (b : Bool) : Tidy (bool b)
  | number (n : Numeral) : Tidy (number n)
  | string (s : String) : Tidy (string s)
  | array {items : List Json} (h : ∀ v ∈ items, Tidy v) : Tidy (array items)
  | object {members : List (String × Json)} (hs : Sorted members)
      (h : ∀ m ∈ members, Tidy m.2) : Tidy (object members)
  | unreadable : Tidy unreadable

mutual

theorem tidy_tidy : ∀ v : Json, v.tidy.Tidy
  | null => .null
  | bool b => .bool b
  | number n => .number n
  | string s => .string s
  | array items => by
      rw [tidy]
      exact .array (tidy_tidyItems items)
  | object members => by
      rw [tidy]
      have h := tidy_tidyMembers members Ordered.sorted_nil (by simp)
      exact .object h.1 h.2
  | unreadable => .unreadable

theorem tidy_tidyItems : ∀ items : List Json, ∀ v ∈ tidyItems items, v.Tidy
  | [] => by simp [tidyItems]
  | w :: rest => by
      intro v hv
      rw [tidyItems] at hv
      rcases List.mem_cons.1 hv with rfl | hv
      · exact tidy_tidy w
      · exact tidy_tidyItems rest v hv

theorem tidy_tidyMembers : ∀ (members : List (String × Json)) {done : List (String × Json)},
    Sorted done → (∀ m ∈ done, m.2.Tidy) →
      Sorted (tidyMembers done members) ∧ ∀ m ∈ tidyMembers done members, m.2.Tidy
  | [], done, hs, hdone => by
      rw [tidyMembers]
      exact ⟨hs, hdone⟩
  | (k, v) :: rest, done, hs, hdone => by
      rw [tidyMembers]
      apply tidy_tidyMembers rest (hs.put k v.tidy)
      intro m hm
      rcases Ordered.key_of_mem_put hm with rfl | hm
      · exact tidy_tidy v
      · exact hdone m hm

end

end Json

namespace Suite

/-- Where a layer stands on a path. -/
inductive Stance where
  /-- An object on the way is without the next key. -/
  | silent
  /-- Something other than an object is on the way. -/
  | cut
  | value (v : Json)

def stance : Json → List String → Stance
  | v, [] => .value v
  | .object members, key :: path =>
      match Ordered.find? key members with
      | none => .silent
      | some w => stance w path
  | _, _ :: _ => .cut

/-- A value laid over what may be there already. -/
def laidOver (base : Option Json) (v : Json) : Json :=
  match base with
  | some w => overlay w v
  | none => v

theorem laidOver_of_plain {v : Json} (h : ∀ members, v ≠ .object members)
    (base : Option Json) : laidOver base v = v := by
  cases base with
  | none => rfl
  | some w =>
      cases v with
      | object members => exact absurd rfl (h members)
      | _ => rfl

theorem exists_laidOver_object (base : Option Json) (members : List (String × Json)) :
    ∃ all, laidOver base (.object members) = .object all := by
  cases base with
  | none => exact ⟨members, rfl⟩
  | some w => cases w <;> exact ⟨_, rfl⟩

theorem at?_eq_stance (v : Json) (p : List String) :
    v.at? p = match stance v p with
      | .silent => none
      | .cut => none
      | .value w => some w := by
  induction p generalizing v with
  | nil => cases v <;> rfl
  | cons key path ih =>
      rw [Json.at?_cons]
      cases v with
      | object members =>
          cases hfind : Ordered.find? key members with
          | none => simp [Json.get?, stance, hfind]
          | some w => simp [Json.get?, stance, hfind, ih]
      | _ => rfl

/-! ## One layer -/

theorem find?_overlayMembers {members : List (String × Json)} (h : Sorted members)
    (below : List (String × Json)) (key : String) :
    Ordered.find? key (overlayMembers below members) =
      match Ordered.find? key members with
      | none => Ordered.find? key below
      | some v => some (laidOver (Ordered.find? key below) v) := by
  induction members generalizing below with
  | nil => simp [overlayMembers]
  | cons m rest ih =>
      obtain ⟨k, v⟩ := m
      obtain ⟨hfirst, hrest⟩ := Ordered.sorted_cons.1 h
      have hstep : overlayMembers below ((k, v) :: rest) =
          overlayMembers (Ordered.put k (laidOver (Ordered.find? k below) v) below) rest := by
        rw [overlayMembers]
        rfl
      rw [hstep, ih hrest, Ordered.find?_cons]
      by_cases hk : k = key
      · subst hk
        -- the key does not come again, so the value put in stays
        have hgone : Ordered.find? k rest = none := by
          rw [Ordered.find?_eq_none_iff, List.mem_map]
          rintro ⟨e, he, rfl⟩
          exact Ordered.KeyOrder.irrefl _ (hfirst e he)
        rw [hgone, if_pos rfl]
        exact Ordered.find?_put_self k _ below
      · rw [if_neg hk, Ordered.find?_put_of_ne (Ne.symm hk)]

theorem overlay_onto_plain {base : Json} (h : ∀ below, base ≠ .object below)
    (members : List (String × Json)) : overlay base (.object members) = .object members := by
  cases base with
  | object below => exact absurd rfl (h below)
  | _ => rfl

theorem get?_overlay_object {members : List (String × Json)} (h : Sorted members)
    (base : Json) (key : String) :
    (overlay base (.object members)).get? key =
      match Ordered.find? key members with
      | none => base.get? key
      | some v => some (laidOver (base.get? key) v) := by
  cases base with
  | object below =>
      rw [overlay]
      exact find?_overlayMembers h below key
  | _ =>
      rw [overlay_onto_plain (by simp)]
      simp only [Json.get?, laidOver]
      split <;> assumption

/-- At each path a layer leaves the base, cuts it off, or is laid over it. -/
theorem at?_overlay {v : Json} (h : v.Tidy) (base : Json) (p : List String) :
    (overlay base v).at? p = match stance v p with
      | .silent => base.at? p
      | .cut => none
      | .value w => some (laidOver (base.at? p) w) := by
  induction p generalizing base v with
  | nil => cases v <;> rfl
  | cons key path ih =>
      cases h with
      | @object members hs hm =>
          rw [Json.at?_cons, Json.at?_cons, get?_overlay_object hs, stance]
          cases hfind : Ordered.find? key members with
          | none => rfl
          | some w =>
              cases hbase : base.get? key with
              | none => simpa [laidOver, hbase] using at?_eq_stance w path
              | some b => exact ih (hm _ (Ordered.mem_of_find? hfind)) b
      | _ => rfl

/-! ## All layers -/

/-- Layers that are silent on a path leave it alone. -/
theorem at?_mergeLayers_append {p : List String} {after : List Json}
    (htidy : ∀ v ∈ after, v.Tidy) (hsilent : ∀ v ∈ after, stance v p = .silent)
    (before : List Json) :
    (mergeLayers (before ++ after)).at? p = (mergeLayers before).at? p := by
  induction after generalizing before with
  | nil => rw [List.append_nil]
  | cons v rest ih =>
      have hrest := ih (fun w hw => htidy w (List.mem_cons_of_mem v hw))
        (fun w hw => hsilent w (List.mem_cons_of_mem v hw)) (before ++ [v])
      rw [List.append_assoc] at hrest
      refine hrest.trans ?_
      rw [mergeLayers_append_singleton, at?_overlay (htidy v List.mem_cons_self),
        hsilent v List.mem_cons_self]

/-- The last layer with something to say about a path decides its value: none where
it cuts the path off, its own value where that is no object, else some object.
Without such a layer there is none, and a further layer that is silent changes
nothing. -/
theorem mergeLayers_last_wins {layers : List Json} (h : ∀ v ∈ layers, v.Tidy)
    (key : String) (path : List String) :
    let p := key :: path
    let merged := mergeLayers layers
    ((∀ v ∈ layers, stance v p = .silent) → merged.at? p = none) ∧
      (∀ before last after, layers = before ++ last :: after →
        (∀ v ∈ after, stance v p = .silent) →
          (stance last p = .cut → merged.at? p = none) ∧
            (∀ v, stance last p = .value v → (∀ members, v ≠ .object members) →
              merged.at? p = some v) ∧
            (∀ members, stance last p = .value (.object members) →
              ∃ all, merged.at? p = some (.object all))) ∧
      ∀ v : Json, v.Tidy → stance v p = .silent →
        (mergeLayers (layers ++ [v])).at? p = merged.at? p := by
  intro p merged
  refine ⟨fun hsilent => at?_mergeLayers_append h hsilent [], ?_, ?_⟩
  · intro before last after heq hsilent
    have hlast : last.Tidy := h last (by simp [heq])
    have hat : merged.at? p = (overlay (mergeLayers before) last).at? p := by
      have hsplit : layers = (before ++ [last]) ++ after := by simp [heq]
      rw [← mergeLayers_append_singleton]
      simp only [merged, hsplit]
      refine at?_mergeLayers_append (fun v hv => h v ?_) hsilent _
      simp [heq, hv]
    rw [at?_overlay hlast] at hat
    refine ⟨fun hcut => ?_, fun v hv hplain => ?_, fun members hv => ?_⟩
    · rw [hat, hcut]
    · rw [hat, hv]
      exact congrArg some (laidOver_of_plain hplain _)
    · obtain ⟨all, hall⟩ := exists_laidOver_object ((mergeLayers before).at? p) members
      rw [hat, hv]
      exact ⟨all, congrArg some hall⟩
  · intro v hv hsilent
    have htidy : ∀ w ∈ [v], w.Tidy := by simpa using hv
    have hquiet : ∀ w ∈ [v], stance w p = .silent := by simpa using hsilent
    exact at?_mergeLayers_append htidy hquiet layers

/-- A setting that is made, cleared and made again, with a last layer that says nothing
of it. -/
def alternating : List Json :=
  [.object [("suite", .object [("include", Json.ofStrings ["ble.*", "nfc.*"])])],
    .object [("suite", .null)],
    .object [("suite", .object [("timeout_ms", Json.ofNat 5000),
      ("include", Json.ofStrings ["wifi.*"])])],
    .object [("suite", .object [("abi", .string "x86")])]].map Json.tidy

theorem tidy_alternating : ∀ v ∈ alternating, v.Tidy := by
  intro v hv
  obtain ⟨w, -, rfl⟩ := List.mem_map.1 hv
  exact w.tidy_tidy

theorem mergeLayers_last_wins_alternating :
    (∀ v ∈ alternating, v.Tidy) ∧
      (mergeLayers alternating).at? ["suite", "include"] = some (Json.ofStrings ["wifi.*"]) ∧
      (mergeLayers (alternating.take 2)).at? ["suite", "include"] = none := by
  have htake : ∀ v ∈ alternating.take 2, v.Tidy :=
    fun v hv => tidy_alternating v (List.mem_of_mem_take hv)
  obtain ⟨-, hlast, -⟩ := mergeLayers_last_wins tidy_alternating "suite" ["include"]
  obtain ⟨-, hearlier, -⟩ := mergeLayers_last_wins htake "suite" ["include"]
  refine ⟨tidy_alternating, ?_, ?_⟩
  · have hsilent : ∀ v ∈ alternating.drop 3, stance v ["suite", "include"] = .silent := by
      intro v hv
      obtain rfl := List.mem_singleton.1 hv
      rfl
    obtain ⟨-, hplain, -⟩ := hlast (alternating.take 2) _ _ rfl hsilent
    exact hplain _ rfl (by simp [Json.ofStrings])
  · exact (hearlier (alternating.take 1) _ [] rfl (by simp)).1 rfl

end Suite

end Compliance

import Compliance.Json.Decode
import Compliance.Proofs.Json.RoundTrip
import Compliance.Proofs.SortedMaps

/-!
# Records that survive a file

A value is faithful when its JSON form decodes to it and reads back after
printing.  Lists and maps of faithful values are faithful.
-/

namespace Compliance.Json

variable {α : Type}

/-- The encoded value decodes to itself, and nests no deeper than given. -/
structure Faithful (encode : α → Json) (decode : Json → Option α) (depth : Nat)
    (a : α) : Prop where
  decodes : decode (encode a) = some a
  printable : ∀ budget, depth ≤ budget → Printable budget (encode a)

variable {encode : α → Json} {decode : Json → Option α} {depth : Nat}

/-! ## Members of a written record -/

theorem hasRepeat_eq_false {names : List String} :
    hasRepeat names = false ↔ names.Nodup := by
  induction names with
  | nil => simp [hasRepeat]
  | cons k rest ih => simp [hasRepeat, ih]

/-- A record whose members are some of those it is read by, in the same order. -/
theorem fields?_of_sublist {form : Form} {names : List String} {closed : Bool}
    {members : List (String × Json)} (hn : names.Nodup)
    (hm : (members.map (·.1)).Sublist names) :
    fields? form names closed (object members) = some ⟨members, false⟩ := by
  have hknown : members.filter (fun m => names.contains m.1) = members := by
    rw [List.filter_eq_self]
    intro m hmem
    simpa using hm.subset (List.mem_map_of_mem hmem)
  simp only [fields?, hknown]
  rw [hasRepeat_eq_false.2 (hn.sublist hm)]
  simp

theorem fields?_of_names {form : Form} {names : List String} {closed : Bool}
    {members : List (String × Json)} (hn : names.Nodup)
    (hm : members.map (·.1) = names) :
    fields? form names closed (object members) = some ⟨members, false⟩ :=
  fields?_of_sublist hn (hm ▸ .refl _)

theorem find?_of_mem {members : List (String × Json)} (hn : (members.map (·.1)).Nodup)
    {name : String} {v : Json} (h : (name, v) ∈ members) :
    Ordered.find? name members = some v := by
  induction members with
  | nil => simp at h
  | cons m members ih =>
      obtain ⟨k, w⟩ := m
      rw [List.map_cons, List.nodup_cons] at hn
      rw [Ordered.find?_cons]
      rcases List.mem_cons.1 h with heq | h
      · cases heq
        simp
      · have hne : k ≠ name := fun he => hn.1 (he ▸ List.mem_map_of_mem (f := (·.1)) h)
        rw [if_neg hne, ih hn.2 h]

theorem keys_member? (key : String) (v : Option Json) :
    ((member? key v).map (·.1)).Sublist [key] := by
  cases v with
  | none => exact List.nil_sublist _
  | some w => exact .refl _

theorem find?_member? (name key : String) (v : Option Json) :
    Ordered.find? name (member? key v) = if key = name then v else none := by
  cases v <;> simp [member?, Ordered.find?_cons]

/-- What is said by a field that may be left out; null says as little as nothing. -/
def given? (decode : Json → Option α) : Option Json → Option (Option α)
  | none => some none
  | some null => some none
  | some v => (decode v).map some

theorem Fields.omittable_eq (f : Fields) (name : String) (decode : Json → Option α) :
    f.omittable name decode = given? decode (Ordered.find? name f.given) :=
  rfl

theorem Fields.optional_eq (members : List (String × Json)) (name : String)
    (decode : Json → Option α) :
    (⟨members, false⟩ : Fields).optional name decode =
      given? decode (Ordered.find? name members) :=
  rfl

theorem given?_of_ne {decode : Json → Option α} {v : Json} (h : v ≠ null) :
    given? decode (some v) = (decode v).map some := by
  cases v <;> first | rfl | exact absurd rfl h

theorem given?_map {encode : α → Json} {decode : Json → Option α} {a : Option α}
    (h : ∀ b ∈ a, encode b ≠ null ∧ decode (encode b) = some b) :
    given? decode (a.map encode) = some a := by
  cases a with
  | none => rfl
  | some b =>
      obtain ⟨hnull, hdecode⟩ := h b rfl
      rw [Option.map_some, given?_of_ne hnull, hdecode]
      rfl

/-! ## Values -/

theorem Faithful.ofText {a : α} (h : Faithful encode decode depth a) (hd : depth ≤ maxDepth)
    (style : Style) : (ofText? ((encode a).print style)).bind decode = some a := by
  rw [ofText?_print (h.printable maxDepth hd)]
  exact h.decodes

/-! ## Parts of values -/

theorem faithful_nat {w n : Nat} (hb : w ≤ 64) (hn : n < 2 ^ w) :
    Faithful ofNat (unsigned? w) 0 n := by
  refine ⟨?_, fun _ _ => ?_⟩
  · have hbound : (0 : Int) ≤ n ∧ (n : Int) < Number.twoTo w := by
      rw [Number.twoTo_eq]
      omega
    simp only [ofNat, unsigned?]
    rw [if_pos hbound, Int.toNat_natCast]
  · have hpow : 2 ^ w ≤ 2 ^ 64 := Nat.pow_le_pow_right (by omega) hb
    simp only [ofNat, Printable, Numeral.Fits]
    omega

theorem faithful_int {i : Int} (h : -2 ^ 31 ≤ i ∧ i < 2 ^ 31) :
    Faithful (fun i => number (.whole i)) (signed? 32) 0 i := by
  refine ⟨?_, fun _ _ => ?_⟩
  · have hlimit : Number.twoTo (32 - 1) = 2 ^ 31 := rfl
    have hbound : -(Number.twoTo (32 - 1) : Int) ≤ i ∧ i < (Number.twoTo (32 - 1) : Int) := by
      rw [hlimit]
      omega
    rw [signed?, if_pos hbound]
  · simp only [Printable, Numeral.Fits]
    omega

theorem faithful_real {x : Number.Binary64} (hx : x.isFinite = true) :
    Faithful (fun x => number (.real x)) binary64? 0 x :=
  ⟨rfl, fun _ _ => hx⟩

theorem mapM_eq_some_iff {β : Type} {f : α → Option β} {as : List α} {bs : List β} :
    as.mapM f = some bs ↔ List.Forall₂ (fun a b => f a = some b) as bs := by
  induction as generalizing bs with
  | nil => simp [List.forall₂_nil_left_iff, eq_comm]
  | cons a as ih =>
      rw [List.mapM_cons, List.forall₂_cons_left_iff]
      simp only [Option.bind_eq_bind, Option.bind_eq_some_iff, Option.pure_def,
        Option.some.injEq, ih]
      constructor
      · rintro ⟨b, hb, bs, hbs, rfl⟩
        exact ⟨b, bs, hb, hbs, rfl⟩
      · rintro ⟨b, bs, hb, hbs, rfl⟩
        exact ⟨b, hb, bs, hbs, rfl⟩

theorem mapM_map {β : Type} {encode : α → β} {decode : β → Option α} {as : List α}
    (h : ∀ a ∈ as, decode (encode a) = some a) :
    (as.map encode).mapM decode = some as :=
  mapM_eq_some_iff.2 (List.forall₂_map_left_iff.2 (List.forall₂_same.2 h))

theorem printableItems_map {budget : Nat} {as : List α}
    (h : ∀ a ∈ as, Printable budget (encode a)) :
    PrintableItems budget (as.map encode) := by
  induction as with
  | nil => trivial
  | cons a as ih =>
      exact ⟨h a List.mem_cons_self, ih fun b hb => h b (List.mem_cons_of_mem a hb)⟩

theorem Faithful.list {as : List α} (h : ∀ a ∈ as, Faithful encode decode depth a) :
    Faithful (fun as => array (as.map encode)) (listOf? decode) (depth + 1) as := by
  refine ⟨mapM_map fun a ha => (h a ha).decodes, fun budget hb => ?_⟩
  rw [Printable]
  exact ⟨by omega, printableItems_map fun a ha => (h a ha).printable _ (by omega)⟩

theorem printableMembers_append {budget : Nat} {ms ns : List (String × Json)}
    (hm : PrintableMembers budget ms) (hn : PrintableMembers budget ns) :
    PrintableMembers budget (ms ++ ns) := by
  induction ms with
  | nil => exact hn
  | cons m ms ih =>
      obtain ⟨k, v⟩ := m
      exact ⟨hm.1, ih hm.2⟩

theorem printableMembers_member? {budget : Nat} {key : String} {v : Option Json}
    (h : ∀ w ∈ v, Printable budget w) : PrintableMembers budget (member? key v) := by
  cases v with
  | none => trivial
  | some w => exact ⟨h w rfl, trivial⟩

theorem printableMembers_text {budget : Nat} {key : String} (a : Option α)
    (text : α → String) :
    PrintableMembers budget (member? key (a.map fun a => string (text a))) := by
  apply printableMembers_member?
  intro w hw
  obtain ⟨s, _, rfl⟩ := Option.map_eq_some_iff.1 hw
  trivial

theorem printableMembers_map {budget : Nat} {table : List (String × α)}
    (h : ∀ e ∈ table, Printable budget (encode e.2)) :
    PrintableMembers budget (table.map fun (k, a) => (k, encode a)) := by
  induction table with
  | nil => trivial
  | cons e table ih =>
      obtain ⟨k, a⟩ := e
      exact ⟨h (k, a) List.mem_cons_self, ih fun b hb => h b (List.mem_cons_of_mem _ hb)⟩

theorem Faithful.map {table : List (String × α)} (hs : Ordered.Sorted table)
    (h : ∀ e ∈ table, Faithful encode decode depth e.2) :
    Faithful (fun table => object (table.map fun (k, a) => (k, encode a)))
      (mapOf? decode) (depth + 1) table := by
  refine ⟨?_, fun budget hb => ?_⟩
  · have hentries : (table.map fun e => (e.1, encode e.2)).mapM
        (fun e : String × Json => (decode e.2).map fun a => (e.1, a)) = some table :=
      mapM_map fun e he => by simp [(h e he).decodes]
    have hall := hs.putAll_eq
    simp only [mapOf?]
    rw [hentries]
    simp [hall]
  · rw [Printable]
    exact ⟨by omega, printableMembers_map fun e he => (h e he).printable _ (by omega)⟩

end Compliance.Json

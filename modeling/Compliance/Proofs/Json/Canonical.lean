import Mathlib.Data.List.Perm.Basic
import Compliance.Json.Canonical
import Compliance.Proofs.Json.Records

/-!
# Canonical text reads back

The canonical text of a value keeps neither the order of members nor the sign of a
zero, but it is a JSON text and can be read.  Whatever looks members up by their names
decodes from it what was written.
-/

namespace Compliance.Json

open Compliance.Number (Binary64)

variable {α : Type}

/-! ## Members in another order -/

theorem hasRepeat_perm {keys others : List String} (h : keys.Perm others) :
    hasRepeat keys = hasRepeat others := by
  rw [Bool.eq_iff_iff, ← not_iff_not, Bool.not_eq_true, Bool.not_eq_true,
    hasRepeat_eq_false, hasRepeat_eq_false]
  exact h.nodup_iff

theorem find?_perm {ms ns : List (String × Json)} (h : ms.Perm ns)
    (hn : (ms.map (·.1)).Nodup) (name : String) :
    Ordered.find? name ms = Ordered.find? name ns := by
  have hkeys := h.map (·.1)
  cases hfind : Ordered.find? name ns with
  | none =>
      rw [Ordered.find?_eq_none_iff] at hfind ⊢
      exact fun hmem => hfind (hkeys.subset hmem)
  | some v => exact find?_of_mem hn (h.symm.subset (Ordered.mem_of_find? hfind))

/-- The same fields were given, in whatever order. -/
structure Fields.Same (f g : Fields) : Prop where
  position : f.byPosition = g.byPosition
  lookup : ∀ name, Ordered.find? name f.given = Ordered.find? name g.given

namespace Fields.Same

variable {f g : Fields} (h : f.Same g) (name : String) (decode : Json → Option α)

include h

theorem required : f.required name decode = g.required name decode := by
  rw [Fields.required, Fields.required, h.lookup]

theorem defaulted (default : α) :
    f.defaulted name default decode = g.defaulted name default decode := by
  rw [Fields.defaulted, Fields.defaulted, h.lookup]

theorem optional : f.optional name decode = g.optional name decode := by
  rw [Fields.optional, Fields.optional, h.lookup, h.position]

end Fields.Same

theorem fields?_perm {form : Form} {names : List String} {closed : Bool}
    {ms ns : List (String × Json)} (h : ms.Perm ns) (hn : (ms.map (·.1)).Nodup) {g : Fields}
    (hg : fields? form names closed (object ns) = some g) :
    ∃ f, fields? form names closed (object ms) = some f ∧ f.Same g := by
  have hknown := h.filter fun m => names.contains m.1
  have hnodup : ((ms.filter fun m => names.contains m.1).map (·.1)).Nodup :=
    hn.sublist (List.filter_sublist.map _)
  simp only [fields?, hknown.length_eq, h.length_eq, hasRepeat_perm (hknown.map (·.1))] at hg ⊢
  split at hg
  · cases hg
  · rename_i hopen
    split at hg
    · cases hg
    · rename_i honce
      cases hg
      rw [if_neg hopen, if_neg honce]
      exact ⟨_, rfl, rfl, find?_perm hknown hnodup⟩

/-- Members that are written once may come in any order. -/
def Orderless (decode : Json → Option α) : Prop :=
  ∀ ⦃ms ns : List (String × Json)⦄ ⦃a : α⦄, ms.Perm ns → (ms.map (·.1)).Nodup →
    decode (object ns) = some a → decode (object ms) = some a

theorem orderless_record {form : Form} {names : List String} {closed : Bool}
    {next : Fields → Option α} (h : ∀ f g : Fields, f.Same g → next f = next g) :
    Orderless fun v => v.fields? form names closed >>= next := by
  intro ms ns a hp hn hns
  obtain ⟨g, hg, hnext⟩ := Option.bind_eq_some_iff.1 hns
  obtain ⟨f, hf, hsame⟩ := fields?_perm hp hn hg
  exact Option.bind_eq_some_iff.2 ⟨f, hf, (h f g hsame).trans hnext⟩

theorem mapOf?_eq_some_iff {decode : Json → Option α} {ms : List (String × Json)}
    {table : List (String × α)} :
    mapOf? decode (object ms) = some table ↔
      ∃ entries, List.Forall₂ (fun m e => m.1 = e.1 ∧ decode m.2 = some e.2) ms entries ∧
        Ordered.putAll entries [] = table := by
  have hentry (m : String × Json) (e : String × α) :
      ((decode m.2).map fun a => (m.1, a)) = some e ↔ m.1 = e.1 ∧ decode m.2 = some e.2 := by
    rw [Option.map_eq_some_iff]
    constructor
    · rintro ⟨a, ha, rfl⟩
      exact ⟨rfl, ha⟩
    · rintro ⟨hkey, ha⟩
      exact ⟨e.2, ha, Prod.ext hkey rfl⟩
  simp only [mapOf?, Option.bind_eq_bind, Option.bind_eq_some_iff, Option.pure_def,
    Option.some.injEq, mapM_eq_some_iff, hentry]

theorem keys_eq {β γ : Type} {R : String × β → String × γ → Prop} {ms : List (String × β)}
    {ns : List (String × γ)} (h : List.Forall₂ R ms ns) (hR : ∀ m n, R m n → m.1 = n.1) :
    ms.map (·.1) = ns.map (·.1) := by
  induction h with
  | nil => rfl
  | cons hm _ ih => rw [List.map_cons, List.map_cons, hR _ _ hm, ih]

theorem orderless_mapOf? (decode : Json → Option α) : Orderless (mapOf? decode) := by
  intro ms ns table hp hn hns
  obtain ⟨entries, hentries, rfl⟩ := mapOf?_eq_some_iff.1 hns
  obtain ⟨others, hothers, hperm⟩ := List.perm_comp_forall₂ hp hentries
  have hnodup : (others.map (·.1)).Nodup := keys_eq hothers (fun _ _ hm => hm.1) ▸ hn
  exact mapOf?_eq_some_iff.2 ⟨others, hothers, Ordered.putAll_perm hperm hnodup []⟩

/-! ## The text of a container -/

theorem joined_eq_separated (texts : List (List Char)) : joined texts = separated [] texts := by
  induction texts with
  | nil => rfl
  | cons t texts ih =>
      cases texts with
      | nil => rfl
      | cons u us => simp [joined, separated, ih]

theorem canonicalItems_eq_map (vs : List Json) : canonicalItems vs = vs.map canonical := by
  induction vs with
  | nil => rfl
  | cons v vs ih => rw [canonicalItems, ih, List.map_cons]

theorem insertByUnits_perm (key : String) (text : List Char)
    (members : List (String × List Char)) :
    (insertByUnits key text members).Perm ((key, text) :: members) := by
  induction members with
  | nil => exact .refl _
  | cons m members ih =>
      obtain ⟨k, t⟩ := m
      rw [insertByUnits]
      split
      · exact .refl _
      · exact (ih.cons (k, t)).trans (.swap _ _ _)

theorem canonicalMembers_perm (ms : List (String × Json)) :
    (canonicalMembers ms).Perm (ms.map fun m => (m.1, m.2.canonical)) := by
  induction ms with
  | nil => exact .refl _
  | cons m ms ih =>
      rw [canonicalMembers, List.map_cons]
      exact (insertByUnits_perm _ _ _).trans (ih.cons _)

variable {budget : Nat}

theorem reads_canonical_array {vs ws : List Json}
    (h : List.Forall₂ (fun v w => Reads budget v.canonical w) vs ws) :
    Reads (budget + 1) (array vs).canonical (array ws) := by
  rw [canonical, canonicalItems_eq_map, joined_eq_separated]
  exact reads_array isSpace_of_mem_nil isSpace_of_mem_nil isSpace_of_mem_nil
    (List.forall₂_map_left_iff.2 h)

theorem reads_canonical_object {ms ns : List (String × Json)}
    (h : List.Forall₂ (fun m n => m.1 = n.1 ∧ Reads budget m.2.canonical n.2) ms ns) :
    ∃ ns', ns'.Perm ns ∧ Reads (budget + 1) (object ms).canonical (object ns') := by
  have htexts : List.Forall₂ (fun (t : String × List Char) n => t.1 = n.1 ∧ Reads budget t.2 n.2)
      (ms.map fun m => (m.1, m.2.canonical)) ns := List.forall₂_map_left_iff.2 h
  -- the members are read in the order of the text, which need not be theirs
  obtain ⟨ns', hread, hperm⟩ := List.perm_comp_forall₂ (canonicalMembers_perm ms) htexts
  refine ⟨ns', hperm, ?_⟩
  rw [canonical, joined_eq_separated]
  apply reads_object isSpace_of_mem_nil isSpace_of_mem_nil isSpace_of_mem_nil isSpace_of_mem_nil
  rw [List.forall₂_map_left_iff]
  refine hread.imp ?_
  rintro ⟨k, t⟩ n ⟨rfl, ht⟩
  exact ⟨t, rfl, ht⟩

theorem canonical_array_congr {vs ws : List Json} (h : vs.map canonical = ws.map canonical) :
    (array vs).canonical = (array ws).canonical := by
  rw [canonical, canonical, canonicalItems_eq_map, canonicalItems_eq_map, h]

theorem canonical_object_congr {ms ns : List (String × Json)}
    (h : ms.map (fun m => (m.1, m.2.canonical)) = ns.map fun n => (n.1, n.2.canonical)) :
    (object ms).canonical = (object ns).canonical := by
  have hmembers (ms : List (String × Json)) : canonicalMembers ms =
      (ms.map fun m => (m.1, m.2.canonical)).foldr (fun m => insertByUnits m.1 m.2) [] := by
    induction ms with
    | nil => rfl
    | cons m ms ih => rw [canonicalMembers, ih, List.map_cons, List.foldr_cons]
  rw [canonical, canonical, hmembers ms, hmembers ns, h]

/-! ## What is decoded from canonical text -/

/-- The canonical text of the value is read, and what is read is decoded to this. -/
def Recovers (decode : Json → Option α) (depth : Nat) (v : Json) (a : α) : Prop :=
  ∃ w, Reads depth v.canonical w ∧ decode w = some a

variable {decode : Json → Option α} {depth : Nat}

theorem Recovers.ofText? {v : Json} {a : α} (h : Recovers decode depth v a)
    (hd : depth ≤ maxDepth) : (ofText? v.canonicalText).bind decode = some a := by
  obtain ⟨w, hread, hdecode⟩ := h
  rw [canonicalText, (hread.mono hd).ofText?]
  exact hdecode

theorem recovers_real {x : Binary64} (hx : x.isFinite = true) :
    Recovers binary64? 0 (number (.real x)) x.unsigned := by
  obtain ⟨t, hscans, hvalue⟩ := scans_canonical hx
  exact ⟨t.value, hscans.reads, hvalue⟩

theorem exists_forall₂ {β γ : Type} {R : β → γ → Prop} {bs : List β}
    (h : ∀ b ∈ bs, ∃ c, R b c) : ∃ cs, List.Forall₂ R bs cs := by
  induction bs with
  | nil => exact ⟨[], .nil⟩
  | cons b bs ih =>
      obtain ⟨c, hc⟩ := h b List.mem_cons_self
      obtain ⟨cs, hcs⟩ := ih fun d hd => h d (List.mem_cons_of_mem b hd)
      exact ⟨c :: cs, .cons hc hcs⟩

theorem recovers_list {β : Type} {encode : β → Json} {f : β → α} {bs : List β}
    (h : ∀ b ∈ bs, Recovers decode depth (encode b) (f b)) :
    Recovers (listOf? decode) (depth + 1) (array (bs.map encode)) (bs.map f) := by
  obtain ⟨ws, hws⟩ := exists_forall₂ h
  have hread : List.Forall₂ (fun v w => Reads depth v.canonical w) (bs.map encode) ws :=
    List.forall₂_map_left_iff.2 (hws.imp fun _ _ hw => hw.1)
  have hdecode : List.Forall₂ (fun w a => decode w = some a) ws (bs.map f) :=
    List.forall₂_map_right_iff.2 (hws.flip.imp fun _ _ hw => hw.2)
  exact ⟨array ws, reads_canonical_array hread, mapM_eq_some_iff.2 hdecode⟩

theorem Orderless.recovers (ho : Orderless decode) {ms ns : List (String × Json)}
    (hn : (ms.map (·.1)).Nodup)
    (h : List.Forall₂ (fun m n => m.1 = n.1 ∧ Reads depth m.2.canonical n.2) ms ns) {a : α}
    (ha : decode (object ns) = some a) : Recovers decode (depth + 1) (object ms) a := by
  obtain ⟨ns', hperm, hread⟩ := reads_canonical_object h
  have hkeys : (ns'.map (·.1)).Nodup := by
    rw [(hperm.map (·.1)).nodup_iff, ← keys_eq h fun _ _ hm => hm.1]
    exact hn
  exact ⟨object ns', hread, ho hperm hkeys ha⟩

theorem recovers_map {β : Type} {encode : β → Json} {f : β → α} {table : List (String × β)}
    (hs : Ordered.Sorted table) (h : ∀ e ∈ table, Recovers decode depth (encode e.2) (f e.2)) :
    Recovers (mapOf? decode) (depth + 1) (object (table.map fun (k, b) => (k, encode b)))
      (table.map fun (k, b) => (k, f b)) := by
  have hmember : ∀ e ∈ table, ∃ n : String × Json, e.1 = n.1 ∧
      Reads depth (encode e.2).canonical n.2 ∧ decode n.2 = some (f e.2) := by
    intro e he
    obtain ⟨w, hw⟩ := h e he
    exact ⟨(e.1, w), rfl, hw⟩
  obtain ⟨ns, hns⟩ := exists_forall₂ hmember
  have hkeys : (table.map fun e => (e.1, encode e.2)).map (·.1) = table.map (·.1) := by
    rw [List.map_map]
    rfl
  have hsorted : Ordered.Sorted (table.map fun e => (e.1, f e.2)) := by
    unfold Ordered.Sorted
    rw [List.map_map]
    exact hs
  have hread : List.Forall₂ (fun m n => m.1 = n.1 ∧ Reads depth m.2.canonical n.2)
      (table.map fun e => (e.1, encode e.2)) ns :=
    List.forall₂_map_left_iff.2 (hns.imp fun _ _ hn => ⟨hn.1, hn.2.1⟩)
  refine (orderless_mapOf? decode).recovers ?_ hread ?_
  · rw [hkeys]
    exact hs.imp Ordered.KeyOrder.ne
  · refine mapOf?_eq_some_iff.2 ⟨_, List.forall₂_map_right_iff.2 ?_, hsorted.putAll_eq⟩
    exact hns.flip.imp fun _ _ hn => ⟨hn.1.symm, hn.2.2⟩

end Compliance.Json

import Mathlib.Data.List.Basic
import Mathlib.Tactic.Common
import Compliance.Report.Key

/-!
# Ids, keys and their texts

An id is read from just the texts with one separator inside, and its text is the one it
was read from.  So ids are told apart by their texts, and keys by their ids and ABIs.
The text a key is shown by tells ids apart as long as they ran on the same ABI.
-/

namespace Compliance.Report

/-- The text has one separator, and that stands at neither end. -/
def Separated (text : String) : Prop :=
  text.toList.count '#' = 1 ∧ text.toList.head? ≠ some '#' ∧ text.toList.getLast? ≠ some '#'

instance (text : String) : Decidable (Separated text) :=
  inferInstanceAs (Decidable (_ ∧ _ ∧ _))

/-- A separator that is the only one and not at an end has a part on either side. -/
theorem exists_parts {separator : Char} {cs : List Char} (hcount : cs.count separator = 1)
    (hfirst : cs.head? ≠ some separator) (hlast : cs.getLast? ≠ some separator) :
    ∃ a b, cs = a ++ separator :: b ∧ (a ≠ [] ∧ separator ∉ a) ∧ b ≠ [] ∧ separator ∉ b := by
  have hmem : separator ∈ cs := by
    apply List.count_pos_iff.1
    omega
  obtain ⟨a, b, rfl, ha⟩ := List.eq_append_cons_of_mem hmem
  rw [List.count_append, List.count_cons_self, List.count_eq_zero.2 ha] at hcount
  refine ⟨a, b, rfl, ⟨?_, ha⟩, ?_, ?_⟩
  · rintro rfl
    exact hfirst rfl
  · rintro rfl
    exact hlast List.getLast?_concat
  · apply List.count_eq_zero.1
    omega

namespace TestId

theorem toList_text (id : TestId) :
    id.text.toList = id.className.toList ++ '#' :: id.methodName.toList := by
  simp [text]

theorem separated_text (id : TestId) : Separated id.text := by
  obtain ⟨⟨hclass, hfirst⟩, hmethod, hlast⟩ := id.parts
  have hclass' : id.className.toList ≠ [] := by simpa using hclass
  have hmethod' : id.methodName.toList ≠ [] := by simpa using hmethod
  unfold Separated
  rw [toList_text]
  refine ⟨?_, ?_, ?_⟩
  · rw [List.count_append, List.count_cons_self, List.count_eq_zero.2 hfirst,
      List.count_eq_zero.2 hlast]
  · rw [List.head?_append_of_ne_nil _ hclass']
    intro h
    exact hfirst (List.mem_of_head? h)
  · rw [← List.singleton_append, ← List.append_assoc, List.getLast?_append_of_ne_nil _ hmethod']
    intro h
    exact hlast (List.mem_of_getLast? h)

theorem ofText?_text (id : TestId) : ofText? id.text = some id := by
  simp only [ofText?, toList_text, splitAtFirst_append id.parts.1.2, String.ofList_toList]
  exact dif_pos id.parts

theorem text_of_ofText? {text : String} {id : TestId} (h : ofText? text = some id) :
    id.text = text := by
  unfold ofText? at h
  split at h
  · cases h
  · rename_i a b hsplit
    split at h
    · cases h
      apply String.toList_inj.1
      rw [toList_text, (eq_append_of_splitAtFirst hsplit).1, String.toList_ofList,
        String.toList_ofList]
    · cases h

theorem ofText?_eq_some_iff {text : String} {id : TestId} :
    ofText? text = some id ↔ id.text = text := by
  constructor
  · exact text_of_ofText?
  · rintro rfl
    exact ofText?_text id

/-- Ids are told apart by their texts. -/
theorem text_injective {a b : TestId} (h : a.text = b.text) : a = b := by
  have hb := ofText?_text b
  rw [← h, ofText?_text] at hb
  exact Option.some.inj hb

/-- The texts of ids are just those with one separator inside. -/
theorem exists_text_iff {text : String} : (∃ id : TestId, id.text = text) ↔ Separated text := by
  constructor
  · rintro ⟨id, rfl⟩
    exact separated_text id
  · rintro ⟨hcount, hfirst, hlast⟩
    obtain ⟨a, b, htext, ⟨hane, ha⟩, hbne, hb⟩ := exists_parts hcount hfirst hlast
    have hparts : IsPart (String.ofList a) ∧ IsPart (String.ofList b) := by
      simp [IsPart, hane, ha, hbne, hb]
    refine ⟨⟨_, _, hparts⟩, ?_⟩
    apply String.toList_inj.1
    rw [toList_text, htext, String.toList_ofList, String.toList_ofList]

theorem exists_ofText?_iff {text : String} :
    (∃ id, ofText? text = some id) ↔ Separated text := by
  simp only [ofText?_eq_some_iff, exists_text_iff]

/-- A second separator belongs to neither part. -/
example : ofText? "Link##plain" = none := by decide

theorem key_injective {abi : String} {a b : TestId}
    (h : a.key abi = b.key abi) : a = b := by
  obtain ⟨ca, ma, ha⟩ := a
  obtain ⟨cb, mb, hb⟩ := b
  simp only [key, TestKey.mk.injEq, and_true] at h
  obtain ⟨rfl, rfl⟩ := h
  rfl

/-- A key is that of one id on one ABI. -/
theorem key_eq_key_iff {a b : TestId} {abi abi' : String} :
    a.key abi = b.key abi' ↔ a = b ∧ abi = abi' := by
  constructor
  · intro h
    have habi : abi = abi' := congrArg TestKey.abi h
    subst habi
    exact ⟨key_injective h, rfl⟩
  · rintro ⟨rfl, rfl⟩
    rfl

/-- On one ABI, ids are told apart by the texts their keys are shown by. -/
theorem eq_of_display_key {abi : String} {a b : TestId}
    (h : (a.key abi).display = (b.key abi).display) : a = b := by
  apply text_injective
  have hlists := congrArg String.toList h
  simp only [TestKey.display, String.toList_append, List.append_assoc] at hlists
  apply String.toList_inj.1
  exact List.append_cancel_left (List.append_cancel_left hlists)

/-! ### One shown text for two tests -/

def shortId : TestId :=
  ⟨"Link", "plain", by decide⟩

def longId : TestId :=
  ⟨"eabi Link", "plain", by decide⟩

/-- Where the ABI ends and the class begins cannot be seen. -/
theorem display_longId : (longId.key "arm").display = (shortId.key "arm eabi").display := by
  decide

end TestId

namespace TestKey

/-- A key is read by reading the id. -/
theorem ofText?_eq_some_iff {text abi : String} {k : TestKey} :
    ofText? text abi = some k ↔ ∃ id : TestId, id.text = text ∧ id.key abi = k := by
  simp only [ofText?, Option.map_eq_some_iff, TestId.ofText?_eq_some_iff]

theorem exists_ofText?_iff {text abi : String} :
    (∃ k, ofText? text abi = some k) ↔ Separated text := by
  rw [← TestId.exists_ofText?_iff]
  simp [ofText?]

theorem classMethod_of_ofText? {text abi : String} {k : TestKey}
    (h : ofText? text abi = some k) : k.classMethod = text ∧ k.abi = abi := by
  obtain ⟨id, htext, rfl⟩ := ofText?_eq_some_iff.1 h
  exact ⟨htext, rfl⟩

end TestKey

end Compliance.Report

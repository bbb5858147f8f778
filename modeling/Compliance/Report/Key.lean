/-!
# Test ids and report keys

A test is named `class#method`.  Reports are filed under the test and the ABI
it ran on; the text of a key shows all three parts but does not separate them.
-/

namespace Compliance.Report

/-- A part of a test id: some text without the separator. -/
def IsPart (s : String) : Prop :=
  s ≠ "" ∧ '#' ∉ s.toList

instance (s : String) : Decidable (IsPart s) :=
  inferInstanceAs (Decidable (_ ∧ _))

structure TestId where
  className : String
  methodName : String
  parts : IsPart className ∧ IsPart methodName
  deriving DecidableEq

structure TestKey where
  className : String
  methodName : String
  abi : String
  deriving DecidableEq

/-- The text in front of the first separator and the text behind it. -/
def splitAtFirst (separator : Char) : List Char →
    Option (List Char × List Char)
  | [] => none
  | c :: rest =>
      if c = separator then some ([], rest)
      else (splitAtFirst separator rest).map fun (a, b) => (c :: a, b)

namespace TestId

/-- The id a text stands for; the text has one separator, inside. -/
def ofText? (text : String) : Option TestId :=
  match splitAtFirst '#' text.toList with
  | none => none
  | some (a, b) =>
      if h : IsPart (String.ofList a) ∧ IsPart (String.ofList b) then
        some ⟨String.ofList a, String.ofList b, h⟩
      else none

def text (id : TestId) : String :=
  id.className ++ "#" ++ id.methodName

def key (id : TestId) (abi : String) : TestKey :=
  ⟨id.className, id.methodName, abi⟩

end TestId

namespace TestKey

def ofText? (text abi : String) : Option TestKey :=
  (TestId.ofText? text).map fun id => id.key abi

/-- The `class#method` form, which leaves the ABI out. -/
def classMethod (k : TestKey) : String :=
  k.className ++ "#" ++ k.methodName

def display (k : TestKey) : String :=
  k.abi ++ " " ++ k.classMethod

/-- The parts by which keys are ordered. -/
def parts (k : TestKey) : List String :=
  [k.className, k.methodName, k.abi]

instance : LT TestKey := ⟨fun a b => a.parts < b.parts⟩

instance : DecidableLT TestKey := fun a b =>
  inferInstanceAs (Decidable (a.parts < b.parts))

end TestKey

theorem splitAtFirst_append {separator : Char} {a b : List Char}
    (h : separator ∉ a) :
    splitAtFirst separator (a ++ separator :: b) = some (a, b) := by
  induction a with
  | nil => simp [splitAtFirst]
  | cons c a ih =>
      have hc : ¬ c = separator := fun e => h (by simp [e])
      have ha : separator ∉ a := fun e => h (List.mem_cons_of_mem _ e)
      simp [splitAtFirst, hc, ih ha]

theorem eq_append_of_splitAtFirst {separator : Char} {cs a b : List Char}
    (h : splitAtFirst separator cs = some (a, b)) :
    cs = a ++ separator :: b ∧ separator ∉ a := by
  induction cs generalizing a with
  | nil => simp [splitAtFirst] at h
  | cons c rest ih =>
      unfold splitAtFirst at h
      split at h
      · rename_i hc
        simp only [Option.some.injEq, Prod.mk.injEq] at h
        obtain ⟨rfl, rfl⟩ := h
        simp [hc]
      · rename_i hc
        obtain ⟨⟨a', b'⟩, hsplit, heq⟩ := Option.map_eq_some_iff.1 h
        simp only [Prod.mk.injEq] at heq
        obtain ⟨rfl, rfl⟩ := heq
        obtain ⟨hrest, hmem⟩ := ih hsplit
        refine ⟨by rw [hrest]; rfl, ?_⟩
        intro hin
        rcases List.mem_cons.1 hin with h | h
        · exact hc h.symm
        · exact hmem h

end Compliance.Report

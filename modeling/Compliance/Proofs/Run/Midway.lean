import Compliance.Proofs.Run.Lifecycle

/-!
# A run between its cases

What a run is when so many cases are over does not depend on the cases to come.
The next case goes on from there, and its result and its turn are those of the
whole run.
-/

namespace Compliance.Run

open Compliance.Check (Bench TestCase)
open Compliance.Device (Profile)

variable {σ : Type} (o : Outlets σ) (plan : Plan) (device : Profile)

theorem runCases_append (index : Nat) (cases rest : List TestCase) (p : Progress σ) :
    runCases o plan device index (cases ++ rest) p =
      let first := runCases o plan device index cases p
      let last := runCases o plan device (index + cases.length) rest first.2
      (first.1 ++ last.1, last.2) := by
  induction cases generalizing index p with
  | nil => rfl
  | cons c cases ih =>
      have hindex : index + (c :: cases).length = index + 1 + cases.length := by
        rw [List.length_cons]
        omega
      have hrest := ih (index + 1) (runCase o plan device index c p).2
      simp only [List.cons_append, runCases, hindex, hrest]

theorem length_runCases (index : Nat) (cases : List TestCase) (p : Progress σ) :
    (runCases o plan device index cases p).1.length = cases.length := by
  have hids := congrArg List.length (runCases_turns o plan device index cases p).1
  simpa using hids

theorem turns_append (index : Nat) (cases rest : List TestCase) (p : Progress σ) :
    turns plan device (cases ++ rest) p.bench = turns plan device cases p.bench ++
      turns plan device rest (runCases o plan device index cases p).2.bench := by
  induction cases generalizing index p with
  | nil => rfl
  | cons c cases ih =>
      obtain ⟨-, -, hbench, -⟩ := runCase_turn o plan device index c p
      rw [List.cons_append, turns, turns, ← hbench, ih (index + 1), List.cons_append]
      rfl

section Suite

variable (n : Naming) (cases : List TestCase) (b : Bench) (s : σ)

/-- The run when so many of its cases are over. -/
def midway (k : Nat) : Progress σ :=
  (runCases o plan device 0 (cases.take k) (Progress.opened o n cases.length b s)).2

theorem midway_zero :
    midway o plan device n cases b s 0 = Progress.opened o n cases.length b s := rfl

theorem midway_of_length_le {k : Nat} (h : cases.length ≤ k) :
    midway o plan device n cases b s k = (casesRun o plan device n cases b s).2 := by
  rw [midway, List.take_of_length_le h]
  rfl

variable {cases} {k : Nat} {c : TestCase} (h : cases[k]? = some c)

include h

theorem take_append_cons : cases = cases.take k ++ c :: cases.drop (k + 1) := by
  obtain ⟨hk, rfl⟩ := List.getElem?_eq_some_iff.1 h
  rw [← List.drop_eq_getElem_cons hk, List.take_append_drop]

theorem length_take : (cases.take k).length = k := by
  obtain ⟨hk, -⟩ := List.getElem?_eq_some_iff.1 h
  exact List.length_take_of_le (Nat.le_of_lt hk)

theorem midway_succ : midway o plan device n cases b s (k + 1) =
    (runCase o plan device k c (midway o plan device n cases b s k)).2 := by
  have htake : cases.take (k + 1) = cases.take k ++ [c] := by
    rw [List.take_add_one, h]
    rfl
  rw [midway, htake, runCases_append, length_take h, Nat.zero_add]
  rfl

theorem result_midway : (casesRun o plan device n cases b s).1[k]? =
    some (runCase o plan device k c (midway o plan device n cases b s k)).1 := by
  have hlength := length_runCases o plan device 0 (cases.take k)
    (Progress.opened o n cases.length b s)
  rw [length_take h] at hlength
  have hsplit : (casesRun o plan device n cases b s).1 =
      (runCases o plan device 0 (cases.take k ++ c :: cases.drop (k + 1))
        (Progress.opened o n cases.length b s)).1 := by
    rw [← take_append_cons h]
    rfl
  rw [hsplit, runCases_append, length_take h, Nat.zero_add]
  simp only
  rw [List.getElem?_append_right (Nat.le_of_eq hlength), hlength, Nat.sub_self]
  rfl

theorem turn_midway : (turns plan device cases b)[k]? =
    some (turnOf device c (midway o plan device n cases b s k).bench) := by
  have hturns := turns_append o plan device 0 (cases.take k) (c :: cases.drop (k + 1))
    (Progress.opened o n cases.length b s)
  rw [← take_append_cons h, Progress.bench_opened] at hturns
  have hlength : (turns plan device (cases.take k) b).length = k := by
    have hcases := congrArg List.length (testCase_turns plan device (cases.take k) b)
    rwa [List.length_map, length_take h] at hcases
  rw [hturns, List.getElem?_append_right (Nat.le_of_eq hlength), hlength, Nat.sub_self]
  rfl

omit h

/-- Each result is that of a case, which took its turn. -/
theorem exists_case_of_result {i : Nat} {r : TestResult}
    (h : (casesRun o plan device n cases b s).1[i]? = some r) :
    ∃ c, cases[i]? = some c ∧
      r = (runCase o plan device i c (midway o plan device n cases b s i)).1 ∧
      (turns plan device cases b)[i]? =
        some (turnOf device c (midway o plan device n cases b s i).bench) := by
  have hlength := length_runCases o plan device 0 cases
    (Progress.opened o n cases.length b s)
  obtain ⟨hi, -⟩ := List.getElem?_eq_some_iff.1 h
  obtain ⟨c, hc⟩ : ∃ c, cases[i]? = some c :=
    ⟨_, List.getElem?_eq_getElem (Nat.lt_of_lt_of_eq hi hlength)⟩
  have hresult := result_midway o plan device n b s hc
  rw [h] at hresult
  exact ⟨c, hc, Option.some.inj hresult, turn_midway o plan device n b s hc⟩

theorem midway_succ_of_none (h : cases[k]? = none) :
    midway o plan device n cases b s (k + 1) = midway o plan device n cases b s k := by
  have hlength : cases.length ≤ k := List.getElem?_eq_none_iff.1 h
  rw [midway_of_length_le o plan device n cases b s (Nat.le_succ_of_le hlength),
    midway_of_length_le o plan device n cases b s hlength]

/-- What every case keeps, and what holds once, holds from then on. -/
theorem midway_le_induction {P : Progress σ → Prop}
    (hcase : ∀ k c, cases[k]? = some c → P (midway o plan device n cases b s k) →
      P (runCase o plan device k c (midway o plan device n cases b s k)).2)
    {i : Nat} (hi : P (midway o plan device n cases b s i)) (hik : i ≤ k) :
    P (midway o plan device n cases b s k) := by
  induction hik with
  | refl => exact hi
  | @step k hik ih =>
      cases hk : cases[k]? with
      | some c =>
          rw [midway_succ o plan device n b s hk]
          exact hcase k c hk ih
      | none =>
          rw [midway_succ_of_none o plan device n b s hk]
          exact ih

end Suite

end Compliance.Run

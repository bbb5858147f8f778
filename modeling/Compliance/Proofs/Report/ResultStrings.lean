import Compliance.Proofs.Number.Digits
import Compliance.Proofs.Report.Recordings
import Compliance.Proofs.Report.Splitting
import Compliance.Proofs.Text.Joined

/-!
# Halves of result strings

A result string is cut at its last four plus signs.  These stand between its halves
unless the name of a detail begins with a plus sign or has four of them in a row.
Names are not quoted, so there are even logs with other halves and the same string.
-/

namespace Compliance.Report

open Compliance.Number (Binary64 Layout Scientific digits)
open Compliance.Time (Timestamp)

namespace ResultString

/-! ## Details -/

def notPlus (c : Char) : Bool :=
  c != '+'

theorem all_notPlus_digits (n : Nat) : (digits n).all notPlus = true := by
  rw [List.all_eq_true]
  intro c hc
  have hdigit := Number.isDigit_of_mem_digits hc
  unfold notPlus
  rw [bne_iff_ne]
  rintro rfl
  exact absurd hdigit (by decide)

theorem all_notPlus_place {ds : List Char} (h : ds.all notPlus = true) (power : Int) :
    (Layout.plain.place ds power).all notPlus = true := by
  have hzeros (k : Nat) : (List.replicate k '0').all notPlus = true := by
    rw [List.all_eq_true]
    intro c hc
    rw [List.eq_of_mem_replicate hc]
    rfl
  have hall : ∀ c ∈ ds, notPlus c = true := List.all_eq_true.1 h
  unfold Layout.place
  split
  · simp only [List.all_cons, List.all_append, hzeros, h]
    rfl
  · simp only
    split
    · simp only [List.all_append, hzeros, h]
      rfl
    · simp only [List.all_append, List.all_cons, Bool.and_eq_true, List.all_eq_true]
      exact ⟨fun c hc => hall c (List.mem_of_mem_take hc), rfl,
        fun c hc => hall c (List.mem_of_mem_drop hc)⟩

/-- Numbers in result strings have no exponent and so no plus sign. -/
theorem all_notPlus_render (x : Binary64) :
    (Layout.plain.render x).toList.all notPlus = true := by
  have hwrite (d : Scientific) : (Layout.plain.write d).all notPlus = true :=
    all_notPlus_place (all_notPlus_digits d.significand) _
  have hbody : (if !x.isFinite then "inf".toList
      else if x.isZero then Layout.plain.write ⟨0, 0⟩
      else Layout.plain.write x.shortest).all notPlus = true := by
    split
    · rfl
    · split
      · exact hwrite _
      · exact hwrite _
  unfold Layout.render
  split
  · rfl
  · simp only [String.toList_ofList]
    split
    · rw [List.all_cons, hbody]
      rfl
    · exact hbody

theorem all_notPlus_value (v : MetricValue) : v.render.toList.all notPlus = true := by
  rw [MetricValue.render, String.toList_intercalate]
  apply Text.all_intercalate rfl
  intro part hpart
  obtain ⟨text, htext, rfl⟩ := List.mem_map.1 hpart
  obtain ⟨x, -, rfl⟩ := List.mem_map.1 htext
  exact all_notPlus_render x

/-- What a result string says of a metric besides its name. -/
def besideName (m : Metric) : List Char :=
  m.judgement.wire.toList ++ '|' :: (m.unit.wire.toList ++ '|' :: m.value.render.toList)

theorem toList_ofMetric (m : Metric) :
    (ofMetric m).toList = m.name.toList ++ '|' :: besideName m := by
  simp [ofMetric, besideName]

theorem all_notPlus_besideName (m : Metric) : (besideName m).all notPlus = true := by
  have hjudgement : m.judgement.wire.toList.all notPlus = true := by
    cases m.judgement <;> decide
  have hunit : m.unit.wire.toList.all notPlus = true := by
    cases m.unit <;> decide
  simp only [besideName, List.all_append, List.all_cons, hjudgement, hunit, all_notPlus_value]
  rfl

/-- In front of other text, a metric is clear if its name is. -/
theorem clear_ofMetric_append_iff (m : Metric) (rest : List Char) :
    Clear ((ofMetric m).toList ++ rest) ↔
      Clear m.name.toList ∧ ¬ halves.toList <:+: rest := by
  have hbar : '|' ∉ halves.toList := by decide
  have hbeside : ∀ c ∈ besideName m, c ∉ halves.toList := by
    intro c hc hin
    have hplus : c = '+' := by simpa [toList_halves] using hin
    have hnot := List.all_eq_true.1 (all_notPlus_besideName m) c hc
    rw [hplus] at hnot
    exact absurd hnot (by decide)
  have hfront : (m.name.toList ++ '|' :: (besideName m ++ rest)).head? = some '+' ↔
      m.name.toList.head? = some '+' := by
    cases m.name.toList with
    | nil => simp
    | cons c cs => simp
  rw [toList_ofMetric, List.append_assoc, List.cons_append, Clear, Clear, ne_eq, hfront,
    Text.infix_append_cons_iff hbar, Text.infix_append_iff_of_disjoint hbeside (by decide)]
  tauto

theorem clear_joined_iff (ms : List Metric) :
    Clear (between.intercalate (ms.map ofMetric)).toList ↔ ∀ m ∈ ms, Clear m.name.toList := by
  induction ms with
  | nil => simp; decide
  | cons m ms ih =>
      cases ms with
      | nil =>
          have hlast := clear_ofMetric_append_iff m []
          have hnone : ¬ halves.toList <:+: [] := by decide
          rw [List.append_nil] at hlast
          simp [hlast, hnone]
      | cons next rest =>
          rw [List.map_cons, List.map_cons, String.intercalate_cons_cons, ← List.map_cons,
            String.append_assoc, String.toList_append, String.toList_append,
            clear_ofMetric_append_iff, infix_between_iff, not_or, List.forall_mem_cons, ← ih]
          rfl

/-! ## Logs -/

theorem split_ofLog_eq_iff (log : Log) :
    split (ofLog log) = .ok (headline log, details log) ↔
      ∀ e ∈ log.details, Clear e.2.name.toList := by
  have hmetrics : (log.details.map fun e => ofMetric e.2) =
      (log.details.map (·.2)).map ofMetric := by simp
  rw [split_eq_ok_iff, ofLog, String.toList_append, String.toList_append, List.append_assoc,
    splitAtLast_joined_iff, details, hmetrics, clear_joined_iff, List.forall_mem_map]

theorem exists_split_ofLog (log : Log) :
    ∃ front back, split (ofLog log) = .ok (front, back) := by
  have hcut : splitAtLast (ofLog log).toList ≠ none := by
    rw [ne_eq, splitAtLast_eq_none_iff, not_not, ofLog, String.toList_append,
      String.toList_append]
    exact List.infix_append _ _ _
  obtain ⟨⟨front, back⟩, hsome⟩ := Option.ne_none_iff_exists'.1 hcut
  refine ⟨String.ofList front, String.ofList back, split_eq_ok_iff.2 ?_⟩
  rw [hsome, String.toList_ofList, String.toList_ofList]

/-- Whatever was recorded, the details are in the order of their names, and the two
halves of the result string come apart just when the name of no detail begins with a
plus sign or has four of them in a row.  The name of the headline does not matter. -/
theorem split_recorded_iff (key : TestKey) (now : Timestamp) (attempts : List Recording) :
    let log := (Log.start key now).recordAll attempts
    log.Named ∧ (∃ front back, split (ofLog log) = .ok (front, back)) ∧
      (split (ofLog log) = .ok (headline log, details log) ↔
        ∀ e ∈ log.details, Clear e.1.toList) := by
  intro log
  have hnamed : log.Named := (Log.named_start key now).recordAll attempts
  refine ⟨hnamed, exists_split_ofLog log, ?_⟩
  rw [split_ofLog_eq_iff]
  refine forall₂_congr fun e he => ?_
  rw [hnamed.ownName e he]

/-! ## Two logs with the same string -/

def count (name : String) (n : Nat) : Metric :=
  ⟨name, .single (.ofNat n), .none, .neutral⟩

/-- The name of the detail goes on behind four plus signs. -/
def longDetail : List Recording :=
  [.headline (count "a" 1), .detail (count "b|neutral|none|2++++c" 3)]

/-- The name of the headline does. -/
def longHeadline : List Recording :=
  [.headline (count "a|neutral|none|1++++b" 2), .detail (count "c" 3)]

def recorded (attempts : List Recording) : Log :=
  (Log.start ⟨"a", "b", "c"⟩ (.ofMillis 0)).recordAll attempts

theorem ofLog_longDetail : ofLog (recorded longDetail) = ofLog (recorded longHeadline) := by
  decide +kernel

theorem headline_longDetail_ne :
    headline (recorded longDetail) ≠ headline (recorded longHeadline) := by
  decide +kernel

/-- Names with plus signs can hide the halves from every reader. -/
theorem not_split_recorded : ¬ ∀ (key : TestKey) (now : Timestamp) (attempts : List Recording),
    split (ofLog ((Log.start key now).recordAll attempts)) =
      .ok (headline ((Log.start key now).recordAll attempts),
        details ((Log.start key now).recordAll attempts)) := by
  intro hback
  have hdetail := hback ⟨"a", "b", "c"⟩ (.ofMillis 0) longDetail
  have hheadline := hback ⟨"a", "b", "c"⟩ (.ofMillis 0) longHeadline
  have hsame := (congrArg split ofLog_longDetail).symm.trans hdetail
  have hhalves := Except.ok.inj (hheadline.symm.trans hsame)
  exact headline_longDetail_ne (Prod.mk.inj hhalves).1.symm

end ResultString

end Compliance.Report

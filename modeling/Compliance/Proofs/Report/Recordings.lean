import Compliance.Proofs.Report.Saved

/-!
# Recorded logs

Test code tries to record details and a headline, and a log keeps at every place
what was first written there.  An attempt fails for its value, or else because its
place is taken, and changes nothing; attempts at other places never matter.
-/

namespace Compliance.Report

open Compliance.Time (Timestamp)

/-- An attempt to record a metric. -/
inductive Recording where
  | detail (m : Metric)
  | headline (m : Metric)

namespace Recording

def metric : Recording → Metric
  | detail m | headline m => m

/-- Details stand under their names, and the headline has a place of its own. -/
def place : Recording → Option String
  | detail m => some m.name
  | headline _ => none

end Recording

namespace Log

/-- What is refused leaves the log as it was. -/
def record (log : Log) : Recording → Log
  | .detail m => (log.add m).toOption.getD log
  | .headline m => (log.setHeadline m).toOption.getD log

def recordAll (log : Log) (attempts : List Recording) : Log :=
  attempts.foldl record log

/-- The details are in the order of their names. -/
structure Named (log : Log) : Prop where
  sorted : Ordered.Sorted log.details
  ownName : ∀ e ∈ log.details, e.2.name = e.1

theorem named_start (key : TestKey) (now : Timestamp) : (start key now).Named :=
  ⟨Ordered.sorted_nil, by simp [start]⟩

theorem Named.add {log log' : Log} {m : Metric} (h : log.Named) (ha : log.add m = .ok log') :
    log'.Named := by
  obtain ⟨-, rfl⟩ := add_eq_ok ha
  refine ⟨h.sorted.put m.name m, fun e he => ?_⟩
  rcases Ordered.key_of_mem_put he with rfl | he
  · rfl
  · exact h.ownName e he

theorem Named.setHeadline {log log' : Log} {m : Metric} (h : log.Named)
    (hs : log.setHeadline m = .ok log') : log'.Named := by
  obtain ⟨-, -, rfl⟩ := setHeadline_eq_ok hs
  exact ⟨h.sorted, h.ownName⟩

theorem Named.record {log : Log} (h : log.Named) (attempt : Recording) :
    (log.record attempt).Named := by
  cases attempt with
  | detail m =>
      simp only [Log.record]
      cases ha : log.add m with
      | error e => exact h
      | ok log' => exact h.add ha
  | headline m =>
      simp only [Log.record]
      cases hs : log.setHeadline m with
      | error e => exact h
      | ok log' => exact h.setHeadline hs

theorem Named.recordAll {log : Log} (h : log.Named) (attempts : List Recording) :
    (log.recordAll attempts).Named := by
  induction attempts generalizing log with
  | nil => exact h
  | cons attempt attempts ih => exact ih (h.record attempt)

/-! ## One attempt -/

def attempt (log : Log) : Recording → Except ReportError Log
  | .detail m => log.add m
  | .headline m => log.setHeadline m

def at? (log : Log) : Option String → Option Metric
  | some name => log.detail? name
  | none => log.headline

/-- The log with a metric written, whatever stood in its place. -/
def write (log : Log) : Recording → Log
  | .detail m => { log with details := Ordered.put m.name m log.details }
  | .headline m => { log with headline := some m }

section Attempt

variable {log log' : Log} {a : Recording}

theorem at?_start (key : TestKey) (now : Timestamp) (place : Option String) :
    (start key now).at? place = none := by
  cases place <;> rfl

theorem at?_write (log : Log) (a : Recording) (place : Option String) :
    (log.write a).at? place = if a.place = place then some a.metric else log.at? place := by
  cases a with
  | detail m =>
      cases place with
      | none => rfl
      | some name =>
          by_cases hname : m.name = name
          · subst hname
            simp [write, at?, detail?, Recording.place, Recording.metric]
          · simp [write, at?, detail?, Recording.place, hname,
              Ordered.find?_put_of_ne (Ne.symm hname)]
  | headline m => cases place <;> rfl

theorem size_write (h : log.at? a.place = none) : (log.write a).size = log.size + 1 := by
  cases a with
  | detail m =>
      have hlength := (Ordered.put_perm h m).length_eq
      simp only [write, size, hlength, List.length_cons]
      omega
  | headline m =>
      have hnone : log.headline = none := h
      simp [write, size, hnone]

/-- Either kind of attempt looks at the value first and then at the place. -/
theorem attempt_eq (log : Log) (a : Recording) :
    log.attempt a =
      if !a.metric.value.isFinite then .error (.invalidValue a.metric.name)
      else if (log.at? a.place).isSome then
        .error (.duplicateMetric log.key.display a.metric.name)
      else .ok (log.write a) := by
  cases a <;> rfl

theorem attempt_eq_ok_iff :
    log.attempt a = .ok log' ↔
      a.metric.value.isFinite = true ∧ log.at? a.place = none ∧ log' = log.write a := by
  rw [attempt_eq]
  cases a.metric.value.isFinite with
  | false => simp
  | true => cases log.at? a.place <;> simp [eq_comm]

theorem attempt_eq_error_iff {e : ReportError} :
    log.attempt a = .error e ↔
      a.metric.value.isFinite = false ∧ e = .invalidValue a.metric.name ∨
      a.metric.value.isFinite = true ∧ log.at? a.place ≠ none ∧
        e = .duplicateMetric log.key.display a.metric.name := by
  rw [attempt_eq]
  cases a.metric.value.isFinite with
  | false => simp [eq_comm]
  | true => cases log.at? a.place <;> simp [eq_comm]

theorem record_eq (log : Log) (a : Recording) :
    log.record a = (log.attempt a).toOption.getD log := by
  cases a <;> rfl

theorem record_of_ok (h : log.attempt a = .ok log') : log.record a = log' := by
  rw [record_eq, h]
  rfl

theorem record_of_error {e : ReportError} (h : log.attempt a = .error e) : log.record a = log := by
  rw [record_eq, h]
  rfl

theorem key_record (log : Log) (a : Recording) : (log.record a).key = log.key := by
  cases h : log.attempt a with
  | error e => rw [record_of_error h]
  | ok log' =>
      rw [record_of_ok h, (attempt_eq_ok_iff.1 h).2.2]
      cases a <;> rfl

/-- What stands at a place stays, and only an attempt at that place can fill it. -/
theorem at?_record (log : Log) (a : Recording) (place : Option String) :
    (log.record a).at? place =
      if a.place = place ∧ a.metric.value.isFinite = true then
        some ((log.at? place).getD a.metric)
      else log.at? place := by
  cases h : log.attempt a with
  | ok log' =>
      obtain ⟨hfinite, hfree, rfl⟩ := attempt_eq_ok_iff.1 h
      rw [record_of_ok h, at?_write]
      by_cases hplace : a.place = place
      · rw [hplace] at hfree
        simp [hplace, hfinite, hfree]
      · simp [hplace]
  | error e =>
      rw [record_of_error h]
      rcases attempt_eq_error_iff.1 h with ⟨hvalue, -⟩ | ⟨-, htaken, -⟩
      · simp [hvalue]
      · split
        · rename_i hplace
          rw [hplace.1] at htaken
          obtain ⟨m, hm⟩ := Option.ne_none_iff_exists'.1 htaken
          rw [hm, Option.getD_some]
        · rfl

end Attempt

/-! ## All attempts -/

/-- The attempts that succeed, each in the log that those before have left. -/
def written (log : Log) : List Recording → List Recording
  | [] => []
  | a :: rest =>
      match log.attempt a with
      | .ok log' => a :: log'.written rest
      | .error _ => log.written rest

section Attempts

variable (log : Log) (attempts : List Recording)

theorem key_recordAll : (log.recordAll attempts).key = log.key := by
  induction attempts generalizing log with
  | nil => rfl
  | cons a rest ih => exact (ih (log.record a)).trans (key_record log a)

/-- A place that was free has what the first success wrote there. -/
theorem at?_recordAll (place : Option String) :
    (log.recordAll attempts).at? place =
      (log.at? place).or
        (((log.written attempts).find? (·.place = place)).map (·.metric)) := by
  induction attempts generalizing log with
  | nil => simp [recordAll, written]
  | cons a rest ih =>
      have hrest : (log.recordAll (a :: rest)).at? place =
          ((log.record a).recordAll rest).at? place := rfl
      rw [hrest, ih, written]
      cases h : log.attempt a with
      | error e => rw [record_of_error h]
      | ok log' =>
          rw [record_of_ok h]
          obtain ⟨-, hfree, rfl⟩ := attempt_eq_ok_iff.1 h
          rw [at?_write]
          by_cases hplace : a.place = place
          · rw [hplace] at hfree
            simp [hplace, hfree]
          · simp [hplace]

theorem size_recordAll :
    (log.recordAll attempts).size = log.size + (log.written attempts).length := by
  induction attempts generalizing log with
  | nil => rfl
  | cons a rest ih =>
      have hrest : (log.recordAll (a :: rest)).size = ((log.record a).recordAll rest).size := rfl
      rw [hrest, ih, written]
      cases h : log.attempt a with
      | error e => rw [record_of_error h]
      | ok log' =>
          rw [record_of_ok h]
          obtain ⟨-, hfree, rfl⟩ := attempt_eq_ok_iff.1 h
          rw [size_write hfree, List.length_cons]
          omega

theorem finite_of_mem_written {a : Recording} (h : a ∈ log.written attempts) :
    a.metric.value.isFinite = true := by
  induction attempts generalizing log with
  | nil => simp [written] at h
  | cons b rest ih =>
      rw [written] at h
      cases hattempt : log.attempt b with
      | error e =>
          rw [hattempt] at h
          exact ih log h
      | ok log' =>
          rw [hattempt] at h
          rcases List.mem_cons.1 h with rfl | h
          · exact (attempt_eq_ok_iff.1 hattempt).1
          · exact ih log' h

/-- At a place only the attempts at that place count. -/
theorem at?_recordAll_filter (place : Option String) :
    (log.recordAll attempts).at? place =
      (log.recordAll (attempts.filter (·.place = place))).at? place := by
  have hcongr (log log' : Log) (h : log.at? place = log'.at? place) :
      (log.recordAll attempts).at? place =
        (log'.recordAll (attempts.filter (·.place = place))).at? place := by
    induction attempts generalizing log log' with
    | nil => exact h
    | cons a rest ih =>
        by_cases hplace : a.place = place
        · rw [List.filter_cons_of_pos (by simpa using hplace)]
          exact ih _ _ (by rw [at?_record, at?_record, h])
        · rw [List.filter_cons_of_neg (by simpa using hplace)]
          exact ih _ _ (by rw [at?_record, if_neg fun hboth => hplace hboth.1, h])
  exact hcongr log log rfl

end Attempts

/-- Whatever has been tried on a new log, the next attempt succeeds just when its value is
finite and no success at its place came before; otherwise it leaves the log alone and
names the value rather than the place.  Every place has what was first written there, so
that attempts at other places make no difference; all that the log holds is finite and
stands under its own name, and it holds as many metrics as there were successes. -/
theorem recordAll_first_writes (key : TestKey) (now : Timestamp) (attempts : List Recording) :
    let log := (start key now).recordAll attempts
    let successes := (start key now).written attempts
    (∀ a : Recording,
      ((∃ log', log.attempt a = .ok log') ↔
        a.metric.value.isFinite = true ∧ ∀ b ∈ successes, b.place ≠ a.place) ∧
      ∀ e, log.attempt a = .error e →
        log.record a = log ∧
          e = if a.metric.value.isFinite then .duplicateMetric key.display a.metric.name
            else .invalidValue a.metric.name) ∧
    (∀ place, log.at? place = (successes.find? (·.place = place)).map (·.metric)) ∧
    (∀ place, log.at? place =
      ((start key now).recordAll (attempts.filter (·.place = place))).at? place) ∧
    (∀ entry ∈ log.details, entry.2.name = entry.1 ∧ entry.2.value.isFinite = true) ∧
    (∀ m ∈ log.headline, m.value.isFinite = true) ∧
    log.size = successes.length := by
  intro log successes
  have hat (place : Option String) :
      log.at? place = (successes.find? (·.place = place)).map (·.metric) := by
    rw [at?_recordAll, at?_start, Option.none_or]
  have hfinite (place : Option String) {m : Metric} (hm : log.at? place = some m) :
      m.value.isFinite = true := by
    rw [hat] at hm
    obtain ⟨a, ha, rfl⟩ := Option.map_eq_some_iff.1 hm
    exact finite_of_mem_written _ _ (List.mem_of_find?_eq_some ha)
  have hnamed : log.Named := (named_start key now).recordAll attempts
  refine ⟨fun a => ⟨?_, fun e he => ⟨record_of_error he, ?_⟩⟩, hat,
    at?_recordAll_filter _ _, fun entry hentry => ⟨hnamed.ownName entry hentry, ?_⟩,
    fun m hm => hfinite none hm, ?_⟩
  · have hfree : log.at? a.place = none ↔ ∀ b ∈ successes, b.place ≠ a.place := by
      simp [hat]
    rw [← hfree]
    constructor
    · rintro ⟨log', h⟩
      obtain ⟨hvalue, hplace, -⟩ := attempt_eq_ok_iff.1 h
      exact ⟨hvalue, hplace⟩
    · rintro ⟨hvalue, hplace⟩
      exact ⟨_, attempt_eq_ok_iff.2 ⟨hvalue, hplace, rfl⟩⟩
  · have hkey : log.key = key := key_recordAll (start key now) attempts
    rcases attempt_eq_error_iff.1 he with ⟨hvalue, rfl⟩ | ⟨hvalue, -, rfl⟩
    · simp [hvalue]
    · simp [hvalue, hkey]
  · exact hfinite (some entry.1) (hnamed.sorted.mem_iff.1 hentry)
  · have hsize := size_recordAll (start key now) attempts
    rwa [size_start, Nat.zero_add] at hsize

end Log

end Compliance.Report

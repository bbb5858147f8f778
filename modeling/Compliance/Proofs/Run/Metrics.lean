import Mathlib.Data.List.Nodup
import Compliance.Proofs.Run.Isolation

/-!
# Results and the logs they speak of

A case files one log if it recorded anything and none otherwise, and its result
says how many metrics the log has.  So at any moment of a run, the outbox has a
log for each result with metrics and no other.
-/

namespace Compliance.Run

open Compliance.Check (Bench Context TestCase)
open Compliance.Device (Profile)
open Compliance.Report (Log Outbox TestKey)

variable {σ : Type}

/-- What a case files agrees with its result: all its metrics under its key, or
nothing at all. -/
def Fills (abi : String) (r : TestResult) : Option Log → Prop
  | none => r.metrics = 0
  | some log => log.key = r.id.key abi ∧ log.size = r.metrics ∧ 0 < r.metrics

theorem Fills.congr {abi : String} {r r' : TestResult} {filed : Option Log}
    (h : Fills abi r filed) (hid : r'.id = r.id) (hmetrics : r'.metrics = r.metrics) :
    Fills abi r' filed := by
  cases filed with
  | none => exact hmetrics.trans h
  | some log =>
      unfold Fills at h ⊢
      rw [hid, hmetrics]
      exact h

section Case

variable (plan : Plan) (device : Profile)

theorem fills_execute (c : TestCase) (start : Nat) (p : Progress σ) :
    ∃ filed, (execute plan c start p).2.outbox = p.outbox.file filed ∧
      Fills plan.abi (execute plan c start p).1 filed := by
  have hid := id_execute plan c start p
  have hkey := c.execute.key_run (Context.start c.id plan.abi plan.timeouts p.bench) p.bench
  refine ⟨_, fileLog_eq _ _, ?_⟩
  split
  · rename_i hempty
    simp only [Log.isEmpty, beq_iff_eq] at hempty
    exact hempty
  · rename_i hempty
    refine ⟨?_, rfl, ?_⟩
    · rw [hid]
      exact hkey
    · simp only [Log.isEmpty, beq_iff_eq] at hempty
      exact Nat.pos_of_ne_zero hempty

theorem fills_attempt (index : Nat) (c : TestCase) (p : Progress σ) :
    ∃ filed, (attempt plan device index c p).2.outbox = p.outbox.file filed ∧
      Fills plan.abi (attempt plan device index c p).1 filed := by
  have hcourse := attempt_course plan device index c p
  generalize attempt plan device index c p = out at hcourse ⊢
  cases hcourse with
  | cancelled | lacking | refused | brokenDown => exact ⟨none, rfl, rfl⟩
  | executed h hm b hp => exact fills_execute plan c _ _

/-- Cleanup files nothing, and a result it spoils keeps its metrics. -/
theorem fills_runCase (o : Outlets σ) (index : Nat) (c : TestCase) (p : Progress σ) :
    ∃ filed, (runCase o plan device index c p).2.outbox = p.outbox.file filed ∧
      Fills plan.abi (runCase o plan device index c p).1 filed := by
  have hid := id_attempt plan device index c (p.setBench { p.bench with session := none })
  obtain ⟨filed, hfiled, hfills⟩ := fills_attempt plan device index c
    (p.setBench { p.bench with session := none })
  refine ⟨filed, hfiled, hfills.congr ?_ ?_⟩
  · rw [hid]
    exact id_afterCleanup hid
  · exact metrics_afterCleanup ..

end Case

/-- The outbox has a log for each result with metrics and no other, and all of
them wait. -/
structure Reported (abi : String) (o : Outbox) (rs : List TestResult) : Prop where
  filed : o.Filed
  waiting : ∀ e ∈ o.slots, e.2.sent = false
  held : ∀ r ∈ rs, 0 < r.metrics → (o.slot? (r.id.key abi)).isSome
  owed : ∀ e ∈ o.slots, ∃ r ∈ rs, e.1 = r.id.key abi ∧ e.2.log.size = r.metrics ∧
    0 < r.metrics

/-- What results say of a log. -/
def TestResult.entry (abi : String) (r : TestResult) : TestKey × Nat :=
  (r.id.key abi, r.metrics)

/-- The results whose tests left a log. -/
def recordedIn (rs : List TestResult) : List TestResult :=
  rs.filter fun r => 0 < r.metrics

namespace Reported

variable {abi : String} {o : Outbox} {rs : List TestResult}

theorem empty (abi : String) : Reported abi .empty [] :=
  ⟨Outbox.filed_empty, by simp [Outbox.empty], by simp, by simp [Outbox.empty]⟩

theorem file (h : Reported abi o rs) {r : TestResult} {filed : Option Log}
    (hr : Fills abi r filed) : Reported abi (o.file filed) (rs ++ [r]) := by
  cases filed with
  | none =>
      refine ⟨h.filed, h.waiting, ?_, ?_⟩
      · intro r' hr' hpos
        rcases List.mem_append.1 hr' with hr' | hr'
        · exact h.held r' hr' hpos
        · rw [List.mem_singleton.1 hr'] at hpos
          exact absurd hr (Nat.pos_iff_ne_zero.1 hpos)
      · intro e he
        obtain ⟨r', hr', hrest⟩ := h.owed e he
        exact ⟨r', List.mem_append_left _ hr', hrest⟩
  | some log =>
      obtain ⟨hkey, hsize, hpos⟩ := hr
      refine ⟨h.filed.put rfl, ?_, ?_, ?_⟩
      · intro e he
        rcases Ordered.key_of_mem_put he with rfl | he
        · rfl
        · exact h.waiting e he
      · intro r' hr' hpos'
        by_cases hsame : r'.id.key abi = log.key
        · rw [hsame]
          exact Option.isSome_iff_exists.2 ⟨_, Outbox.slot?_put_self ..⟩
        · have hold : r' ∈ rs := by
            rcases List.mem_append.1 hr' with hr' | hr'
            · exact hr'
            · rw [List.mem_singleton.1 hr'] at hsame
              exact absurd hkey.symm hsame
          rw [Outbox.file, Outbox.submit, Outbox.slot?_put_of_ne hsame]
          exact h.held r' hold hpos'
      · intro e he
        rcases Ordered.key_of_mem_put he with rfl | he
        · exact ⟨r, by simp, hkey, hsize, hpos⟩
        · obtain ⟨r', hr', hrest⟩ := h.owed e he
          exact ⟨r', List.mem_append_left _ hr', hrest⟩

theorem runCases {plan : Plan} (device : Profile) (o : Outlets σ) (index : Nat)
    (cases : List TestCase) {p : Progress σ} (h : Reported plan.abi p.outbox rs) :
    Reported plan.abi (runCases o plan device index cases p).2.outbox
      (rs ++ (runCases o plan device index cases p).1) := by
  induction cases generalizing index p rs with
  | nil => simpa [Run.runCases] using h
  | cons c rest ih =>
      obtain ⟨filed, hfiled, hfills⟩ := fills_runCase plan device o index c p
      have hstep := h.file hfills
      rw [← hfiled] at hstep
      have hrest := ih (index + 1) hstep
      rw [List.append_assoc] at hrest
      exact hrest

theorem mem_logs (h : Reported abi o rs) {log : Log} (hlog : log ∈ o.logs) :
    ∃ r ∈ rs, log.key = r.id.key abi ∧ log.size = r.metrics ∧ 0 < r.metrics := by
  obtain ⟨e, he, rfl⟩ := List.mem_map.1 hlog
  obtain ⟨r, hr, hkey, hrest⟩ := h.owed e he
  exact ⟨r, hr, (h.filed.ownKey e he).trans hkey, hrest⟩

theorem exists_log (h : Reported abi o rs) {r : TestResult} (hr : r ∈ rs)
    (hpos : 0 < r.metrics) : ∃ log ∈ o.logs, log.key = r.id.key abi := by
  obtain ⟨s, hs⟩ := Option.isSome_iff_exists.1 (h.held r hr hpos)
  exact ⟨s.log, List.mem_map_of_mem (h.filed.mem_iff.2 hs), h.filed.key_eq hs⟩

/-- There is something to deliver when some test recorded a metric. -/
theorem unsent_eq_nil (h : Reported abi o rs) :
    o.unsent = [] ↔ ∀ r ∈ rs, r.metrics = 0 := by
  rw [Outbox.unsent_of_waiting h.waiting]
  constructor
  · intro hnil r hr
    by_contra hpos
    obtain ⟨log, hlog, -⟩ := h.exists_log hr (Nat.pos_of_ne_zero hpos)
    simp [hnil] at hlog
  · intro hzero
    apply List.eq_nil_iff_forall_not_mem.2
    intro log hlog
    obtain ⟨r, hr, -, -, hpos⟩ := h.mem_logs hlog
    exact absurd (hzero r hr) (Nat.pos_iff_ne_zero.1 hpos)

/-! ### Distinct tests -/

theorem eq_of_key_eq (hids : (rs.map (·.id)).Nodup) {r r' : TestResult} (hr : r ∈ rs)
    (hr' : r' ∈ rs) (h : r.id.key abi = r'.id.key abi) : r = r' :=
  List.inj_on_of_nodup_map hids hr hr' (Report.TestId.key_injective h)

/-- A log is that of the one result with its id. -/
theorem of_log? (h : Reported abi o rs) (hids : (rs.map (·.id)).Nodup) {r : TestResult}
    (hr : r ∈ rs) {log : Log} (hlog : o.log? (r.id.key abi) = some log) :
    log.size = r.metrics ∧ 0 < r.metrics := by
  obtain ⟨slot, hslot, rfl⟩ := Option.map_eq_some_iff.1 hlog
  obtain ⟨r', hr', hkey, hsize, hpos⟩ := h.owed _ (h.filed.mem_iff.2 hslot)
  have hsame : r = r' := eq_of_key_eq hids hr hr' hkey
  subst hsame
  exact ⟨hsize, hpos⟩

theorem isSome_log? (h : Reported abi o rs) (hids : (rs.map (·.id)).Nodup)
    {r : TestResult} (hr : r ∈ rs) :
    (o.log? (r.id.key abi)).isSome ↔ 0 < r.metrics := by
  constructor
  · intro hsome
    obtain ⟨log, hlog⟩ := Option.isSome_iff_exists.1 hsome
    exact (h.of_log? hids hr hlog).2
  · intro hpos
    rw [Outbox.log?, Option.isSome_map]
    exact h.held r hr hpos

theorem nodup_keys (h : Reported abi o rs) : (o.logs.map (·.key)).Nodup := by
  have hordered := h.filed.unsent_increasing
  rw [Outbox.unsent_of_waiting h.waiting] at hordered
  exact hordered.imp fun hlt => Ordered.KeyOrder.ne hlt

/-- Key by key, the logs are what the results with metrics say of them. -/
theorem tally (h : Reported abi o rs) (hids : (rs.map (·.id)).Nodup) :
    (o.logs.map fun log => (log.key, log.size)).Perm
      ((recordedIn rs).map (TestResult.entry abi)) := by
  have hlogs : (o.logs.map fun log => (log.key, log.size)).Nodup := by
    apply List.Nodup.of_map Prod.fst
    rw [List.map_map]
    exact h.nodup_keys
  have hresults : ((recordedIn rs).map (TestResult.entry abi)).Nodup := by
    apply List.Nodup.of_map Prod.fst
    have hkeys : ((rs.map (·.id)).map (·.key abi)).Nodup :=
      hids.map fun _ _ => Report.TestId.key_injective
    rw [List.map_map] at hkeys ⊢
    exact hkeys.sublist (List.filter_sublist.map _)
  apply (List.perm_ext_iff_of_nodup hlogs hresults).2
  intro e
  constructor
  · intro he
    obtain ⟨log, hlog, rfl⟩ := List.mem_map.1 he
    obtain ⟨r, hr, hkey, hsize, hpos⟩ := h.mem_logs hlog
    rw [hkey, hsize]
    exact List.mem_map_of_mem (List.mem_filter.2 ⟨hr, by simpa using hpos⟩)
  · intro he
    obtain ⟨r, hr, rfl⟩ := List.mem_map.1 he
    obtain ⟨hr, hpos⟩ := List.mem_filter.1 hr
    obtain ⟨log, hlog, hkey⟩ := h.exists_log hr (by simpa using hpos)
    obtain ⟨r', hr', hkey', hsize, -⟩ := h.mem_logs hlog
    have hsame : r = r' := eq_of_key_eq hids hr hr' (hkey.symm.trans hkey')
    subst hsame
    exact List.mem_map.2 ⟨log, hlog, by rw [hkey, hsize]; rfl⟩

end Reported

/-- When the reports are flushed, the outbox has the logs of the results. -/
theorem reported_reporting (o : Outlets σ) (plan : Plan) (device : Profile) (n : Naming)
    (cases : List TestCase) (b : Bench) (s : σ) :
    Reported plan.abi (reporting o plan device n cases b s).outbox
      (casesRun o plan device n cases b s).1 := by
  have hopened : Reported plan.abi (Progress.opened o n cases.length b s).outbox [] := by
    rw [Progress.outbox_opened]
    exact .empty plan.abi
  rw [reporting, Progress.outbox_advance]
  exact hopened.runCases device o 0 cases

end Compliance.Run

import Compliance.Proofs.Files.Trees
import Compliance.Proofs.Report.Delivery
import Compliance.Proofs.Report.Saved

/-!
# Saved outboxes

Whatever is done with an outbox, its slots stay filed under the keys of their logs
and its logs fit to be written down, so a saved outbox is loaded as it was and the
next flush cannot tell the two apart.
-/

namespace Compliance.Report

open Compliance.Files (Tree)
open Compliance.Time (Timestamp)

/-- The logs that test code can come to hold. -/
inductive Log.Built : Log → Prop where
  | start (key : TestKey) {now : Timestamp} (h : now.Valid) : Built (.start key now)
  | add {log log' : Log} {m : Metric} (h : Built log) (ha : log.add m = .ok log') : Built log'
  | setHeadline {log log' : Log} {m : Metric} (h : Built log)
      (hs : log.setHeadline m = .ok log') : Built log'

theorem Log.Built.wellFormed {log : Log} (h : log.Built) : log.WellFormed := by
  induction h with
  | start key h => exact fit_start key h
  | add _ ha ih => exact ih.add ha
  | setHeadline _ hs ih => exact ih.setHeadline hs

/-- The clock shows times of the calendar, and submitted logs were built. -/
def Operation.Legal : Operation → Prop
  | .beginTest _ now | .record _ _ now => now.Valid
  | .submit log => log.Built
  | .flush _ => True

namespace History

variable {σ : Type} {h : History σ} (c : Collector σ)

theorem wellFormed_perform (hw : h.outbox.WellFormed) {op : Operation} (hop : op.Legal) :
    (h.perform c op).outbox.WellFormed := by
  cases op with
  | beginTest key now => exact hw.beginTest key hop
  | record key m now =>
      have hrecord := hw.record key m hop
      simp only [perform]
      split
      · rename_i o heq
        rwa [heq] at hrecord
      · rename_i e o heq
        rwa [heq] at hrecord
  | submit log => exact hw.submit hop.wellFormed
  | flush stamp =>
      have hleft : (h.perform c (.flush stamp)).outbox =
          (h.outbox.flush c.logged stamp (h.store, [])).2.1 := rfl
      rw [hleft]
      rcases Outbox.outbox_flush c.logged stamp (h.store, []) with heq | heq
      · rwa [heq]
      · rw [heq]
        exact hw.markSent

theorem wellFormed_run (hw : h.outbox.WellFormed) {ops : List Operation}
    (hops : ∀ op ∈ ops, op.Legal) : (h.run c ops).outbox.WellFormed := by
  induction ops generalizing h with
  | nil => exact hw
  | cons op ops ih =>
      exact ih (wellFormed_perform c hw (hops op List.mem_cons_self))
        fun op' hop' => hops op' (List.mem_cons_of_mem op hop')

end History

theorem Outbox.load_of_save {o : Outbox} (h : ofText? o.toText = some o) {t t' : Tree}
    {path : String} (hs : o.save t path = (t', .ok ())) : load t' path = .ok o := by
  simp only [load, Tree.readText_of_replaceText hs, h]

/-- After any operations, with any collector, the saved form of the outbox is read as
the same slots: keys, logs and marks.  Wherever it was saved it is loaded from there,
and a flush then gives every collector the very batch it would have got before. -/
theorem outbox_reloads {σ : Type} (c : Collector σ) (s : σ) {ops : List Operation}
    (hops : ∀ op ∈ ops, op.Legal) :
    let o := ((History.start s).run c ops).outbox
    Outbox.ofText? o.toText = some o ∧
      ∀ t path t', o.save t path = (t', .ok ()) →
        ∃ o', Outbox.load t' path = .ok o' ∧ o'.slots = o.slots ∧
          ∀ {τ : Type} (d : Collector τ) (stamp : Stamp) (u : τ),
            o'.flush d.logged stamp (u, []) = o.flush d.logged stamp (u, []) := by
  intro o
  -- under its own key every log is found again, and well formed every log can be read
  have hfiled : o.Filed := ((History.accounted_start s).run c ops).filed
  have hwell : o.WellFormed := by
    apply History.wellFormed_run c _ hops
    intro e he
    cases he
  have hread := hwell.ofText?_toText hfiled
  refine ⟨hread, fun t path t' hs => ?_⟩
  exact ⟨o, Outbox.load_of_save hread hs, rfl, fun d stamp u => rfl⟩

/-! ## An outbox with odd keys -/

/-- An empty part, and one with quotes, a separator and a line break. -/
def oddKey : TestKey := ⟨"", "a \"b\"#\n", "é"⟩

def oddHour : Timestamp := ⟨1709208000, 123456789⟩

theorem valid_oddHour : oddHour.Valid :=
  ⟨by decide, by decide, by decide⟩

/-- A log without values and a refused one, then a flush and one more value. -/
def oddOperations : List Operation :=
  [.beginTest oddKey oddHour,
    .record oddKey ⟨"", .series [], .ms, .warning⟩ oddHour,
    .record ⟨"a", "b", "c"⟩ ⟨"lost", .single .notANumber, .none, .neutral⟩ oddHour,
    .submit (.start ⟨"b", "", "#"⟩ oddHour),
    .flush ⟨"first", oddHour⟩,
    .record oddKey ⟨"late", .single .negativeZero, .none, .neutral⟩ oddHour]

def oddOutbox : Outbox :=
  ((History.start Mailbox.empty).run .inMemory oddOperations).outbox

theorem legal_oddOperations : ∀ op ∈ oddOperations, op.Legal := by
  simp only [oddOperations, List.mem_cons, List.not_mem_nil, or_false]
  rintro op (rfl | rfl | rfl | rfl | rfl | rfl)
  case inr.inr.inr.inl => exact .start _ valid_oddHour
  case inr.inr.inr.inr.inl => trivial
  all_goals exact valid_oddHour

theorem save_empty (o : Outbox) : ∃ t', o.save .empty "pending.json" = (t', .ok ()) := by
  have hdraft : Tree.locate .empty (Files.withExtension "pending.json" "json.tmp") =
      .ok ["pending.json.tmp"] := by decide
  have hplace : Tree.locate .empty "pending.json" = .ok ["pending.json"] := by decide
  exact ⟨_, Tree.replaceText_of_locate hdraft hplace rfl rfl⟩

theorem outbox_reloads_odd :
    oddOutbox.slots.map (fun e => (e.1, e.2.sent)) =
        [(oddKey, false), (⟨"a", "b", "c"⟩, true), (⟨"b", "", "#"⟩, true)] ∧
      Outbox.ofText? oddOutbox.toText = some oddOutbox ∧
      ∃ t', oddOutbox.save .empty "pending.json" = (t', .ok ()) ∧
        Outbox.load t' "pending.json" = .ok oddOutbox := by
  obtain ⟨t', hs⟩ := save_empty oddOutbox
  obtain ⟨hread, hall⟩ := outbox_reloads .inMemory Mailbox.empty legal_oddOperations
  obtain ⟨o', hload, hslots, -⟩ := hall _ _ t' hs
  refine ⟨by decide +kernel, hread, t', hs, ?_⟩
  rw [hload]
  exact congrArg _ (congrArg Outbox.mk hslots)

end Compliance.Report

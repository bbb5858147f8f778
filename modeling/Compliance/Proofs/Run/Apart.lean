import Mathlib.Data.List.Nodup
import Compliance.Proofs.Check.Recording
import Compliance.Proofs.Json.Records
import Compliance.Proofs.Report.Delivery
import Compliance.Proofs.Report.Refusals
import Compliance.Proofs.Run.Metrics
import Compliance.Proofs.Run.Midway
import Compliance.Proofs.Suite.Selected

/-!
# Logs kept apart

Tests with different texts have different keys, whatever text the keys are shown by.
So in a suite that has no text twice, each log is that of one test: it comes to be in the
turn of that test, and no other turn changes it.
-/

namespace Compliance.Suite.Entry

open Compliance.Report (TestId)

/-- An id is written as its text, and no other value stands for it. -/
theorem idOfJson?_eq_some_iff {v : Json} {id : TestId} :
    idOfJson? v = some id ↔ v = .string id.text := by
  constructor
  · intro h
    obtain ⟨text, htext, hid⟩ := Option.bind_eq_some_iff.1 h
    rw [TestId.text_of_ofText? hid]
    cases v <;> cases htext
    rfl
  · rintro rfl
    exact id.ofText?_text

theorem faithful_id (id : TestId) :
    Json.Faithful (fun id : TestId => .string id.text) idOfJson? 0 id := by
  constructor
  · exact idOfJson?_eq_some_iff.2 rfl
  · intro budget _
    trivial

end Compliance.Suite.Entry

namespace Compliance.Run

open Compliance.Check (Bench TestCase)
open Compliance.Device (Profile)
open Compliance.Report (Collector History Log Operation Outbox Separated TestId TestKey)
open Compliance.Suite (Entry casesOf)

variable {σ : Type}

/-- The logs of a run are kept apart: no two tests have a key in common, a log is that of
just one of them, and it is there from the end of that test's turn on and stays the same. -/
structure KeptApart (o : Outlets σ) (plan : Plan) (device : Profile) (n : Naming)
    (cases : List TestCase) (b : Bench) (s : σ) : Prop where
  keys : (cases.map fun c => c.id.key plan.abi).Nodup
  owner : ∀ key log,
    (runSuite o plan device n cases b s).progress.outbox.log? key = some log →
      log.key = key ∧ ∃! i : Nat, (cases.map fun c => c.id.key plan.abi)[i]? = some key
  turn : ∀ i c k, cases[i]? = some c →
    (midway o plan device n cases b s k).outbox.log? (c.id.key plan.abi) =
      if k ≤ i then none
      else (runSuite o plan device n cases b s).progress.outbox.log? (c.id.key plan.abi)

section Suite

variable (o : Outlets σ) (plan : Plan) (device : Profile) (n : Naming)
  {cases : List TestCase} (b : Bench) (s : σ) (hids : (cases.map (·.id)).Nodup)

include hids

theorem nodup_keys : (cases.map fun c => c.id.key plan.abi).Nodup := by
  have hkeys : ((cases.map (·.id)).map (·.key plan.abi)).Nodup := by
    apply hids.map
    exact fun a b => TestId.key_injective
  rwa [List.map_map] at hkeys

/-- Only one place of the suite has the id. -/
theorem index_unique {i k : Nat} {c d : TestCase} (hi : cases[i]? = some c)
    (hk : cases[k]? = some d) (h : c.id = d.id) : i = k := by
  obtain ⟨hlt, -⟩ := List.getElem?_eq_some_iff.1 hi
  apply (List.getElem?_inj (by simpa using hlt) hids).1
  rw [List.getElem?_map, List.getElem?_map, hi, hk]
  exact congrArg some h

section Turn

variable {i : Nat} {c : TestCase} (hi : cases[i]? = some c)

include hi

/-- The turn of another test leaves the log alone. -/
theorem log?_midway_succ {k : Nat} (hne : k ≠ i) :
    (midway o plan device n cases b s (k + 1)).outbox.log? (c.id.key plan.abi) =
      (midway o plan device n cases b s k).outbox.log? (c.id.key plan.abi) := by
  cases hk : cases[k]? with
  | none => rw [midway_succ_of_none o plan device n b s hk]
  | some d =>
      rw [midway_succ o plan device n b s hk]
      apply log?_runCase_of_ne
      intro heq
      exact hne (index_unique hids hi hk (TestId.key_injective heq)).symm

/-- From one moment to another the log stays the same, unless its test has its turn. -/
theorem log?_midway_of_le {j k : Nat} (hjk : j ≤ k) (hturn : i < j ∨ k ≤ i) :
    (midway o plan device n cases b s k).outbox.log? (c.id.key plan.abi) =
      (midway o plan device n cases b s j).outbox.log? (c.id.key plan.abi) := by
  induction hjk with
  | refl => rfl
  | @step k hjk ih =>
      have hle : j ≤ k := hjk
      have hne : k ≠ i := by omega
      rw [log?_midway_succ o plan device n b s hids hi hne]
      apply ih
      omega

theorem log?_midway (k : Nat) :
    (midway o plan device n cases b s k).outbox.log? (c.id.key plan.abi) =
      if k ≤ i then none
      else (runSuite o plan device n cases b s).progress.outbox.log? (c.id.key plan.abi) := by
  split
  · rename_i hk
    rw [log?_midway_of_le o plan device n b s hids hi (Nat.zero_le k) (Or.inr hk),
      midway_zero, Progress.outbox_opened]
    rfl
  · rename_i hk
    obtain ⟨hlt, -⟩ := List.getElem?_eq_some_iff.1 hi
    have hlast : (midway o plan device n cases b s (max k cases.length)).outbox =
        (casesRun o plan device n cases b s).2.outbox := by
      rw [midway_of_length_le o plan device n cases b s (Nat.le_max_right _ _)]
    rw [log?_runSuite, ← hlast]
    symm
    apply log?_midway_of_le o plan device n b s hids hi (Nat.le_max_left _ _)
    exact Or.inl (Nat.lt_of_not_le hk)

end Turn

theorem keptApart_runSuite : KeptApart o plan device n cases b s := by
  have hkeys := nodup_keys plan hids
  refine ⟨hkeys, ?_, fun i c k hi => log?_midway o plan device n b s hids hi k⟩
  intro key log hlog
  have hreported := reported_reporting o plan device n cases b s
  rw [← log?_reporting] at hlog
  obtain ⟨slot, hslot, rfl⟩ := Option.map_eq_some_iff.1 hlog
  refine ⟨hreported.filed.key_eq hslot, ?_⟩
  obtain ⟨r, hr, hkey, -⟩ := hreported.owed _ (hreported.filed.mem_iff.2 hslot)
  have hid : r.id ∈ cases.map (·.id) := by
    rw [← ids_casesRun o plan device n cases b s]
    exact List.mem_map_of_mem hr
  obtain ⟨c, hc, hcid⟩ := List.mem_map.1 hid
  have howned : c.id.key plan.abi = key := by
    rw [hcid]
    exact hkey.symm
  have hmem : key ∈ cases.map fun c => c.id.key plan.abi := List.mem_map.2 ⟨c, hc, howned⟩
  obtain ⟨i, hi⟩ := List.mem_iff_getElem?.1 hmem
  refine ⟨i, hi, ?_⟩
  intro j hj
  obtain ⟨hlt, -⟩ := List.getElem?_eq_some_iff.1 hj
  exact (List.getElem?_inj hlt hkeys).1 (hj.trans hi.symm)

end Suite

/-! ## Tests and their texts -/

theorem nodup_ids_of_texts {cases : List TestCase}
    (h : (cases.map fun c => c.id.text).Nodup) : (cases.map (·.id)).Nodup := by
  apply List.Nodup.of_map TestId.text
  rwa [List.map_map]

/-- What the registry accepts has no text twice. -/
theorem nodup_texts_of_casesOf {entries : List Entry} {cases : List TestCase}
    (h : casesOf entries = .ok cases) : (cases.map fun c => c.id.text).Nodup := by
  have htexts : ((cases.map (·.id)).map TestId.text).Nodup := by
    apply (Suite.casesOf_spec h).2.map
    exact fun a b => TestId.text_injective
  rwa [List.map_map] at htexts

/-- The logs under two keys are two logs. -/
theorem key_eq_of_log? {o : Outbox} (ho : o.Reached) {key key' : TestKey} {log : Log}
    (h : o.log? key = some log) (h' : o.log? key' = some log) : key = key' := by
  obtain ⟨slot, hslot, rfl⟩ := Option.map_eq_some_iff.1 h
  obtain ⟨slot', hslot', hlog⟩ := Option.map_eq_some_iff.1 h'
  rw [← ho.filed.key_eq hslot, ← ho.filed.key_eq hslot', hlog]

/-- A key and an id are read from just the texts with one separator inside, and give the
text back; an id is read from its own text, and from that written as JSON.  So ids with
one text are one id, and keys of ids are told apart by the ids and the ABIs.  Two keys may
be shown by one text, but only if the ABIs differ.  Logs are filed by keys and not by these
texts: no outbox has one log under two keys, and no operation changes a log that is filed
under another key.  A suite made by the registry has no text twice, and with no text twice
a run keeps the logs of its tests apart. -/
theorem tests_told_by_texts :
    (∀ text abi,
      ((∃ key, TestKey.ofText? text abi = some key) ↔ Separated text) ∧
      ((∃ id, TestId.ofText? text = some id) ↔ Separated text) ∧
      (∀ key, TestKey.ofText? text abi = some key → key.classMethod = text ∧ key.abi = abi) ∧
      ∀ id, TestId.ofText? text = some id → id.text = text) ∧
    (∀ id : TestId, TestId.ofText? id.text = some id ∧
      (∀ v, Entry.idOfJson? v = some id ↔ v = .string id.text) ∧
      ∀ style, (Json.ofText? ((Json.string id.text).print style)).bind Entry.idOfJson? =
        some id) ∧
    (∀ a b : TestId, a = b ↔ a.text = b.text) ∧
    (∀ (a b : TestId) (abi abi' : String), a.key abi = b.key abi' ↔ a = b ∧ abi = abi') ∧
    (∀ (a b : TestId) (abi : String), (a.key abi).display = (b.key abi).display → a = b) ∧
    (∃ (a b : TestId) (abi abi' : String),
      a ≠ b ∧ (a.key abi).display = (b.key abi').display) ∧
    (∀ o : Outbox, o.Reached → ∀ key key' log,
      o.log? key = some log → o.log? key' = some log → key = key') ∧
    (∀ {σ : Type} (c : Collector σ) (h : History σ) (ops : List Operation) (key : TestKey),
      (∀ op ∈ ops, op.key? ≠ some key) → (h.run c ops).outbox.log? key = h.outbox.log? key) ∧
    (∀ entries cases, casesOf entries = .ok cases → (cases.map fun c => c.id.text).Nodup) ∧
    ∀ {σ : Type} (o : Outlets σ) (plan : Plan) (device : Profile) (n : Naming)
      (cases : List TestCase) (b : Bench) (s : σ), (cases.map fun c => c.id.text).Nodup →
      KeptApart o plan device n cases b s := by
  refine ⟨fun text abi => ?_, fun id => ?_, fun a b => ?_,
    fun a b abi abi' => TestId.key_eq_key_iff, fun a b abi => TestId.eq_of_display_key, ?_,
    fun o ho key key' log => key_eq_of_log? ho,
    fun c h ops key => History.log?_run_of_ne c h,
    fun entries cases => nodup_texts_of_casesOf, ?_⟩
  · exact ⟨TestKey.exists_ofText?_iff, TestId.exists_ofText?_iff,
      fun key => TestKey.classMethod_of_ofText?, fun id => TestId.text_of_ofText?⟩
  · refine ⟨id.ofText?_text, fun v => Entry.idOfJson?_eq_some_iff, fun style => ?_⟩
    apply (Entry.faithful_id id).ofText
    exact Nat.zero_le _
  · exact ⟨congrArg TestId.text, TestId.text_injective⟩
  · exact ⟨TestId.longId, TestId.shortId, "arm", "arm eabi", by decide, TestId.display_longId⟩
  · intro σ o plan device n cases b s htexts
    exact keptApart_runSuite o plan device n b s (nodup_ids_of_texts htexts)

/-- Two tests whose keys are shown by one text have a log each, of which one stays empty
while the other is written and sent; and a suite of two tests is kept apart. -/
theorem tests_told_by_texts_shown_alike :
    let short := TestId.shortId.key "arm eabi"
    let long := TestId.longId.key "arm"
    let now := Time.Timestamp.ofMillis 0
    let both := (History.start Report.Mailbox.empty).run Collector.inMemory
      [.beginTest short now, .beginTest long now]
    let after := both.run Collector.inMemory
      [.record long ⟨"level", .single (.ofNat 7), .none, .neutral⟩ now, .flush ⟨"batch", now⟩]
    long.display = short.display ∧
      both.outbox.log? long ≠ some (.start short now) ∧
      after.outbox.log? short = some (.start short now) ∧
      ∃ cases, casesOf [Suite.plainLink, Suite.anySearch] = .ok cases ∧
        KeptApart inMemory ⟨"cts", "arm64", .standard⟩ slowDevice.profile
          ⟨"suite", "batch", 0⟩ cases (benchAt 0 slowDevice) .empty := by
  intro short long now both after
  obtain ⟨-, -, -, hkeys, -, -, hone, hother, htexts, hapart⟩ := tests_told_by_texts
  have hne : short ≠ long := by
    intro heq
    exact absurd ((hkeys ..).1 heq).1 (by decide)
  have hboth : both.outbox.log? short = some (.start short now) := by decide +kernel
  refine ⟨TestId.display_longId, ?_, ?_, ?_⟩
  · intro hlong
    have hreached : both.outbox.Reached :=
      (Outbox.Reached.empty.beginTest short now).beginTest long now
    exact hne (hone both.outbox hreached short long _ hboth hlong)
  · rw [← hboth]
    apply hother
    intro op hop
    simp only [List.mem_cons, List.not_mem_nil, or_false] at hop
    rcases hop with rfl | rfl
    · exact fun heq => hne (Option.some.inj heq).symm
    · exact nofun
  · refine ⟨_, rfl, ?_⟩
    apply hapart
    exact htexts [Suite.plainLink, Suite.anySearch] _ rfl

end Compliance.Run

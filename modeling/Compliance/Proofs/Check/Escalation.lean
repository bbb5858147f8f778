import Mathlib.Data.List.Range
import Compliance.Check.CancelToken

/-!
# Escalation

A token answers a signal by how many have reached it before, through whichever of its
handles.  The count has eight bits: after 256 signals the answers begin again.
-/

namespace Compliance.Check

/-- The answer to a signal, by the number of those before it. -/
def SignalAction.after : Nat → SignalAction
  | 0 => .initiateCancellation
  | 1 => .immediateExit
  | _ => .ignore

/-! ## Calls -/

inductive TokenCall where
  | cancel
  | signal

namespace CancelToken

/-- Only a signal is answered. -/
def take (t : CancelToken) : TokenCall → Option SignalAction × CancelToken
  | .cancel => (none, t.cancel)
  | .signal => (some t.signal.1, t.signal.2)

theorem signal_eq (t : CancelToken) :
    t.signal = (.after t.signals.toNat, ⟨t.isCancelled || t.signals == 0, t.signals + 1⟩) := by
  have hnumber (k : UInt8) : t.signals = k ↔ t.signals.toNat = k.toNat :=
    UInt8.toNat_inj.symm
  unfold signal
  split
  · rename_i hzero
    rw [hzero, beq_self_eq_true, Bool.or_true]
    rfl
  · rename_i hzero
    rw [beq_false_of_ne hzero, Bool.or_false]
    split
    · rename_i hone
      rw [hone]
      rfl
    · rename_i hone
      rw [hnumber] at hzero hone
      have hmany : SignalAction.after t.signals.toNat = .ignore := by
        match t.signals.toNat, hzero, hone with
        | _ + 2, _, _ => rfl
      rw [hmany]

end CancelToken

/-! ## What a token has counted -/

/-- The answers of one token among the calls of all tokens. -/
def answers (journal : List (Nat × Option SignalAction)) (i : Nat) : List SignalAction :=
  journal.filterMap fun e => if e.1 = i then e.2 else none

section Counting

variable {journal : List (Nat × Option SignalAction)} {i j : Nat} {t : CancelToken}

theorem answers_eq_nil (h : ∀ answer, (i, answer) ∉ journal) : answers journal i = [] := by
  rw [answers, List.filterMap_eq_nil_iff]
  rintro ⟨j, answer⟩ he
  apply if_neg
  rintro rfl
  exact h answer he

theorem answers_append_self (answer : Option SignalAction) :
    answers (journal ++ [(i, answer)]) i = answers journal i ++ answer.toList := by
  cases answer <;> simp [answers]

theorem answers_append_of_ne (h : j ≠ i) (answer : Option SignalAction) :
    answers (journal ++ [(j, answer)]) i = answers journal i := by
  simp [answers, h]

/-- The signals a token has answered are counted, and any call has cancelled it. -/
structure Counted (journal : List (Nat × Option SignalAction)) (i : Nat) (t : CancelToken) :
    Prop where
  answers : answers journal i =
    (List.range (answers journal i).length).map fun n => .after (n % 256)
  signals : t.signals.toNat = (Check.answers journal i).length % 256
  isCancelled : t.isCancelled = true ↔ ∃ answer, (i, answer) ∈ journal

namespace Counted

theorem fresh (h : ∀ answer, (i, answer) ∉ journal) : Counted journal i .fresh where
  answers := by
    rw [answers_eq_nil h]
    rfl
  signals := by
    rw [answers_eq_nil h]
    rfl
  isCancelled := by simp [CancelToken.fresh, h]

theorem cancel (h : Counted journal i t) : Counted (journal ++ [(i, none)]) i t.cancel where
  answers := by
    rw [answers_append_self, Option.toList_none, List.append_nil]
    exact h.answers
  signals := by
    rw [answers_append_self, Option.toList_none, List.append_nil]
    exact h.signals
  isCancelled := by simp

/-- A token that has counted back to zero is cancelled already. -/
theorem signal (h : Counted journal i t) :
    Counted (journal ++ [(i, some t.signal.1)]) i t.signal.2 where
  answers := by
    rw [answers_append_self, Option.toList_some, List.length_append, List.length_singleton,
      List.range_succ, List.map_append, ← h.answers, CancelToken.signal_eq, h.signals]
    rfl
  signals := by
    rw [answers_append_self, Option.toList_some, List.length_append, List.length_singleton,
      CancelToken.signal_eq, UInt8.toNat_add, h.signals, UInt8.toNat_one]
    exact Nat.mod_add_mod _ _ _
  isCancelled := by
    have hnow : ∃ answer, (i, answer) ∈ journal ++ [(i, some t.signal.1)] :=
      ⟨_, List.mem_append_right journal List.mem_cons_self⟩
    refine iff_of_true ?_ hnow
    rw [CancelToken.signal_eq, Bool.or_eq_true, beq_iff_eq]
    by_cases hzero : t.signals = 0
    · exact Or.inr hzero
    · refine Or.inl (h.isCancelled.2 ?_)
      by_contra hnone
      rw [not_exists] at hnone
      apply hzero
      rw [← UInt8.toNat_inj, h.signals, answers_eq_nil hnone]
      rfl

theorem take (h : Counted journal i t) (c : TokenCall) :
    Counted (journal ++ [(i, (t.take c).1)]) i (t.take c).2 := by
  cases c with
  | cancel => exact h.cancel
  | signal => exact h.signal

theorem of_ne (h : Counted journal i t) (hne : j ≠ i) (answer : Option SignalAction) :
    Counted (journal ++ [(j, answer)]) i t where
  answers := by
    rw [answers_append_of_ne hne]
    exact h.answers
  signals := by
    rw [answers_append_of_ne hne]
    exact h.signals
  isCancelled := by simp [h.isCancelled, hne.symm]

/-- The counter starts over with the 257th signal. -/
theorem escalates_iff (h : Counted journal i t) :
    Check.answers journal i =
        (List.range (Check.answers journal i).length).map SignalAction.after ↔
      (Check.answers journal i).length ≤ 256 := by
  have hlaw : Check.answers journal i =
        (List.range (Check.answers journal i).length).map SignalAction.after ↔
      ∀ n < (Check.answers journal i).length,
        SignalAction.after (n % 256) = SignalAction.after n := by
    conv_lhs =>
      lhs
      rw [h.answers]
    simp only [List.map_inj_left, List.mem_range]
  rw [hlaw]
  constructor
  · intro hall
    by_contra hmany
    exact absurd (hall 256 (Nat.lt_of_not_ge hmany)) (by decide)
  · intro hfew n hn
    rw [Nat.mod_eq_of_lt (hn.trans_le hfew)]

end Counted

end Counting

/-! ## Handles -/

/-- What is done with tokens: a new one with its first handle, another handle on the
same token, a call through a handle. -/
inductive TokenUse where
  | make
  | clone (handle : Nat)
  | call (handle : Nat) (c : TokenCall)

/-- Tokens and handles are numbered as they come. -/
structure Handling where
  tokens : List CancelToken
  /-- The token of each handle. -/
  handles : List Nat
  /-- The token of each call, and what it answered. -/
  journal : List (Nat × Option SignalAction)

namespace Handling

/-- A handle that there is not cannot be used. -/
def perform (s : Handling) : TokenUse → Handling
  | .make => { s with tokens := s.tokens ++ [.fresh], handles := s.handles ++ [s.tokens.length] }
  | .clone handle =>
      match s.handles[handle]? with
      | none => s
      | some i => { s with handles := s.handles ++ [i] }
  | .call handle c =>
      match s.handles[handle]? with
      | none => s
      | some i =>
          match s.tokens[i]? with
          | none => s
          | some t =>
              { s with
                tokens := s.tokens.set i (t.take c).2
                journal := s.journal ++ [(i, (t.take c).1)] }

def run (uses : List TokenUse) : Handling :=
  uses.foldl perform ⟨[], [], []⟩

structure Sound (s : Handling) : Prop where
  counted : ∀ i t, s.tokens[i]? = some t → Counted s.journal i t
  called : ∀ e ∈ s.journal, e.1 < s.tokens.length
  held : ∀ i ∈ s.handles, i < s.tokens.length

namespace Sound

variable {s : Handling}

theorem make (h : s.Sound) : (s.perform .make).Sound where
  counted := by
    intro i t ht
    simp only [perform, List.getElem?_append] at ht
    split at ht
    · exact h.counted i t ht
    · rename_i hnew
      rw [List.getElem?_singleton] at ht
      split at ht
      · cases ht
        exact .fresh fun answer he => hnew (h.called _ he)
      · cases ht
  called := by
    intro e he
    simp only [perform, List.length_append, List.length_singleton]
    exact Nat.lt_succ_of_lt (h.called e he)
  held := by
    intro i hi
    simp only [perform, List.length_append, List.length_singleton, List.mem_append,
      List.mem_singleton] at hi ⊢
    rcases hi with hi | rfl
    · exact Nat.lt_succ_of_lt (h.held i hi)
    · exact Nat.lt_succ_self _

theorem clone (h : s.Sound) (handle : Nat) : (s.perform (.clone handle)).Sound := by
  simp only [perform]
  split
  · exact h
  · rename_i i hi
    refine ⟨h.counted, h.called, ?_⟩
    intro j hj
    rcases List.mem_append.1 hj with hj | hj
    · exact h.held j hj
    · rw [List.mem_singleton.1 hj]
      exact h.held i (List.mem_of_getElem? hi)

theorem call (h : s.Sound) (handle : Nat) (c : TokenCall) :
    (s.perform (.call handle c)).Sound := by
  simp only [perform]
  split
  · exact h
  · rename_i i hi
    split
    · exact h
    · rename_i t ht
      constructor
      · intro j t' ht'
        rw [List.getElem?_set] at ht'
        split at ht'
        · rename_i hij
          subst hij
          split at ht'
          · cases ht'
            exact (h.counted i t ht).take c
          · cases ht'
        · rename_i hij
          exact (h.counted j t' ht').of_ne hij _
      · intro e he
        rw [List.length_set]
        rcases List.mem_append.1 he with he | he
        · exact h.called e he
        · rw [List.mem_singleton.1 he]
          exact h.held i (List.mem_of_getElem? hi)
      · intro j hj
        rw [List.length_set]
        exact h.held j hj

theorem perform (h : s.Sound) (use : TokenUse) : (s.perform use).Sound := by
  cases use with
  | make => exact h.make
  | clone handle => exact h.clone handle
  | call handle c => exact h.call handle c

theorem run (uses : List TokenUse) : (Handling.run uses).Sound := by
  suffices hall : ∀ s : Handling, s.Sound → (uses.foldl Handling.perform s).Sound from
    hall _ ⟨by simp, by simp, by simp⟩
  induction uses with
  | nil => exact fun s h => h
  | cons use uses ih => exact fun s h => ih _ (h.perform use)

end Sound

/-- Through whichever handles the signals come, their token answers each by the number
of those before it modulo 256, which is that number for the first 256 only.  It is
cancelled from the first call on. -/
theorem signal_run (uses : List TokenUse) {handle i : Nat}
    (h : (run uses).handles[handle]? = some i) :
    let s := run uses
    let n := (answers s.journal i).length
    answers s.journal i = (List.range n).map (fun k => .after (k % 256)) ∧
      answers (s.perform (.call handle .signal)).journal i =
        answers s.journal i ++ [.after (n % 256)] ∧
      (answers s.journal i = (List.range n).map .after ↔ n ≤ 256) ∧
      ∃ t, s.tokens[i]? = some t ∧
        (t.isCancelled = true ↔ ∃ answer, (i, answer) ∈ s.journal) := by
  intro s n
  have hs : s.Sound := .run uses
  have hlt := hs.held i (List.mem_of_getElem? h)
  have ht : s.tokens[i]? = some s.tokens[i] := List.getElem?_eq_getElem hlt
  have hcounted := hs.counted i _ ht
  refine ⟨hcounted.answers, ?_, hcounted.escalates_iff, _, ht, hcounted.isCancelled⟩
  have hcall : (s.perform (.call handle .signal)).journal =
      s.journal ++ [(i, some (.after (n % 256)))] := by
    simp only [Handling.perform]
    rw [h]
    simp only [ht, CancelToken.take, CancelToken.signal_eq, hcounted.signals]
    rfl
  rw [hcall, answers_append_self]
  rfl

/-- Two handles on a token, and pairs of signals through the two. -/
def pairsOfSignals (n : Nat) : List TokenUse :=
  [.make, .clone 0] ++ (List.replicate n [.call 0 .signal, .call 1 .signal]).flatten

theorem signal_run_pair :
    let s := run (pairsOfSignals 1)
    s.handles[1]? = some 0 ∧
      answers (s.perform (.call 1 .signal)).journal 0 =
        [.initiateCancellation, .immediateExit, .ignore] := by
  have hheld : (run (pairsOfSignals 1)).handles[1]? = some 0 := rfl
  exact ⟨hheld, (signal_run (pairsOfSignals 1) hheld).2.1⟩

/-- The first of the 129th pair is not ignored. -/
theorem not_forall_answers_eq_map_after :
    ¬ ∀ uses i, answers (run uses).journal i =
      (List.range (answers (run uses).journal i).length).map .after := by
  intro hall
  have htoken : (run (pairsOfSignals 129)).tokens[0]? = some ⟨true, 2⟩ := by decide +kernel
  have hcount : (answers (run (pairsOfSignals 129)).journal 0).length = 258 := by decide +kernel
  have hfew := ((Sound.run _).counted 0 _ htoken).escalates_iff.1 (hall _ 0)
  rw [hcount] at hfew
  exact absurd hfew (by decide)

end Handling

end Compliance.Check

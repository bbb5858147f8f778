import Mathlib.Data.List.Nodup
import Compliance.Device.Desk
import Compliance.Proofs.Device.Session
import Compliance.Proofs.SortedMaps

/-!
# Exclusive sessions

Whatever is done at a desk and in whatever order, a capability is held by one
session at most, and the platform holds exactly what is held by the sessions
that were opened and have not ended.
-/

namespace Compliance.Device

/-! ## What the platform grants -/

/-- The platform holds these capabilities, each of them once. -/
structure Platform.Grants (p : Platform) (cs : List Capability) : Prop where
  held : p.held.members.Perm cs
  nodup : cs.Nodup
  available : ∀ c ∈ cs, c ∈ p.available.members

namespace Platform.Grants

variable {p p' : Platform} {cs : List Capability}

theorem congr (h : p.Grants cs) (hheld : p'.held = p.held)
    (havailable : p'.available = p.available) : p'.Grants cs := by
  refine ⟨?_, h.nodup, ?_⟩
  · rw [hheld]
    exact h.held
  · rw [havailable]
    exact h.available

theorem acquire (h : p.Grants cs) {c : Capability} {s : Session}
    (ha : p.acquire c = .ok (s, p')) : p'.Grants (cs ++ [c]) := by
  obtain ⟨havailable, hfree, -, rfl⟩ := Platform.acquire_eq_ok.1 ha
  have hnew : c ∉ cs := fun hc => hfree (h.held.mem_iff.2 hc)
  constructor
  · have hadd := Ordered.add_perm hfree
    exact (hadd.trans (h.held.cons c)).trans (List.perm_append_singleton c cs).symm
  · rw [List.nodup_append]
    refine ⟨h.nodup, by simp, ?_⟩
    rintro a ha b hb rfl
    rw [List.mem_singleton] at hb
    exact hnew (hb ▸ ha)
  · intro a ha
    rcases List.mem_append.1 ha with ha | ha
    · exact h.available a ha
    · rw [List.mem_singleton.1 ha]
      exact havailable

/-- Closing gives back what the session holds, and that is nothing when it was
closed before. -/
theorem close (h : p.Grants cs) (s : Session) :
    (s.close p).2.Grants (cs.filter (· ∉ s.holding)) := by
  cases ho : s.isOpen with
  | false =>
      rw [Session.close_of_closed ho]
      simpa [Session.holding, ho] using h
  | true =>
      have hfilter : cs.filter (· ∉ s.holding) = cs.filter (· != s.capability) :=
        List.filter_congr fun c _ => by
          rw [Bool.eq_iff_iff]
          simp [Session.holding, ho]
      refine ⟨?_, h.nodup.filter _, ?_⟩
      · rw [hfilter]
        simpa [Session.close, ho, giveBack] using h.held.filter (· != s.capability)
      · intro c hc
        simpa [Session.close, ho, giveBack] using h.available c (List.mem_of_mem_filter hc)

end Platform.Grants

/-! ## Sessions under names -/

namespace Desk

variable {d d' : Desk} {name other : String} {s : Session} {p : Platform}

/-- What the session of a name holds. -/
def holding (d : Desk) (name : String) : List Capability :=
  ((d.session? name).map Session.holding).getD []

theorem mem_holding {c : Capability} :
    c ∈ d.holding name ↔
      ∃ s, d.session? name = some s ∧ s.isOpen = true ∧ s.capability = c := by
  cases hs : d.session? name <;> simp [holding, hs]

theorem holding_of_some (h : d.session? name = some s) : d.holding name = s.holding := by
  simp [holding, h]

theorem holding_of_none (h : d.session? name = none) : d.holding name = [] := by
  simp [holding, h]

@[simp] theorem session?_put_self : (d.put name s p).session? name = some s :=
  Ordered.find?_put_self name s d.sessions

theorem session?_put_of_ne (h : other ≠ name) :
    (d.put name s p).session? other = d.session? other :=
  Ordered.find?_put_of_ne h s d.sessions

theorem holding_put_self : (d.put name s p).holding name = s.holding :=
  holding_of_some session?_put_self

theorem holding_put_of_ne (h : other ≠ name) :
    (d.put name s p).holding other = d.holding other := by
  rw [holding, session?_put_of_ne h, holding]

theorem acquire_eq_error {c : Capability} {e : PlatformError} :
    d.acquire name c = .error e ↔ d.platform.acquire c = .error e := by
  unfold acquire
  cases d.platform.acquire c with
  | error e' => simp [bind, Except.bind]
  | ok out =>
      cases hs : d.session? name <;> simp [bind, Except.bind, pure, Except.pure]

/-- The session that had the name is dropped after the new one is open. -/
theorem acquire_eq_ok {c : Capability} :
    d.acquire name c = .ok d' ↔
      ∃ s p, d.platform.acquire c = .ok (s, p) ∧
        d' = d.put name s (((d.session? name).map fun old => (old.close p).2).getD p) := by
  unfold acquire
  cases d.platform.acquire c with
  | error e => simp [bind, Except.bind]
  | ok out =>
      obtain ⟨s, p⟩ := out
      cases hs : d.session? name <;>
        simp [bind, Except.bind, pure, Except.pure, eq_comm]

theorem acquire_eq_unavailable {c : Capability} :
    d.acquire name c = .error (.unavailable c) ↔ c ∉ d.platform.available.members :=
  acquire_eq_error.trans Platform.acquire_eq_unavailable

theorem acquire_eq_busy {c : Capability} :
    d.acquire name c = .error (.busy c) ↔
      c ∈ d.platform.available.members ∧ d.platform.isHeld c = true := by
  rw [acquire_eq_error, Platform.acquire_eq_busy, Platform.isHeld_iff]

theorem exists_acquire_eq_ok {c : Capability} :
    (∃ desk, d.acquire name c = .ok desk) ↔
      c ∈ d.platform.available.members ∧ d.platform.isHeld c = false := by
  rw [← Bool.not_eq_true, Platform.isHeld_iff]
  constructor
  · rintro ⟨desk, ha⟩
    obtain ⟨s, p, hp, -⟩ := acquire_eq_ok.1 ha
    obtain ⟨havailable, hfree, -⟩ := Platform.acquire_eq_ok.1 hp
    exact ⟨havailable, hfree⟩
  · rintro ⟨havailable, hfree⟩
    exact ⟨_, acquire_eq_ok.2
      ⟨_, _, Platform.acquire_eq_ok.2 ⟨havailable, hfree, rfl, rfl⟩, rfl⟩⟩

theorem send_of_closed (h : d.session? name = some s) (ho : s.isOpen = false) (r : Request) :
    d.send name r = .error (.platform .closed) := by
  simp [send, h, Session.send_of_closed ho]

theorem send_of_open (h : d.session? name = some s) (ho : s.isOpen = true) (r : Request) :
    ∃ desk, d.send name r = .ok desk ∧
      desk.platform.requests = d.platform.requests ++ [r] := by
  refine ⟨d.put name { s with queue := enqueueAll (d.platform.answersTo r d.clock) s.queue }
    { d.platform with requests := d.platform.requests ++ [r] }, ?_, rfl⟩
  simp [send, h, Session.send_of_open ho]

end Desk

/-! ## What is done at a desk -/

inductive Deed where
  | acquire (name : String) (c : Capability)
  | send (name : String) (r : Request)
  | next (name : String) (wait : Nat)
  | close (name : String)
  | drop (name : String)

/-- What becomes of a session: it is opened on a capability, and it ends when it
is closed or dropped. -/
inductive Change where
  | opened (name : String) (c : Capability)
  | ended (name : String)

/-- The sessions that were opened and have not ended. -/
def holders (changes : List Change) : List (String × Capability) :=
  changes.foldl (fun holders change =>
    match change with
    | .opened name c => holders ++ [(name, c)]
    | .ended name => holders.filter (·.1 != name)) []

theorem holders_ended (changes : List Change) (name : String) :
    holders (changes ++ [.ended name]) = (holders changes).filter (·.1 != name) := by
  simp [holders]

theorem holders_opened (changes : List Change) (name : String) (c : Capability) :
    holders (changes ++ [.ended name, .opened name c]) =
      (holders changes).filter (·.1 != name) ++ [(name, c)] := by
  simp [holders]

/-- A desk and what has become of its sessions. -/
structure Diary where
  desk : Desk
  changes : List Change

namespace Diary

def start (device : Script) : Diary :=
  ⟨.ofScript device, []⟩

/-- A deed that fails changes nothing.  Opening a session drops the one that had
its name. -/
def perform (d : Diary) : Deed → Diary
  | .acquire name c =>
      match d.desk.acquire name c with
      | .ok desk => ⟨desk, d.changes ++ [.ended name, .opened name c]⟩
      | .error _ => d
  | .send name r =>
      match d.desk.send name r with
      | .ok desk => { d with desk := desk }
      | .error _ => d
  | .next name wait =>
      match d.desk.next name wait with
      | .ok (_, desk) => { d with desk := desk }
      | .error _ => d
  | .close name =>
      match d.desk.close name with
      | .ok desk => ⟨desk, d.changes ++ [.ended name]⟩
      | .error _ => d
  | .drop name =>
      match d.desk.drop name with
      | (true, desk) => ⟨desk, d.changes ++ [.ended name]⟩
      | (false, _) => d

def run (device : Script) (deeds : List Deed) : Diary :=
  deeds.foldl perform (start device)

/-- The desk agrees with what has become of its sessions. -/
structure Agrees (device : Script) (d : Diary) : Prop where
  available : d.desk.platform.available = device.profile.capabilities
  mem_holders : ∀ name c, (name, c) ∈ holders d.changes ↔ c ∈ d.desk.holding name
  grants : d.desk.platform.Grants ((holders d.changes).map (·.2))
  inOrder : ∀ name s, d.desk.session? name = some s → s.InOrder

namespace Agrees

variable {device : Script} {d : Diary}

theorem start (device : Script) : (Diary.start device).Agrees device where
  available := rfl
  mem_holders := by simp [Diary.start, holders, Desk.holding, Desk.session?, Desk.ofScript]
  grants := ⟨.refl _, by simp [Diary.start, holders], by simp [Diary.start, holders]⟩
  inOrder := by simp [Diary.start, Desk.session?, Desk.ofScript]

/-- No two sessions hold the same capability, and so what the others hold does
not change when one ends. -/
theorem map_filter_holders (h : d.Agrees device) (name : String) :
    ((holders d.changes).filter (·.1 != name)).map (·.2) =
      ((holders d.changes).map (·.2)).filter (· ∉ d.desk.holding name) := by
  rw [List.filter_map]
  congr 1
  apply List.filter_congr
  rintro ⟨other, c⟩ he
  have hname : other = name ↔ c ∈ d.desk.holding name := by
    rw [← h.mem_holders]
    constructor
    · rintro rfl
      exact he
    · intro hc
      have hsame := List.inj_on_of_nodup_map h.grants.nodup he hc rfl
      exact congrArg Prod.fst hsame
  rw [Bool.eq_iff_iff]
  simp [hname]

/-- A session that sends or waits holds what it held. -/
theorem kept (h : d.Agrees device) {name : String} {s s' : Session} {desk : Desk}
    (hs : d.desk.session? name = some s) (hs' : desk.session? name = some s')
    (hother : ∀ other, other ≠ name → desk.session? other = d.desk.session? other)
    (hholding : s'.holding = s.holding) (horder : s'.InOrder)
    (hheld : desk.platform.held = d.desk.platform.held)
    (havailable : desk.platform.available = d.desk.platform.available) :
    ({ d with desk := desk } : Diary).Agrees device := by
  refine ⟨havailable.trans h.available, ?_, h.grants.congr hheld havailable, ?_⟩
  · intro other c
    rw [h.mem_holders]
    by_cases hname : other = name
    · rw [hname, Desk.holding_of_some hs, Desk.holding_of_some hs', hholding]
    · simp only [Desk.holding, hother other hname]
  · intro other s'' hs''
    by_cases hname : other = name
    · subst hname
      cases hs'.symm.trans hs''
      exact horder
    · exact h.inOrder other s'' ((hother other hname).symm.trans hs'')

theorem ended (h : d.Agrees device) {name : String} {s : Session} {desk : Desk}
    (hs : d.desk.session? name = some s)
    (hplatform : desk.platform = (s.close d.desk.platform).2)
    (hself : desk.holding name = [])
    (hother : ∀ other, other ≠ name → desk.session? other = d.desk.session? other)
    (horder : ∀ s', desk.session? name = some s' → s'.InOrder) :
    (⟨desk, d.changes ++ [.ended name]⟩ : Diary).Agrees device := by
  constructor
  · rw [hplatform, s.available_close]
    exact h.available
  · intro other c
    rw [holders_ended, List.mem_filter, h.mem_holders]
    by_cases hname : other = name
    · subst hname
      simp [hself]
    · simp [hname, Desk.holding, hother other hname]
  · rw [holders_ended, h.map_filter_holders, Desk.holding_of_some hs, hplatform]
    exact h.grants.close s
  · intro other s' hs'
    by_cases hname : other = name
    · subst hname
      exact horder s' hs'
    · exact h.inOrder other s' ((hother other hname).symm.trans hs')

theorem opened (h : d.Agrees device) {name : String} {c : Capability} {desk : Desk}
    (ha : d.desk.acquire name c = .ok desk) :
    (⟨desk, d.changes ++ [.ended name, .opened name c]⟩ : Diary).Agrees device := by
  obtain ⟨s, p, hp, rfl⟩ := Desk.acquire_eq_ok.1 ha
  have hgrants := h.grants.acquire hp
  have horder := Session.InOrder.acquire hp
  obtain ⟨-, hfree, rfl, rfl⟩ := Platform.acquire_eq_ok.1 hp
  have hnew : c ∉ d.desk.holding name := by
    intro hc
    have hmem := List.mem_map_of_mem (f := (·.2)) ((h.mem_holders name c).2 hc)
    exact hfree (h.grants.held.mem_iff.2 hmem)
  constructor
  · cases d.desk.session? name with
    | none => exact h.available
    | some old => exact (old.available_close _).trans h.available
  · intro other c'
    rw [holders_opened, List.mem_append, List.mem_filter, h.mem_holders]
    by_cases hname : other = name
    · subst hname
      simp [Desk.holding_put_self, Session.holding]
    · simp [hname, Desk.holding_put_of_ne hname]
  · rw [holders_opened, List.map_append, h.map_filter_holders]
    cases hold : d.desk.session? name with
    | none =>
        simpa [Desk.holding_of_none hold, Desk.put] using hgrants
    | some old =>
        rw [Desk.holding_of_some hold] at hnew ⊢
        have hlast : [c].filter (· ∉ old.holding) = [c] := by
          rw [List.filter_singleton, decide_eq_true hnew]
          rfl
        have hclosed := hgrants.close old
        rw [List.filter_append, hlast] at hclosed
        exact hclosed
  · intro other s' hs'
    by_cases hname : other = name
    · subst hname
      cases Desk.session?_put_self.symm.trans hs'
      exact horder
    · exact h.inOrder other s' ((Desk.session?_put_of_ne hname).symm.trans hs')

theorem perform (h : d.Agrees device) (deed : Deed) : (d.perform deed).Agrees device := by
  cases deed with
  | acquire name c =>
      simp only [Diary.perform]
      split
      · rename_i desk ha
        exact h.opened ha
      · exact h
  | send name r =>
      simp only [Diary.perform, Desk.send]
      cases hs : d.desk.session? name with
      | none => exact h
      | some s =>
          cases hsend : s.send r d.desk.clock d.desk.platform with
          | error e => simpa [hsend] using h
          | ok out =>
              obtain ⟨s', p⟩ := out
              have horder := (h.inOrder name s hs).send hsend
              obtain ⟨-, rfl, rfl⟩ := Session.send_eq_ok.1 hsend
              simp only [hsend]
              exact h.kept hs Desk.session?_put_self (fun _ => Desk.session?_put_of_ne) rfl
                horder rfl rfl
  | next name wait =>
      simp only [Diary.perform, Desk.next]
      cases hs : d.desk.session? name with
      | none => exact h
      | some s =>
          obtain ⟨hcapability, hopen⟩ := s.next_keeps wait d.desk.clock
          exact h.kept hs (Desk.session?_put_self (p := d.desk.platform))
            (fun _ => Desk.session?_put_of_ne (p := d.desk.platform))
            (Session.holding_congr hcapability hopen)
            ((h.inOrder name s hs).next wait d.desk.clock) rfl rfl
  | close name =>
      simp only [Diary.perform, Desk.close]
      cases hs : d.desk.session? name with
      | none => exact h
      | some s =>
          refine h.ended hs rfl ?_ (fun _ => Desk.session?_put_of_ne) ?_
          · rw [Desk.holding_put_self, s.holding_close]
          · intro s' hs'
            cases Desk.session?_put_self.symm.trans hs'
            exact (h.inOrder name s hs).close _
  | drop name =>
      simp only [Diary.perform, Desk.drop]
      cases hs : d.desk.session? name with
      | none => exact h
      | some s =>
          have hfilter : ∀ other, Ordered.find? other (d.desk.sessions.filter (·.1 != name)) =
              if other = name then none else d.desk.session? other :=
            fun other => Ordered.find?_filter_ne name other d.desk.sessions
          refine h.ended hs rfl ?_ ?_ ?_
          · exact Desk.holding_of_none ((hfilter name).trans (if_pos rfl))
          · intro other hname
            exact (hfilter other).trans (if_neg hname)
          · intro s' hs'
            cases ((hfilter name).trans (if_pos rfl)).symm.trans hs'

theorem foldl (h : d.Agrees device) (deeds : List Deed) :
    (deeds.foldl Diary.perform d).Agrees device := by
  induction deeds generalizing d with
  | nil => exact h
  | cons deed deeds ih => exact ih (h.perform deed)

theorem run (device : Script) (deeds : List Deed) : (Diary.run device deeds).Agrees device :=
  (start device).foldl deeds

theorem openHandles_eq (h : d.Agrees device) :
    d.desk.platform.openHandles = (holders d.changes).length := by
  have hlength := h.grants.held.length_eq
  rwa [List.length_map] at hlength

theorem isHeld_iff (h : d.Agrees device) {c : Capability} :
    d.desk.platform.isHeld c = true ↔ ∃ name, (name, c) ∈ holders d.changes := by
  rw [Platform.isHeld_iff, h.grants.held.mem_iff]
  simp

end Agrees

/-- Whatever has been done, events wait in the order in which they are due. -/
theorem inOrder_run (device : Script) (deeds : List Deed) {name : String} {s : Session}
    (hs : (run device deeds).desk.session? name = some s) : s.InOrder :=
  (Agrees.run device deeds).inOrder name s hs

end Diary

/-- After any deeds at a desk, the capabilities that the platform holds are
those of the sessions that were opened and have not ended, no two of them the
same.  Only an available capability that none of them holds is opened, and a
session that has ended neither sends nor gives back anything. -/
theorem sessions_exclusive (device : Script) (deeds : List Deed) :
    let d := Diary.run device deeds
    let p := d.desk.platform
    let open_ := holders d.changes
    (p.openHandles = open_.length ∧ (open_.map (·.2)).Nodup ∧
      ∀ e ∈ open_, e.2 ∈ device.profile.capabilities.members) ∧
    (∀ name c, (name, c) ∈ open_ ↔
      ∃ s, d.desk.session? name = some s ∧ s.isOpen = true ∧ s.capability = c) ∧
    (∀ c, p.isHeld c = true ↔ ∃ name, (name, c) ∈ open_) ∧
    (∀ name c,
      (d.desk.acquire name c = .error (.unavailable c) ↔
        c ∉ device.profile.capabilities.members) ∧
      (d.desk.acquire name c = .error (.busy c) ↔
        c ∈ device.profile.capabilities.members ∧ p.isHeld c = true) ∧
      ((∃ desk, d.desk.acquire name c = .ok desk) ↔
        c ∈ device.profile.capabilities.members ∧ p.isHeld c = false)) ∧
    (∀ name s, d.desk.session? name = some s → s.isOpen = false →
      (∀ r, d.desk.send name r = .error (.platform .closed) ∧ d.perform (.send name r) = d) ∧
      (d.perform (.close name)).desk.platform = p ∧
      (d.perform (.drop name)).desk.platform = p) ∧
    ∀ name s, d.desk.session? name = some s → s.isOpen = true →
      ∀ r, ∃ desk, d.desk.send name r = .ok desk ∧
        desk.platform.requests = p.requests ++ [r] := by
  intro d p open_
  have h := Diary.Agrees.run device deeds
  have havailable : d.desk.platform.available = device.profile.capabilities := h.available
  refine ⟨⟨h.openHandles_eq, h.grants.nodup, ?_⟩, ?_, fun c => h.isHeld_iff, ?_, ?_, ?_⟩
  · intro e he
    rw [← havailable]
    exact h.grants.available e.2 (List.mem_map_of_mem he)
  · intro name c
    exact (h.mem_holders name c).trans Desk.mem_holding
  · intro name c
    rw [← havailable]
    exact ⟨Desk.acquire_eq_unavailable, Desk.acquire_eq_busy, Desk.exists_acquire_eq_ok⟩
  · intro name s hs ho
    refine ⟨fun r => ?_, ?_, ?_⟩
    · have hsend := Desk.send_of_closed hs ho r
      exact ⟨hsend, by simp [Diary.perform, hsend]⟩
    · simp [Diary.perform, Desk.close, hs, Session.close_of_closed ho, Desk.put, p]
    · simp [Diary.perform, Desk.drop, hs, Session.close_of_closed ho, p]
  · intro name s hs ho
    exact Desk.send_of_open hs ho

end Compliance.Device

import Compliance.Device.Session

/-!
# A desk of sessions

Any number of sessions on one platform, each under a name.
-/

namespace Compliance.Device

structure Desk where
  platform : Platform
  clock : Nat
  /-- Sessions in name order, closed ones included. -/
  sessions : List (String × Session)

inductive DeskError where
  | noSession
  | platform (e : PlatformError)
  deriving DecidableEq

namespace Desk

def ofScript (s : Script) : Desk :=
  ⟨.ofScript s, 0, []⟩

def session? (d : Desk) (name : String) : Option Session :=
  Ordered.find? name d.sessions

def put (d : Desk) (name : String) (s : Session) (p : Platform) : Desk :=
  { d with sessions := Ordered.put name s d.sessions, platform := p }

/-- Opens a session under a name.  A session that had the name is dropped, but
only when the new one is open. -/
def acquire (d : Desk) (name : String) (c : Capability) :
    Except PlatformError Desk := do
  let (s, p) ← d.platform.acquire c
  match d.session? name with
  | some old => return d.put name s (old.close p).2
  | none => return d.put name s p

/-- Drops the session of a name; an open session is closed first. -/
def drop (d : Desk) (name : String) : Bool × Desk :=
  match d.session? name with
  | none => (false, d)
  | some s =>
      (true, { d with
        sessions := d.sessions.filter fun e => e.1 != name
        platform := (s.close d.platform).2 })

def send (d : Desk) (name : String) (r : Request) : Except DeskError Desk :=
  match d.session? name with
  | none => .error .noSession
  | some s =>
      match s.send r d.clock d.platform with
      | .error e => .error (.platform e)
      | .ok (s, p) => .ok (d.put name s p)

def next (d : Desk) (name : String) (wait : Nat) :
    Except DeskError (Option Event × Desk) :=
  match d.session? name with
  | none => .error .noSession
  | some s =>
      let (e, s, clock) := s.next wait d.clock
      .ok (e, { d.put name s d.platform with clock := clock })

def close (d : Desk) (name : String) : Except DeskError Desk :=
  match d.session? name with
  | none => .error .noSession
  | some s =>
      let (s, p) := s.close d.platform
      .ok (d.put name s p)

end Desk

end Compliance.Device

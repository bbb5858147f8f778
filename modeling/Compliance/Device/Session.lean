import Compliance.Device.Script

/-!
# Sessions

A session is an exclusive hold on one capability.  Requests sent over it are
answered by the script of the platform; the answers wait in the session until
they are due.  Times are milliseconds of a clock that only waiting advances.
-/

namespace Compliance.Device

inductive PlatformError where
  | unavailable (c : Capability)
  | busy (c : Capability)
  | closed
  | rejected (reason : String)
  deriving DecidableEq

def PlatformError.message : PlatformError → String
  | unavailable c =>
      "capability " ++ c.name ++ " is not available on this device"
  | busy c => "capability " ++ c.name ++ " is held by another session"
  | closed => "session is closed"
  | rejected reason => "request rejected: " ++ reason

structure Platform where
  available : CapabilitySet
  responses : List Response
  /-- The capabilities that sessions hold. -/
  held : CapabilitySet
  /-- Every request sent so far, in order. -/
  requests : List Request
  deriving DecidableEq

/-- An event and the time it is due. -/
structure Due where
  time : Nat
  event : Event
  deriving DecidableEq

structure Session where
  capability : Capability
  /-- Events to come, in order of their time. -/
  queue : List Due
  isOpen : Bool
  deriving DecidableEq

namespace Platform

def ofScript (s : Script) : Platform :=
  ⟨s.profile.capabilities, s.responses, .empty, []⟩

def isHeld (p : Platform) (c : Capability) : Bool :=
  p.held.contains c

def openHandles (p : Platform) : Nat :=
  p.held.size

/-- Starts a session on a capability that no session holds. -/
def acquire (p : Platform) (c : Capability) :
    Except PlatformError (Session × Platform) :=
  if !p.available.contains c then .error (.unavailable c)
  else if p.isHeld c then .error (.busy c)
  else .ok (⟨c, [], true⟩, { p with held := p.held.insert c })

def giveBack (p : Platform) (c : Capability) : Platform :=
  { p with held := ⟨p.held.members.filter (· != c)⟩ }

/-- What the script answers to a request sent at a time. -/
def answersTo (p : Platform) (r : Request) (now : Nat) : List Due :=
  ((p.responses.filter (·.answers r)).flatMap (·.events)).map fun s =>
    ⟨now + s.delay, s.event⟩

end Platform

/-- Puts an event behind all that are due no later. -/
def enqueue (d : Due) : List Due → List Due
  | [] => [d]
  | e :: rest =>
      if d.time < e.time then d :: e :: rest else e :: enqueue d rest

def enqueueAll (ds : List Due) (queue : List Due) : List Due :=
  ds.foldl (fun queue d => enqueue d queue) queue

namespace Session

def send (s : Session) (r : Request) (now : Nat) (p : Platform) :
    Except PlatformError (Session × Platform) :=
  if !s.isOpen then .error .closed
  else .ok ({ s with queue := enqueueAll (p.answersTo r now) s.queue },
    { p with requests := p.requests ++ [r] })

/-- Waits for the next event, but no longer than given.  The clock stands at
the event's time, or at the end of the wait. -/
def next (s : Session) (wait now : Nat) : Option Event × Session × Nat :=
  match s.queue with
  | d :: rest =>
      if d.time ≤ now + wait then
        (some d.event, { s with queue := rest }, max now d.time)
      else (none, s, now + wait)
  | [] => (none, s, now + wait)

/-- Closing drops what is queued; a closed session holds nothing any more. -/
def close (s : Session) (p : Platform) : Session × Platform :=
  if s.isOpen then
    ({ s with queue := [], isOpen := false }, p.giveBack s.capability)
  else (s, p)

end Session

end Compliance.Device

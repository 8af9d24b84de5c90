import FirewallAgent.Lock.Name

/-!
Named segments that hold one mutex each, and the protocol by which openers share them. The opener
that creates a segment sizes it, initialises its mutex and publishes it; every other opener waits
for that. A mutex whose owner died goes to the next locker. A removed name leaves the segment to
those who already have it.
-/
namespace FirewallAgent.Lock

structure Segment where
  sized : Bool := false
  initialised : Nat := 0
  ready : Bool := false
  owner : Option Nat := none
  orphaned : Bool := false
  deriving DecidableEq, Repr, Inhabited

structure Host where
  segments : List Segment := []
  bound : List (String × Nat) := []
  blocked : List String := []
  deriving DecidableEq, Repr, Inhabited

namespace Host

def segment? (h : Host) (i : Nat) : Option Segment := h.segments[i]?

def find? (h : Host) (key : String) : Option Nat := h.bound.lookup key

def update (h : Host) (i : Nat) (f : Segment → Segment) : Host :=
  { h with segments := h.segments.modify i f }

def create? (h : Host) (key : String) : Option (Host × Nat) :=
  if h.blocked.contains key || (h.find? key).isSome then none
  else some ({ h with
    segments := h.segments ++ [{}], bound := (key, h.segments.length) :: h.bound },
    h.segments.length)

def attach (h : Host) (key : String) : Except LockFault Nat :=
  if h.blocked.contains key then .error (.file .invalid)
  else match h.find? key with
    | some i => .ok i
    | none => .error (.file .notFound)

def unlink (h : Host) (key : String) : Except LockFault Host :=
  if h.blocked.contains key then .error (.file .isDirectory)
  else .ok { h with bound := h.bound.filter fun b => b.1 != key }

end Host

inductive Opening where
  | creating (attempt : Nat)
  | attaching (attempt : Nat)
  | sizing (segment : Nat)
  | initialising (segment : Nat)
  | publishing (segment : Nat)
  | awaitingSize (segment : Nat)
  | awaitingReady (segment : Nat)
  | opened (segment : Nat)
  | failed (f : LockFault)
  deriving DecidableEq, Repr

def attempts : Nat := 3

namespace Opening

def step (key : String) (patient : Bool) (h : Host) : Opening → Host × Opening
  | creating n =>
    match h.create? key with
    | some (h, i) => (h, sizing i)
    | none => (h, attaching n)
  | attaching n =>
    match h.attach key with
    | .ok i => (h, awaitingSize i)
    | .error (.file .notFound) =>
      if n + 1 < attempts then (h, creating (n + 1)) else (h, failed (.file .notFound))
    | .error f => (h, failed f)
  | sizing i => (h.update i fun s => { s with sized := true }, initialising i)
  | initialising i =>
    (h.update i fun s => { s with initialised := s.initialised + 1 }, publishing i)
  | publishing i => (h.update i fun s => { s with ready := true }, opened i)
  | awaitingSize i =>
    match h.segment? i with
    | some s =>
      if s.sized then (h, awaitingReady i)
      else if patient then (h, awaitingSize i) else (h, failed .neverSized)
    | none => (h, failed .neverSized)
  | awaitingReady i =>
    match h.segment? i with
    | some s =>
      if s.ready then (h, opened i)
      else if patient then (h, awaitingReady i) else (h, failed .neverReady)
    | none => (h, failed .neverReady)
  | opened i => (h, opened i)
  | failed f => (h, failed f)

def isWaiting (h : Host) : Opening → Bool
  | awaitingSize i => !((h.segment? i).any (·.sized))
  | awaitingReady i => !((h.segment? i).any (·.ready))
  | _ => false

end Opening

namespace Host

def acquire? (h : Host) (i holder : Nat) : Option Host :=
  match h.segment? i with
  | some s =>
    if s.owner.isSome then none
    else some (h.update i fun s => { s with owner := some holder, orphaned := false })
  | none => none

def release (h : Host) (i holder : Nat) : Host :=
  h.update i fun s => if s.owner = some holder then { s with owner := none } else s

def die (h : Host) (i holder : Nat) : Host :=
  h.update i fun s => if s.owner = some holder then { s with owner := none, orphaned := true } else s

end Host
end FirewallAgent.Lock

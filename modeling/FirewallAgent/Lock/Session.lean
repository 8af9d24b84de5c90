import FirewallAgent.Lock.Segment

/-!
One process at work with named locks, one request after another, on handles that it calls by
label. Other processes may be in the middle of creating a lock; a request that has to wait for
them lets them go on.
-/
namespace FirewallAgent.Lock

inductive Request where
  | openLock (name : String)
  | lock
  | abandon
  | close
  | unlink (name : String)
  | slowCreate (key : String)
  | block (key : String)
  | unblock (key : String)
  deriving DecidableEq, Repr

inductive Reply where
  | done
  | named (name : String)
  | flag (b : Bool)
  | existed
  | notOpen
  | failed (e : StorageError)
  deriving DecidableEq, Repr

structure Session where
  host : Host := {}
  makers : List (String × Opening) := []
  handles : List (String × Nat) := []
  deriving Inhabited

namespace Session

def stepMakers (s : Session) : Session :=
  s.makers.foldl
    (fun s m =>
      let (h, o) := m.2.step m.1 true s.host
      { s with host := h, makers := s.makers ++ [(m.1, o)] })
    { s with makers := [] }

def openLoop (key : String) : Nat → Session → Opening → Session × Opening
  | 0, s, o => (s, o)
  | n + 1, s, o =>
    match o with
    | .opened i => (s, .opened i)
    | .failed f => (s, .failed f)
    | o =>
      let s := if o.isWaiting s.host then s.stepMakers else s
      let (h, o) := o.step key true s.host
      openLoop key n { s with host := h } o

def longestOpening : Nat := 24

def lockNow (s : Session) (label : String) (after : Host → Nat → Nat → Host) : Session × Reply :=
  match s.handles.lookup label with
  | none => (s, .notOpen)
  | some i =>
    match s.host.acquire? i 0 with
    | some h => ({ s with host := after h i 0 }, .done)
    | none => (s, .failed (.lock label .neverReady))

def handle (s : Session) (label : String) : Request → Session × Reply
  | .openLock name =>
    match openKey name with
    | .error f => (s, .failed (.lock name f))
    | .ok key =>
      match openLoop key longestOpening s (.creating 0) with
      | (s, .opened i) =>
        ({ s with handles := (label, i) :: s.handles.filter (·.1 != label) }, .named name)
      | (s, .failed f) => (s, .failed (.lock name f))
      | (s, _) => (s, .failed (.lock name .neverReady))
  | .lock => s.lockNow label Host.release
  | .abandon => s.lockNow label Host.die
  | .close =>
    ({ s with handles := s.handles.filter (·.1 != label) }, .flag (s.handles.lookup label).isSome)
  | .unlink name =>
    match unlinkKey name with
    | .error f => (s, .failed (.lock name f))
    | .ok none => (s, .done)
    | .ok (some key) =>
      match s.host.unlink key with
      | .ok h => ({ s with host := h }, .done)
      | .error f => (s, .failed (.lock name f))
  | .slowCreate key =>
    match s.host.create? key with
    | some (h, i) => ({ s with host := h, makers := s.makers ++ [(key, .sizing i)] }, .done)
    | none => (s, .existed)
  | .block key =>
    if s.host.blocked.contains key || (s.host.find? key).isSome then (s, .flag false)
    else ({ s with host := { s.host with blocked := key :: s.host.blocked } }, .flag true)
  | .unblock key =>
    if s.host.blocked.contains key then
      ({ s with host := { s.host with blocked := s.host.blocked.filter (· != key) } }, .flag true)
    else (s, .flag false)

end Session
end FirewallAgent.Lock

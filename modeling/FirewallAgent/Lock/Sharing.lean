import FirewallAgent.Lock.Segment

/-!
Processes that share named locks. They open handles, take and give back the mutexes behind them, close
handles and remove names, one step at a time and in any order, and may die between any two steps. A
mutex whose owner died says so to whoever takes it next, who mends it before going on.
-/
namespace FirewallAgent.Lock

namespace Host

def take? (h : Host) (i holder : Nat) : Option (Host × Bool) :=
  match h.segment? i with
  | some s =>
    if s.owner.isSome then none
    else some (h.update i fun s => { s with owner := some holder }, s.orphaned)
  | none => none

def mend (h : Host) (i : Nat) : Host := h.update i fun s => { s with orphaned := false }

def bury (h : Host) (dead : Nat → Bool) : Host :=
  { h with segments := h.segments.map fun s =>
      if s.owner.any dead then { s with owner := none, orphaned := true } else s }

end Host

inductive Use where
  | idle
  | mending
  | holding
  | closed
  deriving DecidableEq, Repr

structure Handle where
  process : Nat
  key : String
  opening : Opening
  use : Use := .idle
  deriving DecidableEq, Repr

structure Sharing where
  host : Host
  handles : List Handle := []
  deriving Repr

namespace Sharing

inductive Action where
  | start (process : Nat) (name : String)
  | advance (n : Nat) (patient : Bool)
  | lock (n : Nat)
  | mend (n : Nat)
  | release (n : Nat)
  | abandon (n : Nat)
  | close (n : Nat)
  | unlink (name : String)
  | die (process : Nat)
  deriving DecidableEq, Repr

inductive Event where
  | asked (n process : Nat) (name : String)
  | created (n : Nat) (key : String) (segment : Nat)
  | joined (n : Nat) (key : String) (segment : Nat)
  | sized (n segment : Nat)
  | initialised (n segment : Nat)
  | published (n segment : Nat)
  | opened (n segment : Nat)
  | locked (n segment : Nat) (bequeathed : Bool)
  | mended (n segment : Nat)
  | released (n segment : Nat)
  | abandoned (n segment : Nat)
  | unlinked (key : String)
  | died (process : Nat)
  deriving DecidableEq, Repr

def opener (process : Nat) (name : String) : Handle :=
  match openKey name with
  | .ok key => ⟨process, key, .creating 0, .idle⟩
  | .error f => ⟨process, name, .failed f, .idle⟩

def openingEvents (n : Nat) (key : String) : Opening → Opening → List Event
  | .creating _, .sizing i => [.created n key i, .joined n key i]
  | .attaching _, .awaitingSize i => [.joined n key i]
  | .sizing i, .initialising _ => [.sized n i]
  | .initialising i, .publishing _ => [.initialised n i]
  | .publishing i, .opened _ => [.published n i, .opened n i]
  | .awaitingReady i, .opened _ => [.opened n i]
  | _, _ => []

def setUse (s : Sharing) (host : Host) (n : Nat) (x : Handle) (use : Use) : Sharing :=
  ⟨host, s.handles.set n { x with use }⟩

def advance (s : Sharing) (n : Nat) (patient : Bool) : Option (Sharing × List Event) := do
  let x ← s.handles[n]?
  if x.use = .closed then none
  else
    let (host, opening) := x.opening.step x.key patient s.host
    some (⟨host, s.handles.set n { x with opening }⟩, openingEvents n x.key x.opening opening)

def handle? (s : Sharing) (n : Nat) (uses : List Use) : Option (Handle × Nat) := do
  let x ← s.handles[n]?
  match x.opening with
  | .opened i => if x.use ∈ uses then some (x, i) else none
  | _ => none

def lock (s : Sharing) (n : Nat) : Option (Sharing × List Event) := do
  let (x, i) ← s.handle? n [.idle]
  let (host, bequeathed) ← s.host.take? i n
  some (s.setUse host n x (if bequeathed then .mending else .holding), [.locked n i bequeathed])

def unlink (s : Sharing) (name : String) : Sharing × List Event :=
  match unlinkKey name with
  | .ok (some key) =>
    match s.host.unlink key with
    | .ok host => ({ s with host }, [.unlinked key])
    | .error _ => (s, [])
  | _ => (s, [])

def die (s : Sharing) (process : Nat) : Sharing :=
  ⟨s.host.bury fun n => (s.handles[n]?).any fun x => x.process == process,
    s.handles.map fun x => if x.process = process then { x with use := .closed } else x⟩

def step (s : Sharing) : Action → Option (Sharing × List Event)
  | .start process name =>
    some ({ s with handles := s.handles ++ [opener process name] },
      [.asked s.handles.length process name])
  | .advance n patient => s.advance n patient
  | .lock n => s.lock n
  | .mend n => (s.handle? n [.mending]).map fun (x, i) =>
    (s.setUse (s.host.mend i) n x .holding, [.mended n i])
  | .release n => (s.handle? n [.holding]).map fun (x, i) =>
    (s.setUse (s.host.release i n) n x .idle, [.released n i])
  | .abandon n => (s.handle? n [.mending, .holding]).map fun (x, i) =>
    (s.setUse (s.host.die i n) n x .idle, [.abandoned n i])
  | .close n => (s.handle? n [.idle]).map fun (x, _) => (s.setUse s.host n x .closed, [])
  | .unlink name => some (s.unlink name)
  | .die process => some (s.die process, [.died process])

inductive Run (start : Sharing) : List Event → Sharing → Prop where
  | start : Run start [] start
  | step {s t : Sharing} {a : Action} {before es : List Event} (run : Run start before s)
      (next : s.step a = some (t, es)) : Run start (before ++ es) t

end Sharing
end FirewallAgent.Lock

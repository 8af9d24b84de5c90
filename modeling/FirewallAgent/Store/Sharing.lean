import FirewallAgent.Lock.Segment
import FirewallAgent.Store.Session

/-!
Several handles at work on one store at the same time. An operation takes the store's named lock
and makes its file-system calls one by one, so the calls of other handles may come between those
made without the lock. What only looks into a handle's memory waits until the handle is idle.
-/
namespace FirewallAgent.Store

inductive Operation where
  | openStore
  | reload
  | set (key value : String)
  | save (code : String) (c : Credential)
  | clear
  deriving DecidableEq

def Operation.job : Operation → Job
  | openStore => .reload
  | reload => .reload
  | set key value => .update (.put [(key, value)])
  | save code c => .update (.put (credentialEntries code c))
  | clear => .update .clear

inductive Query where
  | get (key : String)
  | keys
  | load (code : String)
  deriving DecidableEq

def Query.reply (h : Handle) : Query → Reply
  | get key => .value (h.get? key)
  | keys => .keys h.keys
  | load code => .credential (loadCredential h code)

structure Desk where
  memory : Dictionary := .empty
  isOpen : Bool := false
  task : Option (Operation × Stage) := none

structure Sharing where
  path : String
  lockName : String
  segment : Nat
  tree : FileTree
  host : Lock.Host
  desks : List Desk := []

namespace Sharing

inductive Action where
  | attach
  | start (n : Nat) (op : Operation)
  | advance (n : Nat) (turn : Turn)
  | ask (n : Nat) (q : Query)
  deriving DecidableEq

inductive Event where
  | ended (n : Nat) (op : Operation) (r : Except StorageError Unit)
  | answered (n : Nat) (q : Query) (r : Reply)

def setDesk (s : Sharing) (n : Nat) (d : Desk) : Sharing := { s with desks := s.desks.set n d }

def lockAfter (s : Sharing) (n : Nat) : Stage → Stage → Option Lock.Host
  | .locking, .reading => s.host.acquire? s.segment n
  | .unlocking _, _ => some (s.host.release s.segment n)
  | _, _ => some s.host

def deskAfter (d : Desk) (op : Operation) (memory : Dictionary) : Stage → Desk
  | .done (.ok ()) => { memory, isOpen := true }
  | .done (.error _) => { memory, isOpen := d.isOpen }
  | stage => { memory, isOpen := d.isOpen, task := some (op, stage) }

def eventsAfter (n : Nat) (op : Operation) : Stage → List Event
  | .done r => [.ended n op r]
  | _ => []

def stepDesk (s : Sharing) (n : Nat) (turn : Turn) : Option (Sharing × List Event) := do
  let d ← s.desks[n]?
  let (op, stage) ← d.task
  let w := Work.step s.path s.lockName op.job turn ⟨s.tree, d.memory, stage⟩
  let host ← s.lockAfter n stage w.stage
  some ({ s with tree := w.tree, host }.setDesk n (deskAfter d op w.memory w.stage),
    eventsAfter n op w.stage)

def idle? (s : Sharing) (n : Nat) : Option Desk :=
  (s.desks[n]?).filter fun d => d.isOpen && d.task.isNone

def step (s : Sharing) : Action → Option (Sharing × List Event)
  | .attach => some ({ s with desks := s.desks ++ [{ task := some (.openStore, .locking) }] }, [])
  | .start n op =>
    (s.idle? n).map fun d => (s.setDesk n { d with task := some (op, .locking) }, [])
  | .advance n turn => s.stepDesk n turn
  | .ask n q => (s.idle? n).map fun d => (s, [.answered n q (q.reply ⟨s.path, s.lockName, d.memory⟩)])

inductive Run (start : Sharing) : List Event → Sharing → Prop where
  | start : Run start [] start
  | step {s t : Sharing} {a : Action} {before es : List Event} (run : Run start before s)
      (next : s.step a = some (t, es)) : Run start (before ++ es) t

def play (s : Sharing) : List Action → Option (Sharing × List Event)
  | [] => some (s, [])
  | a :: rest => do
    let (t, first) ← s.step a
    let (u, more) ← t.play rest
    some (u, first ++ more)

end Sharing
end FirewallAgent.Store

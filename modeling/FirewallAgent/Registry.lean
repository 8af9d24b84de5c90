import FirewallAgent.Channel
import FirewallAgent.Identity

/-!
The registry of clients, and the calls on it: finding or making the client of an identity, and
stopping clients. A slot stands for one identity and is filled at most once; while one call fills
it, others for the same identity wait. A shutdown takes all slots out and stops their clients one
after another.
-/
namespace FirewallAgent.Registry

inductive Slot where
  | vacant
  | filling
  | filled (client : Nat)
  deriving DecidableEq, Repr

inductive ConnectStage where
  | locating
  | queued (slot : Nat)
  | connecting (slot : Nat)
  | ended (r : Except AgentError Nat)
  | abandoned

structure Connect where
  identity : Identity
  stage : ConnectStage := .locating
  tried : Bool := false

namespace Connect

def result? (c : Connect) : Option (Except AgentError Nat) :=
  match c.stage with
  | .ended r => some r
  | _ => none

def slot? (c : Connect) : Option Nat :=
  match c.stage with
  | .queued s | .connecting s => some s
  | _ => none

end Connect

inductive StopStage where
  | asking
  | signalling
  | cancelling
  | taking
  | joining
  | ended
  deriving DecidableEq, Repr

/- One step of stopping a channel. `handle` is the right to wait for the task, which the first
stop takes; any other returns without waiting. -/
def stopStep (c : Channel) (handle : Bool) : StopStage → Option (Channel × Bool × StopStage)
  | .asking => some (c.clearRunning, handle, .signalling)
  | .signalling => some (c.signalShutdown, handle, .cancelling)
  | .cancelling => some (c.cancelAttempt, handle, .taking)
  | .taking => some (c, false, if handle then .joining else .ended)
  | .joining => if c.phase = .done then some (c, handle, .ended) else none
  | .ended => none

structure Stop where
  client : Nat
  stage : StopStage := .asking
  deriving DecidableEq, Repr

inductive ShutdownStage where
  | draining
  | stopping (slots : List Nat) (stage : StopStage)
  | ended
  deriving DecidableEq, Repr

structure Shutdown where
  stage : ShutdownStage := .draining
  deriving DecidableEq, Repr

end FirewallAgent.Registry

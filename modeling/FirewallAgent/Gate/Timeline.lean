import FirewallAgent.Gate

/-!
A gate and its waits on one line of time, in milliseconds. A waiter is polled when it starts, after
every change of the gate, and when its time is up.
-/
namespace FirewallAgent.Gate

structure Waiter where
  deadline : Nat
  wait : Wait := .polling
  time : Nat := 0
  deriving DecidableEq, Repr

namespace Waiter

def poll (token : String) (now : Nat) (w : Waiter) : Waiter :=
  match Gate.step token w.wait .poll with
  | some x => { w with wait := x, time := now }
  | none => w

def expire (token : String) (w : Waiter) : Waiter :=
  match Gate.step token w.wait .expire with
  | some x =>
    let w : Waiter := { w with wait := x }
    w.poll token w.deadline
  | none => w

def token : Waiter → String
  | ⟨_, .ended t, _⟩ => t
  | _ => ""

end Waiter

inductive Deed where
  | set (values : List String)
  | wait (timeout : Nat)
  | look
  deriving DecidableEq, Repr

structure Timeline where
  now : Nat := 0
  token : String := ""
  waiters : List Waiter := []
  deriving DecidableEq, Repr

namespace Timeline

def advance (t : Timeline) (time : Nat) : Timeline :=
  let now := max t.now time
  { t with now, waiters := t.waiters.map fun w =>
      if w.deadline ≤ now then w.expire t.token else w }

def poll (t : Timeline) : Timeline := { t with waiters := t.waiters.map (·.poll t.token t.now) }

def act (t : Timeline) : Deed → Timeline
  | .set values =>
    let t : Timeline := { t with token := values.getLast?.getD t.token }
    t.poll
  | .wait timeout =>
    let t : Timeline := { t with waiters := t.waiters ++ [{ deadline := t.now + timeout }] }
    t.poll.advance t.now
  | .look => t

def run (deeds : List (Nat × Deed)) : List String × List Waiter :=
  let step (acc : Timeline × List String) (d : Nat × Deed) : Timeline × List String :=
    let t := (acc.1.advance d.1).act d.2
    (t, acc.2 ++ [t.token])
  let (t, tokens) := deeds.foldl step ({}, [])
  (tokens, t.waiters.map (·.expire t.token))

end Timeline
end FirewallAgent.Gate

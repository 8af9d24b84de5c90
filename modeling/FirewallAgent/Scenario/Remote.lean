import FirewallAgent.Scenario.Script

/-!
The remote side of one client: what is left of its script, and what it saw. A log of values keeps
one value an instant, the last.
-/
namespace FirewallAgent.Scenario

def note {α : Type} (log : List (Nat × α)) (time : Nat) (x : α) : List (Nat × α) :=
  log.filter (fun e => e.1 != time) ++ [(time, x)]

structure Remote where
  service : Service := {}
  room : Option Nat := none
  connectionCalls : Nat := 0
  opens : List Nat := []
  sent : List (Nat × Nat × ClientMessage) := []
  calls : List (Nat × Decision.Message) := []
  states : List (Nat × Channel.State) := []
  tokens : List (Nat × String) := []

namespace Remote

def next {α : Type} (d : α) : List α → α × List α
  | [] => (d, [])
  | x :: xs => (x, xs)

def dial (r : Remote) (now : Nat) : Remote × Session :=
  let (s, sessions) := next {} r.service.sessions
  ({ r with service := { r.service with sessions }, room := s.room, opens := r.opens ++ [now] }, s)

def accepts (r : Remote) : Bool := r.room != some 0

def take (r : Remote) (now : Nat) (m : ClientMessage) : Remote :=
  { r with
    room := r.room.map (· - 1)
    sent := r.sent ++ [(now, r.opens.length - 1, m)] }

def info (count : Nat) (c : Connection) : InfoReply → Option ConnectionInfo
  | .given i => i
  | .echo => some { connection := some c, tcpId := .ofNat count }

def verdict (x : Int32) : Decision.Reply := .verdict ⟨x⟩

def answer (r : Remote) (now : Nat) (m : Decision.Message) :
    Remote × Nat × Except Status Decision.Reply :=
  let r : Remote := { r with calls := r.calls ++ [(now, m)] }
  match m with
  | .connection c =>
    let (x, connections) := next ⟨0, .ok .echo⟩ r.service.connections
    let n := r.connectionCalls + 1
    ({ r with service := { r.service with connections }, connectionCalls := n }, x.delay,
      x.outcome.map fun i => .connection ⟨info n c i⟩)
  | .request _ =>
    let (x, requests) := next ⟨0, .ok 1⟩ r.service.requests
    ({ r with service := { r.service with requests } }, x.delay, x.outcome.map verdict)
  | .response _ =>
    let (x, responses) := next ⟨0, .ok 1⟩ r.service.responses
    ({ r with service := { r.service with responses } }, x.delay, x.outcome.map verdict)

end Remote
end FirewallAgent.Scenario

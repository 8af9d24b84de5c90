/-!
The gate of bearer tokens. It holds one token, and the empty one means that there is none. A wait
looks at the gate whenever it is polled and ends with the first token it sees; once its time is up
it looks a last time and ends with whatever is there.
-/
namespace FirewallAgent.Gate

inductive Wait where
  | polling
  | expired
  | ended (token : String)
  deriving DecidableEq, Repr

inductive Input where
  | poll
  | expire
  deriving DecidableEq, Repr

def step (token : String) : Wait → Input → Option Wait
  | .polling, .poll => if token = "" then none else some (.ended token)
  | .polling, .expire => if token = "" then some .expired else none
  | .expired, .poll => some (.ended token)
  | _, _ => none

theorem pollEnds {token : String} (h : token ≠ "") :
    step token .polling .poll = some (.ended token) := by simp [step, h]

end FirewallAgent.Gate

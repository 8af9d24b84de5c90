import FirewallAgent.Gate

/-!
One gate and any number of waits at it, each going on by itself. A poll looks at the gate, and if it finds
no token there it looks at the clock; a wait that is found late looks at the gate once more and ends. The
gate may be set, and time may pass, between any two of these looks.
-/
namespace FirewallAgent.Gate

inductive Stage where
  | resting (w : Wait)
  | missed
  deriving DecidableEq, Repr

namespace Stage

def look (token : String) : Stage → Option Stage
  | .resting .polling => some ((Gate.step token .polling .poll).elim .missed .resting)
  | .resting w => (Gate.step token w .poll).map .resting
  | .missed => none

/- The token that the poll has seen is the empty one, whatever the gate holds by now. -/
def check (late : Bool) : Stage → Option Stage
  | .missed => if late then (Gate.step "" .polling .expire).map .resting else some (.resting .polling)
  | .resting _ => none

end Stage

structure Party where
  deadline : Nat
  stage : Stage := .resting .polling
  deriving DecidableEq, Repr

def Party.answer? (p : Party) : Option String :=
  match p.stage with
  | .resting (.ended t) => some t
  | _ => none

structure Sharing where
  now : Nat := 0
  token : String := ""
  parties : List Party := []
  deriving DecidableEq, Repr

namespace Sharing

inductive Action where
  | set (token : String)
  | pass (time : Nat)
  | wait (timeout : Nat)
  | poll (n : Nat)
  | check (n : Nat) (late : Bool)
  deriving DecidableEq, Repr

def answer? (s : Sharing) (n : Nat) : Option String := (s.parties[n]?).bind Party.answer?

def setStage (s : Sharing) (n deadline : Nat) (stage : Stage) : Sharing :=
  { s with parties := s.parties.set n ⟨deadline, stage⟩ }

def poll (s : Sharing) (n : Nat) : Option Sharing := do
  let p ← s.parties[n]?
  let stage ← p.stage.look s.token
  some (s.setStage n p.deadline stage)

/- A wait is not found late before its time; that its time has come may be seen only later. -/
def check (s : Sharing) (n : Nat) (late : Bool) : Option Sharing := do
  let p ← s.parties[n]?
  if late && s.now < p.deadline then none
  else
    let stage ← p.stage.check late
    some (s.setStage n p.deadline stage)

def step (s : Sharing) : Action → Option Sharing
  | .set token => some { s with token }
  | .pass time => some { s with now := s.now + time }
  | .wait timeout => some { s with parties := s.parties ++ [{ deadline := s.now + timeout }] }
  | .poll n => s.poll n
  | .check n late => s.check n late

inductive Run (start : Sharing) : List Action → Sharing → Prop where
  | start : Run start [] start
  | step {s t : Sharing} {a : Action} {before : List Action} (run : Run start before s)
      (next : s.step a = some t) : Run start (before ++ [a]) t

def play (s : Sharing) : List Action → Option Sharing
  | [] => some s
  | a :: rest => do
    let t ← s.step a
    t.play rest

end Sharing
end FirewallAgent.Gate

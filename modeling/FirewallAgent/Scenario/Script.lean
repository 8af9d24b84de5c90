import FirewallAgent.Credential
import FirewallAgent.Decision
import FirewallAgent.Error
import FirewallAgent.Identity
import FirewallAgent.Message

/-!
Scripts of scenarios. A service is a remote side that does what its script says: each stream takes
the next session, each call the next reply of its kind, and beyond the script come plain ones. Times
are in milliseconds.
-/
namespace FirewallAgent.Scenario

structure Push where
  after : Nat := 10
  message : ServerMessage
  deriving DecidableEq

/- A clean end is timed from the opening but comes no earlier than the last push; a failure is
timed from the last push. -/
inductive StreamEnd where
  | close (after : Nat)
  | fail (after : Nat) (s : Status)
  deriving DecidableEq

structure Session where
  openAfter : Nat := 0
  refusal : Option Status := none
  room : Option Nat := none
  pushes : List Push := []
  ending : Option StreamEnd := none
  deriving DecidableEq

namespace Session

def pushTimes : Nat → List Push → List (Nat × Channel.Input) × Nat
  | t, [] => ([], t)
  | t, p :: ps =>
    let (rest, last) := pushTimes (t + p.after) ps
    ((t + p.after, .received p.message) :: rest, last)

def endTime (opened last : Nat) : StreamEnd → Nat × Channel.Input
  | .close after => (max last (opened + after), .closed)
  | .fail after s => (last + after, .failed s)

def timetable (s : Session) : List (Nat × Channel.Input) :=
  match s.refusal with
  | some e => [(s.openAfter, .opened (.error e))]
  | none =>
    let (pushes, last) := pushTimes s.openAfter s.pushes
    (s.openAfter, .opened (.ok ())) :: pushes ++
      (s.ending.map (endTime s.openAfter last)).toList

end Session

inductive InfoReply where
  | echo
  | given (i : Option ConnectionInfo)
  deriving DecidableEq

structure Reply (α : Type) where
  delay : Nat := 0
  outcome : Except Status α

structure Service where
  sessions : List Session := []
  connections : List (Reply InfoReply) := []
  requests : List (Reply Int32) := []
  responses : List (Reply Int32) := []

inductive Plan where
  | never
  | after (delay : Nat) (r : Except AgentError Service)

inductive Deed where
  | rest
  | ask (s : Decision.Subject)
  | grant (token : String)
  | stop
  | release
  | enableCache (on : Bool)
  | clearCache
  | peekCache (r : Request)
  | save (code : String) (c : Credential)
  | load (code : String)
  | writeStore (text : String)
  | shadowStore
  | connect (i : Identity) (p : Plan)
  | countClients
  | shutdown

structure Step where
  time : Nat := 0
  background : Bool := false
  client : Nat := 0
  deed : Deed

def Service.weight (s : Service) : Nat :=
  s.sessions.foldl (fun n x => n + x.pushes.length + 4) 8

def Step.weight (s : Step) : Nat :=
  4 + match s.deed with
    | .connect _ (.after _ (.ok x)) => x.weight
    | _ => 0

end FirewallAgent.Scenario

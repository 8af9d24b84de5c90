import FirewallAgent.Cache.Decision
import FirewallAgent.Channel
import FirewallAgent.Fingerprint
import FirewallAgent.Gate

/-!
Calls that want something decided. Each first takes a token from the gate of its client, and only
while the client's channel is streaming. A request may then be answered from the cache; all else is
asked of the policy service, and its verdict goes into the cache under the fingerprint of the
request it is about.
-/
namespace FirewallAgent

namespace Decision

inductive Subject where
  | token
  | connection (c : Connection)
  | request (r : Request)
  | response (r : Response) (about : Request)
  deriving DecidableEq

inductive Message where
  | connection (c : Connection)
  | request (r : Request)
  | response (r : Response)
  deriving DecidableEq

inductive Reply where
  | connection (r : ConnectionReply)
  | verdict (r : VerdictReply)
  deriving DecidableEq

inductive Answer where
  | token (t : String)
  | info (i : Option ConnectionInfo)
  | verdict (v : Verdict)
  deriving DecidableEq

def Subject.message? (token : String) : Subject → Option Message
  | .token => none
  | .connection c => some (.connection { c with token })
  | .request r => some (.request { r with token })
  | .response r _ => some (.response { r with token })

def Message.token : Message → String
  | .connection c => c.token
  | .request r => r.token
  | .response r => r.token

def Subject.fingerprint? : Subject → Option Fingerprint
  | .request r => some (.ofRequest r)
  | .response _ about => some (.ofRequest about)
  | _ => none

def Subject.operation : Subject → Operation
  | .response .. => .response
  | .request _ => .request
  | _ => .connection

inductive Stage where
  | entering
  | waiting (w : Gate.Wait)
  | holding (token : String)
  | asking (m : Message)
  | awaiting (m : Message)
  | recording (v : Verdict)
  | ended (r : Except AgentError Answer)

inductive Input where
  | proceed
  | expire
  | replied (r : Except Status Reply)

inductive Effect where
  | waited
  | asked (m : Message)
  | counted (m : Metric)
  deriving DecidableEq

structure View where
  channel : Channel
  token : String
  cache : DecisionCache Fingerprint

structure Next where
  stage : Stage
  cache : DecisionCache Fingerprint
  effects : List Effect := []

def enter (v : View) : Next :=
  if v.channel.isStreaming then ⟨.waiting .polling, v.cache, [.waited]⟩
  else ⟨.ended (.error (v.channel.terminalError?.getD .streamNotRunning)), v.cache, []⟩

def wake (v : View) (s : Subject) : Gate.Wait → Next
  | .ended "" => ⟨.ended (.error .tokenUnavailable), v.cache, [.counted .tokenTimeout]⟩
  | .ended t =>
    match s with
    | .token => ⟨.ended (.ok (.token t)), v.cache, []⟩
    | _ => ⟨.holding t, v.cache, []⟩
  | w => ⟨.waiting w, v.cache, []⟩

def cached? (v : View) : Subject → Option Verdict
  | .request r => v.cache.get (.ofRequest r)
  | _ => none

def lookUp (v : View) (s : Subject) (token : String) : Option Next :=
  match cached? v s with
  | some x =>
    some ⟨.ended (.ok (.verdict x)), v.cache,
      [.counted (.cacheHit s.operation), .counted (.decision s.operation (some x))]⟩
  | none => (s.message? token).map fun m => ⟨.asking m, v.cache, []⟩

def receive (v : View) (s : Subject) : Except Status Reply → Option Next
  | .error e => some ⟨.ended (.error (.transport e)), v.cache, []⟩
  | .ok (.connection r) =>
    if s.fingerprint?.isSome then none
    else some ⟨.ended (.ok (.info r.info)), v.cache, [.counted (.decision s.operation none)]⟩
  | .ok (.verdict r) =>
    if s.fingerprint?.isNone then none
    else
      let x := Verdict.ofNumber r.number
      some ⟨.recording x, v.cache, [.counted (.decision s.operation (some x))]⟩

def record (v : View) (s : Subject) (x : Verdict) : Next :=
  let cache := match s.fingerprint? with
    | some f => v.cache.put f x
    | none => v.cache
  ⟨.ended (.ok (.verdict x)), cache, []⟩

def step (v : View) (s : Subject) : Stage → Input → Option Next
  | .entering, .proceed => some (enter v)
  | .waiting w, .proceed => (Gate.step v.token w .poll).map (wake v s)
  | .waiting w, .expire => (Gate.step v.token w .expire).map (wake v s)
  | .holding t, .proceed => lookUp v s t
  | .asking m, .proceed => some ⟨.awaiting m, v.cache, [.asked m]⟩
  | .awaiting _, .replied r => receive v s r
  | .recording x, .proceed => some (record v s x)
  | _, _ => none

end Decision

structure Call where
  client : Nat
  subject : Decision.Subject
  stage : Decision.Stage := .entering

namespace Call

def result? (c : Call) : Option (Except AgentError Decision.Answer) :=
  match c.stage with
  | .ended r => some r
  | _ => none

def isOpen (c : Call) : Bool := c.result?.isNone

end Call
end FirewallAgent

import FirewallAgent.Agent
import FirewallAgent.Scenario.Remote

/-!
An agent among scripted services, on a clock of its own. At each instant all that can be done
without waiting is done; only then does time go on, to the next thing that falls due.
-/
namespace FirewallAgent.Scenario

/- Something that happens at its time. What belongs to a stream is void once another was opened. -/
structure Due where
  time : Nat
  stream : Option (Nat × Nat) := none
  action : Agent.Action

inductive Outcome where
  | done
  | answered (r : Except AgentError Decision.Answer)
  | cached (v : Option Verdict)
  | saved (r : Except StorageError Unit)
  | loaded (c : Option Credential)
  | connected (tried : Bool) (r : Except AgentError (Nat × String))
  | count (n : Nat)
  | noClient
  | spawned

inductive Watch where
  | known (o : Outcome)
  | call (n : Nat)
  | connect (n : Nat)
  | stop (n : Nat)
  | shutdown (n : Nat)

structure Task where
  background : Bool
  watch : Watch
  result : Option (Nat × Outcome) := none

structure World where
  agent : Agent
  tokenTimeout : Nat := 5000
  now : Nat := 0
  due : List Due := []
  remotes : List Remote := []
  plans : List Plan := []
  tasks : List Task := []
  metrics : List Metric := []

namespace World

def modifyRemote (w : World) (i : Nat) (f : Remote → Remote) : World :=
  { w with remotes := w.remotes.modify i f }

def insertDue (d : Due) : List Due → List Due
  | [] => [d]
  | e :: es => if d.time < e.time then d :: e :: es else e :: insertDue d es

def schedule (w : World) (delay : Nat) (action : Agent.Action)
    (stream : Option (Nat × Nat)) : World :=
  { w with due := insertDue ⟨w.now + delay, stream, action⟩ w.due }

def stream (w : World) (i : Nat) : Nat × Nat := (i, (w.remotes[i]?.map (·.opens.length)).getD 0)

def dial (w : World) (i : Nat) : World :=
  match w.remotes[i]? with
  | none => w
  | some r =>
    let (r, s) := r.dial w.now
    let w : World := { w with remotes := w.remotes.set i r }
    s.timetable.foldl (fun w e => w.schedule e.1 (.channel i e.2) (some (w.stream i))) w

def serve (w : World) (n : Nat) (m : Decision.Message) : World :=
  match w.agent.calls[n]? with
  | none => w
  | some call => match w.remotes[call.client]? with
    | none => w
    | some r =>
      let (r, delay, outcome) := r.answer w.now m
      let w : World := { w with remotes := w.remotes.set call.client r }
      w.schedule delay (.call n (.replied outcome)) none

def count (w : World) (m : Metric) : World := { w with metrics := w.metrics ++ [m] }

def reactChannel (w : World) (i : Nat) : Channel.Effect → World
  | .state s => w.modifyRemote i fun r => { r with states := note r.states w.now s }
  | .token t => w.modifyRemote i fun r => { r with tokens := note r.tokens w.now t }
  | .dialed => w.dial i
  | .sent m => w.modifyRemote i fun r => r.take w.now m
  | .counted m => w.count m
  | .rested d => w.schedule d.millis (.channel i .woke) (some (w.stream i))
  | .purged | .enabled _ => w

def reactCall (w : World) (n : Nat) : Decision.Effect → World
  | .waited => w.schedule w.tokenTimeout (.call n .expire) none
  | .asked m => w.serve n m
  | .counted m => w.count m

def plannedService : Option Plan → Service
  | some (.after _ (.ok s)) => s
  | _ => {}

def react (w : World) : Agent.Event → World
  | .channel i e => w.reactChannel i e
  | .call n e => w.reactCall n e
  | .connecting n => match w.plans[n]? with
    | some (.after delay r) => w.schedule delay (.connected n (r.map fun _ => ())) none
    | _ => w
  | .started n _ =>
    { w with remotes := w.remotes ++ [{ service := plannedService w.plans[n]? }] }

def act? (w : World) (x : Agent.Action) : Option World := do
  let (agent, events) ← w.agent.step x
  some (events.foldl react { w with agent })

def act (w : World) (x : Agent.Action) : World := (w.act? x).getD w

def channelActions (w : World) (i : Nat) : List Agent.Action :=
  [.channel i .cancelled, .channel i .proceed,
    .channel i (.sent (w.remotes[i]?.any (·.accepts))), .storage i [], .drop i]

def actions (w : World) : List Agent.Action :=
  let a := w.agent
  (List.range a.clients.length).flatMap w.channelActions ++
    (List.range a.calls.length).map (.call · .proceed) ++
    (List.range a.connects.length).map .connecting ++
    (List.range a.stops.length).map .stopping ++
    (List.range a.shutdowns.length).flatMap fun n =>
      [.draining n (a.identities.map Prod.snd), .shutting n]

def outcome? (w : World) : Watch → Option Outcome
  | .known o => some o
  | .call n => do
    let c ← w.agent.calls[n]?
    c.result?.map .answered
  | .connect n => do
    let c ← w.agent.connects[n]?
    let r ← c.result?
    some (.connected c.tried (r.map fun i =>
      (i, (w.agent.clients[i]?.map (·.settings.code)).getD "")))
  | .stop n => do
    let s ← w.agent.stops[n]?
    if s.stage = .ended then some .done else none
  | .shutdown n => do
    let s ← w.agent.shutdowns[n]?
    if s.stage = .ended then some .done else none

def finish (w : World) (t : Task) : Task :=
  if t.result.isSome then t
  else { t with result := (w.outcome? t.watch).map fun o => (w.now, o) }

def settleBound (w : World) : Nat :=
  let a := w.agent
  64 * (1 + a.clients.length + a.calls.length + a.connects.length + a.stops.length +
    a.shutdowns.length * (a.slots.length + 1))

def settleFor : Nat → World → World
  | 0, w => w
  | n + 1, w => match w.actions.findSome? w.act? with
    | none => w
    | some w => settleFor n w

def settle (w : World) : World :=
  let w := settleFor w.settleBound w
  { w with tasks := w.tasks.map w.finish }

def isValid (w : World) (d : Due) : Bool :=
  match d.stream with
  | none => true
  | some s => s == w.stream s.1

def fire (w : World) (d : Due) (rest : List Due) : World :=
  let w : World := { w with now := max w.now d.time, due := rest }
  (if w.isValid d then w.act d.action else w).settle

def run (limit : Option Nat) (enough : World → Bool) : Nat → World → World
  | 0, w => w
  | n + 1, w =>
    if enough w then w
    else match w.due with
      | [] => w
      | d :: rest => if limit.any (· < d.time) then w else run limit enough n (w.fire d rest)

def advance (bound time : Nat) (w : World) : World :=
  let w := run (some time) (fun _ => false) bound w
  { w with now := max w.now time }

end World
end FirewallAgent.Scenario

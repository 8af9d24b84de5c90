import FirewallAgent.Credential
import FirewallAgent.Device
import FirewallAgent.Error
import FirewallAgent.Message
import FirewallAgent.Metric
import FirewallAgent.Span

/-!
The control channel of one client: a task that opens a stream to the policy service, proves who it
is, and then follows what the service pushes. What the task waits for is told by its phase; what it
does shows in its effects. Stopping it is cooperative, so a stop takes hold at the next wait.
-/
namespace FirewallAgent

namespace Channel

inductive State where
  | connecting | authorizing | authenticating | streaming | backoff | stopped
  deriving DecidableEq, Repr, Inhabited

def State.text : State → String
  | connecting => "connecting"
  | authorizing => "authorizing"
  | authenticating => "authenticating"
  | streaming => "streaming"
  | backoff => "backoff"
  | stopped => "stopped"

inductive StopReason where
  | requested
  | rejected
  | deauthorized
  | missingCredentials
  | failed (e : AgentError)
  deriving DecidableEq, Repr

def StopReason.text : StopReason → String
  | requested => "stop requested"
  | rejected => "authorization rejected"
  | deauthorized => "device deauthorized"
  | missingCredentials => "no credentials stored"
  | failed e => e.text

inductive Ending where
  | closed
  | failed (s : Status)
  | final (r : StopReason)
  deriving DecidableEq, Repr

inductive Phase where
  | deciding
  | announcing
  | dialing
  | opening
  | greeting
  | authorizing
  | persisting (c : Credential)
  | reloading
  | loading
  | presenting (c : Credential)
  | streaming
  | enabling (on : Bool)
  | wiping
  | ending (e : Ending)
  | retreating
  | backingOff
  | halting
  | releasing
  | concluding
  | closing
  | done
  deriving DecidableEq

structure Settings where
  code : String
  device : Device
  backoff : Span := .ofSeconds 5
  deriving DecidableEq, Repr

inductive Input where
  | proceed
  | cancelled
  | opened (r : Except Status Unit)
  | sent (accepted : Bool)
  | received (m : ServerMessage)
  | closed
  | failed (s : Status)
  | persisted (r : Except StorageError Unit)
  | reloaded (r : Except StorageError Unit)
  | loaded (c : Option Credential)
  | wiped (r : Except StorageError Unit)
  | woke

/- Who brings an input about. What only the store can tell is never made up by others. -/
inductive Source where
  | task
  | stop
  | service
  | store
  | clock
  deriving DecidableEq

def Input.source : Input → Source
  | .proceed => .task
  | .cancelled => .stop
  | .opened _ | .sent _ | .received _ | .closed | .failed _ => .service
  | .persisted _ | .reloaded _ | .loaded _ | .wiped _ => .store
  | .woke => .clock

inductive Effect where
  | state (s : State)
  | dialed
  | sent (m : ClientMessage)
  | token (t : String)
  | purged
  | enabled (on : Bool)
  | counted (m : Metric)
  | rested (d : Span)
  deriving DecidableEq

end Channel

structure Channel where
  phase : Channel.Phase := .deciding
  state : Channel.State := .connecting
  running : Bool := true
  shutdown : Bool := false
  /- The attempt in progress, if one is kept, and whether it was cancelled by itself. -/
  attempt : Option Bool := none
  reason : Option Channel.StopReason := none
  deriving DecidableEq

namespace Channel

/- An attempt is cancelled with the whole task too, even one that starts later. -/
def isCancelled (c : Channel) : Bool := c.shutdown || c.attempt == some true

def isStreaming (c : Channel) : Bool := c.state == .streaming

def terminalError? (c : Channel) : Option AgentError :=
  match c.reason with
  | some (.failed e) => some e
  | _ => none

def authorizationRequest (s : Settings) : ClientMessage :=
  .authorizationRequest ⟨s.code, Device.clientCategory, Device.clientKind, s.device.targetOs,
    s.device.uuid⟩

def authentication (c : Credential) : ClientMessage := .authentication ⟨c.appId, c.appSecret⟩

def cancelledStatus : Status := ⟨.ofNumber 1, "control channel stopped"⟩

def unavailable (message : String) : Status := ⟨.ofNumber 14, message⟩

abbrev Next := Channel × List Effect

def goto (c : Channel) (p : Phase) : Next := ({ c with phase := p }, [])

def finish (c : Channel) (e : Ending) : Next := c.goto (.ending e)

def become (c : Channel) (s : State) (p : Phase) : Next :=
  ({ c with state := s, phase := p }, [.state s])

def authorize (c : Channel) : ServerMessage → Next
  | .authorized (some i) (some s) => c.goto (.persisting ⟨i, s⟩)
  | .authorized _ _ => c.become .authenticating .reloading
  | .rejected => c.finish (.final .rejected)
  | _ => c.goto .authorizing

def apply (c : Channel) : ServerMessage → Next
  | .token t => ({ c with phase := .streaming }, [.token t])
  | .deauthorized => c.goto .wiping
  | .defaults on => ({ c with phase := .enabling on }, [.purged])
  | _ => c.goto .streaming

def conclude (c : Channel) : Ending → Next
  | .final r => ({ c with reason := some r, phase := .halting }, [])
  | .closed => c.goto (if c.running then .deciding else .halting)
  | .failed _ =>
    if c.running then ({ c with phase := .retreating }, [.token "", .counted .reconnect])
    else c.goto .halting

def proceed (s : Settings) (c : Channel) : Option Next :=
  match c.phase with
  | .deciding => some (c.goto (if c.running then .announcing else .halting))
  /- A stop may have been asked for since it was decided to go on. -/
  | .announcing => some ({ c with attempt := some false }.become .connecting .dialing)
  | .dialing => some ({ c with phase := .opening }, [.dialed])
  | .enabling on => some ({ c with phase := .streaming }, [.enabled on])
  | .ending e => some (c.conclude e)
  | .retreating =>
    some ({ c with state := .backoff, phase := .backingOff }, [.state .backoff, .rested s.backoff])
  | .halting => some ({ c with running := false, phase := .releasing }, [])
  | .releasing => some ({ c with attempt := none, phase := .concluding }, [])
  | .concluding =>
    some ({ c with reason := some (c.reason.getD .requested), phase := .closing }, [])
  | .closing => some (c.become .stopped .done)
  | _ => none

def cancel (c : Channel) : Option Next :=
  if !c.isCancelled then none
  else match c.phase with
    | .dialing | .opening | .authorizing | .streaming => some (c.finish (.failed cancelledStatus))
    | .backingOff => if c.shutdown then some (c.goto .deciding) else none
    | _ => none

def step (s : Settings) (c : Channel) (i : Input) : Option Next :=
  match i, c.phase with
  | .proceed, _ => c.proceed s
  | .cancelled, _ => c.cancel
  | .opened (.ok ()), .opening => some (c.become .authorizing .greeting)
  | .opened (.error e), .opening => some (c.finish (.failed e))
  | .sent true, .greeting =>
    some ({ c with phase := .authorizing }, [.sent (authorizationRequest s)])
  | .sent false, .greeting =>
    some (c.finish (.failed (unavailable "control stream closed before authorization")))
  | .received m, .authorizing => some (c.authorize m)
  | .closed, .authorizing =>
    some (c.finish (.failed (unavailable "control stream ended during authorization")))
  | .failed e, .authorizing => some (c.finish (.failed e))
  | .persisted (.ok ()), .persisting _ => some (c.become .authenticating .reloading)
  | .persisted (.error e), .persisting _ => some (c.finish (.final (.failed (.credentialPersist e))))
  | .reloaded (.ok ()), .reloading => some (c.goto .loading)
  | .reloaded (.error e), .reloading => some (c.finish (.final (.failed (.storage e))))
  | .loaded (some x), .loading => some (c.goto (.presenting x))
  | .loaded none, .loading => some (c.finish (.final .missingCredentials))
  | .sent true, .presenting x =>
    some ({ c with state := .streaming, phase := .streaming },
      [.sent (authentication x), .state .streaming])
  | .sent false, .presenting _ =>
    some (c.finish (.final (.failed (.transport
      (unavailable "control stream closed before authentication")))))
  | .received m, .streaming => some (c.apply m)
  | .closed, .streaming => some (c.finish .closed)
  | .failed e, .streaming => some (c.finish (.failed e))
  | .wiped _, .wiping => some ({ c with phase := .ending (.final .deauthorized) }, [.token ""])
  | .woke, .backingOff => some (c.goto .deciding)
  | _, _ => none

structure Moment where
  before : Channel
  input : Input
  after : Channel
  effects : List Effect

/- Whatever the service, the store and the clock bring, as long as nobody asks the task to stop. -/
inductive Run (s : Settings) : Channel → List Moment → Channel → Prop where
  | rest {c : Channel} : Run s c [] c
  | step {c d e : Channel} {i : Input} {es : List Effect} {later : List Moment}
      (next : c.step s i = some (d, es)) (run : Run s d later e) :
      Run s c (⟨c, i, d, es⟩ :: later) e

def play (s : Settings) (c : Channel) : List Input → Option (List Moment × Channel)
  | [] => some ([], c)
  | i :: rest => do
    let (d, es) ← c.step s i
    let (later, e) ← d.play s rest
    some (⟨c, i, d, es⟩ :: later, e)

def clearRunning (c : Channel) : Channel := { c with running := false }

def signalShutdown (c : Channel) : Channel := { c with shutdown := true }

def cancelAttempt (c : Channel) : Channel := { c with attempt := c.attempt.map fun _ => true }

def requestStop (c : Channel) : Channel := c.clearRunning.signalShutdown.cancelAttempt

end Channel
end FirewallAgent

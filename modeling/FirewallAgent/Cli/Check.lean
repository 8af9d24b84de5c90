import FirewallAgent.Agent.Start
import FirewallAgent.Cli.Invocation
import FirewallAgent.Cli.Report
import FirewallAgent.Endpoint
import FirewallAgent.Query
import FirewallAgent.Scenario.Run
import FirewallAgent.Text.Capital
import FirewallAgent.Text.Quoted

/-!
The check: one made-up connection, and requests on it, decided the way that a proxy would have them
decided. The policy service is a scripted one, or nobody answers at its address.
-/
namespace FirewallAgent.Cli.Check
open Scenario

def connection (o : CheckOptions) : Connection where
  token := ""
  sourceIp := some o.source.ip.text
  sourcePort := some o.source.port.toUInt32
  destinationIp := some o.destination.ip.text
  destinationPort := some o.destination.port.toUInt32
  protocol := "HTTP/1.1"

def header? (text : String) : Option (String × String) :=
  (Query.cutAt ':' text.toList).map fun (name, value) =>
    (String.ofList (Text.trimChars name), String.ofList (Text.trimChars value))

def badHeader (text : String) : Failure :=
  ⟨"Header " ++ Text.Quoted.quote text ++ " is not \"Name: value\"", []⟩

def addHeader (d : Dictionary) (text : String) : Except Failure Dictionary :=
  match header? text with
  | some (name, value) => .ok (d.insert name value)
  | none => .error (badHeader text)

def request (o : CheckOptions) (info : Option ConnectionInfo) : Except Failure Request := do
  let headers ← o.headers.foldlM addHeader (Dictionary.empty.insert "User-Agent" o.userAgent)
  .ok { token := "", url := o.url, headers, method := Text.capitalized o.method
        body := none, query := Query.parse o.url, info }

def basis : Except AgentError Verdict → String
  | .ok .unknown => "fallback: service answered UNKNOWN"
  | .ok _ => "policy service"
  | .error e => "fallback: " ++ e.text

def verdictLine (n : Nat) (f : Fallback) (r : Except AgentError Verdict) : String :=
  let word := match f.resolve r with
    | .allow => "ALLOW"
    | _ => "DENY"
  "Request " ++ toString n ++ ": " ++ word ++ " (" ++ basis r ++ ")"

def channelLines (state : Channel.State) (settled : Bool) (patience : Nat) : List String :=
  ("Control channel: " ++ state.text) ::
    if settled then [] else ["  not authenticated after " ++ toString patience ++ "s"]

def connectionLines (key : Option ConnectionKey) :
    Except AgentError (Option ConnectionInfo) → List String
  | .error e => ["Connection: " ++ e.text]
  | .ok (some i) => match key with
    | some k => ["Connection: " ++ k.text ++ " (tcp id " ++ toString i.tcpId ++ ")"]
    | none => []
  | .ok none => []

structure Talk where
  world : World
  lines : List String := []

def Talk.say (t : Talk) (lines : List String) : Talk := { t with lines := t.lines ++ lines }

def isSettled (i : Nat) (w : World) : Bool :=
  w.agent.clients[i]?.any fun c => c.channel.state == .streaming || c.channel.state == .stopped

def stateOf (i : Nat) (w : World) : Channel.State :=
  (w.agent.clients[i]?.map (·.channel.state)).getD .stopped

def doNow (bound : Nat) (w : World) (d : Deed) : World × Outcome :=
  let (w, report) := runStep bound w { deed := d }
  (w, report.outcome)

def decide (bound : Nat) (t : Talk) (f : Fallback) (r : Request) (n : Nat) : Talk :=
  let (world, outcome) := doNow bound t.world (.ask (.request r))
  let t : Talk := { t with world }
  match outcome with
  | .answered (.ok (.verdict v)) => t.say [verdictLine n f (.ok v)]
  | .answered (.error e) => t.say [verdictLine n f (.error e)]
  | _ => t

def describe (bound : Nat) (t : Talk) (o : CheckOptions) : Talk × Option ConnectionInfo :=
  let key := ConnectionKey.ofConnection? (connection o)
  let (world, outcome) := doNow bound t.world (.ask (.connection (connection o)))
  let t : Talk := { t with world }
  match outcome with
  | .answered (.ok (.info i)) =>
    (t.say (connectionLines key (.ok i)), if key.isSome then i else none)
  | .answered (.error e) => (t.say (connectionLines key (.error e)), none)
  | _ => (t, none)

def converse (o : CheckOptions) (f : Fallback) (bound : Nat) (w : World) :
    Talk × Except Failure Unit :=
  let w := World.run (some (w.now + o.patience * 1000)) (isSettled 0) bound w
  let t : Talk := ⟨w, channelLines (stateOf 0 w) (isSettled 0 w) o.patience⟩
  let (t, info) := describe bound t o
  match request o info with
  | .error e => (t, .error e)
  | .ok r =>
    let t := (List.range (max o.times 1)).foldl (fun t n => decide bound t f r (n + 1)) t
    ({ t with world := (doNow bound t.world .stop).1 }, .ok ())

def worldOf (a : Agent) (c : Config) : World :=
  { agent := a, tokenTimeout := c.tokenTimeout.millis }

end FirewallAgent.Cli.Check

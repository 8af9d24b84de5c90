import FirewallAgent.Cli.Check
import FirewallAgent.Cli.Template
import FirewallAgent.Lock.Session
import FirewallAgent.Store.Session

/-!
The commands at work on one host: its files, its named locks, and what the environment says. What
goes wrong before a command begins is told by the exit code alone.
-/
namespace FirewallAgent.Cli

structure Site where
  tree : FileTree
  locks : Lock.Session := {}
  fromEnv : Option String := none
  peer : Option Scenario.Service := none
  asked : List Decision.Message := []

namespace Site

def config (s : Site) (path : Option String) : Except Failure Config :=
  match Config.loadOrDefault s.tree s.fromEnv path with
  | .ok c => .ok c
  | .error e => .error (.ofConfig "Failed to load configuration" e)

def orNotSet (text : String) : String := if text = "" then "(not set)" else text

def pathLines (s : Site) (path : Option String) : List String :=
  "Configuration discovery paths:" ::
    ("  1. --config flag: " ++ path.getD "(not set)") ::
    ("  2. " ++ Config.pathVariable ++ ": " ++ s.fromEnv.getD "(not set)") ::
    Config.searchPaths.zipIdx.map (fun (p, i) => "  " ++ toString (i + 3) ++ ". " ++ p) ++ [""]

def configLines (c : Config) : List String :=
  ["Current configuration:", "", "Policy Service:",
    "  Address: " ++ orNotSet (Text.trim c.serverAddr),
    "  Installation code: " ++ orNotSet (Text.trim c.installationCode),
    "  TLS: " ++ if c.tls then "enabled" else "disabled"] ++
  (c.certificatePath.map fun p => "  CA certificate: " ++ p).toList ++
  ["  Fallback policy: " ++ c.fallback.text, "", "Timeouts:",
    "  Connect: " ++ c.connectTimeout.short,
    "  RPC deadline: " ++ c.callTimeout.short,
    "  Token wait: " ++ c.tokenTimeout.short,
    "  Reconnect backoff: " ++ c.backoff.short, "", "Local State:",
    "  Credential store: " ++ c.storePath,
    "  Credential lock: " ++ c.lockName,
    "  Connection cache: " ++ toString c.cacheCapacity ++ " entries"] ++
  (c.deviceUuid.map fun u => "  Device UUID override: " ++ u).toList ++ [""]

def showConfig (s : Site) (path : Option String) (paths yaml : Bool) : Exit :=
  match s.config path with
  | .error f => .fail [] f
  | .ok c =>
    let before := if paths then s.pathLines path else []
    if yaml then { stdout := (Exit.ofLines before).stdout ++ c.toYaml }
    else .ofLines (before ++ configLines c)

def validateConfig (s : Site) (path : Option String) : Exit :=
  let lines := ["Validating configuration..."]
  match s.config path with
  | .error f => .fail lines f
  | .ok c => match c.validate with
    | .error e => .fail lines (.ofConfig "Configuration validation failed" e)
    | .ok () => .ofLines (lines ++ ["✓ Configuration is valid"])

def generateConfig (s : Site) (path : String) (force : Bool) : Site × Exit :=
  if s.tree.pathExists path && !force then
    (s, .fail [] ⟨path ++ " already exists; pass --force to overwrite", []⟩)
  else match s.tree.write path (Text.toBytes template) with
    | .ok tree => ({ s with tree }, .ofLines ["✓ Configuration generated: " ++ path])
    | .error e =>
      (s, .fail [] ⟨"Failed to write config to " ++ Text.Quoted.quotePath path, [e.text]⟩)

def openStore (s : Site) (c : Config) : Except Failure Store.Handle :=
  match Store.openAt s.tree c.storePath c.lockName with
  | .ok h => .ok h
  | .error e => .error (.ofStorage ("Failed to open credential store " ++ c.storePath) e)

def listCredentials (s : Site) (c : Config) : Exit :=
  match s.openStore c with
  | .error f => .fail [] f
  | .ok h =>
    let lines := if h.keys.isEmpty then ["(empty)"] else h.keys
    .ofLines (("Credential store: " ++ h.path) :: lines.map ("  " ++ ·))

def clearCredentials (s : Site) (c : Config) (confirmed : Bool) : Site × Exit :=
  if !confirmed then (s, .fail [] ⟨"refusing to clear credentials without --yes", []⟩)
  else match s.openStore c with
    | .error f => (s, .fail [] f)
    | .ok h => match Store.clear s.tree h with
      | (tree, _, .ok ()) => ({ s with tree }, .ofLines ["✓ Credential store cleared"])
      | (tree, _, .error e) =>
        ({ s with tree }, .fail [] (.ofStorage "Failed to clear credential store" e))

def resetLock (s : Site) (c : Config) : Site × Exit :=
  match s.locks.handle "" (.unlink c.lockName) with
  | (locks, .failed e) =>
    ({ s with locks }, .fail [] (.ofStorage ("Failed to remove lock " ++ c.lockName) e))
  | (locks, _) => ({ s with locks }, .ofLines ["✓ Lock " ++ c.lockName ++ " removed"])

def checkBound (o : CheckOptions) (peer : Scenario.Service) : Nat :=
  peer.weight + 4 * (max o.times 1) + 32

def keepPeer (s : Site) (w : Scenario.World) : Site :=
  match w.remotes with
  | r :: _ =>
    { s with
      tree := w.agent.tree
      peer := some r.service
      asked := s.asked ++ r.calls.map Prod.snd }
  | [] => s

def talkTo (s : Site) (peer : Scenario.Service) (a : Agent) (c : Config) (o : CheckOptions) :
    Site × Exit :=
  let w := (Check.worldOf a c).adopt c.identity peer
  match Check.converse o c.fallback (checkBound o peer) w with
  | (t, .ok ()) => (s.keepPeer t.world, .ofLines t.lines)
  | (t, .error f) => (s.keepPeer t.world, .fail t.lines f)

def check (s : Site) (c : Config) (o : CheckOptions) : Site × Exit :=
  match Agent.ofConfig s.tree c with
  | .error e => (s, .fail [] (.ofAgent "Failed to initialize client" e))
  | .ok a =>
    let giveUp (e : AgentError) := (s, Exit.ofLines [Check.verdictLine 1 c.fallback (.error e)])
    match Endpoint.ofConfig s.tree c.identity c, s.peer with
    | .error e, _ => giveUp e
    | .ok e, none => giveUp e.unreachable
    | .ok _, some peer => s.talkTo peer a c o

def runWith (s : Site) (path : Option String) (f : Config → Site × Exit) : Site × Exit :=
  match s.config path with
  | .error e => (s, .fail [] e)
  | .ok c => f c

def perform (s : Site) (i : Invocation) : Site × Exit :=
  match i.command with
  | .showConfig paths yaml => (s, s.showConfig i.configPath paths yaml)
  | .validateConfig path => (s, s.validateConfig (path.orElse fun _ => i.configPath))
  | .generateConfig path force => s.generateConfig path force
  | .listCredentials => s.runWith i.configPath fun c => (s, s.listCredentials c)
  | .clearCredentials yes => s.runWith i.configPath fun c => s.clearCredentials c yes
  | .resetLock => s.runWith i.configPath fun c => s.resetLock c
  | .check o => s.runWith i.configPath fun c => s.check c o

end Site

def commandName (path : List String) : String := "-".intercalate (program :: path)

def usageLine (path : List String) : String :=
  let rest := if (commandsAt path).isEmpty then ["[OPTIONS]"] else ["[OPTIONS]", "<COMMAND>"]
  "Usage: " ++ " ".intercalate (program :: path ++ rest)

def refuse : Refusal → Exit
  | .usage => { code := 2, stderr := usageLine [] ++ "\n" }
  | .help path => .ofLines (usageLine path :: (commandsAt path).map ("  " ++ ·))
  | .version path => .ofLines [commandName path ++ " " ++ release]

def run (s : Site) (args : List String) : Site × Exit :=
  match Invocation.ofArguments s.fromEnv args with
  | .ok i => s.perform i
  | .error r => (s, refuse r)

end FirewallAgent.Cli

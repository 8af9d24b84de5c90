import FirewallAgent.Address.Socket
import FirewallAgent.Cli.Grammar
import FirewallAgent.Config.Discovery

/-!
The commands, and the reading of command lines into them.
-/
namespace FirewallAgent.Cli

structure CheckOptions where
  url : String
  method : String
  source : SocketAddress
  destination : SocketAddress
  userAgent : String
  headers : List String
  times : Nat
  patience : Nat
  deriving DecidableEq

inductive Command where
  | showConfig (paths yaml : Bool)
  | validateConfig (path : Option String)
  | generateConfig (path : String) (force : Bool)
  | listCredentials
  | clearCredentials (confirmed : Bool)
  | resetLock
  | check (o : CheckOptions)
  deriving DecidableEq

structure Invocation where
  configPath : Option String
  command : Command
  deriving DecidableEq

def program : String := "gatekeeper"

def release : String := "0.3.0"

def isPath (v : String) : Bool := v ≠ ""

def anything (_ : String) : Bool := true

def isAddress (v : String) : Bool := (SocketAddress.ofText? v).isSome

def commonFlags : List Flag :=
  [{ name := "config", letter := some 'c', accepts := some isPath },
    { name := "log-level", accepts := some anything }]

def wordLimit : Nat := 4294967296

def longLimit : Nat := 18446744073709551616

def checkFlags : List Flag :=
  [{ name := "url", accepts := some anything },
    { name := "method", accepts := some anything },
    { name := "source", accepts := some isAddress },
    { name := "destination", accepts := some isAddress },
    { name := "user-agent", accepts := some anything },
    { name := "header", accepts := some anything, many := true },
    { name := "repeat", accepts := some fun v => (natBelow? wordLimit v).isSome },
    { name := "wait", accepts := some fun v => (natBelow? longLimit v).isSome }]

def commandsAt : List String → List String
  | [] => ["config", "credentials", "check", "help"]
  | ["config"] => ["show", "validate", "generate", "help"]
  | ["credentials"] => ["list", "clear", "reset-lock", "help"]
  | _ => []

def flagsAt : List String → List Flag
  | ["config", "show"] => [{ name := "paths" }, { name := "yaml" }]
  | ["config", "generate"] =>
    [{ name := "output", letter := some 'o', accepts := some isPath }, { name := "force" }]
  | ["credentials", "clear"] => [{ name := "yes" }]
  | ["check"] => checkFlags
  | _ => []

def levelAt (path : List String) : Level where
  path := path
  flags := flagsAt path ++ commonFlags
  commands := commandsAt path
  operands := if path = ["config", "validate"] then 1 else 0

def helpOn (path : List String) : List String → Refusal
  | [] => .help path
  | a :: rest =>
    if (commandsAt path).contains a then helpOn (path ++ [a]) rest else .usage

def descend : Nat → List String → List (String × String) → List String →
    Except Refusal (List String × List (String × String) × List String)
  | 0, _, _, _ => .error .usage
  | depth + 1, path, above, args => do
    let g ← (levelAt path).parse {} args
    let values := g.values ++ above
    match g.command with
    | some (a, rest) =>
      if a = "help" then .error (helpOn path rest) else descend depth (path ++ [a]) values rest
    | none => if (commandsAt path).isEmpty then .ok (path, values, g.operands) else .error .usage

def checkOptions? (values : List (String × String)) : Option CheckOptions := do
  let value (name d : String) := (values.lookup name).getD d
  some {
    url := value "url" "/"
    method := value "method" "GET"
    source := ← SocketAddress.ofText? (value "source" "203.0.113.10:40000")
    destination := ← SocketAddress.ofText? (value "destination" "127.0.0.1:80")
    userAgent := value "user-agent" "gatekeeper-check"
    headers := (values.filter (·.1 = "header")).map Prod.snd
    times := ← natBelow? wordLimit (value "repeat" "1")
    patience := ← natBelow? longLimit (value "wait" "10") }

def command? (path : List String) (values : List (String × String)) (operands : List String) :
    Option Command :=
  let has (name : String) : Bool := (values.lookup name).isSome
  match path with
  | ["config", "show"] => some (.showConfig (has "paths") (has "yaml"))
  | ["config", "validate"] => some (.validateConfig operands.head?)
  | ["config", "generate"] =>
    some (.generateConfig ((values.lookup "output").getD "./gatekeeper.yaml") (has "force"))
  | ["credentials", "list"] => some .listCredentials
  | ["credentials", "clear"] => some (.clearCredentials (has "yes"))
  | ["credentials", "reset-lock"] => some .resetLock
  | ["check"] => (checkOptions? values).map .check
  | _ => none

def Invocation.ofArguments (fromEnv : Option String) (args : List String) :
    Except Refusal Invocation := do
  let (path, values, operands) ← descend 3 [] [] args
  if fromEnv = some "" then .error .usage
  else match command? path values operands with
    | some command => .ok ⟨(values.lookup "config").orElse fun _ => fromEnv, command⟩
    | none => .error .usage

end FirewallAgent.Cli

import FirewallAgent.Config.Yaml
import FirewallAgent.FileTree

/-!
Where settings come from: a path given outright, else the first candidate that exists, else the
defaults.
-/
namespace FirewallAgent.Config

def pathVariable : String := "GATEKEEPER_CONFIG_PATH"

def searchPaths : List String := ["./gatekeeper.yaml", "/etc/gatekeeper/config.yaml"]

def discover? (t : FileTree) (fromEnv : Option String) : Option String :=
  (fromEnv.toList ++ searchPaths).find? t.pathExists

def load (t : FileTree) (path : String) : Except ConfigError Config :=
  match t.readText path with
  | .ok yaml => ofYaml yaml
  | .error e => .error (.read path e)

def loadOrDefault (t : FileTree) (fromEnv path : Option String) : Except ConfigError Config :=
  match path.orElse fun _ => discover? t fromEnv with
  | some path => load t path
  | none => .ok {}

end FirewallAgent.Config

import FirewallAgent.FileTree
import FirewallAgent.Text.Blank

/-!
The identity of the device the agent runs on: an override if one is given, else the first source
file that holds a text other than blanks.
-/
namespace FirewallAgent

structure Device where
  uuid : String
  targetOs : String := "linux"
  deriving DecidableEq, Repr, Inhabited

namespace Device

def sources : List String := ["/sys/class/dmi/id/product_uuid", "/etc/machine-id"]

def clientKind : String := "Nginx"

def clientCategory : String := "AppGuard"

def given? (text : String) : Option String :=
  let text := Text.trim text
  if text.isEmpty then none else some text

def readFrom? (t : FileTree) (path : String) : Option String :=
  match t.readText path with
  | .ok text => given? text
  | .error _ => none

def discover (override : Option String) (sources : List String) (t : FileTree) :
    Except AgentError Device :=
  match override.bind given? with
  | some uuid => .ok { uuid }
  | none =>
    match sources.findSome? (readFrom? t) with
    | some uuid => .ok { uuid }
    | none => .error .deviceUnavailable

end Device
end FirewallAgent

import FirewallAgent.Config
import FirewallAgent.Error

/-!
What a command leaves on the terminal: lines, and a failure with the causes below it.
-/
namespace FirewallAgent.Cli

structure Failure where
  top : String
  causes : List String := []
  deriving DecidableEq, Repr

namespace Failure

def ofConfig (top : String) (e : ConfigError) : Failure := ⟨top, e.text :: e.causes⟩

def ofStorage (top : String) (e : StorageError) : Failure := ⟨top, e.text :: e.causes⟩

def ofAgent (top : String) (e : AgentError) : Failure := ⟨top, e.text :: e.causes⟩

def indented (margin : String) (text : String) : String :=
  String.ofList (text.toList.flatMap fun c => if c = '\n' then '\n' :: margin.toList else [c])

def causeLines : List String → List String
  | [] => []
  | [c] => ["    " ++ indented "    " c]
  | cs => cs.zipIdx.map fun (c, i) => "    " ++ toString i ++ ": " ++ indented "       " c

def text (f : Failure) : String :=
  let below := match causeLines f.causes with
    | [] => ""
    | lines => "\nCaused by:\n" ++ String.join (lines.map (· ++ "\n"))
  "Error: " ++ f.top ++ "\n" ++ below

end Failure

structure Exit where
  code : Nat := 0
  stdout : String := ""
  stderr : String := ""
  deriving DecidableEq, Repr

namespace Exit

def ofLines (lines : List String) : Exit := { stdout := String.join (lines.map (· ++ "\n")) }

def fail (lines : List String) (f : Failure) : Exit :=
  { ofLines lines with code := 1, stderr := f.text }

end Exit
end FirewallAgent.Cli

/-!
The identity under which an agent talks to a policy service.
-/
namespace FirewallAgent

structure Identity where
  installationCode : String
  serverAddr : String
  tls : Bool
  deriving DecidableEq, Repr, Inhabited

namespace Identity

def text (i : Identity) : String :=
  i.installationCode ++ "@" ++ (if i.tls then "https" else "http") ++ "://" ++ i.serverAddr

def before (a b : Identity) : Bool :=
  if a.installationCode ≠ b.installationCode then a.installationCode < b.installationCode
  else if a.serverAddr ≠ b.serverAddr then a.serverAddr < b.serverAddr
  else !a.tls && b.tls

def place (i : Identity) : List Identity → List Identity
  | [] => [i]
  | j :: rest => if i = j then j :: rest else if i.before j then i :: j :: rest else j :: place i rest

def sorted (is : List Identity) : List Identity := is.foldr place []

end Identity
end FirewallAgent

import FirewallAgent.Address.Ip
import FirewallAgent.Config
import FirewallAgent.FileTree
import FirewallAgent.Uri

/-!
The endpoint at which a policy service is reached. An address without a scheme gets the one that
the identity asks for; an address with a scheme keeps it. TLS needs a host name that a certificate
can name, and a certificate file that can be read and parsed if one is configured. The address of a
local socket stands for one fixed URI, and TLS does not go over it.
-/
namespace FirewallAgent

structure Endpoint where
  uri : Uri
  deriving DecidableEq, Repr

namespace Endpoint
open Text

def hasScheme (addr : String) : Bool :=
  go addr.toList
where
  go : List Char → Bool
    | [] => false
    | c :: rest => [':', '/', '/'].isPrefixOf (c :: rest) || go rest

def fullAddress (i : Identity) : String :=
  if hasScheme i.serverAddr then i.serverAddr
  else (if i.tls then "https://" else "http://") ++ i.serverAddr

def isLabelChar (c : Char) : Bool := c.isAlphanum || c == '_' || c == '-'

def isLabel (cs : List Char) : Bool :=
  !cs.isEmpty && decide (cs.length ≤ 63) && cs.all isLabelChar &&
    cs.head? != some '-' && cs.getLast? != some '-'

def labels : List Char → List (List Char)
  | [] => [[]]
  | c :: rest =>
    if c = '.' then [] :: labels rest
    else match labels rest with
      | [] => [[c]]
      | l :: ls => (c :: l) :: ls

def isDomain (cs : List Char) : Bool :=
  let ls := labels cs
  let ls := if decide (1 < ls.length) && ls.getLast? == some [] then ls.dropLast else ls
  decide (cs.length ≤ 253) && ls.all isLabel &&
    (cs.getLast? == some '.' || !(ls.getLast?.any fun l => l.all Char.isDigit))

def isNameable (host : String) : Bool :=
  let cs := host.toList
  let bare := if cs.head? = some '[' then cs.tail.dropLast else cs
  isDomain bare || (IpAddress.ofText? (String.ofList bare)).isSome

def invalidAddress (addr : String) : AgentError :=
  .invalidConfiguration ("invalid server address " ++ addr ++ ": invalid URI")

def tlsFault (reason : String) : AgentError := .invalidConfiguration ("TLS setup failed: " ++ reason)

def isLocalSocket (addr : String) : Bool := "unix:".toList.isPrefixOf addr.toList

def localUri : Uri := ⟨some "http", some "tonic", "/", none⟩

def uri? (addr : String) : Option Uri :=
  if isLocalSocket addr then some localUri else Uri.ofText? addr

def trusted (t : FileTree) : Option String → Except AgentError (Option Bytes)
  | none => .ok none
  | some path =>
    match t.read path with
    | .ok pem => .ok (some pem)
    | .error _ => .error (.certificateNotFound path)

def tlsFault? (parses : Bytes → Bool) (t : FileTree) (uri : Uri) (addr : String)
    (certificate : Option String) : Option AgentError :=
  match trusted t certificate with
  | .error e => some e
  | .ok pem =>
    if isLocalSocket addr then some (tlsFault "cannot apply TLS config for unix domain socket")
    else if pem.all parses && uri.host?.any isNameable then none
    else some (tlsFault "transport error")

/- Which certificate files parse is for the TLS library to say. Left open, all do: PEM text that the
library would reject is accepted then. -/
def ofConfig (t : FileTree) (i : Identity) (c : Config) (parses : Bytes → Bool := fun _ => true) :
    Except AgentError Endpoint :=
  let addr := fullAddress i
  match uri? addr with
  | none => .error (invalidAddress addr)
  | some uri =>
    match if i.tls then tlsFault? parses t uri addr c.certificatePath else none with
    | some e => .error e
    | none => .ok ⟨uri⟩

def unreachable (e : Endpoint) : AgentError := .connectionTimeout e.uri.text

end Endpoint
end FirewallAgent

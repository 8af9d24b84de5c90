import FirewallAgent.Error
import FirewallAgent.Identity
import FirewallAgent.Span
import FirewallAgent.Text.Blank
import FirewallAgent.Verdict

/-!
Settings of one agent, their defaults, and what is wrong with settings that cannot be used to
connect. Of several faults the one that comes first in the order of `fault?` counts.
-/
namespace FirewallAgent

structure Config where
  serverAddr : String := ""
  installationCode : String := ""
  tls : Bool := false
  certificatePath : Option String := none
  fallback : Fallback := .deny
  connectTimeout : Span := .ofSeconds 10
  callTimeout : Span := .ofSeconds 5
  tokenTimeout : Span := .ofSeconds 5
  backoff : Span := .ofSeconds 5
  cacheCapacity : UInt64 := 1024
  storePath : String := "/var/lib/gatekeeper/credentials.conf"
  lockName : String := "/gatekeeper-credentials"
  deviceUuid : Option String := none
  deriving DecidableEq, Repr, Inhabited

namespace Config

inductive Fault where
  | noAddress
  | noCode
  | noCapacity
  | lockShape (name : String)
  | lockSlashes (name : String)
  | zeroTimeout (setting : String)
  deriving DecidableEq, Repr

def Fault.text : Fault → String
  | noAddress => "server_addr cannot be empty"
  | noCode => "installation_code cannot be empty"
  | noCapacity => "connection_cache_capacity must be at least 1"
  | lockShape name => "credential_lock_name must look like \"/name\": " ++ name
  | lockSlashes name => "credential_lock_name cannot contain further slashes: " ++ name
  | zeroTimeout setting => setting ++ " must be non-zero"

def isBlankText (s : String) : Bool := s.toList.all Text.isBlank

def lockFault? (name : String) : Option Fault :=
  match name.toList with
  | '/' :: c :: rest => if '/' ∈ c :: rest then some (.lockSlashes name) else none
  | _ => some (.lockShape name)

def zeroFault? (c : Config) : Option Fault :=
  [("connect_timeout", c.connectTimeout), ("rpc_timeout", c.callTimeout),
    ("token_timeout", c.tokenTimeout)].findSome? fun (setting, span) =>
      if span.isZero then some (.zeroTimeout setting) else none

def fault? (c : Config) : Option Fault :=
  if isBlankText c.serverAddr then some .noAddress
  else if isBlankText c.installationCode then some .noCode
  else if c.cacheCapacity = 0 then some .noCapacity
  else (lockFault? c.lockName).orElse fun _ => c.zeroFault?

def identity (c : Config) : Identity := ⟨c.installationCode, c.serverAddr, c.tls⟩

end Config

inductive ConfigError where
  | read (path : String) (cause : FileError)
  | parse
  | invalid (f : Config.Fault)
  deriving DecidableEq, Repr

namespace ConfigError

def text : ConfigError → String
  | read path cause => "failed to read " ++ path ++ ": " ++ cause.text
  | parse => "failed to parse configuration: not a mapping of known settings"
  | invalid f => "invalid configuration: " ++ f.text

def causes : ConfigError → List String
  | read _ cause => [cause.text]
  | _ => []

end ConfigError

def Config.validate (c : Config) : Except ConfigError Unit :=
  match c.fault? with
  | some f => .error (.invalid f)
  | none => .ok ()

end FirewallAgent

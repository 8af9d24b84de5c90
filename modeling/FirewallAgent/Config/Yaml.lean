import FirewallAgent.Config
import FirewallAgent.Span.Text
import FirewallAgent.Yaml.Node
import FirewallAgent.Yaml.Writer

/-!
Settings as a YAML mapping. Writing names every setting that is present, in a fixed order. Reading
takes the settings in any order, leaves out what it does not know, and wants no setting twice.
-/
namespace FirewallAgent.Config
open FirewallAgent.Yaml (Node Scalar)
open FirewallAgent.Text

inductive Setting where
  | serverAddr | installationCode | tls | certificatePath | fallback
  | connectTimeout | callTimeout | tokenTimeout | backoff
  | cacheCapacity | storePath | lockName | deviceUuid
  deriving DecidableEq, Repr

namespace Setting

def all : List Setting :=
  [serverAddr, installationCode, tls, certificatePath, fallback, connectTimeout, callTimeout,
    tokenTimeout, backoff, cacheCapacity, storePath, lockName, deviceUuid]

def key : Setting → String
  | serverAddr => "server_addr"
  | installationCode => "installation_code"
  | tls => "tls"
  | certificatePath => "server_cert_path"
  | fallback => "default_policy"
  | connectTimeout => "connect_timeout"
  | callTimeout => "rpc_timeout"
  | tokenTimeout => "token_timeout"
  | backoff => "reconnect_backoff"
  | cacheCapacity => "connection_cache_capacity"
  | storePath => "credential_store_path"
  | lockName => "credential_lock_name"
  | deviceUuid => "device_uuid"

def ofKey? (key : String) : Option Setting := all.find? fun s => s.key == key

theorem ofKeyKey (s : Setting) : ofKey? s.key = some s := by
  cases s <;> decide +kernel

end Setting

def nullTag : String := "tag:yaml.org,2002:null"
def boolTag : String := "tag:yaml.org,2002:bool"
def intTag : String := "tag:yaml.org,2002:int"

def isTyped (tag : String) (s : Scalar) : Bool :=
  s.style == .plain || (s.style == .literal && s.tag == some tag)

def text? (v : Node) : Option String := v.scalar?.map Scalar.text

def optionalText? (v : Node) : Option (Option String) := do
  let s ← v.scalar?
  let isNull := Yaml.Resolution.isNull s.text.toList
  if s.style != .plain then some (some s.text)
  else match s.tag with
    | none => some (if s.text.isEmpty || isNull then none else some s.text)
    | some t => if t = nullTag then (if isNull then some none else none) else some (some s.text)

def flag? (v : Node) : Option Bool := do
  let s ← v.scalar?
  if isTyped boolTag s then Yaml.Resolution.bool? s.text.toList else none

def count? (v : Node) : Option UInt64 := do
  let s ← v.scalar?
  if isTyped intTag s then
    (Yaml.Resolution.natural? (UInt64.size - 1) s.text.toList).map UInt64.ofNat
  else none

def span? (v : Node) : Option Span := (text? v).bind Span.ofText?

def set? (c : Config) (s : Setting) (v : Node) : Option Config :=
  match s with
  | .serverAddr => (text? v).map fun x => { c with serverAddr := x }
  | .installationCode => (text? v).map fun x => { c with installationCode := x }
  | .tls => (flag? v).map fun x => { c with tls := x }
  | .certificatePath => (optionalText? v).map fun x => { c with certificatePath := x }
  | .fallback => (text? v).map fun x => { c with fallback := .ofText x }
  | .connectTimeout => (span? v).map fun x => { c with connectTimeout := x }
  | .callTimeout => (span? v).map fun x => { c with callTimeout := x }
  | .tokenTimeout => (span? v).map fun x => { c with tokenTimeout := x }
  | .backoff => (span? v).map fun x => { c with backoff := x }
  | .cacheCapacity => (count? v).map fun x => { c with cacheCapacity := x }
  | .storePath => (text? v).map fun x => { c with storePath := x }
  | .lockName => (text? v).map fun x => { c with lockName := x }
  | .deviceUuid => (optionalText? v).map fun x => { c with deviceUuid := x }

def ofEntries? (c : Config) (seen : List Setting) : List (Node × Node) → Option Config
  | [] => some c
  | (k, v) :: rest => do
    let key ← text? k
    match Setting.ofKey? key with
    | none => ofEntries? c seen rest
    | some s =>
      if s ∈ seen then none
      else do
        let c ← c.set? s v
        ofEntries? c (s :: seen) rest

def ofNode? : Option Node → Option Config
  | none => some {}
  | some (.mapping entries) => ofEntries? {} [] entries
  | some (.scalar s) => if s.style = .plain ∧ s.text.isEmpty then some {} else none
  | some _ => none

def ofYaml? (yaml : String) : Option Config := (Node.read? yaml).bind ofNode?

def ofYaml (yaml : String) : Except ConfigError Config :=
  match ofYaml? yaml with
  | some c => .ok c
  | none => .error .parse

def flagText (b : Bool) : String := if b then "true" else "false"

inductive Shown where
  | text (s : String)
  | bare (s : String)
  deriving DecidableEq, Repr

def shown? (c : Config) : Setting → Option Shown
  | .serverAddr => some (.text c.serverAddr)
  | .installationCode => some (.text c.installationCode)
  | .tls => some (.bare (flagText c.tls))
  | .certificatePath => c.certificatePath.map .text
  | .fallback => some (.text c.fallback.text)
  | .connectTimeout => some (.text (Span.text c.connectTimeout))
  | .callTimeout => some (.text (Span.text c.callTimeout))
  | .tokenTimeout => some (.text (Span.text c.tokenTimeout))
  | .backoff => some (.text (Span.text c.backoff))
  | .cacheCapacity => some (.bare (Numeral.decimal c.cacheCapacity.toNat))
  | .storePath => some (.text c.storePath)
  | .lockName => some (.text c.lockName)
  | .deviceUuid => c.deviceUuid.map .text

def entryChars (s : Setting) : Shown → List Char
  | .text t => Yaml.Writer.entry s.key t.toList
  | .bare t => s.key.toList ++ ':' :: ' ' :: t.toList ++ ['\n']

def toYaml (c : Config) : String :=
  String.ofList (Setting.all.flatMap fun s => ((c.shown? s).map (entryChars s)).getD [])

end FirewallAgent.Config

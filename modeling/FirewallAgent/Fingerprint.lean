import FirewallAgent.Message
import FirewallAgent.Query
import FirewallAgent.Text.Case

/-!
What two requests have to share for one verdict to serve both.
-/
namespace FirewallAgent

structure Fingerprint where
  method : String
  query : String
  sourceIp : String
  url : String
  userAgent : String
  deriving DecidableEq, Repr, Inhabited

namespace Fingerprint

def sourceIpOf (r : Request) : Option String := do (← (← r.info).connection).sourceIp

def userAgentOf (r : Request) : Option String :=
  (r.headers.entries.find? fun e => Text.sameIgnoringCase e.1 "user-agent").map Prod.snd

def ofRequest (r : Request) : Fingerprint where
  method := r.method
  query := Query.serialize r.query
  sourceIp := (sourceIpOf r).getD ""
  url := r.url
  userAgent := (userAgentOf r).getD ""

def fields (f : Fingerprint) : List String :=
  [f.method, f.query, f.sourceIp, f.url, f.userAgent]

def before (a b : Fingerprint) : Bool := a.fields < b.fields

def rank (f : Fingerprint) (all : List Fingerprint) : Nat :=
  (all.filter (·.before f)).eraseDups.length

end Fingerprint
end FirewallAgent

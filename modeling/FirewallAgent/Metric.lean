import FirewallAgent.Verdict

/-!
What the agent counts, under the names and labels that a collector sees.
-/
namespace FirewallAgent

inductive Operation where
  | connection | request | response
  deriving DecidableEq, Repr

def Operation.text : Operation → String
  | connection => "tcp_connection"
  | request => "http_request"
  | response => "http_response"

inductive Metric where
  | reconnect
  | tokenTimeout
  | cacheHit (o : Operation)
  | decision (o : Operation) (v : Option Verdict)
  deriving DecidableEq, Repr

namespace Metric

def name : Metric → String
  | reconnect => "gatekeeper_control_channel_reconnects_total"
  | tokenTimeout => "gatekeeper_token_wait_timeouts_total"
  | cacheHit _ => "gatekeeper_policy_cache_hits_total"
  | decision .. => "gatekeeper_decisions_total"

def labels : Metric → List (String × String)
  | cacheHit o => [("operation", o.text)]
  | decision o v => [("operation", o.text), ("policy", (v.map Verdict.name).getD "none")]
  | _ => []

def text (m : Metric) : String :=
  match m.labels with
  | [] => m.name
  | ls => m.name ++ "\x7b" ++ ",".intercalate (ls.map fun l => l.1 ++ "=" ++ l.2) ++ "\x7d"

end Metric
end FirewallAgent

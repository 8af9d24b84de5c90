import FirewallAgent.Text.Blank
import FirewallAgent.Text.Case

/-!
Verdicts of the policy service and the fallback that stands in when the service gave none.
-/
namespace FirewallAgent

inductive Verdict where
  | unknown
  | allow
  | deny
  deriving DecidableEq, Repr

namespace Verdict

def ofNumber (n : Int32) : Verdict :=
  if n = 1 then allow else if n = 2 then deny else unknown

def name : Verdict → String
  | unknown => "UNKNOWN"
  | allow => "ALLOW"
  | deny => "DENY"

theorem ofNumberAllow {n : Int32} : ofNumber n = allow ↔ n = 1 := by
  unfold ofNumber; split
  · simp [*]
  · split <;> simp [*]

theorem ofNumberDeny {n : Int32} : ofNumber n = deny ↔ n = 2 := by
  unfold ofNumber; split
  · rename_i h; subst h; decide
  · split <;> simp [*]

end Verdict

inductive Fallback where
  | allow
  | deny
  deriving DecidableEq, Repr

namespace Fallback

def ofText (s : String) : Fallback :=
  if Text.sameIgnoringCase (Text.trim s) "allow" then allow else deny

def text : Fallback → String
  | allow => "allow"
  | deny => "deny"

def verdict : Fallback → Verdict
  | allow => .allow
  | deny => .deny

def resolve {ε : Type} (f : Fallback) : Except ε Verdict → Verdict
  | .ok .allow => .allow
  | .ok .deny => .deny
  | _ => f.verdict

theorem resolveDenyAllow {ε : Type} {o : Except ε Verdict} :
    deny.resolve o = .allow ↔ o = .ok .allow := by
  unfold resolve; split <;> simp_all [verdict]

theorem resolveAllowDeny {ε : Type} {o : Except ε Verdict} :
    allow.resolve o = .deny ↔ o = .ok .deny := by
  unfold resolve; split <;> simp_all [verdict]

theorem ofTextOfText (f : Fallback) : ofText f.text = f := by
  cases f <;> decide +kernel

end Fallback
end FirewallAgent

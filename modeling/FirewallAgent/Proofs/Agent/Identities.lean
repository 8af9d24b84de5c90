import FirewallAgent.Proofs.Agent.Freshness
import FirewallAgent.Proofs.Agent.Token

/-! Which service a verdict comes from. All clients of an agent have one decision cache, and the
fingerprint of a request says nothing of the client that it came to. So a verdict either was asked for on
the transport of the client itself, or it is from the cache, and then some client asked for it on its
own. -/
namespace FirewallAgent.Agent
open Decision (Goes)

variable {a b start : Agent} {past : List Moment} {m : Moment} {n i : Nat} {x : Verdict} {r : Request}
  {call : Call} {c : Client} {y : Decision.Message} {number : Int32}

def Decided (past : List Moment) (n : Nat) (r : Request) (x : Verdict) : Prop :=
  (∃ y number, Verdict.ofNumber number = x ∧ InOrder (asking n y number) past) ∨
    ∃ earlier m later, past = earlier ++ m :: later ∧ m.recalls n r x ∧
      Recorded (.ofRequest r) x earlier

structure Grounded (past : List Moment) (a : Agent) : Prop where
  dated : Dated past a
  decided : ∀ (n : Nat) (call : Call) r x, a.calls[n]? = some call → call.subject = .request r →
    call.stage = .ended (.ok (.verdict x)) → Decided past n r x

theorem Decided.later (h : Decided past n r x) (m : Moment) : Decided (past ++ [m]) n r x := by
  rcases h with ⟨y, number, told, heard⟩ | ⟨earlier, k, later, rfl, recalls, recorded⟩
  · exact .inl ⟨y, number, told, heard.later m⟩
  · exact .inr ⟨earlier, k, later ++ [m], by simp, recalls, recorded⟩

end FirewallAgent.Agent

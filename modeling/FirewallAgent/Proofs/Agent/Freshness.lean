import FirewallAgent.Proofs.Agent.Provenance
import FirewallAgent.Proofs.Agent.Stream

/-! How old a decision from the cache can be. It was recorded after the last push of defaults, since a
push empties the cache. The remote call that it comes from may be older: a push does not stop calls
that are under way, and they record what they are told once they get to it. -/
namespace FirewallAgent.Agent
open Decision (Goes Stage)

def Moment.pushes (m : Moment) (i : Nat) (on : Bool) : Prop :=
  m.hears i (.defaults on) ∧ ∃ c, m.before.clients[i]? = some c ∧ c.channel.phase = .streaming

def Moment.hearsVerdict (m : Moment) (n : Nat) (number : Int32) : Prop :=
  m.action = .call n (.replied (.ok (.verdict ⟨number⟩))) ∧
    ∃ call y, m.before.calls[n]? = some call ∧ call.stage = .awaiting y

def Moment.records (m : Moment) (n : Nat) (f : Fingerprint) (x : Verdict) : Prop :=
  m.action = .call n .proceed ∧ m.before.cache.enabled = true ∧
    ∃ call, m.before.calls[n]? = some call ∧ call.stage = .recording x ∧
      call.subject.fingerprint? = some f

def Moment.recalls (m : Moment) (n : Nat) (r : Request) (x : Verdict) : Prop :=
  ∃ call t after, m.before.calls[n]? = some call ∧ call.subject = .request r ∧
    call.stage = .holding t ∧ m.after.calls[n]? = some after ∧ after.stage = .ended (.ok (.verdict x))

def asking (n : Nat) (y : Decision.Message) (number : Int32) : List (Moment → Prop) :=
  [(Moment.asks · n y), (Moment.hearsVerdict · n number)]

/- The verdict was asked for, told and recorded, in this order, and no push came after that. -/
def Recorded (f : Fingerprint) (x : Verdict) (past : List Moment) : Prop :=
  ∃ n y number earlier m since, past = earlier ++ m :: since ∧ m.records n f x ∧
    Verdict.ofNumber number = x ∧ InOrder (asking n y number) earlier ∧
    ∀ k ∈ since, ∀ i on, ¬ k.pushes i on

def Heard (past : List Moment) (n : Nat) : Stage → Prop
  | .awaiting y => InOrder [(Moment.asks · n y)] past
  | .recording x => ∃ y number, Verdict.ofNumber number = x ∧ InOrder (asking n y number) past
  | _ => True

structure Dated (past : List Moment) (a : Agent) : Prop where
  entries : ∀ e ∈ a.cache.entries, Recorded e.1 e.2 past
  calls : ∀ (n : Nat) (call : Call), a.calls[n]? = some call → Heard past n call.stage

variable {past : List Moment} {m : Moment} {n : Nat} {f : Fingerprint} {v : Verdict}

theorem Recorded.next (h : Recorded f v past) (calm : ∀ i on, ¬ m.pushes i on) :
    Recorded f v (past ++ [m]) := by
  obtain ⟨n, y, number, earlier, k, since, rfl, records, told, heard, quiet⟩ := h
  refine ⟨n, y, number, earlier, k, since ++ [m], by simp, records, told, heard, ?_⟩
  intro x there
  rcases List.mem_append.mp there with old | new
  · exact quiet x old
  · exact List.mem_singleton.mp new ▸ calm

theorem Heard.next {stage : Stage} (h : Heard past n stage) (m : Moment) : Heard (past ++ [m]) n stage := by
  cases stage with
  | awaiting y => exact InOrder.later h m
  | recording x =>
    obtain ⟨y, number, told, heard⟩ := h
    exact ⟨y, number, told, heard.later m⟩
  | entering | waiting | holding | asking | ended => trivial

variable {a b : Agent} {x : Action} {es : List Event}

theorem Dated.ofIdle {start : Agent} (idle : start.calls = []) (empty : start.cache.entries = []) :
    Dated [] start := by
  refine ⟨?_, ?_⟩
  · simp [empty]
  · simp [idle]

def Event.isAsked : Event → Bool
  | .call _ (.asked _) => true
  | _ => false

end FirewallAgent.Agent

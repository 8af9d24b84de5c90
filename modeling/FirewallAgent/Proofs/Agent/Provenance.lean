import FirewallAgent.Proofs.Agent.Step

/-! Where verdicts come from. Whatever a call or the cache holds for a fingerprint was said by the
service about a request with this fingerprint, in this call or before it. So without such an answer
the fallback alone decides. -/
namespace FirewallAgent.Agent
open Decision (Goes Stage View)

def Moment.answers (m : Moment) (f : Fingerprint) (number : Int32) : Prop :=
  ∃ n call sent, m.action = .call n (.replied (.ok (.verdict ⟨number⟩))) ∧
    m.before.calls[n]? = some call ∧ call.stage = .awaiting sent ∧
    call.subject.fingerprint? = some f

def Vouched (past : List Moment) (f : Fingerprint) (v : Verdict) : Prop :=
  ∃ m ∈ past, ∃ number, m.answers f number ∧ Verdict.ofNumber number = v

def Founded (past : List Moment) (f : Fingerprint) : Stage → Prop
  | .recording v => Vouched past f v
  | .ended r => ∃ outcome : Except AgentError Verdict,
      r = outcome.map .verdict ∧ ∀ v, outcome = .ok v → Vouched past f v
  | _ => True

structure Traced (past : List Moment) (a : Agent) : Prop where
  entries : ∀ e ∈ a.cache.entries, Vouched past e.1 e.2
  calls : ∀ call ∈ a.calls, ∀ f, call.subject.fingerprint? = some f → Founded past f call.stage

variable {past : List Moment} {f : Fingerprint}

theorem Vouched.later {v : Verdict} (h : Vouched past f v) (m : Moment) :
    Vouched (past ++ [m]) f v := by
  obtain ⟨n, there, answered⟩ := h
  exact ⟨n, List.mem_append_left _ there, answered⟩

theorem Founded.later {stage : Stage} (h : Founded past f stage) (m : Moment) :
    Founded (past ++ [m]) f stage := by
  cases stage with
  | recording v => exact Vouched.later h m
  | ended r =>
    obtain ⟨outcome, same, vouched⟩ := h
    exact ⟨outcome, same, fun v ok => (vouched v ok).later m⟩
  | entering | waiting | holding | asking | awaiting => trivial

theorem Traced.later {a : Agent} (h : Traced past a) (m : Moment) : Traced (past ++ [m]) a :=
  ⟨fun e there => (h.entries e there).later m,
    fun call there f about => (h.calls call there f about).later m⟩

theorem foundedError (e : AgentError) : Founded past f (.ended (.error e)) :=
  ⟨.error e, rfl, fun _ ok => nomatch ok⟩

theorem foundedVerdict {v : Verdict} (h : Vouched past f v) :
    Founded past f (.ended (.ok (.verdict v))) :=
  ⟨.ok v, rfl, fun _ same => Except.ok.inj same ▸ h⟩

theorem foundedGoes {v : View} {s : Decision.Subject} {stage : Stage} {input : Decision.Input}
    {next : Decision.Next} (goes : Goes v s stage input next)
    (cached : ∀ e ∈ v.cache.entries, Vouched past e.1 e.2) (about : s.fingerprint? = some f)
    (before : Founded past f stage)
    (told : ∀ sent number, stage = .awaiting sent → input = .replied (.ok (.verdict ⟨number⟩)) →
      Vouched past f (Verdict.ofNumber number)) : Founded past f next.stage := by
  cases goes with
  | enters | takes | expires | prepares | asks => trivial
  | barred | misses | refused => exact foundedError _
  | hands _ _ all =>
    subst all
    contradiction
  | recalls t hit =>
    cases s with
    | request r =>
      cases Option.some.inj about
      exact foundedVerdict (cached _ (DecisionCache.memOfGet hit))
    | token | connection | response => contradiction
  | informed sent r plain => exact absurd (plain.symm.trans about) nofun
  | told sent r => exact told sent r.number rfl rfl
  | records | passes => exact foundedVerdict before

variable {a b : Agent} {es : List Event}

theorem callTraced {n : Nat} {input : Decision.Input} (traced : Traced past a)
    (next : a.stepCall n input = some (b, es)) :
    Traced (past ++ [⟨a, .call n input, b, es⟩]) b := by
  have known := traced.later ⟨a, .call n input, b, es⟩
  obtain ⟨call, c, reached, found, _, goes, rfl, rfl⟩ := callStep next
  have there : call ∈ a.calls := List.mem_of_getElem? found
  refine ⟨?_, ?_⟩
  · intro e member
    rcases Decision.goesCache goes with same | ⟨x, f, stage, _, about, same⟩
    · rw [same] at member
      exact known.entries e member
    · rw [same] at member
      rcases DecisionCache.memPut member with ⟨rfl, _⟩ | old
      · have founded := known.calls call there f about
        rw [stage] at founded
        exact founded
      · exact known.entries e old
  · intro other member f about
    rcases List.mem_or_eq_of_mem_set member with old | rfl
    · exact known.calls other old f about
    · refine foundedGoes goes known.entries about (known.calls call there f about) ?_
      intro sent number stage said
      exact ⟨_, List.mem_append_right _ (List.mem_singleton.mpr rfl), number,
        ⟨n, call, sent, by rw [said], found, stage, about⟩, rfl⟩

theorem tracedStep {x : Action} (traced : Traced past a) (next : a.step x = some (b, es)) :
    Traced (past ++ [⟨a, x, b, es⟩]) b := by
  have known := traced.later ⟨a, x, b, es⟩
  cases stepShape next with
  | asked i s =>
    refine ⟨known.entries, ?_⟩
    intro call member f about
    rcases List.mem_append.mp member with old | new
    · exact known.calls call old f about
    · cases List.mem_singleton.mp new
      trivial
  | called moved => exact callTraced traced moved
  | driven outer moved =>
    have driven := channelDriven moved
    exact ⟨fun e there => known.entries e (driven.entries e there),
      fun call there => known.calls call (driven.calls ▸ there)⟩
  | stored moved =>
    obtain ⟨c, tree, store, news, _, _, moved⟩ := storageStep moved
    have driven := channelDriven moved
    exact ⟨fun e there => known.entries e (driven.entries e there),
      fun call there => known.calls call (driven.calls ▸ there)⟩
  | outside t => exact ⟨known.entries, known.calls⟩
  | aside _ same _ | asks _ _ same _ =>
    exact ⟨fun e there => known.entries e (same.cache ▸ there),
      fun call there => known.calls call (same.calls ▸ there)⟩

theorem runTraced {ms : List Moment} (traced : Traced past a) (run : Run a ms b) :
    Traced (past ++ ms) b := run.keeps tracedStep traced

theorem Traced.ofIdle {start : Agent} (idle : start.calls = []) (empty : start.cache.entries = []) :
    Traced [] start := by
  refine ⟨?_, ?_⟩
  · simp [empty]
  · simp [idle]

theorem decisionsFailClosed {start a : Agent} {ms : List Moment} {n : Nat} {call : Call}
    {f : Fingerprint} {result : Except AgentError Decision.Answer} (run : Run start ms a)
    (idle : start.calls = []) (empty : start.cache.entries = [])
    (found : a.calls[n]? = some call) (about : call.subject.fingerprint? = some f)
    (ended : call.result? = some result) :
    ∃ outcome : Except AgentError Verdict, result = outcome.map .verdict ∧
      (Fallback.deny.resolve outcome = .allow → ∃ m ∈ ms, m.answers f 1) ∧
      (Fallback.allow.resolve outcome = .deny → ∃ m ∈ ms, m.answers f 2) := by
  have traced : Traced ms a := by simpa using runTraced (.ofIdle idle empty) run
  have founded := traced.calls call (List.mem_of_getElem? found) f about
  have stage : call.stage = .ended result := by
    unfold Call.result? at ended
    split at ended
    · cases Option.some.inj ended
      assumption
    · contradiction
  rw [stage] at founded
  obtain ⟨outcome, same, vouched⟩ := founded
  refine ⟨outcome, same, ?_, ?_⟩
  · intro allowed
    obtain ⟨m, there, number, answered, allow⟩ :=
      vouched .allow (Fallback.resolveDenyAllow.mp allowed)
    exact ⟨m, there, Verdict.ofNumberAllow.mp allow ▸ answered⟩
  · intro denied
    obtain ⟨m, there, number, answered, deny⟩ :=
      vouched .deny (Fallback.resolveAllowDeny.mp denied)
    exact ⟨m, there, Verdict.ofNumberDeny.mp deny ▸ answered⟩

def streaming : Agent :=
  { device := ⟨"uuid", "linux"⟩, tree := .fresh, store := ⟨"store", "/lock", .empty⟩
    clients := [{
      identity := ⟨"code", "localhost:443", true⟩, settings := ⟨"code", ⟨"uuid", "linux"⟩, .ofSeconds 5⟩
      channel := { phase := .streaming, state := .streaming }, token := "token" }] }

def responseThenRequest : List Action :=
  [.channel 0 (.received (.defaults true)), .channel 0 .proceed, .ask 0 (.response {} {})] ++
    List.replicate 4 (.call 0 .proceed) ++
    [.call 0 (.replied (.ok (.verdict ⟨1⟩))), .call 0 .proceed, .ask 0 (.request {})] ++
    List.replicate 3 (.call 1 .proceed)

theorem cachedAllowWasAnswered : streaming.calls = [] ∧ streaming.cache.entries = [] ∧
    ∃ ms a call, Run streaming ms a ∧ a.calls[1]? = some call ∧
      call.subject.fingerprint? = some (.ofRequest {}) ∧
      call.result? = some (.ok (.verdict .allow)) ∧ ∃ m ∈ ms, m.answers (.ofRequest {}) 1 := by
  refine ⟨rfl, rfl, ?_⟩
  obtain ⟨ms, a, call, played, found, about, ended⟩ : ∃ ms a call,
      streaming.play responseThenRequest = some (ms, a) ∧ a.calls[1]? = some call ∧
        call.subject.fingerprint? = some (.ofRequest {}) ∧
        call.result? = some (.ok (.verdict .allow)) := ⟨_, _, _, rfl, rfl, rfl, rfl⟩
  obtain ⟨outcome, same, allowed, _⟩ :=
    decisionsFailClosed (playRun played) rfl rfl found about ended
  cases outcome with
  | error e => contradiction
  | ok v =>
    cases same
    exact ⟨ms, a, call, playRun played, found, about, ended, allowed rfl⟩

end FirewallAgent.Agent

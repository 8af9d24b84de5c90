import FirewallAgent.Proofs.Agent.Step

/-! The course of one call that has its client to itself. While the channel streams and a token is
there, the call either finds its answer in the cache or asks the service once, and its result is what
it was told. -/
namespace FirewallAgent.Agent
open Decision (Goes Message Stage Subject View)

def answer? : Decision.Input → Option (Except Status VerdictReply)
  | .replied (.error e) => some (.error e)
  | .replied (.ok (.verdict r)) => some (.ok r)
  | _ => none

def outcome : Except Status VerdictReply → Except AgentError Decision.Answer
  | .error e => .error (.transport e)
  | .ok r => .ok (.verdict (.ofNumber r.number))

structure Visit where
  subject : Subject
  asked : List Message
  heard : List (Except Status VerdictReply)
  result : Except AgentError Decision.Answer

def Concludes (n i : Nat) (a : Agent) (v : Visit) (b : Agent) : Prop :=
  ∃ (inputs : List Decision.Input) (ms : List Moment),
    a.play (inputs.map (.call n)) = some (ms, b) ∧ v.asked = ms.flatMap (·.messages n) ∧
      v.heard = inputs.filterMap answer? ∧ b.calls[n]? = some ⟨i, v.subject, .ended v.result⟩

def Makes (i : Nat) (a : Agent) (v : Visit) (b : Agent) : Prop :=
  ∃ started, a.step (.ask i v.subject) = some (started, []) ∧ Concludes a.calls.length i started v b

def keeping (cache : DecisionCache Fingerprint) (f : Fingerprint) :
    Except Status VerdictReply → DecisionCache Fingerprint
  | .error _ => cache
  | .ok r => cache.put f (.ofNumber r.number)

inductive Ends (v : View) (s : Subject) (f : Fingerprint) : DecisionCache Fingerprint → Visit → Prop where
  | recalled {x : Verdict} (hit : Decision.cached? v s = some x) :
      Ends v s f v.cache ⟨s, [], [], .ok (.verdict x)⟩
  | told {m : Message} (new : Decision.cached? v s = none) (about : s.message? v.token = some m)
      (answer : Except Status VerdictReply) :
      Ends v s f (keeping v.cache f answer) ⟨s, [m], [answer], outcome answer⟩

def Midway (v : View) (s : Subject) (f : Fingerprint) (asked : List Message)
    (heard : List (Except Status VerdictReply)) (cache : DecisionCache Fingerprint) : Stage → Prop
  | .entering | .waiting _ => asked = [] ∧ heard = [] ∧ cache = v.cache
  | .holding t => asked = [] ∧ heard = [] ∧ cache = v.cache ∧ t = v.token
  | .asking m => asked = [] ∧ heard = [] ∧ cache = v.cache ∧ Decision.cached? v s = none ∧
      s.message? v.token = some m
  | .awaiting m => asked = [m] ∧ heard = [] ∧ cache = v.cache ∧ Decision.cached? v s = none ∧
      s.message? v.token = some m
  | .recording x => ∃ m r, asked = [m] ∧ heard = [.ok r] ∧ cache = v.cache ∧
      Decision.cached? v s = none ∧ s.message? v.token = some m ∧ x = .ofNumber r.number
  | .ended r => Ends v s f cache ⟨s, asked, heard, r⟩

variable {v : View} {s : Subject} {f : Fingerprint} {asked : List Message}
  {heard : List (Except Status VerdictReply)}

theorem midwayGoes {stage : Stage} {input : Decision.Input} {next : Decision.Next}
    {cache : DecisionCache Fingerprint} (about : s.fingerprint? = some f)
    (live : v.channel.isStreaming = true) (filled : v.token ≠ "")
    (midway : Midway v s f asked heard cache stage) (goes : Goes { v with cache } s stage input next) :
    Midway v s f (asked ++ next.effects.filterMap asked?) (heard ++ (answer? input).toList) next.cache
      next.stage := by
  cases goes with
  | enters => simpa [Midway, asked?, answer?] using midway
  | barred dead => exact absurd (live.symm.trans dead) nofun
  | takes =>
    obtain ⟨rfl, rfl, rfl⟩ := midway
    exact ⟨rfl, rfl, rfl, rfl⟩
  | hands _ _ all =>
    subst all
    contradiction
  | expires empty | misses empty => exact absurd empty filled
  | recalls t hit =>
    obtain ⟨rfl, rfl, rfl, rfl⟩ := midway
    exact .recalled hit
  | prepares new message =>
    obtain ⟨rfl, rfl, rfl, rfl⟩ := midway
    exact ⟨rfl, rfl, rfl, new, message⟩
  | asks m =>
    obtain ⟨rfl, rfl, rfl, new, message⟩ := midway
    exact ⟨rfl, rfl, rfl, new, message⟩
  | refused m e =>
    obtain ⟨rfl, rfl, rfl, new, message⟩ := midway
    exact .told new message (.error e)
  | informed m r plain => exact absurd (plain.symm.trans about) nofun
  | told m r =>
    obtain ⟨rfl, rfl, rfl, new, message⟩ := midway
    exact ⟨m, r, rfl, rfl, rfl, new, message, rfl⟩
  | records x about' =>
    cases Option.some.inj (about.symm.trans about')
    obtain ⟨m, r, rfl, rfl, rfl, new, message, rfl⟩ := midway
    exact .told new message (.ok r)
  | passes x plain => exact absurd (plain.symm.trans about) nofun

structure At (n : Nat) (call : Call) (c : Client) (cache : DecisionCache Fingerprint) (a : Agent) : Prop where
  found : a.calls[n]? = some call
  client : a.clients[call.client]? = some c
  cached : a.cache = cache

variable {a b : Agent} {n i : Nat} {c : Client} {cache : DecisionCache Fingerprint} {stage : Stage}
  {input : Decision.Input} {es : List Event}

theorem At.step (here : At n ⟨i, s, stage⟩ c cache a) (next : a.step (.call n input) = some (b, es)) :
    ∃ reached, Goes ⟨c.channel, c.token, cache⟩ s stage input reached ∧
      es = reached.effects.map (.call n) ∧ At n ⟨i, s, reached.stage⟩ c reached.cache b := by
  obtain ⟨call, c', reached, found, client, goes, rfl, rfl⟩ := callStep next
  cases Option.some.inj (here.found.symm.trans found)
  cases Option.some.inj (here.client.symm.trans client)
  have inside : n < a.calls.length := (List.getElem?_eq_some_iff.mp found).1
  refine ⟨reached, here.cached ▸ goes, rfl, ?_, client, rfl⟩
  simp [inside]

theorem At.goes {next : Decision.Next} (here : At n ⟨i, s, stage⟩ c cache a)
    (goes : Goes ⟨c.channel, c.token, cache⟩ s stage input next) :
    ∃ b, a.step (.call n input) = some (b, next.effects.map (.call n)) ∧
      At n ⟨i, s, next.stage⟩ c next.cache b := by
  obtain ⟨found, client, rfl⟩ := here
  have moved : Decision.step (a.view c) s stage input = some next := Decision.goesStep goes
  have inside : n < a.calls.length := (List.getElem?_eq_some_iff.mp found).1
  refine ⟨{ a with calls := a.calls.set n ⟨i, s, next.stage⟩, cache := next.cache }, ?_, ?_, client, rfl⟩
  · have client : a.clients[i]? = some c := client
    simp [Agent.step, stepCall, found, client, moved]
  · simp [inside]

theorem answersCons (input : Decision.Input) (rest : List Decision.Input) :
    (input :: rest).filterMap answer? = (answer? input).toList ++ rest.filterMap answer? := by
  rw [List.filterMap_cons]
  cases answer? input <;> rfl

theorem courseRuns (found : DecisionCache Fingerprint) {inputs : List Decision.Input} {ms : List Moment}
    (about : s.fingerprint? = some f) (live : c.channel.isStreaming = true) (filled : c.token ≠ "")
    (here : At n ⟨i, s, stage⟩ c cache a)
    (midway : Midway ⟨c.channel, c.token, found⟩ s f asked heard cache stage)
    (played : a.play (inputs.map (.call n)) = some (ms, b)) :
    ∃ stage' cache', At n ⟨i, s, stage'⟩ c cache' b ∧ Midway ⟨c.channel, c.token, found⟩ s f
      (asked ++ ms.flatMap (·.messages n)) (heard ++ inputs.filterMap answer?) cache' stage' := by
  induction inputs generalizing a ms stage cache asked heard with
  | nil =>
    cases Option.some.inj played
    exact ⟨stage, cache, here, by simpa using midway⟩
  | cons input rest ih =>
    simp only [List.map_cons, play, bind, Option.bind_eq_some_iff] at played
    obtain ⟨⟨d, es⟩, next, ⟨later, e⟩, tail, last⟩ := played
    cases Option.some.inj last
    obtain ⟨reached, goes, rfl, there⟩ := here.step next
    have moved := midwayGoes about live filled midway goes
    obtain ⟨stage', cache', final, result⟩ := ih there moved tail
    have said := messagesOf ⟨a, .call n input, d, reached.effects.map (.call n)⟩ rfl
    refine ⟨stage', cache', final, ?_⟩
    simpa only [List.flatMap_cons, said, answersCons, List.append_assoc] using result

theorem startedAt (client : a.clients[i]? = some c) (next : a.step (.ask i s) = some (b, es)) :
    At a.calls.length ⟨i, s, .entering⟩ c a.cache b := by
  cases Option.some.inj next
  exact ⟨by simp, client, rfl⟩

theorem makesEnds {v : Visit} (client : a.clients[i]? = some c) (about : v.subject.fingerprint? = some f)
    (live : c.channel.isStreaming = true) (filled : c.token ≠ "") (made : Makes i a v b) :
    Ends (a.view c) v.subject f b.cache v ∧ b.clients[i]? = some c := by
  obtain ⟨started, next, inputs, ms, played, asked, heard, ended⟩ := made
  obtain ⟨stage, cache, final, midway⟩ := courseRuns a.cache about live filled
    (startedAt client next) ⟨rfl, rfl, rfl⟩ played
  obtain rfl : stage = .ended v.result := by
    cases Option.some.inj (final.found.symm.trans ended)
    rfl
  rw [List.nil_append, List.nil_append, ← asked, ← heard] at midway
  exact ⟨final.cached ▸ midway, final.client⟩

theorem At.ended {r : Except AgentError Decision.Answer} (here : At n ⟨i, s, .ended r⟩ c cache a) :
    ∃ b, Concludes n i a ⟨s, [], [], r⟩ b := ⟨a, [], [], rfl, rfl, rfl, here.found⟩

theorem At.before {next : Decision.Next} {r : Except AgentError Decision.Answer}
    (here : At n ⟨i, s, stage⟩ c cache a) (goes : Goes ⟨c.channel, c.token, cache⟩ s stage input next)
    (rest : ∀ b, At n ⟨i, s, next.stage⟩ c next.cache b → ∃ d, Concludes n i b ⟨s, asked, heard, r⟩ d) :
    ∃ d, Concludes n i a
      ⟨s, next.effects.filterMap asked? ++ asked, (answer? input).toList ++ heard, r⟩ d := by
  obtain ⟨b, moved, there⟩ := here.goes goes
  obtain ⟨d, inputs, ms, played, rfl, rfl, ended⟩ := rest b there
  have said := messagesOf ⟨a, .call n input, b, next.effects.map (.call n)⟩ rfl
  refine ⟨d, input :: inputs, ⟨a, .call n input, b, next.effects.map (.call n)⟩ :: ms, ?_, ?_,
    (answersCons input inputs).symm, ended⟩
  · simp only [List.map_cons, play, moved, played, bind, Option.bind_some]
  · rw [List.flatMap_cons, said]

theorem At.admitted {v : Visit} (more : s ≠ .token) (live : c.channel.isStreaming = true)
    (filled : c.token ≠ "") (here : At n ⟨i, s, .entering⟩ c cache a) (subject : v.subject = s)
    (rest : ∀ b, At n ⟨i, s, .holding c.token⟩ c cache b → ∃ d, Concludes n i b v d) :
    ∃ d, Concludes n i a v d := by
  subst subject
  refine here.before (.enters live) fun _ here => ?_
  exact here.before (.takes nofun filled more) rest

theorem endsConclude {v : Visit} {after : DecisionCache Fingerprint} (about : s.fingerprint? = some f)
    (live : c.channel.isStreaming = true) (filled : c.token ≠ "")
    (ends : Ends ⟨c.channel, c.token, cache⟩ s f after v) (here : At n ⟨i, s, .entering⟩ c cache a) :
    ∃ b, Concludes n i a v b := by
  have more : s ≠ .token := by
    rintro rfl
    contradiction
  cases ends with
  | recalled hit =>
    refine here.admitted more live filled rfl fun _ here => ?_
    exact here.before (.recalls _ hit) fun _ here => here.ended
  | told new message answer =>
    refine here.admitted more live filled rfl fun _ here => ?_
    refine here.before (.prepares new message) fun _ here => ?_
    refine here.before (.asks _) fun _ here => ?_
    cases answer with
    | error e => exact here.before (.refused _ e) fun _ here => here.ended
    | ok r =>
      refine here.before (.told _ r about) fun _ here => ?_
      exact here.before (.records _ about) fun _ here => here.ended

theorem endsMakes {v : Visit} {after : DecisionCache Fingerprint} (client : a.clients[i]? = some c)
    (about : v.subject.fingerprint? = some f) (live : c.channel.isStreaming = true) (filled : c.token ≠ "")
    (ends : Ends (a.view c) v.subject f after v) : ∃ b, Makes i a v b := by
  obtain ⟨b, concludes⟩ := endsConclude about live filled ends (startedAt client rfl)
  exact ⟨b, _, rfl, concludes⟩

end FirewallAgent.Agent

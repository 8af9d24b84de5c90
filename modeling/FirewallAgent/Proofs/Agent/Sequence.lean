import FirewallAgent.Proofs.Agent.Course
import FirewallAgent.Proofs.Agent.Provenance
import FirewallAgent.Proofs.Channel.Moves

/-! Calls that do not overlap, between pushes of defaults. What a client does with them can be told from
the pushes and the answers of the service alone: a request is answered with the last verdict on its
fingerprint since the last push, if that push turned the cache on, and all else is asked. -/
namespace FirewallAgent.Agent

inductive Deed where
  | defaults (on : Bool)
  | visit (v : Visit)

inductive Takes (i : Nat) (a : Agent) : Deed → Agent → Prop where
  | pushed {on : Bool} {b c : Agent} {es es' : List Event}
      (heard : a.step (.channel i (.received (.defaults on))) = some (b, es))
      (applied : b.step (.channel i .proceed) = some (c, es')) : Takes i a (.defaults on) c
  | visited {v : Visit} {f : Fingerprint} {b : Agent} (about : v.subject.fingerprint? = some f)
      (made : Makes i a v b) : Takes i a (.visit v) b

inductive History (i : Nat) (a : Agent) : List Deed → Agent → Prop where
  | start : History i a [] a
  | next {d : Deed} {ds : List Deed} {b c : Agent} (earlier : History i a ds b) (takes : Takes i b d c) :
      History i a (d :: ds) c

def definite? : Except Status VerdictReply → Option Verdict
  | .error _ => none
  | .ok r =>
    match Verdict.ofNumber r.number with
    | .unknown => none
    | x => some x

def Visit.settles? (v : Visit) (f : Fingerprint) : Option Verdict :=
  if v.subject.fingerprint? = some f then v.heard.findSome? definite? else none

def caching : List Deed → Bool
  | [] => false
  | .defaults on :: _ => on
  | .visit _ :: earlier => caching earlier

def lastTold (f : Fingerprint) : List Deed → Option Verdict
  | [] | .defaults _ :: _ => none
  | .visit v :: earlier => (v.settles? f).or (lastTold f earlier)

def remembered (ds : List Deed) (f : Fingerprint) : Option Verdict :=
  if caching ds then lastTold f ds else none

inductive Reference (t : String) (ds : List Deed) : Deed → Prop where
  | defaults (on : Bool) : Reference t ds (.defaults on)
  | recalled {r : Request} {x : Verdict} (known : remembered ds (.ofRequest r) = some x) :
      Reference t ds (.visit ⟨.request r, [], [], .ok (.verdict x)⟩)
  | asked {r : Request} (new : remembered ds (.ofRequest r) = none)
      (answer : Except Status VerdictReply) :
      Reference t ds (.visit ⟨.request r, [.request { r with token := t }], [answer], outcome answer⟩)
  | response (r : Response) (about : Request) (answer : Except Status VerdictReply) :
      Reference t ds
        (.visit ⟨.response r about, [.response { r with token := t }], [answer], outcome answer⟩)

def Visit.Silent (v : Visit) : Prop := ∀ answer ∈ v.heard, definite? answer = none

structure Mirrors (i : Nat) (c : Client) (ds : List Deed) (a : Agent) : Prop where
  client : a.clients[i]? = some c
  enabled : a.cache.enabled = caching ds
  answers : ∀ f, a.cache.find? f = remembered ds f

variable {a b : Agent} {i : Nat} {c : Client} {d : Deed} {ds : List Deed} {f : Fingerprint} {v : Visit}

theorem Visit.Silent.settles (silent : v.Silent) (f : Fingerprint) : v.settles? f = none := by
  unfold Visit.settles?
  split
  · exact List.findSome?_eq_none_iff.mpr silent
  · rfl

theorem rememberedVisit : remembered (.visit v :: ds) f =
    if caching ds then (v.settles? f).or (remembered ds f) else none := by
  unfold remembered
  cases on : caching ds <;> simp [caching, lastTold, on]

theorem rememberedSilent (silent : v.Silent) : remembered (.visit v :: ds) f = remembered ds f := by
  rw [rememberedVisit, silent.settles f, Option.none_or]
  unfold remembered
  cases caching ds <;> rfl

theorem rememberedSkip (silent : v.Silent) (later earlier : List Deed) :
    remembered (later ++ .visit v :: earlier) f = remembered (later ++ earlier) f := by
  have same : caching (later ++ .visit v :: earlier) = caching (later ++ earlier) ∧
      lastTold f (later ++ .visit v :: earlier) = lastTold f (later ++ earlier) := by
    induction later with
    | nil => simp [caching, lastTold, silent.settles f]
    | cons d later ih =>
      cases d with
      | defaults on => exact ⟨rfl, rfl⟩
      | visit w => simp [caching, lastTold, ih.1, ih.2]
  rw [remembered, remembered, same.1, same.2]

theorem Reference.skip {t : String} {later earlier : List Deed} (silent : v.Silent)
    (h : Reference t (later ++ .visit v :: earlier) d) : Reference t (later ++ earlier) d := by
  cases h with
  | defaults on => exact .defaults on
  | recalled known => exact .recalled ((rememberedSkip silent later earlier).symm.trans known)
  | asked new answer => exact .asked ((rememberedSkip silent later earlier).symm.trans new) answer
  | response r about answer => exact .response r about answer

theorem Mirrors.get (h : Mirrors i c ds a) (f : Fingerprint) : a.cache.get f = remembered ds f := by
  rw [DecisionCache.get, h.enabled, h.answers f]
  unfold remembered
  cases caching ds <;> rfl

theorem keptAnswer {s : Decision.Subject} {m : Decision.Message} {r : Except AgentError Decision.Answer}
    (h : Mirrors i c ds a) (about : s.fingerprint? = some f) (answer : Except Status VerdictReply)
    (g : Fingerprint) :
    (keeping a.cache f answer).find? g = remembered (.visit ⟨s, [m], [answer], r⟩ :: ds) g := by
  cases answer with
  | error e =>
    have silent : Visit.Silent ⟨s, [m], [.error e], r⟩ := by simp [Visit.Silent, definite?]
    exact (h.answers g).trans (rememberedSilent silent).symm
  | ok reply =>
    rw [keeping, DecisionCache.findPut, h.enabled, h.answers g, rememberedVisit]
    cases on : caching ds with
    | false => simp [remembered, on]
    | true =>
      by_cases same : g = f
      · subst same
        cases told : Verdict.ofNumber reply.number <;> simp [Visit.settles?, about, definite?, told]
      · have other : ¬ f = g := fun h => same h.symm
        simp [Visit.settles?, about, same, other]

theorem channelGoes {input : Channel.Input} {ch : Channel} {effects : List Channel.Effect}
    (client : a.clients[i]? = some c) (outer : input.source ≠ .store)
    (moved : c.channel.step c.settings input = some (ch, effects)) :
    a.step (.channel i input) = some (effects.foldl (absorb i) (a.setClient i { c with channel := ch }),
      effects.map (.channel i)) := by
  simp [step, outer, stepChannel, client, moved]

theorem pushRuns (client : a.clients[i]? = some c) (here : c.channel.phase = .streaming) (on : Bool) :
    ∃ b es, a.step (.channel i (.received (.defaults on))) = some (b, es) ∧
      ∃ d es', b.step (.channel i .proceed) = some (d, es') ∧ d.clients[i]? = some c ∧
        d.cache = { enabled := on } := by
  have inside : i < a.clients.length := (List.getElem?_eq_some_iff.mp client).1
  have heard : c.channel.step c.settings (.received (.defaults on)) =
      some ({ c.channel with phase := .enabling on }, [.purged]) := by
    simp [Channel.step, here, Channel.apply]
  have applied : ({ c.channel with phase := .enabling on } : Channel).step c.settings .proceed =
      some (c.channel, [.enabled on]) :=
    congrArg (fun ch => some (ch, [Channel.Effect.enabled on])) (Channel.samePhase here)
  have there : ([Channel.Effect.purged].foldl (absorb i)
      (a.setClient i { c with channel := { c.channel with phase := .enabling on } })).clients[i]? =
        some { c with channel := { c.channel with phase := .enabling on } } := by
    simp [absorb, setClient, inside]
  have pushed := channelGoes client (by simp [Channel.Input.source]) heard
  have switched := channelGoes there (by simp [Channel.Input.source]) applied
  refine ⟨_, _, pushed, _, _, switched, ?_, rfl⟩
  simp [absorb, setClient, inside]

theorem pushMirrors {on : Bool} {es es' : List Event} {d : Agent} (h : Mirrors i c ds a)
    (here : c.channel.phase = .streaming)
    (heard : a.step (.channel i (.received (.defaults on))) = some (b, es))
    (applied : b.step (.channel i .proceed) = some (d, es')) : Mirrors i c (.defaults on :: ds) d := by
  obtain ⟨b', _, heard', d', _, applied', client, cache⟩ := pushRuns h.client here on
  cases heard.symm.trans heard'
  cases applied.symm.trans applied'
  refine ⟨client, ?_, ?_⟩
  · rw [cache]
    rfl
  · intro f
    rw [cache]
    cases on <;> rfl

theorem keepingEnabled (cache : DecisionCache Fingerprint) (answer : Except Status VerdictReply) :
    (keeping cache f answer).enabled = cache.enabled := by
  cases answer with
  | error e => rfl
  | ok r => exact cache.enabledPut f _

theorem visitMirrors (h : Mirrors i c ds a) (about : v.subject.fingerprint? = some f)
    (live : c.channel.isStreaming = true) (filled : c.token ≠ "") (made : Makes i a v b) :
    Mirrors i c (.visit v :: ds) b := by
  obtain ⟨ends, client⟩ := makesEnds h.client about live filled made
  obtain ⟨s, asked, heard, r⟩ := v
  generalize cache : b.cache = after at ends
  cases ends with
  | @recalled x hit =>
    have silent : Visit.Silent ⟨s, [], [], .ok (.verdict x)⟩ := by simp [Visit.Silent]
    have same : b.cache = a.cache := cache
    refine ⟨client, same ▸ h.enabled, ?_⟩
    intro g
    rw [same, h.answers g]
    exact (rememberedSilent silent).symm
  | told new message answer =>
    refine ⟨client, ?_, ?_⟩
    · rw [cache]
      exact (keepingEnabled a.cache answer).trans h.enabled
    · intro g
      rw [cache]
      exact keptAnswer h about answer g

theorem referenceEnds (h : Mirrors i c ds a) : Reference c.token ds (.visit v) ↔
    ∃ f after, v.subject.fingerprint? = some f ∧ Ends (a.view c) v.subject f after v := by
  constructor
  · intro reference
    cases reference with
    | recalled known => exact ⟨_, _, rfl, .recalled ((h.get _).trans known)⟩
    | @asked r new answer =>
      have missed : Decision.cached? (a.view c) (.request r) = none := (h.get _).trans new
      exact ⟨_, _, rfl, .told missed rfl answer⟩
    | response r about answer => exact ⟨_, _, rfl, .told rfl rfl answer⟩
  · rintro ⟨f, after, about, ends⟩
    obtain ⟨s, asked, heard, result⟩ := v
    cases s with
    | token | connection => contradiction
    | request r =>
      cases ends with
      | recalled hit => exact .recalled ((h.get _).symm.trans hit)
      | told new message answer =>
        cases Option.some.inj message
        exact .asked ((h.get _).symm.trans new) answer
    | response r about' =>
      cases ends with
      | recalled hit => contradiction
      | told new message answer =>
        cases Option.some.inj message
        exact .response r about' answer

theorem takesReference (h : Mirrors i c ds a) (phase : c.channel.phase = .streaming)
    (live : c.channel.isStreaming = true) (filled : c.token ≠ "") :
    (∃ b, Takes i a d b) ↔ Reference c.token ds d := by
  constructor
  · rintro ⟨b, takes⟩
    cases takes with
    | pushed heard applied => exact .defaults _
    | visited about made =>
      exact (referenceEnds h).mpr ⟨_, _, about, (makesEnds h.client about live filled made).1⟩
  · intro reference
    cases d with
    | defaults on =>
      obtain ⟨b, _, heard, d, _, applied, _⟩ := pushRuns h.client phase on
      exact ⟨d, .pushed heard applied⟩
    | visit v =>
      obtain ⟨f, after, about, ends⟩ := (referenceEnds h).mp reference
      obtain ⟨b, made⟩ := endsMakes h.client about live filled ends
      exact ⟨b, .visited about made⟩

theorem Mirrors.next (h : Mirrors i c ds a) (phase : c.channel.phase = .streaming)
    (live : c.channel.isStreaming = true) (filled : c.token ≠ "") (takes : Takes i a d b) :
    Mirrors i c (d :: ds) b := by
  cases takes with
  | pushed heard applied => exact pushMirrors h phase heard applied
  | visited about made => exact visitMirrors h about live filled made

structure Ready (i : Nat) (c : Client) (a : Agent) : Prop where
  client : a.clients[i]? = some c
  phase : c.channel.phase = .streaming
  state : c.channel.state = .streaming
  filled : c.token ≠ ""
  fresh : a.cache = {}

theorem Ready.live (h : Ready i c a) : c.channel.isStreaming = true := by
  simp [Channel.isStreaming, h.state]

theorem Ready.mirrors (h : Ready i c a) : Mirrors i c [] a := by
  refine ⟨h.client, ?_, ?_⟩
  · rw [h.fresh]
    rfl
  · intro f
    rw [h.fresh]
    rfl

theorem historyMirrors (ready : Ready i c a) (history : History i a ds b) : Mirrors i c ds b := by
  induction history with
  | start => exact ready.mirrors
  | next _ takes ih => exact ih.next ready.phase ready.live ready.filled takes

theorem historySkips (ready : Ready i c a) (silent : v.Silent) {later earlier : List Deed}
    (history : History i a (later ++ .visit v :: earlier) b) :
    ∃ d, History i a (later ++ earlier) d := by
  induction later generalizing b with
  | nil =>
    cases history with
    | next before takes => exact ⟨_, before⟩
  | cons d later ih =>
    cases history with
    | next before takes =>
      -- the reference allows this deed without the visit too, so it can be done again
      have known := historyMirrors ready before
      have reference := (takesReference known ready.phase ready.live ready.filled).mp ⟨_, takes⟩
      obtain ⟨e, shorter⟩ := ih before
      have known' := historyMirrors ready shorter
      obtain ⟨e', again⟩ := (takesReference known' ready.phase ready.live ready.filled).mpr
        (reference.skip silent)
      exact ⟨e', .next shorter again⟩

/- After any history a client does what the reference does, and calls that were not told a verdict
leave no trace in it. -/
theorem clientEqualsReference (ready : Ready i c a) (history : History i a ds b) :
    (∀ d, (∃ next, Takes i b d next) ↔ Reference c.token ds d) ∧
      ∀ later v earlier, ds = later ++ .visit v :: earlier → v.Silent →
        ∃ d, History i a (later ++ earlier) d := by
  refine ⟨?_, ?_⟩
  · intro d
    exact takesReference (historyMirrors ready history) ready.phase ready.live ready.filled
  · rintro later v earlier rfl silent
    exact historySkips ready silent history

/- The service denies a response, has no verdict on the next, and the request is denied by the cache; the
second response might as well not have been. -/

def denied : Visit := ⟨.response {} {}, [.response { token := "token" }], [.ok ⟨2⟩], .ok (.verdict .deny)⟩

def unsettled : Visit :=
  ⟨.response {} {}, [.response { token := "token" }], [.ok ⟨0⟩], .ok (.verdict .unknown)⟩

def deniedAgain : Visit := ⟨.request {}, [], [], .ok (.verdict .deny)⟩

theorem deniedRequestWasRecalled : ∃ c, Ready 0 c streaming ∧ unsettled.Silent ∧
    (∃ b, History 0 streaming [.visit deniedAgain, .visit unsettled, .visit denied, .defaults true] b) ∧
    ∃ b, History 0 streaming [.visit deniedAgain, .visit denied, .defaults true] b := by
  have ready : Ready 0 _ streaming := ⟨rfl, rfl, rfl, by decide, rfl⟩
  have silent : unsettled.Silent := by
    intro answer there
    cases List.mem_singleton.mp there
    rfl
  obtain ⟨_, pushed⟩ := ((clientEqualsReference ready .start).1 _).mpr (.defaults true)
  have first := History.next .start pushed
  obtain ⟨_, told⟩ := ((clientEqualsReference ready first).1 (.visit denied)).mpr (.response {} {} (.ok ⟨2⟩))
  have second := History.next first told
  obtain ⟨_, heard⟩ := ((clientEqualsReference ready second).1 (.visit unsettled)).mpr
    (.response {} {} (.ok ⟨0⟩))
  have third := History.next second heard
  have known : remembered [.visit unsettled, .visit denied, .defaults true] (.ofRequest {}) = some .deny := rfl
  obtain ⟨b, recalled⟩ := ((clientEqualsReference ready third).1 (.visit deniedAgain)).mpr (.recalled known)
  have whole := History.next third recalled
  exact ⟨_, ready, silent, ⟨b, whole⟩,
    (clientEqualsReference ready whole).2 [.visit deniedAgain] unsettled _ rfl silent⟩

end FirewallAgent.Agent

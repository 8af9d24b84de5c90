import FirewallAgent.Proofs.Agent.Step
import FirewallAgent.Proofs.Channel.Moves

/-! How sessions end. While nobody asks the task to stop, a clean end leads straight to the next stream,
a failure through one pause, and what cannot be mended by trying again leads out for good. -/
namespace FirewallAgent.Channel

def Phase.states : Phase → List State
  | .deciding | .announcing => [.connecting, .streaming, .backoff]
  | .dialing | .opening => [.connecting]
  | .greeting | .authorizing | .persisting _ => [.authorizing]
  | .reloading | .loading | .presenting _ => [.authenticating]
  | .streaming | .enabling _ | .wiping | .ending .closed => [.streaming]
  | .ending (.failed _) | .retreating => [.connecting, .authorizing, .streaming]
  | .backingOff => [.backoff]
  | .ending (.final _) | .halting | .releasing | .concluding | .closing =>
    [.authorizing, .authenticating, .streaming]
  | .done => [.stopped]

def Phase.isLive : Phase → Bool
  | .releasing | .concluding | .closing | .done => false
  | _ => true

def Phase.isOver : Phase → Bool
  | .halting | .releasing | .concluding | .closing | .done => true
  | _ => false

def Phase.awaits : Phase → Source
  | .opening | .greeting | .authorizing | .presenting _ | .streaming => .service
  | .persisting _ | .reloading | .loading | .wiping => .store
  | .backingOff => .clock
  | _ => .task

structure Coherent (c : Channel) : Prop where
  calm : c.isCancelled = false
  running : c.running = c.phase.isLive
  reason : c.reason.isSome = c.phase.isOver
  state : c.state ∈ c.phase.states

def transitions : List (State × State) :=
  [(.connecting, .authorizing), (.connecting, .backoff), (.authorizing, .authenticating),
    (.authorizing, .backoff), (.authorizing, .stopped), (.authenticating, .streaming),
    (.authenticating, .stopped), (.streaming, .connecting), (.streaming, .backoff),
    (.streaming, .stopped), (.backoff, .connecting)]

variable {s : Settings} {c d : Channel} {i : Input} {es : List Effect}

theorem Coherent.keeps {p : Phase} (h : Coherent c) (live : p.isLive = c.phase.isLive)
    (ended : p.isOver = c.phase.isOver) (states : c.phase.states ⊆ p.states) :
    Coherent { c with phase := p } :=
  ⟨h.calm, h.running.trans live.symm, h.reason.trans ended.symm, states h.state⟩

theorem Coherent.becomes {p : Phase} {x : State} (h : Coherent c) (live : p.isLive = c.phase.isLive)
    (ended : p.isOver = c.phase.isOver) (seen : x ∈ p.states) :
    Coherent { c with state := x, phase := p } :=
  ⟨h.calm, h.running.trans live.symm, h.reason.trans ended.symm, seen⟩

theorem Coherent.awake (h : Coherent c) : c.shutdown = false := by
  have calm := h.calm
  unfold isCancelled at calm
  exact (Bool.or_eq_false_iff.mp calm).1

theorem Coherent.known {p : Phase} (h : Coherent c) (here : c.phase = p) :
    c.running = p.isLive ∧ c.reason.isSome = p.isOver ∧ c.state ∈ p.states :=
  here ▸ ⟨h.running, h.reason, h.state⟩

theorem coherentMoves (h : Coherent c) (moves : Moves s c i d es) : Coherent d := by
  cases moves with
  | cancelled asked => exact absurd asked (by simp [h.calm])
  | roused _ asked => exact absurd asked (by simp [h.awake])
  | leaves here off | stopsAsked _ here _ off => exact absurd (off.symm.trans (h.known here).1) nofun
  | announces here =>
    obtain ⟨running, reason, _⟩ := h.known here
    exact ⟨by simp [isCancelled, h.awake], running, reason, by simp [Phase.states]⟩
  | begins here | dials here | refused here | greets here | unheard here | issued here | rejected here
  | abandoned here | breaks here | unpersisted _ here | reloaded here | unreloaded here | loads here
  | misses here | unpresented _ here | deauthorized here | defaults here | closes here | drops here
  | enables _ here | wiped here | reconnects here | retreats _ here | wakes here =>
    exact h.keeps (by rw [here]; rfl) (by rw [here]; rfl) (by rw [here]; simp [Phase.states])
  | ignores | rotates | passes => exact h
  | stopsFor r here =>
    obtain ⟨running, _, state⟩ := h.known here
    exact ⟨h.calm, running, rfl, state⟩
  | halts here =>
    obtain ⟨_, reason, state⟩ := h.known here
    exact ⟨h.calm, rfl, reason, state⟩
  | releases here =>
    obtain ⟨running, reason, state⟩ := h.known here
    exact ⟨by simp [isCancelled, h.awake], running, reason, state⟩
  | concludes here =>
    obtain ⟨running, _, state⟩ := h.known here
    exact ⟨h.calm, running, rfl, state⟩
  | opens here | recognized here | persisted _ here | presents _ here | rests here | stops here =>
    exact h.becomes (by rw [here]; rfl) (by rw [here]; rfl) (by simp [Phase.states])

theorem transitionMoves (h : Coherent c) (moves : Moves s c i d es) (changed : d.state ≠ c.state) :
    (c.state, d.state) ∈ transitions := by
  have state := h.state
  cases moves with
  | announces here | rests here | stops here =>
    rw [here] at state
    simp only [Phase.states, List.mem_cons, List.not_mem_nil, or_false] at state
    rcases state with same | same | same
    all_goals simp_all [transitions]
  | opens here | recognized here | persisted _ here | presents _ here =>
    rw [here] at state
    have same := List.mem_singleton.mp state
    simp [same, transitions]
  | _ => exact absurd rfl changed

theorem sourceMoves (h : Coherent c) (moves : Moves s c i d es) : i.source = c.phase.awaits := by
  cases moves with
  | cancelled asked => exact absurd asked (by simp [h.calm])
  | roused _ asked => exact absurd asked (by simp [h.awake])
  | begins here | leaves here | announces here | dials here | opens here | refused here | greets here
  | unheard here | issued here | recognized here | rejected here | ignores here | abandoned here
  | breaks here | persisted _ here | unpersisted _ here | reloaded here | unreloaded here | loads here
  | misses here | presents _ here | unpresented _ here | rotates here | deauthorized here
  | defaults here | passes here | closes here | drops here | enables _ here | wiped here
  | stopsFor _ here | stopsAsked _ here | reconnects here | retreats _ here | rests here | wakes here
  | halts here | releases here | concludes here | stops here =>
    rw [here]
    rfl

/- The task can only go on as the script says, and it can: each step is brought about by the one it
waits for, and has just these effects. -/
def Leads (s : Settings) (goal : Channel → Prop) : List (Source × List Effect) → Channel → Prop
  | [], c => goal c
  | (source, effects) :: rest, c => (∃ i d, c.step s i = some (d, effects)) ∧
      ∀ i d es, c.step s i = some (d, es) → i.source = source ∧ es = effects ∧ Leads s goal rest d

variable {goal : Channel → Prop} {script : List (Source × List Effect)}

theorem Leads.task (h : Coherent c) (awaits : c.phase.awaits = .task)
    (next : c.proceed s = some (d, es)) (rest : Coherent d → Leads s goal script d) :
    Leads s goal ((.task, es) :: script) c := by
  refine ⟨⟨.proceed, d, next⟩, ?_⟩
  intro i d' es' ok
  have source := (sourceMoves h (stepMoves ok)).trans awaits
  cases i with
  | proceed =>
    cases Option.some.inj (next.symm.trans ok)
    exact ⟨rfl, rfl, rest (coherentMoves h (stepMoves ok))⟩
  | _ => contradiction

theorem Leads.clock (h : Coherent c) (here : c.phase = .backingOff)
    (rest : Coherent { c with phase := .deciding } →
      Leads s goal script { c with phase := .deciding }) : Leads s goal ((.clock, []) :: script) c := by
  have next : c.step s .woke = some ({ c with phase := .deciding }, []) := by simp [step, here, goto]
  refine ⟨⟨.woke, _, next⟩, ?_⟩
  intro i d' es' ok
  have source := sourceMoves h (stepMoves ok)
  rw [here] at source
  cases i with
  | woke =>
    cases Option.some.inj (next.symm.trans ok)
    exact ⟨rfl, rfl, rest (coherentMoves h (stepMoves ok))⟩
  | _ => contradiction

theorem Leads.store (h : Coherent c) (here : c.phase = .wiping)
    (rest : Coherent { c with phase := .ending (.final .deauthorized) } →
      Leads s goal script { c with phase := .ending (.final .deauthorized) }) :
    Leads s goal ((.store, [.token ""]) :: script) c := by
  refine ⟨⟨.wiped (.ok ()), _, by simp only [step, here]; rfl⟩, ?_⟩
  intro i d' es' ok
  have moves := stepMoves ok
  have source := sourceMoves h moves
  rw [here] at source
  have coherent := coherentMoves h moves
  cases moves with
  | wiped => exact ⟨rfl, rfl, rest coherent⟩
  | persisted _ other | unpersisted _ other | reloaded other | unreloaded other | loads other
  | misses other => exact absurd (here.symm.trans other) nofun
  | _ => contradiction

def dialed : Channel := { phase := .opening, attempt := some false }

def redialing : List (Source × List Effect) :=
  [(.task, []), (.task, [.state .connecting]), (.task, [.dialed])]

def reopening : List (Source × List Effect) := (.task, []) :: redialing

def retrying (s : Settings) : List (Source × List Effect) :=
  (.task, [.token "", .counted .reconnect]) :: (.task, [.state .backoff, .rested s.backoff]) ::
    (.clock, []) :: redialing

def stopping : List (Source × List Effect) :=
  [(.task, []), (.task, []), (.task, []), (.task, []), (.task, [.state .stopped])]

structure Stopped (s : Settings) (r : StopReason) (c : Channel) : Prop where
  state : c.state = .stopped
  running : c.running = false
  reason : c.reason = some r
  still : ∀ i, c.step s i = none

theorem redials (h : Coherent c) (here : c.phase = .deciding) : Leads s (· = dialed) redialing c := by
  obtain ⟨running, reason, _⟩ := h.known here
  have on : c.running = true := running
  have none : c.reason = none := 
    Option.isNone_iff_eq_none.mp (Option.isSome_eq_false_iff.mp reason)
  have begins : c.proceed s = some ({ c with phase := .announcing }, []) := by
    simp only [proceed, here]
    rw [if_pos on]
    rfl
  refine .task h (by rw [here]; rfl) begins fun h => .task h rfl rfl fun h => .task h rfl rfl fun h => ?_
  have awake := h.awake
  simp only [on, none, dialed] at awake ⊢
  simp [Leads, awake]

theorem reopens (h : Coherent c) (here : c.phase = .ending .closed) :
    Leads s (· = dialed) reopening c := by
  have on : c.running = true := (h.known here).1
  have next : c.proceed s = some ({ c with phase := .deciding }, []) := by
    simp only [proceed, here, conclude]
    rw [if_pos on]
    rfl
  exact .task h (by rw [here]; rfl) next fun h => redials h rfl

theorem retries {e : Status} (h : Coherent c) (here : c.phase = .ending (.failed e)) :
    Leads s (· = dialed) (retrying s) c := by
  have on : c.running = true := (h.known here).1
  have next : c.proceed s = some ({ c with phase := .retreating }, [.token "", .counted .reconnect]) := by
    simp only [proceed, here, conclude]
    rw [if_pos on]
  exact .task h (by rw [here]; rfl) next fun h => .task h rfl rfl fun h => .clock h rfl fun h =>
    redials h rfl

theorem doneStill (h : Coherent c) (here : c.phase = .done) (i : Input) : c.step s i = none := by
  cases next : c.step s i with
  | none => rfl
  | some n =>
    have source := sourceMoves h (stepMoves next)
    rw [here] at source
    cases i with
    | proceed => simp [step, proceed, here] at next
    | _ => contradiction

theorem stopsFor {r : StopReason} (h : Coherent c) (here : c.phase = .ending (.final r)) :
    Leads s (Stopped s r) stopping c := by
  have next : c.proceed s = some ({ c with reason := some r, phase := .halting }, []) := by
    simp only [proceed, here, conclude]
  exact .task h (by rw [here]; rfl) next fun h => .task h rfl rfl fun h => .task h rfl rfl fun h =>
    .task h rfl rfl fun h => .task h rfl rfl fun h => ⟨rfl, rfl, rfl, doneStill h rfl⟩

def Moment.doom? (m : Moment) : Option StopReason :=
  match m.before.state, m.input with
  | .authorizing, .received .rejected => some .rejected
  | _, .persisted (.error e) => some (.failed (.credentialPersist e))
  | _, .reloaded (.error e) => some (.failed (.storage e))
  | _, .loaded none => some .missingCredentials
  | .authenticating, .sent false =>
    some (.failed (.transport (unavailable "control stream closed before authentication")))
  | .streaming, .received .deauthorized => some .deauthorized
  | _, _ => none

def Moment.fails (m : Moment) : Prop :=
  (∃ e, m.input = .opened (.error e)) ∨
  (∃ e, m.input = .failed e ∧ (m.before.state = .authorizing ∨ m.before.state = .streaming)) ∨
  (m.input = .closed ∧ m.before.state = .authorizing) ∨
  (m.input = .sent false ∧ m.before.state = .authorizing)

def Moment.endsCleanly (m : Moment) : Prop := m.input = .closed ∧ m.before.state = .streaming

/- Only the wipe comes before the way out, and it does not matter how it goes. -/
def leaving : StopReason → List (Source × List Effect)
  | .deauthorized => (.store, [.token ""]) :: stopping
  | _ => stopping

theorem Coherent.sees {p : Phase} {x : State} (h : Coherent c) (here : c.phase = p)
    (seen : c.state = x) : x ∈ p.states := seen ▸ (h.known here).2.2

theorem cleanEnd (h : Coherent c) (moves : Moves s c i d es)
    (ends : Moment.endsCleanly ⟨c, i, d, es⟩) : es = [] ∧ Leads s (· = dialed) reopening d := by
  have after := coherentMoves h moves
  obtain ⟨rfl, seen⟩ := ends
  cases moves with
  | abandoned here => exact absurd (h.sees here seen) (by simp [Phase.states])
  | closes => exact ⟨rfl, reopens after rfl⟩

theorem failedEnd (h : Coherent c) (moves : Moves s c i d es) (fails : Moment.fails ⟨c, i, d, es⟩) :
    es = [] ∧ Leads s (· = dialed) (retrying s) d := by
  have after := coherentMoves h moves
  rcases fails with ⟨e, rfl⟩ | ⟨e, rfl, _⟩ | ⟨rfl, seen⟩ | ⟨rfl, seen⟩
  · cases moves with
    | refused => exact ⟨rfl, retries after rfl⟩
  · cases moves with
    | breaks | drops => exact ⟨rfl, retries after rfl⟩
  · cases moves with
    | abandoned => exact ⟨rfl, retries after rfl⟩
    | closes here => exact absurd (h.sees here seen) (by simp [Phase.states])
  · cases moves with
    | unheard => exact ⟨rfl, retries after rfl⟩
    | unpresented _ here => exact absurd (h.sees here seen) (by simp [Phase.states])

theorem doomedEnd {r : StopReason} (h : Coherent c) (moves : Moves s c i d es)
    (doom : Moment.doom? ⟨c, i, d, es⟩ = some r) :
    es = [] ∧ Leads s (Stopped s r) (leaving r) d := by
  have after := coherentMoves h moves
  unfold Moment.doom? at doom
  split at doom
  · rename_i seen given
    cases given
    cases Option.some.inj doom
    cases moves with
    | rejected => exact ⟨rfl, stopsFor after rfl⟩
    | ignores _ _ plain => exact absurd rfl plain
    | passes here => exact absurd (h.sees here seen) (by simp [Phase.states])
  · rename_i given
    cases given
    cases Option.some.inj doom
    cases moves with
    | unpersisted => exact ⟨rfl, stopsFor after rfl⟩
  · rename_i given
    cases given
    cases Option.some.inj doom
    cases moves with
    | unreloaded => exact ⟨rfl, stopsFor after rfl⟩
  · rename_i given
    cases given
    cases Option.some.inj doom
    cases moves with
    | misses => exact ⟨rfl, stopsFor after rfl⟩
  · rename_i seen given
    cases given
    cases Option.some.inj doom
    cases moves with
    | unheard here => exact absurd (h.sees here seen) (by simp [Phase.states])
    | unpresented => exact ⟨rfl, stopsFor after rfl⟩
  · rename_i seen given
    cases given
    cases Option.some.inj doom
    cases moves with
    | ignores here => exact absurd (h.sees here seen) (by simp [Phase.states])
    | deauthorized => exact ⟨rfl, .store after rfl fun h => stopsFor h rfl⟩
    | passes _ _ idle => rcases idle with no | no | ⟨_, _, no⟩ <;> contradiction
  · contradiction

def Fated (past : List Moment) (c : Channel) : Prop :=
  match c.phase with
  | .ending (.final r) => ∃ m ∈ past, m.doom? = some r
  | .wiping => ∃ m ∈ past, m.doom? = some .deauthorized
  | .halting | .releasing | .concluding | .closing | .done =>
    ∃ m ∈ past, ∃ r, m.doom? = some r ∧ c.reason = some r
  | _ => True

theorem fatedMoves {past : List Moment} (h : Coherent c) (fated : Fated past c)
    (moves : Moves s c i d es) : Fated (past ++ [⟨c, i, d, es⟩]) d := by
  have now : ∀ {r}, Moment.doom? ⟨c, i, d, es⟩ = some r →
      ∃ m ∈ past ++ [⟨c, i, d, es⟩], m.doom? = some r :=
    fun doom => ⟨_, List.mem_append_right past (List.mem_singleton.mpr rfl), doom⟩
  cases moves with
  | cancelled asked => exact absurd asked (by simp [h.calm])
  | roused _ asked => exact absurd asked (by simp [h.awake])
  | leaves here off | stopsAsked _ here _ off => exact absurd (off.symm.trans (h.known here).1) nofun
  | begins | announces | dials | opens | refused | greets | unheard | issued | recognized | abandoned
  | breaks | persisted | reloaded | loads | presents | defaults | closes | drops | enables
  | reconnects | retreats | rests | wakes => trivial
  | ignores here | rotates here | passes here => simp [Fated, here]
  | rejected here | unpersisted _ here | unreloaded here | misses here | unpresented _ here
  | deauthorized here =>
    have seen := List.mem_singleton.mp (h.known here).2.2
    exact now (by simp [Moment.doom?, seen])
  | wiped here =>
    simp only [Fated, here] at fated
    obtain ⟨m, there, doom⟩ := fated
    exact ⟨m, List.mem_append_left _ there, doom⟩
  | stopsFor r here =>
    simp only [Fated, here] at fated
    obtain ⟨m, there, doom⟩ := fated
    exact ⟨m, List.mem_append_left _ there, r, doom, rfl⟩
  | halts here | releases here | stops here =>
    simp only [Fated, here] at fated
    obtain ⟨m, there, r, doom, reason⟩ := fated
    exact ⟨m, List.mem_append_left _ there, r, doom, reason⟩
  | concludes here =>
    simp only [Fated, here] at fated
    obtain ⟨m, there, r, doom, reason⟩ := fated
    exact ⟨m, List.mem_append_left _ there, r, doom, by simp [reason]⟩

theorem runCoherent {ms : List Moment} (h : Coherent c) (run : Run s c ms d) :
    Coherent d ∧ ∀ m ∈ ms, Coherent m.before ∧ Moves s m.before m.input m.after m.effects := by
  induction run with
  | rest => exact ⟨h, by simp⟩
  | step next run ih =>
    have moves := stepMoves next
    obtain ⟨last, each⟩ := ih (coherentMoves h moves)
    refine ⟨last, ?_⟩
    intro m there
    rcases List.mem_cons.mp there with rfl | later
    · exact ⟨h, moves⟩
    · exact each m later

theorem runFated {past ms : List Moment} (h : Coherent c) (fated : Fated past c)
    (run : Run s c ms d) : Fated (past ++ ms) d := by
  induction run generalizing past with
  | rest => simpa using fated
  | step next run ih =>
    have moves := stepMoves next
    simpa using ih (coherentMoves h moves) (fatedMoves h fated moves)

theorem stoppedDone (h : Coherent c) (stopped : c.state = .stopped) : c.phase = .done := by
  cases here : c.phase with
  | done => rfl
  | ending e =>
    have seen := h.sees here stopped
    cases e <;> simp [Phase.states] at seen
  | _ => exact absurd (h.sees here stopped) (by simp [Phase.states])

theorem startCoherent : Coherent {} := ⟨rfl, rfl, rfl, by simp [Phase.states]⟩

theorem taskRuns {a b : Agent} {ms : List Agent.Moment} {n : Nat} {k : Client}
    (run : Agent.Run a ms b) (calm : ∀ m ∈ ms, m.action.asksStop = false)
    (found : a.clients[n]? = some k) : ∃ hs l, b.clients[n]? = some l ∧
      Run k.settings k.channel hs l.channel ∧
      hs.flatMap Moment.effects = (ms.flatMap fun m => Agent.effectsOf n m.events) ∧
      l.token = (hs.flatMap Moment.effects).foldl Agent.gateAfter k.token := by
  induction run generalizing k with
  | rest => exact ⟨[], k, found, .rest, rfl, rfl⟩
  | @step _ _ _ x es _ next _ ih =>
    have quiet := fun m there => calm m (List.mem_cons_of_mem _ there)
    by_cases own : x.task? = some n
    · obtain ⟨_, i, d, same, stepped, after, _⟩ := Agent.ownChannel next own
      cases Option.some.inj (found.symm.trans same)
      obtain ⟨hs, l, there, run, effects, token⟩ := ih quiet after
      refine ⟨⟨k.channel, i, d, Agent.effectsOf n es⟩ :: hs, l, there, .step stepped run, ?_, ?_⟩
      · simp [effects]
      · simp [token, List.foldl_append]
    · obtain ⟨mute, alike⟩ := Agent.stepElsewhere next own
      obtain ⟨d, after, _, kept⟩ := alike k found
      have same := kept (calm _ List.mem_cons_self)
      obtain ⟨hs, l, there, run, effects, token⟩ := ih quiet after
      refine ⟨hs, l, there, same.settings ▸ same.channel ▸ run, ?_, same.token ▸ token⟩
      simp [effects, mute]

theorem retriesOrStops {ms : List Moment} (run : Run s {} ms c) :
    (∀ m ∈ ms, m.after.state ≠ m.before.state → (m.before.state, m.after.state) ∈ transitions) ∧
    (∀ m ∈ ms, m.endsCleanly → m.effects = [] ∧ Leads s (· = dialed) reopening m.after) ∧
    (∀ m ∈ ms, m.fails → m.effects = [] ∧ Leads s (· = dialed) (retrying s) m.after) ∧
    (∀ m ∈ ms, ∀ r, m.doom? = some r →
      m.effects = [] ∧ Leads s (Stopped s r) (leaving r) m.after) ∧
    (c.state = .stopped → ∃ m ∈ ms, ∃ r, m.doom? = some r ∧ c.reason = some r) ∧
    (∀ (a b : Agent) (n : Nat) (i : Input) (es : List Agent.Event),
      a.step (.channel n i) = some (b, es) → (∀ e ∈ Agent.effectsOf n es, Agent.touches e = false) →
      Agent.Moment.Untouched ⟨a, .channel n i, b, es⟩) ∧
    (∀ (a b : Agent) (x : Agent.Action) (es : List Agent.Event) (n : Nat) (k : Client),
      a.step x = some (b, es) → a.clients[n]? = some k → ∃ l, b.clients[n]? = some l ∧
        l.token = (Agent.effectsOf n es).foldl Agent.gateAfter k.token) ∧
    (∀ (a b : Agent) (log : List Agent.Moment) (n : Nat) (k : Client), Agent.Run a log b →
      (∀ m ∈ log, m.action.asksStop = false) →
      a.clients[n]? = some k → k.settings = s → k.channel = {} →
      ∃ hs l, b.clients[n]? = some l ∧ Run s {} hs l.channel ∧
        hs.flatMap Moment.effects = (log.flatMap fun m => Agent.effectsOf n m.events) ∧
        l.token = (hs.flatMap Moment.effects).foldl Agent.gateAfter k.token) := by
  obtain ⟨coherent, each⟩ := runCoherent startCoherent run
  have fated := runFated startCoherent (show Fated [] {} from trivial) run
  refine ⟨?_, ?_, ?_, ?_, ?_, ?_, ?_, ?_⟩
  · intro m there changed
    exact transitionMoves (each m there).1 (each m there).2 changed
  · intro m there ends
    exact cleanEnd (each m there).1 (each m there).2 ends
  · intro m there fails
    exact failedEnd (each m there).1 (each m there).2 fails
  · intro m there r doom
    exact doomedEnd (each m there).1 (each m there).2 doom
  · intro stopped
    simpa only [Fated, stoppedDone coherent stopped, List.nil_append] using fated
  · intro a b n i es next quiet
    obtain ⟨k, d, effects, found, _, does, _, same⟩ := Agent.channelOwn (Agent.channelAction next)
    cases same (does ▸ quiet)
    exact Agent.untouchedSet d found
  · intro a b x es n k next found
    exact Agent.tokenStep next found
  · intro a b log n k run calm found settings fresh
    exact settings ▸ fresh ▸ taskRuns run calm found

theorem playRun {inputs : List Input} {ms : List Moment} (played : c.play s inputs = some (ms, d)) :
    Run s c ms d := by
  induction inputs generalizing c ms with
  | nil =>
    cases Option.some.inj played
    exact .rest
  | cons i rest ih =>
    simp only [play, bind, Option.bind_eq_some_iff] at played
    obtain ⟨⟨e, es⟩, next, ⟨later, f⟩, tail, last⟩ := played
    cases Option.some.inj last
    exact .step next (ih tail)

def refusal : List Input :=
  [.proceed, .proceed, .proceed, .opened (.error (unavailable "no route")), .proceed, .proceed, .woke,
    .proceed, .proceed, .proceed, .opened (.ok ()), .sent true, .received .rejected] ++
    List.replicate 5 .proceed

theorem refusalRetriesThenStops : ∃ ms c, Run ⟨"code", ⟨"uuid", "linux"⟩, .ofSeconds 5⟩ {} ms c ∧
    c.state = .stopped ∧ (∃ m ∈ ms, ∃ r, m.doom? = some r ∧ c.reason = some r) ∧
    ∃ m ∈ ms, m.fails ∧ m.effects = [] ∧ Leads ⟨"code", ⟨"uuid", "linux"⟩, .ofSeconds 5⟩ (· = dialed)
      (retrying ⟨"code", ⟨"uuid", "linux"⟩, .ofSeconds 5⟩) m.after := by
  obtain ⟨ms, c, played, stopped, m, there, fails⟩ : ∃ ms c,
      play ⟨"code", ⟨"uuid", "linux"⟩, .ofSeconds 5⟩ {} refusal = some (ms, c) ∧
        c.state = .stopped ∧ ∃ m ∈ ms, m.fails := by
    refine ⟨_, _, rfl, ?_⟩
    refine ⟨rfl, _, .tail _ (.tail _ (.tail _ (.head _))), ?_⟩
    exact .inl ⟨_, rfl⟩
  obtain ⟨_, _, retried, _, dooms, _, _, _⟩ := retriesOrStops (playRun played)
  exact ⟨ms, c, playRun played, stopped, dooms stopped, m, there, fails, retried m there fails⟩

end FirewallAgent.Channel

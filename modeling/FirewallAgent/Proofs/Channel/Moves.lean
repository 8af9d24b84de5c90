import FirewallAgent.Channel

/-! The moves of a channel's task, one by one. What a step does depends on the phase and the input
alone, but for a stop, which is noticed where the task decides to go on and at the waits that can be
cancelled. -/
namespace FirewallAgent.Channel

inductive Moves (s : Settings) (c : Channel) : Input → Channel → List Effect → Prop where
  | begins (here : c.phase = .deciding) (on : c.running = true) :
      Moves s c .proceed { c with phase := .announcing } []
  | leaves (here : c.phase = .deciding) (off : c.running = false) :
      Moves s c .proceed { c with phase := .halting } []
  | announces (here : c.phase = .announcing) :
      Moves s c .proceed { c with attempt := some false, state := .connecting, phase := .dialing }
        [.state .connecting]
  | dials (here : c.phase = .dialing) :
      Moves s c .proceed { c with phase := .opening } [.dialed]
  | opens (here : c.phase = .opening) :
      Moves s c (.opened (.ok ())) { c with state := .authorizing, phase := .greeting }
        [.state .authorizing]
  | refused (here : c.phase = .opening) (e : Status) :
      Moves s c (.opened (.error e)) { c with phase := .ending (.failed e) } []
  | greets (here : c.phase = .greeting) :
      Moves s c (.sent true) { c with phase := .authorizing } [.sent (authorizationRequest s)]
  | unheard (here : c.phase = .greeting) :
      Moves s c (.sent false)
        { c with phase := .ending (.failed (unavailable "control stream closed before authorization")) }
        []
  | issued (here : c.phase = .authorizing) (x : Credential) :
      Moves s c (.received (.authorized (some x.appId) (some x.appSecret)))
        { c with phase := .persisting x } []
  | recognized (here : c.phase = .authorizing) (p q : Option String) (half : p = none ∨ q = none) :
      Moves s c (.received (.authorized p q)) { c with state := .authenticating, phase := .reloading }
        [.state .authenticating]
  | rejected (here : c.phase = .authorizing) :
      Moves s c (.received .rejected) { c with phase := .ending (.final .rejected) } []
  | ignores (here : c.phase = .authorizing) (m : ServerMessage) (plain : m ≠ .rejected)
      (bare : ∀ p q, m ≠ .authorized p q) : Moves s c (.received m) c []
  | abandoned (here : c.phase = .authorizing) :
      Moves s c .closed
        { c with phase := .ending (.failed (unavailable "control stream ended during authorization")) }
        []
  | breaks (here : c.phase = .authorizing) (e : Status) :
      Moves s c (.failed e) { c with phase := .ending (.failed e) } []
  | persisted (x : Credential) (here : c.phase = .persisting x) :
      Moves s c (.persisted (.ok ())) { c with state := .authenticating, phase := .reloading }
        [.state .authenticating]
  | unpersisted (x : Credential) (here : c.phase = .persisting x) (e : StorageError) :
      Moves s c (.persisted (.error e))
        { c with phase := .ending (.final (.failed (.credentialPersist e))) } []
  | reloaded (here : c.phase = .reloading) :
      Moves s c (.reloaded (.ok ())) { c with phase := .loading } []
  | unreloaded (here : c.phase = .reloading) (e : StorageError) :
      Moves s c (.reloaded (.error e)) { c with phase := .ending (.final (.failed (.storage e))) } []
  | loads (here : c.phase = .loading) (x : Credential) :
      Moves s c (.loaded (some x)) { c with phase := .presenting x } []
  | misses (here : c.phase = .loading) :
      Moves s c (.loaded none) { c with phase := .ending (.final .missingCredentials) } []
  | presents (x : Credential) (here : c.phase = .presenting x) :
      Moves s c (.sent true) { c with state := .streaming, phase := .streaming }
        [.sent (authentication x), .state .streaming]
  | unpresented (x : Credential) (here : c.phase = .presenting x) :
      Moves s c (.sent false)
        { c with phase := .ending (.final (.failed (.transport
            (unavailable "control stream closed before authentication")))) }
        []
  | rotates (here : c.phase = .streaming) (t : String) : Moves s c (.received (.token t)) c [.token t]
  | deauthorized (here : c.phase = .streaming) :
      Moves s c (.received .deauthorized) { c with phase := .wiping } []
  | defaults (here : c.phase = .streaming) (on : Bool) :
      Moves s c (.received (.defaults on)) { c with phase := .enabling on } [.purged]
  | passes (here : c.phase = .streaming) (m : ServerMessage)
      (idle : m = .rejected ∨ m = .empty ∨ ∃ p q, m = .authorized p q) :
      Moves s c (.received m) c []
  | closes (here : c.phase = .streaming) : Moves s c .closed { c with phase := .ending .closed } []
  | drops (here : c.phase = .streaming) (e : Status) :
      Moves s c (.failed e) { c with phase := .ending (.failed e) } []
  | enables (on : Bool) (here : c.phase = .enabling on) :
      Moves s c .proceed { c with phase := .streaming } [.enabled on]
  | wiped (here : c.phase = .wiping) (r : Except StorageError Unit) :
      Moves s c (.wiped r) { c with phase := .ending (.final .deauthorized) } [.token ""]
  | cancelled (asked : c.isCancelled = true)
      (waits : c.phase = .dialing ∨ c.phase = .opening ∨ c.phase = .authorizing ∨
        c.phase = .streaming) :
      Moves s c .cancelled { c with phase := .ending (.failed cancelledStatus) } []
  | stopsFor (r : StopReason) (here : c.phase = .ending (.final r)) :
      Moves s c .proceed { c with reason := some r, phase := .halting } []
  | stopsAsked (e : Ending) (here : c.phase = .ending e) (mild : ∀ r, e ≠ .final r)
      (off : c.running = false) : Moves s c .proceed { c with phase := .halting } []
  | reconnects (here : c.phase = .ending .closed) (on : c.running = true) :
      Moves s c .proceed { c with phase := .deciding } []
  | retreats (e : Status) (here : c.phase = .ending (.failed e)) (on : c.running = true) :
      Moves s c .proceed { c with phase := .retreating } [.token "", .counted .reconnect]
  | rests (here : c.phase = .retreating) :
      Moves s c .proceed { c with state := .backoff, phase := .backingOff }
        [.state .backoff, .rested s.backoff]
  | wakes (here : c.phase = .backingOff) : Moves s c .woke { c with phase := .deciding } []
  | roused (here : c.phase = .backingOff) (asked : c.shutdown = true) :
      Moves s c .cancelled { c with phase := .deciding } []
  | halts (here : c.phase = .halting) :
      Moves s c .proceed { c with running := false, phase := .releasing } []
  | releases (here : c.phase = .releasing) :
      Moves s c .proceed { c with attempt := none, phase := .concluding } []
  | concludes (here : c.phase = .concluding) :
      Moves s c .proceed
        { c with reason := some (c.reason.getD .requested), phase := .closing } []
  | stops (here : c.phase = .closing) :
      Moves s c .proceed { c with state := .stopped, phase := .done } [.state .stopped]

variable {s : Settings} {c d : Channel} {es : List Effect}

theorem concludeMoves {e : Ending} (here : c.phase = .ending e) (ok : c.conclude e = (d, es)) :
    Moves s c .proceed d es := by
  cases e with
  | final r =>
    cases ok
    exact .stopsFor r here
  | closed =>
    cases on : c.running with
    | true =>
      rw [conclude, if_pos on] at ok
      cases ok
      exact .reconnects here on
    | false =>
      simp only [conclude, on, Bool.false_eq_true, if_false] at ok
      cases ok
      exact .stopsAsked .closed here nofun on
  | failed e =>
    cases on : c.running with
    | true =>
      rw [conclude, if_pos on] at ok
      cases ok
      exact .retreats e here on
    | false =>
      simp only [conclude, on, Bool.false_eq_true, if_false] at ok
      cases ok
      exact .stopsAsked (.failed e) here nofun on

theorem proceedMoves (ok : c.proceed s = some (d, es)) : Moves s c .proceed d es := by
  unfold proceed at ok
  split at ok
  · rename_i here
    cases on : c.running with
    | true =>
      rw [if_pos on] at ok
      cases Option.some.inj ok
      exact .begins here on
    | false =>
      simp only [on, Bool.false_eq_true, if_false] at ok
      cases Option.some.inj ok
      exact .leaves here on
  · rename_i here
    cases Option.some.inj ok
    exact .announces here
  · rename_i here
    cases Option.some.inj ok
    exact .dials here
  · rename_i on here
    cases Option.some.inj ok
    exact .enables on here
  · rename_i e here
    exact concludeMoves here (Option.some.inj ok)
  · rename_i here
    cases Option.some.inj ok
    exact .rests here
  · rename_i here
    cases Option.some.inj ok
    exact .halts here
  · rename_i here
    cases Option.some.inj ok
    exact .releases here
  · rename_i here
    cases Option.some.inj ok
    exact .concludes here
  · rename_i here
    cases Option.some.inj ok
    exact .stops here
  · contradiction

theorem cancelMoves (ok : c.cancel = some (d, es)) : Moves s c .cancelled d es := by
  unfold cancel at ok
  split at ok
  · contradiction
  · rename_i asked
    have asked : c.isCancelled = true := by simpa using asked
    split at ok
    · rename_i here
      cases Option.some.inj ok
      exact .cancelled asked (.inl here)
    · rename_i here
      cases Option.some.inj ok
      exact .cancelled asked (.inr (.inl here))
    · rename_i here
      cases Option.some.inj ok
      exact .cancelled asked (.inr (.inr (.inl here)))
    · rename_i here
      cases Option.some.inj ok
      exact .cancelled asked (.inr (.inr (.inr here)))
    · rename_i here
      split at ok
      · rename_i shut
        cases Option.some.inj ok
        exact .roused here shut
      · contradiction
    · contradiction

theorem samePhase {p : Phase} (here : c.phase = p) : ({ c with phase := p } : Channel) = c := by
  cases c
  cases here
  rfl

theorem authorizeMoves {m : ServerMessage} (here : c.phase = .authorizing)
    (ok : c.authorize m = (d, es)) : Moves s c (.received m) d es := by
  cases m with
  | authorized p q =>
    cases p with
    | none =>
      cases ok
      exact .recognized here none q (.inl rfl)
    | some i =>
      cases q with
      | none =>
        cases ok
        exact .recognized here (some i) none (.inr rfl)
      | some x =>
        cases ok
        exact .issued here ⟨i, x⟩
  | rejected =>
    cases ok
    exact .rejected here
  | token | deauthorized | defaults | empty =>
    cases ok
    rw [samePhase here]
    exact .ignores here _ nofun nofun

theorem applyMoves {m : ServerMessage} (here : c.phase = .streaming) (ok : c.apply m = (d, es)) :
    Moves s c (.received m) d es := by
  cases m with
  | token t =>
    cases ok
    rw [samePhase here]
    exact .rotates here t
  | deauthorized =>
    cases ok
    exact .deauthorized here
  | defaults on =>
    cases ok
    exact .defaults here on
  | authorized p q =>
    cases ok
    rw [samePhase here]
    exact .passes here _ (.inr (.inr ⟨p, q, rfl⟩))
  | rejected =>
    cases ok
    rw [samePhase here]
    exact .passes here _ (.inl rfl)
  | empty =>
    cases ok
    rw [samePhase here]
    exact .passes here _ (.inr (.inl rfl))

theorem stepMoves {i : Input} (ok : c.step s i = some (d, es)) : Moves s c i d es := by
  unfold step at ok
  split at ok
  · exact proceedMoves ok
  · exact cancelMoves ok
  · cases Option.some.inj ok
    exact .opens ‹_›
  · cases Option.some.inj ok
    exact .refused ‹_› _
  · cases Option.some.inj ok
    exact .greets ‹_›
  · cases Option.some.inj ok
    exact .unheard ‹_›
  · exact authorizeMoves ‹_› (Option.some.inj ok)
  · cases Option.some.inj ok
    exact .abandoned ‹_›
  · cases Option.some.inj ok
    exact .breaks ‹_› _
  · cases Option.some.inj ok
    exact .persisted _ ‹_›
  · cases Option.some.inj ok
    exact .unpersisted _ ‹_› _
  · cases Option.some.inj ok
    exact .reloaded ‹_›
  · cases Option.some.inj ok
    exact .unreloaded ‹_› _
  · cases Option.some.inj ok
    exact .loads ‹_› _
  · cases Option.some.inj ok
    exact .misses ‹_›
  · cases Option.some.inj ok
    exact .presents _ ‹_›
  · cases Option.some.inj ok
    exact .unpresented _ ‹_›
  · exact applyMoves ‹_› (Option.some.inj ok)
  · cases Option.some.inj ok
    exact .closes ‹_›
  · cases Option.some.inj ok
    exact .drops ‹_› _
  · cases Option.some.inj ok
    exact .wiped ‹_› _
  · cases Option.some.inj ok
    exact .wakes ‹_›
  · contradiction

end FirewallAgent.Channel

import FirewallAgent.Proofs.Agent.Slots
import FirewallAgent.Proofs.Channel.Winding

/-! Whoever stops clients: calls that stop one, and shutdowns, which stop the clients in their slots one
after another. Each of them is at some stage with some client, and moves it on by its own steps alone. -/
namespace FirewallAgent

namespace Registry

theorem Press.onward {c d : Channel} {handle joinable : Bool} {stage after : StopStage}
    (press : Press c handle stage d joinable after) : c.Onward d := by
  cases press with
  | clears => exact c.clearsOnward
  | signals => exact c.signalsOnward
  | cancels => exact c.cancelsOnward
  | takes | misses | joins => exact .refl c

end Registry

open Registry

def Client.Met (c : Client) : StopStage → Prop
  | .asking => True
  | .signalling => c.channel.running = false
  | .cancelling | .taking => c.channel.running = false ∧ c.channel.shutdown = true
  | .joining | .ended => c.channel.running = false ∧ c.channel.shutdown = true ∧ c.joinable = false

structure Client.Onward (c d : Client) : Prop where
  channel : c.channel.Onward d.channel
  joinable : c.joinable = false → d.joinable = false

theorem Client.Onward.refl (c : Client) : c.Onward c := ⟨.refl _, id⟩

theorem Client.Onward.trans {c d e : Client} (first : c.Onward d) (second : d.Onward e) : c.Onward e :=
  ⟨first.channel.trans second.channel, second.joinable ∘ first.joinable⟩

theorem Client.Met.onward {c d : Client} {stage : StopStage} (h : c.Met stage) (onward : c.Onward d) :
    d.Met stage := by
  cases stage with
  | asking => trivial
  | signalling => exact onward.channel.running h
  | cancelling | taking => exact ⟨onward.channel.running h.1, onward.channel.shutdown h.2⟩
  | joining | ended =>
    exact ⟨onward.channel.running h.1, onward.channel.shutdown h.2.1, onward.joinable h.2.2⟩

theorem Client.Met.press {c : Client} {ch : Channel} {handle : Bool} {stage after : StopStage}
    (h : c.Met stage) (press : Press c.channel c.joinable stage ch handle after) :
    Client.Met { c with channel := ch, joinable := handle } after := by
  cases press with
  | clears => exact rfl
  | signals => exact ⟨h, rfl⟩
  | cancels => exact h
  | takes | misses => exact ⟨h.1, h.2, rfl⟩
  | joins => exact h

namespace Agent

inductive Party where
  | stop (n : Nat)
  | shutdown (n : Nat)
  deriving DecidableEq

def Party.action : Party → Action
  | .stop n => .stopping n
  | .shutdown n => .shutting n

def Party.place? (a : Agent) : Party → Option (Nat × StopStage)
  | .stop n => (a.stops[n]?).map fun s => (s.client, s.stage)
  | .shutdown n =>
    match a.shutdowns[n]? with
    | some ⟨.stopping (slot :: _) stage⟩ =>
      match a.slots[slot]? with
      | some (.filled i) => some (i, stage)
      | _ => none
    | _ => none

def Moment.presses (m : Moment) (p : Party) (i : Nat) (stage : StopStage) : Prop :=
  m.action = p.action ∧ p.place? m.before = some (i, stage)

variable {a b : Agent} {x : Action} {es : List Event} {i n : Nat} {stage : StopStage} {p : Party}

theorem stopPlace : (Party.stop n).place? a = some (i, stage) ↔
    ∃ s, a.stops[n]? = some s ∧ s.client = i ∧ s.stage = stage := by
  simp [Party.place?]

theorem shutdownPlace : (Party.shutdown n).place? a = some (i, stage) ↔
    ∃ slot rest, a.shutdowns[n]? = some ⟨.stopping (slot :: rest) stage⟩ ∧
      a.slots[slot]? = some (.filled i) := by
  simp only [Party.place?]
  constructor
  · intro there
    split at there
    · rename_i found
      split at there
      · rename_i full
        cases Option.some.inj there
        exact ⟨_, _, found, full⟩
      · contradiction
    · contradiction
  · rintro ⟨slot, rest, found, full⟩
    simp [found, full]

inductive Change (a : Agent) (x : Action) (b : Agent) (es : List Event) (i : Nat) (c : Client) :
    Client → Prop where
  | goes {input : Channel.Input} {ch : Channel} {t : String} (own : x.task? = some i)
      (moves : Channel.Moves c.settings c.channel input ch (effectsOf i es)) :
      Change a x b es i c { c with channel := ch, token := t }
  | pressed {p : Party} {stage after : StopStage} {ch : Channel} {handle : Bool}
      (acts : x = p.action) (was : p.place? a = some (i, stage))
      (press : Press c.channel c.joinable stage ch handle after) (is : p.place? b = some (i, after))
      (quiet : effectsOf i es = []) : Change a x b es i c { c with channel := ch, joinable := handle }
  | dropped (acts : x = .drop i) (quiet : effectsOf i es = []) :
      Change a x b es i c { c with channel := c.channel.requestStop }
  | spared {d : Client} (channel : d.channel = c.channel) (joinable : d.joinable = c.joinable)
      (other : x.task? ≠ some i) (quiet : effectsOf i es = []) : Change a x b es i c d

theorem turnChange {c : Client} (turn : Turn a x b es) (found : a.clients[i]? = some c) :
    ∃ d, b.clients[i]? = some d ∧ d.who = c.who ∧ Change a x b es i c d := by
  have quiet := (turnMute turn).tasks i
  have idle : x.task? ≠ some i := by cases turn <;> exact nofun
  have spared : b.clients = a.clients → ∃ d, b.clients[i]? = some d ∧ d.who = c.who ∧
      Change a x b es i c d :=
    fun clients => ⟨c, clients ▸ found, rfl, .spared rfl rfl idle quiet⟩
  cases turn with
  | succeeds => exact ⟨c, appendKeeps found, rfl, .spared rfl rfl idle quiet⟩
  | @presses n s k ch handle after there own pressed =>
    by_cases same : i = s.client
    · subst same
      cases Option.some.inj (found.symm.trans own)
      refine ⟨_, setSelf found, rfl, .pressed (p := .stop n) rfl ?_ pressed ?_ rfl⟩
      · exact stopPlace.mpr ⟨s, there, rfl, rfl⟩
      · exact stopPlace.mpr ⟨_, setSelf there, rfl, rfl⟩
    · exact ⟨c, setOther found same, rfl, .spared rfl rfl idle quiet⟩
  | @drives n slot j rest k ch handle stage after there full own pressed =>
    by_cases same : i = j
    · subst same
      cases Option.some.inj (found.symm.trans own)
      refine ⟨_, setSelf found, rfl, .pressed (p := .shutdown n) rfl ?_ pressed ?_ rfl⟩
      · exact shutdownPlace.mpr ⟨slot, rest, there, full⟩
      · exact shutdownPlace.mpr ⟨slot, rest, setSelf there, full⟩
    · exact ⟨c, setOther found same, rfl, .spared rfl rfl idle quiet⟩
  | @drops j k own =>
    by_cases same : i = j
    · subst same
      cases Option.some.inj (found.symm.trans own)
      exact ⟨_, setSelf found, rfl, .dropped rfl rfl⟩
    · exact ⟨c, setOther found same, rfl, .spared rfl rfl idle quiet⟩
  | calls | finds | enters | begins | shares | fails | quits | forgets | bids | closes | drains
  | skips | passes | finishes => exact spared rfl

theorem changeStep {c : Client} (next : a.step x = some (b, es)) (found : a.clients[i]? = some c) :
    ∃ d, b.clients[i]? = some d ∧ d.who = c.who ∧ Change a x b es i c d := by
  by_cases own : x.task? = some i
  · obtain ⟨k, input, d, same, moved, after, _⟩ := ownChannel next own
    cases Option.some.inj (found.symm.trans same)
    exact ⟨_, after, rfl, .goes own (Channel.stepMoves moved)⟩
  · cases manages : x.manages with
    | true => exact turnChange (stepTurn next manages) found
    | false =>
      obtain ⟨quiet, alike⟩ := stepElsewhere next own
      obtain ⟨d, there, _, same⟩ := alike c found
      have calm : x.asksStop = false := by cases x <;> first | rfl | contradiction
      have same := same calm
      have seats : d.seat = c.seat := by
        have all := congrArg (·[i]?) (stillStep next manages).seats
        simpa [there, found] using all
      exact ⟨d, there, congrArg Prod.fst seats,
        .spared same.channel (congrArg Prod.snd seats) own quiet⟩

theorem Change.onward {c d : Client} (change : Change a x b es i c d) : c.Onward d := by
  cases change with
  | goes _ moves => exact ⟨Channel.onwardMoves moves, id⟩
  | pressed _ _ press =>
    refine ⟨press.onward, ?_⟩
    intro taken
    cases press with
    | takes | misses => rfl
    | clears | signals | cancels | joins => exact taken
  | dropped => exact ⟨c.channel.requestsOnward, id⟩
  | spared channel joinable => exact ⟨channel ▸ .refl _, fun taken => joinable.trans taken⟩

theorem stopElsewhere (next : a.step x = some (b, es)) (apart : x ≠ .stopping n) :
    b.stops[n]? = a.stops[n]? ∨ (a.stops[n]? = none ∧ ∃ j, b.stops[n]? = some { client := j }) := by
  cases manages : x.manages with
  | false => exact .inl (congrArg (·[n]?) (stillStep next manages).stops)
  | true =>
    cases stepTurn next manages with
    | bids j =>
      rcases appendElse (l := a.stops) (x := { client := j }) n with same | ⟨none, new⟩
      · exact .inl same
      · exact .inr ⟨none, j, new⟩
    | presses =>
      refine .inl (List.getElem?_set_ne ?_)
      rintro rfl
      exact apart rfl
    | calls | finds | enters | begins | shares | succeeds | fails | quits | forgets | closes
    | drains | skips | drives | passes | finishes | drops => exact .inl rfl

theorem shutdownElsewhere (next : a.step x = some (b, es)) (apart : x ≠ .shutting n) :
    b.shutdowns[n]? = a.shutdowns[n]? ∨
      (a.shutdowns[n]? = none ∧ b.shutdowns[n]? = some ⟨.draining⟩) ∨
      (a.shutdowns[n]? = some ⟨.draining⟩ ∧ ∃ slots, b.shutdowns[n]? = some ⟨.stopping slots .asking⟩) := by
  cases manages : x.manages with
  | false => exact .inl (congrArg (·[n]?) (stillStep next manages).shutdowns)
  | true =>
    cases stepTurn next manages with
    | closes =>
      rcases appendElse (l := a.shutdowns) (x := {}) n with same | new
      · exact .inl same
      · exact .inr (.inl new)
    | @drains k slots there =>
      by_cases same : k = n
      · subst same
        exact .inr (.inr ⟨there, slots, setSelf there⟩)
      · exact .inl (List.getElem?_set_ne same)
    | skips | drives | passes | finishes =>
      refine .inl (List.getElem?_set_ne ?_)
      rintro rfl
      exact apart rfl
    | calls | finds | enters | begins | shares | succeeds | fails | quits | forgets | bids
    | presses | drops => exact .inl rfl

theorem stopStays {s : Stop} (next : a.step x = some (b, es)) (apart : x ≠ .stopping n)
    (was : a.stops[n]? = some s) : b.stops[n]? = some s := by
  rcases stopElsewhere next apart with same | ⟨none, _⟩
  · exact same.trans was
  · exact absurd (none.symm.trans was) nofun

theorem stopWas {s : Stop} (next : a.step x = some (b, es)) (apart : x ≠ .stopping n)
    (is : b.stops[n]? = some s) (late : s.stage ≠ .asking) : a.stops[n]? = some s := by
  rcases stopElsewhere next apart with same | ⟨_, j, new⟩
  · exact same.symm.trans is
  · cases Option.some.inj (is.symm.trans new)
    contradiction

theorem shutdownStays {slots : List Nat} (next : a.step x = some (b, es)) (apart : x ≠ .shutting n)
    (was : a.shutdowns[n]? = some ⟨.stopping slots stage⟩) :
    b.shutdowns[n]? = some ⟨.stopping slots stage⟩ := by
  rcases shutdownElsewhere next apart with same | ⟨none, _⟩ | ⟨draining, _⟩
  · exact same.trans was
  · exact absurd (none.symm.trans was) nofun
  · exact absurd (draining.symm.trans was) nofun

theorem shutdownWas {slots : List Nat} (next : a.step x = some (b, es)) (apart : x ≠ .shutting n)
    (is : b.shutdowns[n]? = some ⟨.stopping slots stage⟩) (late : stage ≠ .asking) :
    a.shutdowns[n]? = some ⟨.stopping slots stage⟩ := by
  rcases shutdownElsewhere next apart with same | ⟨_, new⟩ | ⟨_, _, drained⟩
  · exact same.symm.trans is
  · exact absurd (new.symm.trans is) nofun
  · cases Option.some.inj (drained.symm.trans is)
    contradiction

theorem placeStays (h : Exclusive a) (next : a.step x = some (b, es)) (apart : x ≠ p.action)
    (was : p.place? a = some (i, stage)) : p.place? b = some (i, stage) := by
  cases p with
  | stop n =>
    obtain ⟨s, there, same⟩ := stopPlace.mp was
    exact stopPlace.mpr ⟨s, stopStays next apart there, same⟩
  | shutdown n =>
    obtain ⟨slot, rest, there, full⟩ := shutdownPlace.mp was
    exact shutdownPlace.mpr ⟨slot, rest, shutdownStays next apart there, filledStays h next full⟩

theorem ownPlace (next : a.step x = some (b, es)) (acts : x = p.action)
    (is : p.place? b = some (i, stage)) (late : stage ≠ .asking) :
    ∃ before c ch handle, p.place? a = some (i, before) ∧ a.clients[i]? = some c ∧
      Press c.channel c.joinable before ch handle stage ∧
      b.clients[i]? = some { c with channel := ch, joinable := handle } := by
  subst acts
  cases p with
  | stop n =>
    obtain ⟨s, there, rfl, rfl⟩ := stopPlace.mp is
    cases stepTurn next rfl with
    | presses was found pressed =>
      cases Option.some.inj ((setSelf was).symm.trans there)
      exact ⟨_, _, _, _, stopPlace.mpr ⟨_, was, rfl, rfl⟩, found, pressed, setSelf found⟩
  | shutdown n =>
    obtain ⟨slot, rest, there, full⟩ := shutdownPlace.mp is
    cases stepTurn next rfl with
    | skips was | passes was =>
      have same := Shutdown.mk.inj (Option.some.inj ((setSelf was).symm.trans there))
      exact absurd (ShutdownStage.stopping.inj same).2.symm late
    | finishes was => exact absurd ((setSelf was).symm.trans there) nofun
    | drives was filled found pressed =>
      cases Option.some.inj ((setSelf was).symm.trans there)
      cases filled.symm.trans full
      exact ⟨_, _, _, _, shutdownPlace.mpr ⟨_, _, was, filled⟩, found, pressed,
        setSelf found⟩

theorem joiningDone {c : Client} (next : a.step x = some (b, es)) (acts : x = p.action)
    (was : p.place? a = some (i, .joining)) (found : a.clients[i]? = some c) :
    c.channel.phase = .done := by
  subst acts
  have done : ∀ {k : Client} {ch : Channel} {handle : Bool} {after : StopStage},
      a.clients[i]? = some k → Press k.channel k.joinable .joining ch handle after →
      c.channel.phase = .done := by
    intro k ch handle after own pressed
    cases Option.some.inj (found.symm.trans own)
    cases pressed with
    | joins done => exact done
  cases p with
  | stop n =>
    obtain ⟨s, there, rfl, stage⟩ := stopPlace.mp was
    cases stepTurn next rfl with
    | presses known own pressed =>
      cases Option.some.inj (there.symm.trans known)
      exact done own (stage ▸ pressed)
  | shutdown n =>
    obtain ⟨slot, rest, there, full⟩ := shutdownPlace.mp was
    cases stepTurn next rfl with
    | passes known | finishes known => exact absurd (there.symm.trans known) nofun
    | skips known empty =>
      cases there.symm.trans known
      exact absurd full (empty i)
    | drives known filled own pressed =>
      cases there.symm.trans known
      cases full.symm.trans filled
      exact done own pressed

/- Who is on the way with a client has done to it what comes before, and whoever took the handle of its
task waits for the task, if it is not done. -/
structure Watched (a : Agent) : Prop where
  begun : ∀ {n slot : Nat} {rest : List Nat} {stage : StopStage},
    a.shutdowns[n]? = some ⟨.stopping (slot :: rest) stage⟩ → stage ≠ .asking →
    ∃ i, a.slots[slot]? = some (.filled i)
  met : ∀ {p : Party} {i : Nat} {stage : StopStage}, p.place? a = some (i, stage) → stage ≠ .asking →
    ∃ c, a.clients[i]? = some c ∧ c.Met stage
  awaited : ∀ {i : Nat} {c : Client}, a.clients[i]? = some c → c.joinable = false →
    c.channel.phase = .done ∨ ∃ p : Party, p.place? a = some (i, .joining)

theorem Unused.watched (h : Unused a) : Watched a := by
  refine ⟨?_, ?_, ?_⟩
  · simp [h.shutdowns]
  · intro p
    cases p <;> simp [Party.place?, h.stops, h.shutdowns]
  · simp [h.clients]

theorem begunStep {slot : Nat} {rest : List Nat} (h : Watched a) (exclusive : Exclusive a)
    (next : a.step x = some (b, es)) (is : b.shutdowns[n]? = some ⟨.stopping (slot :: rest) stage⟩)
    (late : stage ≠ .asking) : ∃ i, b.slots[slot]? = some (.filled i) := by
  by_cases own : x = .shutting n
  · subst own
    cases stepTurn next rfl with
    | skips was | passes was =>
      have same := Shutdown.mk.inj (Option.some.inj ((setSelf was).symm.trans is))
      exact absurd (ShutdownStage.stopping.inj same).2.symm late
    | finishes was => exact absurd ((setSelf was).symm.trans is) nofun
    | drives was full =>
      cases Option.some.inj ((setSelf was).symm.trans is)
      exact ⟨_, full⟩
  · obtain ⟨i, full⟩ := h.begun (shutdownWas next own is late) late
    exact ⟨i, filledStays exclusive next full⟩

theorem placeWas (h : Watched a) (exclusive : Exclusive a) (next : a.step x = some (b, es))
    (apart : x ≠ p.action) (is : p.place? b = some (i, stage)) (late : stage ≠ .asking) :
    p.place? a = some (i, stage) := by
  cases p with
  | stop n =>
    obtain ⟨s, there, same, rfl⟩ := stopPlace.mp is
    exact stopPlace.mpr ⟨s, stopWas next apart there late, same, rfl⟩
  | shutdown n =>
    obtain ⟨slot, rest, there, full⟩ := shutdownPlace.mp is
    have was := shutdownWas next apart there late
    obtain ⟨j, filled⟩ := h.begun was late
    cases full.symm.trans (filledStays exclusive next filled)
    exact shutdownPlace.mpr ⟨slot, rest, was, filled⟩

theorem metStep (h : Watched a) (exclusive : Exclusive a) (next : a.step x = some (b, es))
    (is : p.place? b = some (i, stage)) (late : stage ≠ .asking) :
    ∃ d, b.clients[i]? = some d ∧ d.Met stage := by
  by_cases acts : x = p.action
  · obtain ⟨before, c, ch, handle, was, found, press, after⟩ := ownPlace next acts is late
    have met : c.Met before := by
      by_cases first : before = .asking
      · exact first ▸ trivial
      · obtain ⟨k, same, met⟩ := h.met was first
        cases Option.some.inj (found.symm.trans same)
        exact met
    exact ⟨_, after, met.press press⟩
  · obtain ⟨c, found, met⟩ := h.met (placeWas h exclusive next acts is late) late
    obtain ⟨d, after, _, change⟩ := changeStep next found
    exact ⟨d, after, met.onward change.onward⟩

theorem newcomerJoinable {d : Client} (next : a.step x = some (b, es))
    (absent : a.clients[i]? = none) (there : b.clients[i]? = some d) : d.joinable = true := by
  have sized : b.clients.length = a.clients.length → d.joinable = true := by
    intro size
    have inside := (List.getElem?_eq_some_iff.mp there).1
    have past := List.getElem?_eq_none_iff.mp absent
    omega
  cases manages : x.manages with
  | false => exact sized (by simpa using congrArg List.length (stillStep next manages).seats)
  | true =>
    cases stepTurn next manages with
    | succeeds =>
      rcases appendCases there with old | ⟨_, rfl⟩
      · exact absurd (absent.symm.trans old) nofun
      · rfl
    | calls | finds | enters | begins | shares | fails | quits | forgets | bids | presses | closes
    | drains | skips | drives | passes | finishes | drops =>
      exact sized (by simp [setClient, setConnect, setSlot, setShutdown])

theorem awaitedStep {d : Client} (h : Watched a) (exclusive : Exclusive a)
    (next : a.step x = some (b, es)) (there : b.clients[i]? = some d) (taken : d.joinable = false) :
    d.channel.phase = .done ∨ ∃ p : Party, p.place? b = some (i, .joining) := by
  cases found : a.clients[i]? with
  | none => exact absurd (taken.symm.trans (newcomerJoinable next found there)) nofun
  | some c =>
    obtain ⟨_, after, _, change⟩ := changeStep next found
    cases Option.some.inj (there.symm.trans after)
    have onward := change.onward
    cases joinable : c.joinable with
    | false =>
      rcases h.awaited found joinable with done | ⟨p, was⟩
      · exact .inl (onward.channel.done done)
      · by_cases acts : x = p.action
        · exact .inl (onward.channel.done (joiningDone next acts was found))
        · exact .inr ⟨p, placeStays exclusive next acts was⟩
    | true =>
      -- The handle goes in this very step.
      cases change with
      | goes | dropped => exact absurd (joinable.symm.trans taken) nofun
      | spared _ same => exact absurd (joinable.symm.trans (same.symm.trans taken)) nofun
      | pressed _ _ press is =>
        cases press with
        | takes => exact .inr ⟨_, is⟩
        | misses gone => exact absurd (joinable.symm.trans gone) nofun
        | clears | signals | cancels | joins => exact absurd (joinable.symm.trans taken) nofun

theorem watchedStep (h : Watched a) (exclusive : Exclusive a) (next : a.step x = some (b, es)) :
    Watched b :=
  ⟨begunStep h exclusive next, metStep h exclusive next, awaitedStep h exclusive next⟩

theorem runWatched {log : List Moment} (unused : Unused a) (run : Run a log b) :
    Watched b ∧ ∃ owners, Orderly owners b := by
  refine run.holds (P := fun _ d => Watched d ∧ ∃ owners, Orderly owners d) ?_
    ⟨unused.watched, [], unused.orderly⟩
  rintro past c x d es ⟨watched, owners, orderly⟩ next
  obtain ⟨later, after⟩ := orderlyStep orderly next
  exact ⟨watchedStep watched orderly.exclusive next, _, after⟩

end Agent
end FirewallAgent

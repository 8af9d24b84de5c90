import FirewallAgent.Proofs.Agent.Parties
import FirewallAgent.Proofs.Agent.Token

/-! Stopping one client, by any number of calls, shutdowns and a drop, whose steps fall anywhere between
those of the client's task. -/
namespace FirewallAgent.Agent
open Registry Channel

variable {a b : Agent} {x : Action} {es : List Event} {i : Nat} {c d : Client} {log : List Moment}

/- Someone begins to ask the client to stop, and someone has asked it in full. Dropping a client asks in
one step; where its parts are to fall apart, it is a call that goes no further than asking. -/

def Moment.clears (m : Moment) (i : Nat) : Prop :=
  (∃ p, m.presses p i .asking) ∨ m.action = .drop i

def Moment.requests (m : Moment) (i : Nat) : Prop :=
  (∃ p, m.presses p i .cancelling) ∨ m.action = .drop i

def dials (i : Nat) (log : List Moment) : Nat :=
  (log.flatMap fun m => effectsOf i m.events).count .dialed

def Wound (past : List Moment) (a : Agent) : Prop :=
  ∀ i c, a.clients[i]? = some c → Winding (∃ m ∈ past, m.clears i) c.channel

theorem woundStep {past : List Moment} (h : Wound past a) (next : a.step x = some (b, es)) :
    Wound (past ++ [⟨a, x, b, es⟩]) b := by
  intro i d there
  cases found : a.clients[i]? with
  | none => exact (newcomerFresh next found there).channel ▸ startWinding
  | some c =>
    have winding := (h i c found).mono (seenLater (m := ⟨a, x, b, es⟩))
    obtain ⟨_, after, _, change⟩ := changeStep next found
    cases Option.some.inj (there.symm.trans after)
    cases change with
    | goes _ moves => exact windingMoves winding moves
    | pressed acts was press =>
      cases press with
      | clears => exact winding.clears (seenNow (.inl ⟨_, acts, was⟩))
      | signals => exact winding.signals
      | cancels => exact winding.cancels
      | takes | misses | joins => exact winding
    | dropped acts => exact (winding.clears (seenNow (.inr acts))).signals.cancels
    | spared channel => exact channel ▸ winding

theorem runWound (unused : Unused a) (run : Run a log b) : Wound log b := by
  refine run.holds (P := Wound) woundStep ?_
  intro i c found
  simp [unused.clients] at found

theorem Change.reason {asked : Prop} {r : StopReason} (h : Winding asked c.channel)
    (change : Change a x b es i c d) (given : c.channel.reason = some r) :
    d.channel.reason = some r := by
  cases change with
  | goes _ moves => exact reasonMoves h moves given
  | pressed _ _ press => cases press <;> exact given
  | dropped => exact given
  | spared channel => exact channel ▸ given

theorem Change.dials (change : Change a x b es i c d) (off : c.channel.running = false) :
    (effectsOf i es).count .dialed + d.channel.dialsLeft ≤ c.channel.dialsLeft := by
  have same : effectsOf i es = [] → d.channel.phase = c.channel.phase →
      (effectsOf i es).count .dialed + d.channel.dialsLeft ≤ c.channel.dialsLeft := by
    intro quiet phase
    simp [quiet, dialsLeft, phase]
  cases change with
  | goes _ moves => exact dialsMoves off moves
  | pressed _ _ press _ quiet => exact same quiet press.phase
  | dropped _ quiet => exact same quiet rfl
  | spared channel _ _ quiet => exact same quiet (congrArg Channel.phase channel)

theorem partsAt {k : Nat} {m : Moment} (nth : log[k]? = some m) :
    log = log.take k ++ m :: log.drop (k + 1) := by
  obtain ⟨inside, same⟩ := List.getElem?_eq_some_iff.mp nth
  rw [← same, List.getElem_cons_drop, List.take_append_drop]

def Moment.returns (m : Moment) (p : Party) (i : Nat) : Prop :=
  m.action = p.action ∧ p.place? m.after = some (i, .ended)

theorem doneIdle (run : Run a log b) (found : a.clients[i]? = some c)
    (done : c.channel.phase = .done) : ∀ m ∈ log, m.action.task? ≠ some i := by
  induction run generalizing c with
  | rest => simp
  | step next _ ih =>
    obtain ⟨d, after, _, change⟩ := changeStep next found
    intro m there
    rcases List.mem_cons.mp there with rfl | later
    · intro own
      obtain ⟨k, _, _, same, moved, _⟩ := ownChannel next own
      cases Option.some.inj (found.symm.trans same)
      exact doneStays (stepMoves moved) done
    · exact ih after (change.onward.channel.done done) m later

/- When a stop returns, the task has stopped, unless someone else has taken the handle and waits for the
task. Whoever that is may have been given up by its caller, and then nobody waits. -/
theorem stopsReturnDoneOrAwaited {past rest : List Moment} {m : Moment} {p : Party} (unused : Unused a)
    (run : Run a (past ++ m :: rest) b) (returns : m.returns p i) :
    ∃ c, m.after.clients[i]? = some c ∧ c.channel.running = false ∧ c.channel.shutdown = true ∧
      ((c.channel.state = .stopped ∧ ∀ k ∈ rest, k.action.task? ≠ some i) ∨
        ∃ q, q ≠ p ∧ q.place? m.after = some (i, .joining)) := by
  obtain ⟨before, next, after⟩ := run.around
  obtain ⟨watched, _, orderly⟩ := runWatched unused before
  have watched := watchedStep watched orderly.exclusive next
  obtain ⟨_, is⟩ := returns
  obtain ⟨c, found, off, shut, taken⟩ := watched.met is nofun
  refine ⟨c, found, off, shut, ?_⟩
  rcases watched.awaited found taken with done | ⟨q, waits⟩
  · have winding := woundStep (runWound unused before) next i c found
    exact .inl ⟨winding.stopped.mpr done, doneIdle after found done⟩
  · refine .inr ⟨q, ?_, waits⟩
    rintro rfl
    exact absurd (is.symm.trans waits) nofun

/- The second of two stops finds the handle taken and returns, while the task has yet to put away the
credential that it was given. -/
def twoStops : List Action :=
  [.connect ⟨"code", "localhost:443", true⟩, .connecting 0, .connecting 0, .connected 0 (.ok ())] ++
    List.replicate 3 (.channel 0 .proceed) ++
    [.channel 0 (.opened (.ok ())), .channel 0 (.sent true),
      .channel 0 (.received (.authorized (some "id") (some "secret"))), .stop 0, .stop 0] ++
    List.replicate 4 (.stopping 0) ++ List.replicate 4 (.stopping 1) ++ [.storage 0 []]

theorem secondStopReturnsEarly : ∃ past m rest a c, Run bare (past ++ m :: rest) a ∧
    m.returns (.stop 1) 0 ∧ m.after.clients[0]? = some c ∧ c.channel.state = .authorizing ∧
    (∃ k ∈ rest, k.action = .storage 0 []) ∧ Store.loadCredential m.after.store "code" = none ∧
    Store.loadCredential a.store "code" = some ⟨"id", "secret"⟩ := by
  obtain ⟨log, a, played, m, nth, returns, c, found, state, work, before, after⟩ : ∃ log a,
      bare.play twoStops = some (log, a) ∧ ∃ m, log[19]? = some m ∧ m.returns (.stop 1) 0 ∧
      ∃ c, m.after.clients[0]? = some c ∧ c.channel.state = .authorizing ∧
      (∃ k ∈ log.drop 20, k.action = .storage 0 []) ∧
      Store.loadCredential m.after.store "code" = none ∧
      Store.loadCredential a.store "code" = some ⟨"id", "secret"⟩ :=
    ⟨_, _, rfl, _, rfl, ⟨rfl, rfl⟩, _, rfl, rfl, ⟨_, .head _, rfl⟩, by decide +kernel, by decide +kernel⟩
  exact ⟨_, m, _, a, c, partsAt nth ▸ playRun played, returns, found, state, work, before, after⟩

end FirewallAgent.Agent

import FirewallAgent.Proofs.Agent.Stream

/-! The tokens that calls are made with. A call gets past the gate of its client only after it has seen
the client's channel stream, and what it takes there is what the client's own stream brought last.
Nothing else fills a gate, and a session that failed empties it before the pause. -/
namespace FirewallAgent.Agent
open Channel (Moves Settings)
open Decision (Goes Stage)

def Moment.issues (m : Moment) (i : Nat) (who : Identity) (t : String) : Prop :=
  m.hears i (.token t) ∧ ∃ c, m.before.clients[i]? = some c ∧ c.identity = who ∧
    c.channel.phase = .streaming ∧ c.channel.state = .streaming

def Moment.givesUp (m : Moment) (i : Nat) : Prop :=
  m.action = .channel i .proceed ∧ ∃ c e, m.before.clients[i]? = some c ∧
    c.channel.phase = .ending (.failed e) ∧ c.channel.running = true

def Moment.resets (m : Moment) (i : Nat) : Prop :=
  (∃ who t, m.issues i who t) ∨ m.givesUp i ∨ ∃ r, m.wipes i r

/- The token came on a stream of the client, and nothing has happened to its gate since. -/
def Issued (i : Nat) (who : Identity) (t : String) (past : List Moment) : Prop :=
  ∃ earlier m since, past = earlier ++ m :: since ∧ m.issues i who t ∧ ∀ k ∈ since, ¬ k.resets i

def Moment.empty (m : Moment) (i : Nat) : Prop := ∃ d, m.after.clients[i]? = some d ∧ d.token = ""

structure Moment.Empties (m : Moment) (i : Nat) : Prop where
  failed : m.givesUp i → m.empty i
  revoked : ∀ r, m.wipes i r → m.empty i
  paused : ∀ d, m.after.clients[i]? = some d → d.channel.state = .backoff → d.token = "" ∧
    ∃ c, m.before.clients[i]? = some c ∧ c.token = ""

def Moment.seesStream (m : Moment) (n i : Nat) : Prop :=
  ∃ call c, m.before.calls[n]? = some call ∧ call.client = i ∧ call.isOpen = true ∧
    m.before.clients[i]? = some c ∧ c.channel.state = .streaming

def Moment.takes (m : Moment) (n i : Nat) (t : String) : Prop :=
  ∃ call w c after, m.before.calls[n]? = some call ∧ call.client = i ∧ call.stage = .waiting w ∧
    m.before.clients[i]? = some c ∧ c.token = t ∧ m.after.calls[n]? = some after ∧
    (after.stage = .holding t ∨ after.stage = .ended (.ok (.token t)))

def Moment.grants (m : Moment) (n : Nat) : Prop :=
  ∃ before after r, m.before.calls[n]? = some before ∧ before.isOpen = true ∧
    m.after.calls[n]? = some after ∧ after.stage = .ended (.ok r)

def Entered (n i : Nat) (past : List Moment) : Prop := ∃ m ∈ past, m.seesStream n i

/- First the call saw the stream, and then it took this token, which was the one last issued. -/
def Admitted (n i : Nat) (who : Identity) (t : String) (past : List Moment) : Prop :=
  t ≠ "" ∧ ∃ earlier m later, past = earlier ++ m :: later ∧ Entered n i earlier ∧ m.takes n i t ∧
    Issued i who t earlier

def Earned (past : List Moment) (n : Nat) (who : Identity) (call : Call) : Prop :=
  match call.stage with
  | .entering | .ended (.error _) => True
  | .waiting _ => Entered n call.client past
  | .holding t => Admitted n call.client who t past
  | .asking m | .awaiting m =>
    ∃ t, Admitted n call.client who t past ∧ call.subject.message? t = some m
  | .recording _ | .ended (.ok _) => ∃ t, Admitted n call.client who t past

/- A stream that is up is seen to be, and the gate is empty during a pause and just before it. -/
structure Poised (c : Channel) (t : String) : Prop where
  streaming : c.phase = .streaming → c.state = .streaming
  enabling : ∀ on, c.phase = .enabling on → c.state = .streaming
  retreating : c.phase = .retreating → t = ""
  resting : c.state = .backoff → t = ""

structure Guarded (past : List Moment) (a : Agent) : Prop where
  gates : ∀ (i : Nat) (c : Client), a.clients[i]? = some c →
    Poised c.channel c.token ∧ (c.token ≠ "" → Issued i c.identity c.token past)
  calls : ∀ (n : Nat) (call : Call), a.calls[n]? = some call → call.stage = .entering ∨
    ∃ c, a.clients[call.client]? = some c ∧ Earned past n c.identity call

variable {past : List Moment} {m : Moment} {i n : Nat} {who : Identity} {t : String}

theorem Issued.next (h : Issued i who t past) (calm : ¬ m.resets i) : Issued i who t (past ++ [m]) := by
  obtain ⟨earlier, k, since, rfl, issued, quiet⟩ := h
  refine ⟨earlier, k, since ++ [m], by simp, issued, ?_⟩
  intro x there
  rcases List.mem_append.mp there with old | new
  · exact quiet x old
  · exact List.mem_singleton.mp new ▸ calm

theorem Moment.issues.issued (h : m.issues i who t) : Issued i who t (past ++ [m]) :=
  ⟨past, m, [], rfl, h, by simp⟩

theorem Moment.resets.own (h : m.resets i) : m.isOf i := by
  rcases h with ⟨_, _, heard, _⟩ | ⟨action, _⟩ | ⟨_, _, ⟨action, _⟩, _⟩
  · exact congrArg Action.task? heard
  · exact congrArg Action.task? action
  · exact congrArg Action.task? action

theorem Entered.next (h : Entered n i past) (m : Moment) : Entered n i (past ++ [m]) := by
  obtain ⟨k, there, seen⟩ := h
  exact ⟨k, List.mem_append_left _ there, seen⟩

theorem Admitted.next (h : Admitted n i who t past) (m : Moment) : Admitted n i who t (past ++ [m]) := by
  obtain ⟨filled, earlier, k, later, rfl, rest⟩ := h
  exact ⟨filled, earlier, k, later ++ [m], by simp, rest⟩

theorem Earned.next {call : Call} (h : Earned past n who call) (m : Moment) :
    Earned (past ++ [m]) n who call := by
  unfold Earned at h ⊢
  split at h
  · trivial
  · trivial
  · exact Entered.next h m
  · exact Admitted.next h m
  · obtain ⟨t, admitted, about⟩ := h
    exact ⟨t, admitted.next m, about⟩
  · obtain ⟨t, admitted, about⟩ := h
    exact ⟨t, admitted.next m, about⟩
  · obtain ⟨t, admitted⟩ := h
    exact ⟨t, admitted.next m⟩
  · obtain ⟨t, admitted⟩ := h
    exact ⟨t, admitted.next m⟩

section
variable {s : Settings} {c d : Channel} {input : Channel.Input} {es : List Channel.Effect}

theorem gateKept (quiet : ∀ u, Channel.Effect.token u ∉ es) : es.foldl gateAfter t = t := by
  induction es with
  | nil => rfl
  | cons e rest ih =>
    have later := ih fun u there => quiet u (List.mem_cons_of_mem e there)
    cases e with
    | token u => exact absurd List.mem_cons_self (quiet u)
    | purged | enabled | state | dialed | sent | counted | rested => exact later

theorem gateMoves (moves : Moves s c input d es) (t : String) :
    (∃ u, input = .received (.token u) ∧ c.phase = .streaming ∧ es.foldl gateAfter t = u) ∨
    es.foldl gateAfter t = "" ∨ ∀ u, Channel.Effect.token u ∉ es := by
  cases moves with
  | rotates here u => exact .inl ⟨u, rfl, here, rfl⟩
  | wiped | retreats => exact .inr (.inl rfl)
  | _ => exact .inr (.inr (by simp))

theorem Poised.quiet (h : Poised c t) (streaming : d.phase ≠ .streaming)
    (enabling : ∀ on, d.phase ≠ .enabling on) (retreating : d.phase ≠ .retreating)
    (state : d.state = c.state ∨ d.state ≠ .backoff) : Poised d t := by
  refine ⟨fun same => absurd same streaming, fun on same => absurd same (enabling on),
    fun same => absurd same retreating, ?_⟩
  intro resting
  rcases state with same | other
  · exact h.resting (same.symm.trans resting)
  · exact absurd resting other

theorem poisedMoves (h : Poised c t) (moves : Moves s c input d es) :
    Poised d (es.foldl gateAfter t) := by
  cases moves with
  | presents => exact ⟨fun _ => rfl, nofun, nofun, nofun⟩
  | ignores | passes => exact h
  | rotates here u =>
    have seen := h.streaming here
    refine ⟨h.streaming, h.enabling, ?_, ?_⟩
    · simp [here]
    · simp [seen]
  | defaults here =>
    have seen := h.streaming here
    exact ⟨nofun, fun _ _ => seen, nofun, by simp [seen]⟩
  | enables on here =>
    have seen := h.enabling on here
    exact ⟨fun _ => seen, nofun, nofun, by simp [seen]⟩
  | wiped => exact ⟨nofun, nofun, nofun, fun _ => rfl⟩
  | retreats => exact ⟨nofun, nofun, fun _ => rfl, fun _ => rfl⟩
  | rests here => exact ⟨nofun, nofun, nofun, fun _ => h.retreating here⟩
  | begins | leaves | dials | refused | greets | unheard | issued | rejected | abandoned | breaks
  | unpersisted | reloaded | unreloaded | loads | misses | unpresented | deauthorized | closes | drops
  | cancelled | stopsFor | stopsAsked | reconnects | wakes | roused | halts | releases | concludes =>
    exact h.quiet nofun nofun nofun (.inl rfl)
  | announces | opens | recognized | persisted | stops => exact h.quiet nofun nofun nofun (.inr nofun)

theorem pausedMoves (h : Poised c t) (moves : Moves s c input d es) (paused : d.state = .backoff) :
    t = "" := by
  cases moves with
  | rests here => exact h.retreating here
  | announces | opens | recognized | persisted | presents | stops => contradiction
  | _ => exact h.resting paused

end

variable {a b : Agent} {x : Action} {es : List Event}

theorem issueWrites (next : a.step x = some (b, es)) (issues : Moment.issues ⟨a, x, b, es⟩ i who t) :
    effectsOf i es = [.token t] := by
  obtain ⟨rfl, c, found, _, here, _⟩ := issues
  obtain ⟨c', input, d, found', stepped, _, brought⟩ := ownChannel next rfl
  cases Option.some.inj (found.symm.trans found')
  rcases brought with same | ⟨_, _, same⟩
  · obtain ⟨_, rfl⟩ := Action.channel.inj same
    simp only [Channel.step, here, Channel.apply, Option.some.injEq, Prod.mk.injEq] at stepped
    exact stepped.2.symm
  · contradiction

theorem failureWrites (next : a.step x = some (b, es)) (fails : Moment.givesUp ⟨a, x, b, es⟩ i) :
    effectsOf i es = [.token "", .counted .reconnect] := by
  obtain ⟨rfl, c, e, found, here, on⟩ := fails
  obtain ⟨c', input, d, found', stepped, _, brought⟩ := ownChannel next rfl
  cases Option.some.inj (found.symm.trans found')
  rcases brought with same | ⟨_, _, same⟩
  · obtain ⟨_, rfl⟩ := Action.channel.inj same
    simp only [Channel.step, Channel.proceed, here, Channel.conclude, if_pos on,
      Option.some.injEq, Prod.mk.injEq] at stepped
    exact stepped.2.symm
  · contradiction

theorem wipeWrites {r : Except StorageError Unit} (next : a.step x = some (b, es))
    (wipes : Moment.wipes ⟨a, x, b, es⟩ i r) : effectsOf i es = [.token ""] := by
  obtain ⟨turns, ⟨rfl, c, found, here⟩, _⟩ := wipes
  obtain ⟨c', input, d, found', stepped, _, brought⟩ := ownChannel next rfl
  cases Option.some.inj (found.symm.trans found')
  rcases brought with same | ⟨inner, _⟩
  · contradiction
  · cases input with
    | wiped r =>
      simp only [Channel.step, here, Option.some.injEq, Prod.mk.injEq] at stepped
      exact stepped.2.symm
    | persisted r | reloaded r | loaded r => cases r <;> simp [Channel.step, here] at stepped
    | _ => contradiction

theorem resetShows (next : a.step x = some (b, es)) (resets : Moment.resets ⟨a, x, b, es⟩ i) :
    ∃ u, Channel.Effect.token u ∈ effectsOf i es := by
  rcases resets with ⟨_, u, issues⟩ | fails | ⟨_, wipes⟩
  · exact ⟨u, issueWrites next issues ▸ List.mem_cons_self⟩
  · exact ⟨"", failureWrites next fails ▸ List.mem_cons_self⟩
  · exact ⟨"", wipeWrites next wipes ▸ List.mem_cons_self⟩

theorem gateOwn {d : Client} (guarded : Guarded past a) (next : a.step x = some (b, es))
    (own : x.task? = some i) (there : b.clients[i]? = some d) : Poised d.channel d.token ∧
      (d.token ≠ "" → Issued i d.identity d.token (past ++ [⟨a, x, b, es⟩])) := by
  obtain ⟨c, input, ch, found, stepped, after, brought⟩ := ownChannel next own
  cases Option.some.inj (after.symm.trans there)
  obtain ⟨poised, issued⟩ := guarded.gates i c found
  have moves := Channel.stepMoves stepped
  refine ⟨poisedMoves poised moves, ?_⟩
  intro filled
  rcases gateMoves moves c.token with ⟨u, rfl, here, same⟩ | empty | quiet
  · have heard : x = .channel i (.received (.token u)) := by
      rcases brought with same | ⟨inner, _⟩
      · exact same
      · contradiction
    have issues : Moment.issues ⟨a, x, b, es⟩ i c.identity u :=
      ⟨heard, c, found, rfl, here, poised.streaming here⟩
    exact same ▸ issues.issued
  · exact absurd empty filled
  · -- whatever resets a gate writes to it, so a step that does not write leaves the issue in force
    have calm : ¬ Moment.resets ⟨a, x, b, es⟩ i := by
      intro resets
      obtain ⟨u, shown⟩ := resetShows next resets
      exact quiet u shown
    have kept : (effectsOf i es).foldl gateAfter c.token = c.token := gateKept quiet
    simp only [kept] at filled ⊢
    exact (issued filled).next calm

theorem gateElsewhere {d : Client} (guarded : Guarded past a) (next : a.step x = some (b, es))
    (other : x.task? ≠ some i) (there : b.clients[i]? = some d) : Poised d.channel d.token ∧
      (d.token ≠ "" → Issued i d.identity d.token (past ++ [⟨a, x, b, es⟩])) := by
  cases found : a.clients[i]? with
  | none =>
    obtain ⟨token, channel⟩ := newcomerFresh next found there
    rw [token, channel]
    exact ⟨⟨nofun, nofun, nofun, nofun⟩, fun filled => absurd rfl filled⟩
  | some c =>
    obtain ⟨d', there', asked, _⟩ := (stepElsewhere next other).2 c found
    cases Option.some.inj (there.symm.trans there')
    obtain ⟨poised, issued⟩ := guarded.gates i c found
    rw [asked.token, asked.identity]
    refine ⟨⟨?_, ?_, ?_, ?_⟩, fun filled => (issued filled).next fun resets => other resets.own⟩
    · exact asked.phase.symm ▸ asked.state.symm ▸ poised.streaming
    · exact asked.phase.symm ▸ asked.state.symm ▸ poised.enabling
    · exact asked.phase.symm ▸ poised.retreating
    · exact asked.state.symm ▸ poised.resting

theorem earnedGoes {old : Call} {c : Client} {input : Decision.Input} {next : Decision.Next}
    (found : m.before.calls[n]? = some old) (client : m.before.clients[old.client]? = some c)
    (there : m.after.calls[n]? = some { old with stage := next.stage })
    (goes : Goes (m.before.view c) old.subject old.stage input next)
    (earned : Earned past n c.identity old)
    (issued : c.token ≠ "" → Issued old.client c.identity c.token past) :
    Earned (past ++ [m]) n c.identity { old with stage := next.stage } := by
  obtain ⟨i, s, stage⟩ := old
  cases goes with
  | enters live =>
    have streaming : c.channel.state = .streaming := by simpa [view, Channel.isStreaming] using live
    exact ⟨m, by simp, _, c, found, rfl, rfl, client, streaming⟩
  | barred | misses | refused => trivial
  | takes waits filled =>
    have took : m.takes n i c.token := ⟨_, _, c, _, found, rfl, rfl, client, rfl, there, .inl rfl⟩
    exact ⟨filled, past, m, [], rfl, earned, took, issued filled⟩
  | hands waits filled =>
    have took : m.takes n i c.token := ⟨_, _, c, _, found, rfl, rfl, client, rfl, there, .inr rfl⟩
    exact ⟨c.token, filled, past, m, [], rfl, earned, took, issued filled⟩
  | expires => exact Entered.next earned m
  | recalls t => exact ⟨t, Admitted.next earned m⟩
  | @prepares t x _ about => exact ⟨t, Admitted.next earned m, about⟩
  | asks x =>
    obtain ⟨t, admitted, about⟩ := earned
    exact ⟨t, admitted.next m, about⟩
  | informed | told =>
    obtain ⟨t, admitted, _⟩ := earned
    exact ⟨t, admitted.next m⟩
  | records | passes =>
    obtain ⟨t, admitted⟩ := earned
    exact ⟨t, admitted.next m⟩

theorem callEarned {input : Decision.Input} {call : Call} (guarded : Guarded past a)
    (next : a.stepCall n input = some (b, es)) (there : b.calls[n]? = some call) :
    ∃ c, b.clients[call.client]? = some c ∧
      Earned (past ++ [⟨a, .call n input, b, es⟩]) n c.identity call := by
  obtain ⟨old, c, reached, found, client, clients, goes, rfl, _⟩ := callOwn next there
  refine ⟨c, clients ▸ client, ?_⟩
  have earned : Earned past n c.identity old := by
    rcases guarded.calls n old found with entering | ⟨c', client', earned⟩
    · simp [Earned, entering]
    · cases Option.some.inj (client.symm.trans client')
      exact earned
  exact earnedGoes (m := ⟨a, .call n input, b, es⟩) found client there goes earned
    (guarded.gates old.client c client).2

theorem guardedStep (guarded : Guarded past a) (next : a.step x = some (b, es)) :
    Guarded (past ++ [⟨a, x, b, es⟩]) b where
  gates i d there := by
    by_cases own : x.task? = some i
    · exact gateOwn guarded next own there
    · exact gateElsewhere guarded next own there
  calls n call there := by
    rcases callsStep next there with found | entering | ⟨input, rfl⟩
    · rcases guarded.calls n call found with entering | ⟨c, client, earned⟩
      · exact .inl entering
      · obtain ⟨d, after, same⟩ := identityStep next client
        exact .inr ⟨d, after, same ▸ earned.next _⟩
    · exact .inl entering
    · exact .inr (callEarned guarded next there)

theorem runGuarded {ms : List Moment} (guarded : Guarded past a) (run : Run a ms b) :
    Guarded (past ++ ms) b := run.keeps guardedStep guarded

theorem Guarded.ofEmpty {start : Agent} (nobody : start.clients = []) (idle : start.calls = []) :
    Guarded [] start := by
  refine ⟨?_, ?_⟩
  · simp [nobody]
  · simp [idle]

theorem pausedStep {d : Client} (guarded : Guarded past a) (next : a.step x = some (b, es))
    (there : b.clients[i]? = some d) (paused : d.channel.state = .backoff) :
    ∃ c, a.clients[i]? = some c ∧ c.token = "" := by
  cases found : a.clients[i]? with
  | none =>
    have channel := (newcomerFresh next found there).channel
    rw [channel] at paused
    contradiction
  | some c =>
    have poised := (guarded.gates i c found).1
    refine ⟨c, rfl, ?_⟩
    by_cases own : x.task? = some i
    · obtain ⟨c', _, _, found', stepped, there', _⟩ := ownChannel next own
      cases Option.some.inj (found.symm.trans found')
      cases Option.some.inj (there.symm.trans there')
      exact pausedMoves poised (Channel.stepMoves stepped) paused
    · obtain ⟨d', there', asked, _⟩ := (stepElsewhere next own).2 c found
      cases Option.some.inj (there.symm.trans there')
      exact poised.resting (asked.state.symm.trans paused)

theorem emptiesStep (guarded : Guarded past a) (next : a.step x = some (b, es)) (i : Nat) :
    Moment.Empties ⟨a, x, b, es⟩ i where
  failed fails := by
    obtain ⟨c, _, d, _, _, after, _⟩ := ownChannel next (Moment.resets.own (.inr (.inl fails)))
    rw [failureWrites next fails] at after
    exact ⟨_, after, rfl⟩
  revoked r wipes := by
    obtain ⟨c, _, d, _, _, after, _⟩ := ownChannel next (Moment.resets.own (.inr (.inr ⟨r, wipes⟩)))
    rw [wipeWrites next wipes] at after
    exact ⟨_, after, rfl⟩
  paused d there paused := by
    have poised := ((guardedStep guarded next).gates i d there).1
    exact ⟨poised.resting paused, pausedStep guarded next there paused⟩

theorem asksAdmitted {y : Decision.Message} (guarded : Guarded past a)
    (next : a.step x = some (b, es)) (asked : Moment.asks ⟨a, x, b, es⟩ n y) :
    ∃ call c t, a.calls[n]? = some call ∧ a.clients[call.client]? = some c ∧
      Admitted n call.client c.identity t past ∧
      ∀ z, Moment.asks ⟨a, x, b, es⟩ n z → call.subject.message? t = some z := by
  obtain ⟨_, call, found, stage⟩ := asksStage next asked
  rcases guarded.calls n call found with entering | ⟨c, client, earned⟩
  · exact absurd (entering.symm.trans stage) nofun
  · unfold Earned at earned
    rw [stage] at earned
    obtain ⟨t, admitted, about⟩ := earned
    refine ⟨call, c, t, found, client, admitted, ?_⟩
    intro z again
    obtain ⟨_, call', found', stage'⟩ := asksStage next again
    cases Option.some.inj (found.symm.trans found')
    cases stage.symm.trans stage'
    exact about

theorem grantsAdmitted (guarded : Guarded past a) (next : a.step x = some (b, es))
    (grants : Moment.grants ⟨a, x, b, es⟩ n) :
    ∃ call c t, a.calls[n]? = some call ∧ a.clients[call.client]? = some c ∧
      Admitted n call.client c.identity t (past ++ [⟨a, x, b, es⟩]) := by
  obtain ⟨call, after, r, found, unfinished, there, ended⟩ := grants
  rcases callsStep next there with old | entering | ⟨input, rfl⟩
  · cases Option.some.inj (found.symm.trans old)
    simp [Call.isOpen, Call.result?, ended] at unfinished
  · exact absurd (entering.symm.trans ended) nofun
  · obtain ⟨c, client, earned⟩ := callEarned guarded next there
    obtain ⟨old, _, _, found', _, clients, _, rfl, _⟩ := callOwn next there
    cases Option.some.inj (found.symm.trans found')
    unfold Earned at earned
    rw [ended] at earned
    obtain ⟨t, admitted⟩ := earned
    exact ⟨call, c, t, found, clients ▸ client, admitted⟩

theorem decisionsNeedStreamAndToken {start a : Agent} {ms : List Moment} (run : Run start ms a)
    (nobody : start.clients = []) (idle : start.calls = []) :
    (∀ past m post, ms = past ++ m :: post → ∀ n, (∃ y, m.asks n y) ∨ m.grants n →
      ∃ call c t, m.before.calls[n]? = some call ∧ m.before.clients[call.client]? = some c ∧
        Admitted n call.client c.identity t (past ++ [m]) ∧
        ∀ y, m.asks n y → call.subject.message? t = some y ∧ y.token = t) ∧
    ∀ m ∈ ms, ∀ i, m.Empties i := by
  have reached : ∀ {past : List Moment} {m : Moment} {post : List Moment}, ms = past ++ m :: post →
      Guarded past m.before ∧ m.before.step m.action = some (m.after, m.events) := by
    rintro past m post rfl
    obtain ⟨before, next, _⟩ := run.around
    have guarded := runGuarded (.ofEmpty nobody idle) before
    exact ⟨guarded, next⟩
  refine ⟨?_, ?_⟩
  · intro past m post parts n decides
    obtain ⟨guarded, next⟩ := reached parts
    by_cases asked : ∃ y, m.asks n y
    · obtain ⟨y, asked⟩ := asked
      obtain ⟨call, c, t, found, client, admitted, about⟩ := asksAdmitted guarded next asked
      refine ⟨call, c, t, found, client, admitted.next m, ?_⟩
      intro z again
      exact ⟨about z again, Decision.messageToken (about z again)⟩
    · obtain ⟨call, c, t, found, client, admitted⟩ :=
        grantsAdmitted guarded next (decides.resolve_left asked)
      refine ⟨call, c, t, found, client, admitted, ?_⟩
      intro y shown
      exact absurd ⟨y, shown⟩ asked
  · intro m there i
    obtain ⟨past, post, parts⟩ := List.append_of_mem there
    obtain ⟨guarded, next⟩ := reached parts
    exact emptiesStep guarded next i

def bare : Agent :=
  { device := ⟨"uuid", "linux"⟩, tree := .fresh, store := ⟨"store", "/lock", .empty⟩ }

def enrolledCall : List Action :=
  [.connect ⟨"code", "localhost:443", true⟩, .connecting 0, .connecting 0, .connected 0 (.ok ())] ++
    List.replicate 3 (.channel 0 .proceed) ++
    [.channel 0 (.opened (.ok ())), .channel 0 (.sent true),
      .channel 0 (.received (.authorized (some "id") (some "secret"))), .storage 0 [], .storage 0 [],
      .storage 0 [], .channel 0 (.sent true), .channel 0 (.received (.token "token")),
      .ask 0 (.request { token := "mine" })] ++
    List.replicate 4 (.call 0 .proceed)

theorem enrolledCallNeededToken : bare.clients = [] ∧ bare.calls = [] ∧ ∃ past m a y,
    Run bare (past ++ [m]) a ∧ m.asks 0 y ∧
      ∃ call c, m.before.calls[0]? = some call ∧ m.before.clients[call.client]? = some c ∧
        Admitted 0 call.client c.identity "token" (past ++ [m]) ∧
        call.subject.message? "token" = some y := by
  refine ⟨rfl, rfl, ?_⟩
  have smooth : (bare.play enrolledCall).any (fun r => r.1.getLast?.any fun m =>
      (m.messages 0).any fun y => y.token == "token") = true := by decide +kernel
  obtain ⟨⟨ms, a⟩, played, last⟩ := (Option.any_eq_true _ _).mp smooth
  obtain ⟨m, final, shown⟩ := (Option.any_eq_true _ _).mp last
  obtain ⟨past, rfl⟩ := List.getLast?_eq_some_iff.mp final
  obtain ⟨y, there, same⟩ := List.any_eq_true.mp shown
  have token : y.token = "token" := beq_iff_eq.mp same
  have asked : m.asks 0 y := messagesAsks there
  have run := playRun played
  obtain ⟨call, c, t, found, client, admitted, about⟩ :=
    (decisionsNeedStreamAndToken run rfl rfl).1 past m [] rfl 0 (.inl ⟨y, asked⟩)
  obtain ⟨about, same⟩ := about y asked
  obtain rfl : "token" = t := token.symm.trans same
  exact ⟨past, m, a, y, run, asked, call, c, found, client, admitted, about⟩

end FirewallAgent.Agent

import FirewallAgent.Agent

/-! The steps of the registry, one by one: how a call finds its slot and fills it, how a stop goes on,
and how a shutdown takes the slots out and goes through them. -/
namespace FirewallAgent

namespace Registry

inductive Press (c : Channel) : Bool → StopStage → Channel → Bool → StopStage → Prop where
  | clears {handle : Bool} : Press c handle .asking c.clearRunning handle .signalling
  | signals {handle : Bool} : Press c handle .signalling c.signalShutdown handle .cancelling
  | cancels {handle : Bool} : Press c handle .cancelling c.cancelAttempt handle .taking
  | takes {handle : Bool} (held : handle = true) : Press c handle .taking c false .joining
  | misses {handle : Bool} (gone : handle = false) : Press c handle .taking c false .ended
  | joins {handle : Bool} (done : c.phase = .done) : Press c handle .joining c handle .ended

theorem stopStepPress {c d : Channel} {handle joinable : Bool} {stage after : StopStage}
    (ok : stopStep c handle stage = some (d, joinable, after)) :
    Press c handle stage d joinable after := by
  cases stage with
  | asking =>
    cases Option.some.inj ok
    exact .clears
  | signalling =>
    cases Option.some.inj ok
    exact .signals
  | cancelling =>
    cases Option.some.inj ok
    exact .cancels
  | taking =>
    cases Option.some.inj ok
    cases handle with
    | true => exact .takes rfl
    | false => exact .misses rfl
  | joining =>
    simp only [stopStep] at ok
    split at ok
    · cases Option.some.inj ok
      exact .joins ‹_›
    · contradiction
  | ended => contradiction

theorem Press.phase {c d : Channel} {handle joinable : Bool} {stage after : StopStage}
    (press : Press c handle stage d joinable after) : d.phase = c.phase := by
  cases press <;> rfl

theorem Press.state {c d : Channel} {handle joinable : Bool} {stage after : StopStage}
    (press : Press c handle stage d joinable after) : d.state = c.state := by
  cases press <;> rfl

end Registry

namespace Agent
open Registry

inductive Turn (a : Agent) : Action → Agent → List Event → Prop where
  | calls (i : Identity) :
      Turn a (.connect i) { a with connects := a.connects ++ [{ identity := i }] } []
  | finds {n s : Nat} {c : Connect} (there : a.connects[n]? = some c) (here : c.stage = .locating)
      (known : a.identities.lookup c.identity = some s) :
      Turn a (.connecting n) (a.setConnect n { c with stage := .queued s }) []
  | enters {n : Nat} {c : Connect} (there : a.connects[n]? = some c) (here : c.stage = .locating)
      (new : a.identities.lookup c.identity = none) :
      Turn a (.connecting n)
        (Agent.setConnect
          { a with
            slots := a.slots ++ [.vacant]
            identities := a.identities ++ [(c.identity, a.slots.length)] }
          n { c with stage := .queued a.slots.length })
        []
  | begins {n s : Nat} {c : Connect} (there : a.connects[n]? = some c) (here : c.stage = .queued s)
      (free : a.slots[s]? = some .vacant) :
      Turn a (.connecting n)
        ((a.setSlot s .filling).setConnect n { c with stage := .connecting s, tried := true })
        [.connecting n]
  | shares {n s i : Nat} {c : Connect} (there : a.connects[n]? = some c) (here : c.stage = .queued s)
      (full : a.slots[s]? = some (.filled i)) :
      Turn a (.connecting n) (a.setConnect n { c with stage := .ended (.ok i) }) []
  | succeeds {n s : Nat} {c : Connect} (there : a.connects[n]? = some c)
      (here : c.stage = .connecting s) :
      Turn a (.connected n (.ok ()))
        (Agent.setConnect
          (Agent.setSlot { a with clients := a.clients ++ [a.newClient c.identity] } s
            (.filled a.clients.length))
          n { c with stage := .ended (.ok a.clients.length) })
        [.started n a.clients.length]
  | fails {n s : Nat} {c : Connect} (e : AgentError) (there : a.connects[n]? = some c)
      (here : c.stage = .connecting s) :
      Turn a (.connected n (.error e))
        ((a.setSlot s .vacant).setConnect n { c with stage := .ended (.error e) }) []
  | quits {n s : Nat} {c : Connect} (there : a.connects[n]? = some c) (here : c.stage = .connecting s) :
      Turn a (.abandon n) ((a.setSlot s .vacant).setConnect n { c with stage := .abandoned }) []
  | forgets {n : Nat} {c : Connect} (there : a.connects[n]? = some c)
      (here : c.stage = .locating ∨ ∃ s, c.stage = .queued s) :
      Turn a (.abandon n) (a.setConnect n { c with stage := .abandoned }) []
  | bids (i : Nat) : Turn a (.stop i) { a with stops := a.stops ++ [{ client := i }] } []
  | presses {n : Nat} {s : Stop} {c : Client} {ch : Channel} {handle : Bool} {stage : StopStage}
      (there : a.stops[n]? = some s) (found : a.clients[s.client]? = some c)
      (pressed : Press c.channel c.joinable s.stage ch handle stage) :
      Turn a (.stopping n)
        { a.setClient s.client { c with channel := ch, joinable := handle } with
          stops := a.stops.set n { s with stage } }
        []
  | closes : Turn a .shutdown { a with shutdowns := a.shutdowns ++ [{}] } []
  | drains {n : Nat} {slots : List Nat} (there : a.shutdowns[n]? = some ⟨.draining⟩)
      (taken : slots.Perm (a.identities.map Prod.snd)) :
      Turn a (.draining n slots)
        (Agent.setShutdown { a with identities := [] } n (.stopping slots .asking)) []
  | skips {n slot : Nat} {rest : List Nat} {stage : StopStage}
      (there : a.shutdowns[n]? = some ⟨.stopping (slot :: rest) stage⟩)
      (empty : ∀ i, a.slots[slot]? ≠ some (.filled i)) :
      Turn a (.shutting n) (a.setShutdown n (.stopping rest .asking)) []
  | drives {n slot i : Nat} {rest : List Nat} {c : Client} {ch : Channel} {handle : Bool}
      {stage after : StopStage} (there : a.shutdowns[n]? = some ⟨.stopping (slot :: rest) stage⟩)
      (full : a.slots[slot]? = some (.filled i)) (found : a.clients[i]? = some c)
      (pressed : Press c.channel c.joinable stage ch handle after) :
      Turn a (.shutting n)
        ((a.setClient i { c with channel := ch, joinable := handle }).setShutdown n
          (.stopping (slot :: rest) after))
        []
  | passes {n slot i : Nat} {rest : List Nat}
      (there : a.shutdowns[n]? = some ⟨.stopping (slot :: rest) .ended⟩)
      (full : a.slots[slot]? = some (.filled i)) :
      Turn a (.shutting n) (a.setShutdown n (.stopping rest .asking)) []
  | finishes {n : Nat} {stage : StopStage} (there : a.shutdowns[n]? = some ⟨.stopping [] stage⟩) :
      Turn a (.shutting n) (a.setShutdown n .ended) []
  | drops {i : Nat} {c : Client} (found : a.clients[i]? = some c) :
      Turn a (.drop i) (a.setClient i { c with channel := c.channel.requestStop }) []

def Action.manages : Action → Bool
  | .connect _ | .connecting _ | .connected _ _ | .abandon _ | .stop _ | .stopping _ | .shutdown
  | .draining _ _ | .shutting _ | .drop _ => true
  | _ => false

variable {a b : Agent} {n : Nat} {es : List Event}

theorem connectingTurn (next : a.stepConnecting n = some (b, es)) : Turn a (.connecting n) b es := by
  obtain ⟨c, there, rest⟩ := Option.bind_eq_some_iff.mp next
  split at rest
  · rename_i here
    cases Option.some.inj rest
    unfold locate
    split
    · exact .finds there here ‹_›
    · exact .enters there here ‹_›
  · rename_i s here
    obtain ⟨slot, found, last⟩ := Option.bind_eq_some_iff.mp rest
    cases slot with
    | filling => contradiction
    | vacant =>
      cases Option.some.inj last
      exact .begins there here found
    | filled i =>
      cases Option.some.inj last
      exact .shares there here found
  · contradiction

theorem connectedTurn {r : Except AgentError Unit} (next : a.stepConnected n r = some (b, es)) :
    Turn a (.connected n r) b es := by
  obtain ⟨c, there, rest⟩ := Option.bind_eq_some_iff.mp next
  dsimp only at rest
  split at rest
  · cases Option.some.inj rest
    exact .succeeds there ‹_›
  · cases Option.some.inj rest
    exact .fails _ there ‹_›
  · contradiction

theorem abandonTurn (next : a.stepAbandon n = some (b, es)) : Turn a (.abandon n) b es := by
  obtain ⟨c, there, rest⟩ := Option.bind_eq_some_iff.mp next
  split at rest
  · contradiction
  · contradiction
  · cases Option.some.inj rest
    exact .quits there ‹_›
  · cases Option.some.inj rest
    refine .forgets there ?_
    cases here : c.stage with
    | locating => exact .inl rfl
    | queued s => exact .inr ⟨s, rfl⟩
    | connecting s => exact absurd here (‹∀ s, c.stage = .connecting s → False› s)
    | ended r => exact absurd here (‹∀ r, c.stage = .ended r → False› r)
    | abandoned => contradiction

theorem stoppingTurn (next : a.stepStopping n = some (b, es)) : Turn a (.stopping n) b es := by
  obtain ⟨s, there, rest⟩ := Option.bind_eq_some_iff.mp next
  obtain ⟨⟨d, stage⟩, stopped, last⟩ := Option.bind_eq_some_iff.mp rest
  obtain ⟨c, found, rest⟩ := Option.bind_eq_some_iff.mp stopped
  obtain ⟨⟨ch, handle, reached⟩, pressed, same⟩ := Option.bind_eq_some_iff.mp rest
  cases Option.some.inj same
  cases Option.some.inj last
  exact .presses there found (stopStepPress pressed)

theorem drainingTurn {slots : List Nat} (next : a.stepDraining n slots = some (b, es)) :
    Turn a (.draining n slots) b es := by
  obtain ⟨⟨stage⟩, there, rest⟩ := Option.bind_eq_some_iff.mp next
  split at rest
  · rename_i here
    obtain ⟨rfl, taken⟩ := here
    cases Option.some.inj rest
    exact .drains there taken
  · contradiction

theorem shuttingTurn (next : a.stepShutting n = some (b, es)) : Turn a (.shutting n) b es := by
  obtain ⟨⟨stage⟩, there, rest⟩ := Option.bind_eq_some_iff.mp next
  cases stage with
  | draining | ended => contradiction
  | stopping slots stage =>
    cases slots with
    | nil =>
      cases Option.some.inj rest
      exact .finishes there
    | cons slot later =>
      obtain ⟨⟨d, after⟩, ok, last⟩ := Option.bind_eq_some_iff.mp rest
      cases Option.some.inj last
      unfold stopSlot at ok
      split at ok
      · cases Option.some.inj ok
        exact .passes there ‹_›
      · obtain ⟨⟨d', reached⟩, stopped, same⟩ := Option.map_eq_some_iff.mp ok
        cases same
        obtain ⟨c, found, rest⟩ := Option.bind_eq_some_iff.mp stopped
        obtain ⟨⟨ch, handle, reached⟩, pressed, same⟩ := Option.bind_eq_some_iff.mp rest
        cases Option.some.inj same
        exact .drives there ‹_› found (stopStepPress pressed)
      · rename_i empty _
        cases Option.some.inj ok
        exact .skips there empty

theorem dropTurn {i : Nat} (next : a.stepDrop i = some (b, es)) : Turn a (.drop i) b es := by
  obtain ⟨c, found, rest⟩ := Option.bind_eq_some_iff.mp next
  split at rest
  · contradiction
  · cases Option.some.inj rest
    exact .drops found

theorem stepTurn {x : Action} (next : a.step x = some (b, es)) (manages : x.manages = true) :
    Turn a x b es := by
  cases x with
  | connect i =>
    cases Option.some.inj next
    exact .calls i
  | stop i =>
    cases Option.some.inj next
    exact .bids i
  | shutdown =>
    cases Option.some.inj next
    exact .closes
  | connecting n => exact connectingTurn next
  | connected n r => exact connectedTurn next
  | abandon n => exact abandonTurn next
  | stopping n => exact stoppingTurn next
  | draining n slots => exact drainingTurn next
  | shutting n => exact shuttingTurn next
  | drop i => exact dropTurn next
  | ask | release | channel | storage | outside | call => contradiction

end Agent
end FirewallAgent

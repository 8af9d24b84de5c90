import FirewallAgent.Proofs.Agent.Registry
import FirewallAgent.Proofs.Decision

/-! What one action can change. Cache and tokens change through the channels alone, the files and the
handle through the store work that channels wait for, and a channel changes the token of its own
client. -/
namespace FirewallAgent.Agent

variable {a b : Agent} {i n : Nat} {es : List Event}

def Can (a : Agent) (x : Action) : Prop := ∃ b es, a.step x = some (b, es)

structure Driven (i : Nat) (a b : Agent) : Prop where
  tree : b.tree = a.tree
  store : b.store = a.store
  calls : b.calls = a.calls
  entries : ∀ e ∈ b.cache.entries, e ∈ a.cache.entries
  others : ∀ j : Nat, j ≠ i → b.clients[j]? = a.clients[j]?

theorem Driven.trans {c : Agent} (first : Driven i a b) (second : Driven i b c) : Driven i a c :=
  ⟨second.tree.trans first.tree, second.store.trans first.store, second.calls.trans first.calls,
    fun e there => first.entries e (second.entries e there),
    fun j other => (second.others j other).trans (first.others j other)⟩

theorem absorbDriven (i : Nat) (a : Agent) (e : Channel.Effect) : Driven i a (absorb i a e) := by
  cases e with
  | token t =>
    refine ⟨rfl, rfl, rfl, fun _ there => there, ?_⟩
    intro j other
    have apart : ¬ i = j := fun same => other same.symm
    simp [absorb, apart]
  | purged =>
    refine ⟨rfl, rfl, rfl, ?_, fun _ _ => rfl⟩
    intro e there
    simp [absorb, DecisionCache.purge] at there
  | enabled on => exact ⟨rfl, rfl, rfl, fun _ there => there, fun _ _ => rfl⟩
  | state | dialed | sent | counted | rested =>
    exact ⟨rfl, rfl, rfl, fun _ there => there, fun _ _ => rfl⟩

theorem absorbedDriven (effects : List Channel.Effect) : Driven i a (effects.foldl (absorb i) a) := by
  induction effects generalizing a with
  | nil => exact ⟨rfl, rfl, rfl, fun _ there => there, fun _ _ => rfl⟩
  | cons e rest ih => exact (absorbDriven i a e).trans ih

theorem setClientDriven (c : Client) : Driven i a (a.setClient i c) := by
  refine ⟨rfl, rfl, rfl, fun _ there => there, ?_⟩
  intro j other
  have apart : ¬ i = j := fun same => other same.symm
  simp [setClient, apart]

def gateAfter (t : String) : Channel.Effect → String
  | .token u => u
  | _ => t

theorem absorbedClient {c : Client} (effects : List Channel.Effect)
    (found : a.clients[i]? = some c) : (effects.foldl (absorb i) a).clients[i]? =
      some { c with token := effects.foldl gateAfter c.token } := by
  induction effects generalizing a c with
  | nil => exact found
  | cons e rest ih =>
    cases e with
    | token t =>
      have there : (absorb i a (.token t)).clients[i]? = some { c with token := t } := by
        simp [absorb, found]
      exact ih there
    | purged | enabled | state | dialed | sent | counted | rested => exact ih found

theorem channelStep {input : Channel.Input} (next : a.stepChannel i input = some (b, es)) :
    ∃ c ch effects, a.clients[i]? = some c ∧ c.channel.step c.settings input = some (ch, effects) ∧
      es = effects.map (.channel i) ∧
      b = effects.foldl (absorb i) (a.setClient i { c with channel := ch }) := by
  obtain ⟨c, found, rest⟩ := Option.bind_eq_some_iff.mp next
  obtain ⟨⟨ch, effects⟩, moved, last⟩ := Option.bind_eq_some_iff.mp rest
  cases Option.some.inj last
  exact ⟨c, ch, effects, found, moved, rfl, rfl⟩

def touches : Channel.Effect → Bool
  | .token _ | .purged | .enabled _ => true
  | _ => false

theorem absorbedUntouched {effects : List Channel.Effect}
    (untouched : ∀ e ∈ effects, touches e = false) : effects.foldl (absorb i) a = a := by
  induction effects with
  | nil => rfl
  | cons e rest ih =>
    have later := ih fun x there => untouched x (List.mem_cons_of_mem e there)
    have now := untouched e List.mem_cons_self
    cases e with
    | token | purged | enabled => contradiction
    | state | dialed | sent | counted | rested => exact later

theorem channelOwn {input : Channel.Input} (next : a.stepChannel i input = some (b, es)) :
    ∃ c d effects, a.clients[i]? = some c ∧
      c.channel.step c.settings input = some (d, effects) ∧ effectsOf i es = effects ∧
      b.clients[i]? = some { c with channel := d, token := effects.foldl gateAfter c.token } ∧
      ((∀ e ∈ effects, touches e = false) → b = a.setClient i { c with channel := d }) := by
  obtain ⟨c, d, effects, found, moved, rfl, rfl⟩ := channelStep next
  have inside : i < a.clients.length := (List.getElem?_eq_some_iff.mp found).1
  have there : (a.setClient i { c with channel := d }).clients[i]? = some { c with channel := d } := by
    simp [setClient, inside]
  exact ⟨c, d, effects, found, moved, ownEffects i effects, absorbedClient effects there,
    absorbedUntouched⟩

structure Moment.Untouched (m : Moment) : Prop where
  tree : m.after.tree = m.before.tree
  store : m.after.store = m.before.store
  cache : m.after.cache = m.before.cache
  tokens : ∀ j : Nat, (m.after.clients[j]?).map Client.token = (m.before.clients[j]?).map Client.token

theorem untouchedSet {c : Client} {x : Action} (d : Channel) (found : a.clients[i]? = some c) :
    Moment.Untouched ⟨a, x, a.setClient i { c with channel := d }, es⟩ := by
  refine ⟨rfl, rfl, rfl, ?_⟩
  intro j
  by_cases same : i = j
  · subst same
    have inside : i < a.clients.length := (List.getElem?_eq_some_iff.mp found).1
    rw [found]
    simp [setClient, inside]
  · simp [setClient, same]

theorem setClientSame {c : Client} (found : a.clients[i]? = some c) : a.setClient i c = a := by
  obtain ⟨inside, same⟩ := List.getElem?_eq_some_iff.mp found
  cases a
  simp only [setClient] at same ⊢
  rw [← same, List.set_getElem_self]

theorem channelDriven {input : Channel.Input} (next : a.stepChannel i input = some (b, es)) :
    Driven i a b := by
  obtain ⟨c, ch, effects, _, _, _, rfl⟩ := channelStep next
  exact (setClientDriven _).trans (absorbedDriven effects)

theorem storageStep {turns : List Store.Turn} (next : a.stepStorage i turns = some (b, es)) :
    ∃ c tree store news, a.clients[i]? = some c ∧
      storeWork a.tree a.store c.settings.code turns c.channel.phase = some (tree, store, news) ∧
      { a with tree, store }.stepChannel i news = some (b, es) := by
  obtain ⟨c, found, rest⟩ := Option.bind_eq_some_iff.mp next
  obtain ⟨⟨tree, store, news⟩, worked, last⟩ := Option.bind_eq_some_iff.mp rest
  exact ⟨c, tree, store, news, found, worked, last⟩

theorem callStep {input : Decision.Input} (next : a.stepCall n input = some (b, es)) :
    ∃ call c reached, a.calls[n]? = some call ∧ a.clients[call.client]? = some c ∧
      Decision.Goes (a.view c) call.subject call.stage input reached ∧
      b = { a with calls := a.calls.set n { call with stage := reached.stage }, cache := reached.cache } ∧
      es = reached.effects.map (.call n) := by
  obtain ⟨call, found, rest⟩ := Option.bind_eq_some_iff.mp next
  obtain ⟨c, client, rest⟩ := Option.bind_eq_some_iff.mp rest
  obtain ⟨reached, moved, last⟩ := Option.bind_eq_some_iff.mp rest
  cases Option.some.inj last
  exact ⟨call, c, reached, found, client, Decision.stepGoes moved, rfl, rfl⟩

theorem storeWorks {t u : FileTree} {h k : Store.Handle} {code : String}
    {turns : List Store.Turn} {p : Channel.Phase} {news : Channel.Input}
    (worked : storeWork t h code turns p = some (u, k, news)) :
    (∃ x r, p = .persisting x ∧ news = .persisted r ∧
      Store.saveCredential t h code x turns = (u, k, r)) ∨
    (∃ r, p = .reloading ∧ news = .reloaded r ∧ Store.reload t h turns = (u, k, r)) ∨
    (p = .loading ∧ news = .loaded (Store.loadCredential h code) ∧ u = t ∧ k = h) ∨
    (∃ r, p = .wiping ∧ news = .wiped r ∧ Store.clear t h turns = (u, k, r)) := by
  unfold storeWork at worked
  split at worked
  · rename_i x
    obtain ⟨rfl, rest⟩ := Prod.mk.inj (Option.some.inj worked)
    obtain ⟨rfl, rfl⟩ := Prod.mk.inj rest
    exact .inl ⟨x, _, rfl, rfl, rfl⟩
  · obtain ⟨rfl, rest⟩ := Prod.mk.inj (Option.some.inj worked)
    obtain ⟨rfl, rfl⟩ := Prod.mk.inj rest
    exact .inr (.inl ⟨_, rfl, rfl, rfl⟩)
  · cases Option.some.inj worked
    exact .inr (.inr (.inl ⟨rfl, rfl, rfl, rfl⟩))
  · obtain ⟨rfl, rest⟩ := Prod.mk.inj (Option.some.inj worked)
    obtain ⟨rfl, rfl⟩ := Prod.mk.inj rest
    exact .inr (.inr (.inr ⟨_, rfl, rfl, rfl⟩))
  · contradiction

inductive Shape (a : Agent) : Action → Agent → List Event → Prop where
  | asked (i : Nat) (s : Decision.Subject) :
      Shape a (.ask i s) { a with calls := a.calls ++ [{ client := i, subject := s }] } []
  | called {n : Nat} {input : Decision.Input} {b : Agent} {es : List Event}
      (next : a.stepCall n input = some (b, es)) : Shape a (.call n input) b es
  | driven {i : Nat} {input : Channel.Input} {b : Agent} {es : List Event}
      (outer : input.source ≠ .store) (next : a.stepChannel i input = some (b, es)) : Shape a (.channel i input) b es
  | stored {i : Nat} {turns : List Store.Turn} {b : Agent} {es : List Event}
      (next : a.stepStorage i turns = some (b, es)) : Shape a (.storage i turns) b es
  | outside (t : FileTree) : Shape a (.outside t) { a with tree := t } []
  | aside {x : Action} {b : Agent} {es : List Event} (other : x.task? = none)
      (same : Aside Client.Alike a b) (mute : Mute es) : Shape a x b es
  | asks {x : Action} {b : Agent} {es : List Event} (other : x.task? = none)
      (asks : x.asksStop = true) (same : Aside Client.Asked a b) (mute : Mute es) : Shape a x b es

theorem stepShape {x : Action} (next : a.step x = some (b, es)) : Shape a x b es := by
  cases x with
  | ask i s =>
    cases Option.some.inj next
    exact .asked i s
  | release i =>
    cases Option.some.inj next
    exact .aside rfl releaseAside .nil
  | channel i input =>
    simp only [step] at next
    split at next
    · contradiction
    · rename_i outer
      exact .driven outer next
  | storage i turns => exact .stored next
  | outside t =>
    cases Option.some.inj next
    exact .outside t
  | call n input => exact .called next
  | connect | stop | shutdown | connecting | connected | abandon | draining =>
    have turn := stepTurn next rfl
    exact .aside rfl (turnAlike turn rfl) (turnMute turn)
  | stopping | shutting | drop =>
    have turn := stepTurn next rfl
    exact .asks rfl rfl (turnAsked turn rfl) (turnMute turn)

theorem ownStep {x : Action} (next : a.step x = some (b, es)) (own : x.task? = some i) :
    (∃ input, x = .channel i input ∧ input.source ≠ .store ∧
      a.stepChannel i input = some (b, es)) ∨
    ∃ turns c tree store news, x = .storage i turns ∧ a.clients[i]? = some c ∧
      storeWork a.tree a.store c.settings.code turns c.channel.phase = some (tree, store, news) ∧
      { a with tree, store }.stepChannel i news = some (b, es) := by
  cases stepShape next with
  | driven outer moved =>
    cases Option.some.inj own
    exact .inl ⟨_, rfl, outer, moved⟩
  | stored moved =>
    cases Option.some.inj own
    obtain ⟨c, tree, store, news, found, worked, moved⟩ := storageStep moved
    exact .inr ⟨_, c, tree, store, news, rfl, found, worked, moved⟩
  | asked | called | outside => contradiction
  | aside other | asks other => exact absurd (other.symm.trans own) nofun

theorem storeNews {t u : FileTree} {h k : Store.Handle} {code : String}
    {turns : List Store.Turn} {p : Channel.Phase} {news : Channel.Input}
    (worked : storeWork t h code turns p = some (u, k, news)) : news.source = .store := by
  rcases storeWorks worked with ⟨_, _, _, rfl, _⟩ | ⟨_, _, rfl, _⟩ | ⟨_, rfl, _⟩ | ⟨_, _, rfl, _⟩
  all_goals rfl

theorem ownChannel {x : Action} (next : a.step x = some (b, es)) (own : x.task? = some i) :
    ∃ c input d, a.clients[i]? = some c ∧
      c.channel.step c.settings input = some (d, effectsOf i es) ∧
      b.clients[i]? =
        some { c with channel := d, token := (effectsOf i es).foldl gateAfter c.token } ∧
      (x = .channel i input ∨ (input.source = .store ∧ ∃ turns, x = .storage i turns)) := by
  rcases ownStep next own with ⟨input, same, _, moved⟩ |
    ⟨turns, _, _, _, news, same, _, worked, moved⟩
  · obtain ⟨c, d, _, found, stepped, rfl, after, _⟩ := channelOwn moved
    exact ⟨c, input, d, found, stepped, after, .inl same⟩
  · obtain ⟨c, d, _, found, stepped, rfl, after, _⟩ := channelOwn moved
    exact ⟨c, news, d, found, stepped, after, .inr ⟨storeNews worked, turns, same⟩⟩

theorem channelAction {input : Channel.Input} (next : a.step (.channel i input) = some (b, es)) :
    a.stepChannel i input = some (b, es) := by
  simp only [step] at next
  split at next
  · contradiction
  · exact next

theorem stepElsewhere {x : Action} (next : a.step x = some (b, es)) (other : x.task? ≠ some i) :
    effectsOf i es = [] ∧ ∀ c, a.clients[i]? = some c →
      ∃ d, b.clients[i]? = some d ∧ c.Asked d ∧ (x.asksStop = false → c.Alike d) := by
  have driven : ∀ {j : Nat} {t : FileTree} {k : Store.Handle} {input : Channel.Input}, i ≠ j →
      { a with tree := t, store := k }.stepChannel j input = some (b, es) →
      effectsOf i es = [] ∧ ∀ c, a.clients[i]? = some c →
        ∃ d, b.clients[i]? = some d ∧ c.Asked d ∧ (x.asksStop = false → c.Alike d) := by
    intro j t k input apart moved
    obtain ⟨_, _, effects, _, _, rfl, _⟩ := channelStep moved
    refine ⟨othersEffects apart.symm effects, ?_⟩
    intro c found
    exact ⟨c, ((channelDriven moved).others i apart).trans found, .refl c, fun _ => .refl c⟩
  cases stepShape next with
  | asked | outside => exact ⟨rfl, fun c found => ⟨c, found, .refl c, fun _ => .refl c⟩⟩
  | called moved =>
    obtain ⟨_, _, reached, _, _, _, rfl, rfl⟩ := callStep moved
    refine ⟨?_, fun c found => ⟨c, found, .refl c, fun _ => .refl c⟩⟩
    simp [effectsOf, List.filterMap_map, Function.comp_def, Event.effect?]
  | driven outer moved => exact driven (fun same => other (same ▸ rfl)) moved
  | stored moved =>
    obtain ⟨_, _, _, _, _, _, moved⟩ := storageStep moved
    exact driven (fun same => other (same ▸ rfl)) moved
  | aside _ same mute =>
    refine ⟨mute.tasks i, ?_⟩
    intro c found
    obtain ⟨d, there, alike⟩ := same.clients i c found
    exact ⟨d, there, alike.asked, fun _ => alike⟩
  | asks _ asks same mute =>
    refine ⟨mute.tasks i, ?_⟩
    intro c found
    obtain ⟨d, there, asked⟩ := same.clients i c found
    exact ⟨d, there, asked, fun calm => absurd (asks.symm.trans calm) (by simp)⟩

theorem tokenStep {x : Action} {c : Client} (next : a.step x = some (b, es))
    (found : a.clients[i]? = some c) : ∃ d, b.clients[i]? = some d ∧
      d.token = (effectsOf i es).foldl gateAfter c.token := by
  by_cases own : x.task? = some i
  · obtain ⟨c', _, _, found', _, after, _⟩ := ownChannel next own
    cases Option.some.inj (found.symm.trans found')
    exact ⟨_, after, rfl⟩
  · obtain ⟨mute, others⟩ := stepElsewhere next own
    obtain ⟨d, after, asked, _⟩ := others c found
    exact ⟨d, after, by rw [mute, asked.token]; rfl⟩

theorem newcomerFresh {x : Action} {d : Client} (next : a.step x = some (b, es))
    (absent : a.clients[i]? = none) (there : b.clients[i]? = some d) : d.Fresh := by
  have driven : ∀ {j : Nat} {t : FileTree} {k : Store.Handle} {input : Channel.Input},
      { a with tree := t, store := k }.stepChannel j input = some (b, es) → d.Fresh := by
    intro j t k input moved
    by_cases same : i = j
    · subst same
      obtain ⟨_, _, _, found, _⟩ := channelOwn moved
      exact absurd (absent.symm.trans found) nofun
    · have kept := (channelDriven moved).others i same
      exact absurd (absent.symm.trans (kept.symm.trans there)) nofun
  cases stepShape next with
  | asked | outside => exact absurd (absent.symm.trans there) nofun
  | called moved =>
    obtain ⟨_, _, _, _, _, _, rfl, _⟩ := callStep moved
    exact absurd (absent.symm.trans there) nofun
  | driven outer moved => exact driven moved
  | stored moved =>
    obtain ⟨_, _, _, _, _, _, moved⟩ := storageStep moved
    exact driven moved
  | aside _ same | asks _ _ same => exact same.newcomers i d absent there

theorem identityStep {x : Action} {c : Client} (next : a.step x = some (b, es))
    (found : a.clients[i]? = some c) : ∃ d, b.clients[i]? = some d ∧ d.identity = c.identity := by
  by_cases own : x.task? = some i
  · obtain ⟨c', _, _, found', _, after, _⟩ := ownChannel next own
    cases Option.some.inj (found.symm.trans found')
    exact ⟨_, after, rfl⟩
  · obtain ⟨d, after, asked, _⟩ := (stepElsewhere next own).2 c found
    exact ⟨d, after, asked.identity⟩

theorem callsStep {x : Action} {call : Call} (next : a.step x = some (b, es))
    (there : b.calls[n]? = some call) :
    a.calls[n]? = some call ∨ call.stage = .entering ∨ ∃ input, x = .call n input := by
  cases stepShape next with
  | asked i s =>
    by_cases old : n < a.calls.length
    · exact .inl ((List.getElem?_append_left old).symm.trans there)
    · have new : call ∈ [({ client := i, subject := s } : Call)] :=
        List.mem_of_getElem? ((List.getElem?_append_right (Nat.le_of_not_lt old)).symm.trans there)
      cases List.mem_singleton.mp new
      exact .inr (.inl rfl)
  | @called k input _ _ moved =>
    obtain ⟨_, _, _, _, _, _, rfl, _⟩ := callStep moved
    by_cases same : k = n
    · exact .inr (.inr ⟨input, same ▸ rfl⟩)
    · exact .inl (by simpa [same] using there)
  | driven outer moved => exact .inl ((channelDriven moved).calls ▸ there)
  | stored moved =>
    obtain ⟨_, _, _, _, _, _, moved⟩ := storageStep moved
    have calls : b.calls = a.calls := (channelDriven moved).calls
    exact .inl (calls ▸ there)
  | outside => exact .inl there
  | aside _ same | asks _ _ same => exact .inl (same.calls ▸ there)

theorem callOwn {input : Decision.Input} {call : Call} (next : a.stepCall n input = some (b, es))
    (there : b.calls[n]? = some call) : ∃ old c reached, a.calls[n]? = some old ∧
      a.clients[old.client]? = some c ∧ b.clients = a.clients ∧
      Decision.Goes (a.view c) old.subject old.stage input reached ∧
      call = { old with stage := reached.stage } ∧ b.cache = reached.cache ∧
      es = reached.effects.map (.call n) := by
  obtain ⟨old, c, reached, found, client, goes, rfl, rfl⟩ := callStep next
  have inside : n < a.calls.length := (List.getElem?_eq_some_iff.mp found).1
  have same : { old with stage := reached.stage } = call := by simpa [inside] using there
  exact ⟨old, c, reached, found, client, rfl, goes, same.symm, rfl, rfl⟩

theorem callShows {x : Action} {e : Decision.Effect} (next : a.step x = some (b, es))
    (shown : Event.call n e ∈ es) : ∃ input, x = .call n input ∧ a.stepCall n input = some (b, es) := by
  have others : ∀ {j : Nat} {t : FileTree} {k : Store.Handle} {input : Channel.Input},
      { a with tree := t, store := k }.stepChannel j input ≠ some (b, es) := by
    intro j t k input moved
    obtain ⟨_, _, _, _, _, rfl, _⟩ := channelStep moved
    simp at shown
  cases stepShape next with
  | asked | outside => contradiction
  | @called k input _ _ moved =>
    obtain ⟨_, _, _, _, _, _, _, rfl⟩ := callStep moved
    obtain ⟨_, _, same⟩ := List.mem_map.mp shown
    obtain ⟨rfl, _⟩ : k = n ∧ _ := Event.call.inj same
    exact ⟨input, rfl, moved⟩
  | driven outer moved => exact absurd moved others
  | stored moved =>
    obtain ⟨_, _, _, _, _, _, moved⟩ := storageStep moved
    exact absurd moved others
  | aside _ _ mute | asks _ _ _ mute => exact absurd shown (mute.calls n e)

def Moment.asks (m : Moment) (n : Nat) (y : Decision.Message) : Prop := Event.call n (.asked y) ∈ m.events

def asked? : Decision.Effect → Option Decision.Message
  | .asked y => some y
  | _ => none

def Event.ofCall? (n : Nat) : Event → Option Decision.Effect
  | .call k e => if k = n then some e else none
  | _ => none

def Moment.messages (m : Moment) (n : Nat) : List Decision.Message :=
  (m.events.filterMap (Event.ofCall? n)).filterMap asked?

theorem messagesOf (m : Moment) {effects : List Decision.Effect} (shown : m.events = effects.map (.call n)) :
    m.messages n = effects.filterMap asked? := by
  have own : (effects.map (Event.call n)).filterMap (Event.ofCall? n) = effects := by
    simp [List.filterMap_map, Function.comp_def, Event.ofCall?]
  rw [Moment.messages, shown, own]

theorem messagesAsks {m : Moment} {y : Decision.Message} (there : y ∈ m.messages n) : m.asks n y := by
  obtain ⟨effect, shown, same⟩ := List.mem_filterMap.mp there
  obtain ⟨event, listed, own⟩ := List.mem_filterMap.mp shown
  cases effect with
  | waited | counted => contradiction
  | asked z =>
    cases Option.some.inj same
    cases event with
    | channel | connecting | started => contradiction
    | call k e =>
      simp only [Event.ofCall?] at own
      split at own
      · rename_i one
        cases Option.some.inj own
        exact one ▸ listed
      · contradiction

theorem asksStage {x : Action} {y : Decision.Message} (next : a.step x = some (b, es))
    (asked : Moment.asks ⟨a, x, b, es⟩ n y) :
    x = .call n .proceed ∧ ∃ call, a.calls[n]? = some call ∧ call.stage = .asking y := by
  obtain ⟨input, rfl, moved⟩ := callShows next asked
  obtain ⟨⟨i, s, stage⟩, c, reached, found, _, goes, rfl, rfl⟩ := callStep moved
  have shown : Decision.Effect.asked y ∈ reached.effects := by simpa [Moment.asks] using asked
  cases goes with
  | asks z =>
    cases List.mem_singleton.mp shown
    exact ⟨rfl, _, found, rfl⟩
  | _ => simp at shown

theorem Run.split {xs ys : List Moment} (run : Run a (xs ++ ys) b) :
    ∃ c, Run a xs c ∧ Run c ys b := by
  induction xs generalizing a with
  | nil => exact ⟨a, .rest, run⟩
  | cons m rest ih =>
    cases run with
    | step next later =>
      obtain ⟨c, first, last⟩ := ih later
      exact ⟨c, .step next first, last⟩

theorem Run.keeps {P : List Moment → Agent → Prop} {past ms : List Moment}
    (keep : ∀ {past a x b es}, P past a → a.step x = some (b, es) → P (past ++ [⟨a, x, b, es⟩]) b)
    (start : P past a) (run : Run a ms b) : P (past ++ ms) b := by
  induction run generalizing past with
  | rest => simpa using start
  | step next run ih => simpa using ih (keep start next)

theorem Run.holds {P : List Moment → Agent → Prop} {log : List Moment}
    (keep : ∀ {past a x b es}, P past a → a.step x = some (b, es) → P (past ++ [⟨a, x, b, es⟩]) b)
    (start : P [] a) (run : Run a log b) : P log b :=
  run.keeps keep start

theorem seenLater {P : Moment → Prop} {past : List Moment} {m : Moment} (seen : ∃ k ∈ past, P k) :
    ∃ k ∈ past ++ [m], P k := by
  obtain ⟨k, there, holds⟩ := seen
  exact ⟨k, List.mem_append_left _ there, holds⟩

theorem seenNow {P : Moment → Prop} {past : List Moment} {m : Moment} (now : P m) :
    ∃ k ∈ past ++ [m], P k := ⟨m, List.mem_append_right _ List.mem_cons_self, now⟩

theorem Run.append {c : Agent} {xs ys : List Moment} (first : Run a xs b) (second : Run b ys c) :
    Run a (xs ++ ys) c := by
  induction first with
  | rest => exact second
  | step next _ ih => exact .step next (ih second)

theorem Run.around {xs ys : List Moment} {m : Moment} (run : Run a (xs ++ m :: ys) b) :
    Run a xs m.before ∧ m.before.step m.action = some (m.after, m.events) ∧ Run m.after ys b := by
  obtain ⟨c, first, last⟩ := run.split
  cases last with
  | step next later => exact ⟨first, next, later⟩

theorem playRun {script : List Action} {ms : List Moment}
    (played : a.play script = some (ms, b)) : Run a ms b := by
  induction script generalizing a ms with
  | nil =>
    cases Option.some.inj played
    exact .rest
  | cons x rest ih =>
    simp only [play, bind, Option.bind_eq_some_iff] at played
    obtain ⟨⟨c, es⟩, next, ⟨later, d⟩, tail, last⟩ := played
    cases Option.some.inj last
    exact .step next (ih tail)

theorem playActions {script : List Action} {ms : List Moment}
    (played : a.play script = some (ms, b)) : ms.map Moment.action = script := by
  induction script generalizing a ms with
  | nil =>
    cases Option.some.inj played
    rfl
  | cons x rest ih =>
    simp only [play, bind, Option.bind_eq_some_iff] at played
    obtain ⟨⟨c, es⟩, _, ⟨later, d⟩, tail, last⟩ := played
    cases Option.some.inj last
    exact congrArg (x :: ·) (ih tail)

end FirewallAgent.Agent

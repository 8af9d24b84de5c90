import FirewallAgent.Proofs.Agent.Turn

/-! What the registry leaves alone. Its steps add clients and ask channels to stop. Store, cache and
tokens are not theirs to change, and a task that is asked to stop stays where it is. -/
namespace FirewallAgent

structure Client.Alike (c d : Client) : Prop where
  identity : d.identity = c.identity
  settings : d.settings = c.settings
  token : d.token = c.token
  channel : d.channel = c.channel

structure Client.Asked (c d : Client) : Prop where
  identity : d.identity = c.identity
  settings : d.settings = c.settings
  token : d.token = c.token
  phase : d.channel.phase = c.channel.phase
  state : d.channel.state = c.channel.state

structure Client.Fresh (c : Client) : Prop where
  token : c.token = ""
  channel : c.channel = {}

theorem Client.Alike.refl (c : Client) : c.Alike c := ⟨rfl, rfl, rfl, rfl⟩

theorem Client.Asked.refl (c : Client) : c.Asked c := ⟨rfl, rfl, rfl, rfl, rfl⟩

theorem Client.Alike.asked {c d : Client} (h : c.Alike d) : c.Asked d :=
  ⟨h.identity, h.settings, h.token, congrArg Channel.phase h.channel,
    congrArg Channel.state h.channel⟩

namespace Agent
open Registry

variable {a b : Agent} {i n : Nat} {es : List Event}

def Event.effect? (i : Nat) : Event → Option Channel.Effect
  | .channel j e => if j = i then some e else none
  | _ => none

def effectsOf (i : Nat) (es : List Event) : List Channel.Effect := es.filterMap (Event.effect? i)

theorem ownEffects (i : Nat) (effects : List Channel.Effect) :
    effectsOf i (effects.map (.channel i)) = effects := by
  simp [effectsOf, List.filterMap_map, Function.comp_def, Event.effect?]

theorem othersEffects {i j : Nat} (other : j ≠ i) (effects : List Channel.Effect) :
    effectsOf i (effects.map (.channel j)) = [] := by
  simp [effectsOf, List.filterMap_map, Function.comp_def, Event.effect?, other]

def Action.task? : Action → Option Nat
  | .channel i _ | .storage i _ => some i
  | _ => none

structure Mute (es : List Event) : Prop where
  tasks : ∀ i, effectsOf i es = []
  calls : ∀ n e, Event.call n e ∉ es

theorem Mute.nil : Mute [] := ⟨fun _ => rfl, fun _ _ => List.not_mem_nil⟩

def Action.asksStop : Action → Bool
  | .stopping _ | .shutting _ | .drop _ => true
  | _ => false

structure Aside (like : Client → Client → Prop) (a b : Agent) : Prop where
  tree : b.tree = a.tree
  store : b.store = a.store
  cache : b.cache = a.cache
  calls : b.calls = a.calls
  clients : ∀ (i : Nat) (c : Client), a.clients[i]? = some c →
    ∃ d, b.clients[i]? = some d ∧ like c d
  newcomers : ∀ (i : Nat) (d : Client), a.clients[i]? = none → b.clients[i]? = some d → d.Fresh

theorem Aside.ofClients {like : Client → Client → Prop} (same : ∀ c, like c c)
    (tree : b.tree = a.tree) (store : b.store = a.store) (cache : b.cache = a.cache)
    (calls : b.calls = a.calls) (clients : b.clients = a.clients) : Aside like a b := by
  refine ⟨tree, store, cache, calls, fun _ c found => ⟨c, clients ▸ found, same c⟩, ?_⟩
  intro j d none found
  rw [clients, none] at found
  contradiction

theorem Aside.then {like : Client → Client → Prop} {c : Agent} (first : Aside like a b)
    (tree : c.tree = b.tree) (store : c.store = b.store) (cache : c.cache = b.cache)
    (calls : c.calls = b.calls) (clients : c.clients = b.clients) : Aside like a c :=
  ⟨tree.trans first.tree, store.trans first.store, cache.trans first.cache,
    calls.trans first.calls, fun i x found => clients ▸ first.clients i x found,
    fun i d none found => first.newcomers i d none (clients ▸ found)⟩

theorem setClientAside {c d : Client} (found : a.clients[i]? = some c) (asked : c.Asked d) :
    Aside Client.Asked a (a.setClient i d) := by
  refine ⟨rfl, rfl, rfl, rfl, ?_, ?_⟩
  · intro j x there
    by_cases same : i = j
    · subst same
      cases Option.some.inj (found.symm.trans there)
      have inside : i < a.clients.length := (List.getElem?_eq_some_iff.mp found).1
      exact ⟨d, by simp [setClient, inside], asked⟩
    · exact ⟨x, by simpa [setClient, same] using there, .refl x⟩
  · intro j x none there
    have past : a.clients.length ≤ j := List.getElem?_eq_none_iff.mp none
    have inside := (List.getElem?_eq_some_iff.mp there).1
    simp only [setClient, List.length_set] at inside
    omega

theorem appendAside {c : Client} (fresh : c.Fresh) :
    Aside Client.Alike a { a with clients := a.clients ++ [c] } := by
  refine ⟨rfl, rfl, rfl, rfl, ?_, ?_⟩
  · intro j x found
    have inside : j < a.clients.length := (List.getElem?_eq_some_iff.mp found).1
    exact ⟨x, (List.getElem?_append_left inside).trans found, .refl x⟩
  · intro j x none found
    have past : a.clients.length ≤ j := List.getElem?_eq_none_iff.mp none
    have new : x ∈ [c] :=
      List.mem_of_getElem? ((List.getElem?_append_right past).symm.trans found)
    cases List.mem_singleton.mp new
    exact fresh

theorem pressedAside {c : Client} {d : Channel} {handle : Bool} {stage after : StopStage}
    (found : a.clients[i]? = some c) (pressed : Press c.channel c.joinable stage d handle after) :
    Aside Client.Asked a (a.setClient i { c with channel := d, joinable := handle }) :=
  setClientAside found ⟨rfl, rfl, rfl, pressed.phase, pressed.state⟩

theorem turnAlike {x : Action} (turn : Turn a x b es) (calm : x.asksStop = false) :
    Aside Client.Alike a b := by
  cases turn with
  | calls | finds | enters | begins | shares | fails | quits | forgets | bids | closes | drains =>
    exact .ofClients .refl rfl rfl rfl rfl rfl
  | succeeds => exact (appendAside ⟨rfl, rfl⟩).then rfl rfl rfl rfl rfl
  | presses | skips | drives | passes | finishes | drops => contradiction

theorem turnAsked {x : Action} (turn : Turn a x b es) (asks : x.asksStop = true) :
    Aside Client.Asked a b := by
  cases turn with
  | presses _ found pressed | drives _ _ found pressed =>
    exact (pressedAside found pressed).then rfl rfl rfl rfl rfl
  | skips | passes | finishes => exact .ofClients .refl rfl rfl rfl rfl rfl
  | drops found => exact setClientAside found ⟨rfl, rfl, rfl, rfl, rfl⟩
  | calls | finds | enters | begins | shares | succeeds | fails | quits | forgets | bids | closes
  | drains => contradiction

theorem turnMute {x : Action} (turn : Turn a x b es) : Mute es := by
  cases turn with
  | begins | succeeds => exact ⟨fun _ => rfl, by simp⟩
  | _ => exact .nil

theorem releaseAside :
    Aside Client.Alike a { a with clients := a.clients.modify i fun c => { c with kept := false } } := by
  refine ⟨rfl, rfl, rfl, rfl, ?_, ?_⟩
  · intro j x found
    by_cases same : i = j
    · exact ⟨{ x with kept := false }, by simp [same, found], ⟨rfl, rfl, rfl, rfl⟩⟩
    · exact ⟨x, by simp [same, found], .refl x⟩
  · intro j x none found
    simp [List.getElem?_modify, none] at found

end Agent
end FirewallAgent

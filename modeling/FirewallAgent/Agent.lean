import FirewallAgent.Cache.Recency
import FirewallAgent.ConnectionKey
import FirewallAgent.Decision
import FirewallAgent.Registry
import FirewallAgent.Store.Session

/-!
All clients of one process, with the store and the decision cache that they share, and everything
that is in progress among them. An action is one step of one party; any order of actions is a run.
What waits for the world outside (a stream, a reply, the passing of time) goes on by actions that
bring the outcome.
-/
namespace FirewallAgent

structure Client where
  identity : Identity
  settings : Channel.Settings
  channel : Channel := {}
  token : String := ""
  joinable : Bool := true
  kept : Bool := true
  deriving DecidableEq

structure Agent where
  device : Device
  tree : FileTree
  store : Store.Handle
  cache : DecisionCache Fingerprint := {}
  connections : RecencyCache ConnectionKey ConnectionInfo := .ofCapacity 1024
  backoff : Span := .ofSeconds 5
  clients : List Client := []
  slots : List Registry.Slot := []
  /- The slots that new calls find. -/
  identities : List (Identity × Nat) := []
  calls : List Call := []
  connects : List Registry.Connect := []
  stops : List Registry.Stop := []
  shutdowns : List Registry.Shutdown := []

namespace Agent
open Registry

inductive Action where
  | ask (client : Nat) (s : Decision.Subject)
  | connect (i : Identity)
  | stop (client : Nat)
  | shutdown
  | release (client : Nat)
  | channel (client : Nat) (i : Channel.Input)
  /- The store does what a channel waits for, its file-system calls going as the turns say. -/
  | storage (client : Nat) (turns : List Store.Turn)
  | outside (t : FileTree)
  | call (n : Nat) (i : Decision.Input)
  | connecting (n : Nat)
  | connected (n : Nat) (r : Except AgentError Unit)
  | abandon (n : Nat)
  | stopping (n : Nat)
  /- The list of identities has no order of its own, so its slots are taken out in any. -/
  | draining (n : Nat) (slots : List Nat)
  | shutting (n : Nat)
  | drop (client : Nat)

inductive Event where
  | channel (client : Nat) (e : Channel.Effect)
  | call (n : Nat) (e : Decision.Effect)
  | connecting (n : Nat)
  | started (n client : Nat)

abbrev Next := Agent × List Event

def setClient (a : Agent) (i : Nat) (c : Client) : Agent := { a with clients := a.clients.set i c }

def absorb (i : Nat) (a : Agent) : Channel.Effect → Agent
  | .token t => { a with clients := a.clients.modify i fun c => { c with token := t } }
  | .purged => { a with cache := a.cache.purge }
  | .enabled on => { a with cache := a.cache.setEnabled on }
  | _ => a

def stepChannel (a : Agent) (i : Nat) (input : Channel.Input) : Option Next := do
  let c ← a.clients[i]?
  let (ch, effects) ← Channel.step c.settings c.channel input
  let a := a.setClient i { c with channel := ch }
  some (effects.foldl (absorb i) a, effects.map (.channel i))

def storeWork (tree : FileTree) (h : Store.Handle) (code : String) (turns : List Store.Turn) :
    Channel.Phase → Option (FileTree × Store.Handle × Channel.Input)
  | .persisting x =>
    let (t, h, r) := Store.saveCredential tree h code x turns
    some (t, h, .persisted r)
  | .reloading =>
    let (t, h, r) := Store.reload tree h turns
    some (t, h, .reloaded r)
  | .loading => some (tree, h, .loaded (Store.loadCredential h code))
  | .wiping =>
    let (t, h, r) := Store.clear tree h turns
    some (t, h, .wiped r)
  | _ => none

def stepStorage (a : Agent) (i : Nat) (turns : List Store.Turn) : Option Next := do
  let c ← a.clients[i]?
  let (tree, store, news) ← storeWork a.tree a.store c.settings.code turns c.channel.phase
  { a with tree, store }.stepChannel i news

def view (a : Agent) (c : Client) : Decision.View := ⟨c.channel, c.token, a.cache⟩

def stepCall (a : Agent) (n : Nat) (input : Decision.Input) : Option Next := do
  let call ← a.calls[n]?
  let c ← a.clients[call.client]?
  let next ← Decision.step (a.view c) call.subject call.stage input
  some ({ a with calls := a.calls.set n { call with stage := next.stage }, cache := next.cache },
    next.effects.map (.call n))

def setConnect (a : Agent) (n : Nat) (c : Connect) : Agent :=
  { a with connects := a.connects.set n c }

def locate (a : Agent) (n : Nat) (c : Connect) : Agent :=
  match a.identities.lookup c.identity with
  | some s => a.setConnect n { c with stage := .queued s }
  | none =>
    let s := a.slots.length
    let a : Agent :=
      { a with slots := a.slots ++ [.vacant], identities := a.identities ++ [(c.identity, s)] }
    a.setConnect n { c with stage := .queued s }

def setSlot (a : Agent) (s : Nat) (x : Slot) : Agent := { a with slots := a.slots.set s x }

def stepConnecting (a : Agent) (n : Nat) : Option Next := do
  let c ← a.connects[n]?
  match c.stage with
  | .locating => some (a.locate n c, [])
  | .queued s =>
    let slot ← a.slots[s]?
    match slot with
    | .vacant =>
      some ((a.setSlot s .filling).setConnect n { c with stage := .connecting s, tried := true },
        [.connecting n])
    | .filling => none
    | .filled i => some (a.setConnect n { c with stage := .ended (.ok i) }, [])
  | _ => none

def newClient (a : Agent) (i : Identity) : Client :=
  { identity := i, settings := ⟨i.installationCode, a.device, a.backoff⟩ }

def stepConnected (a : Agent) (n : Nat) (r : Except AgentError Unit) : Option Next := do
  let c ← a.connects[n]?
  match c.stage, r with
  | .connecting s, .ok () =>
    let i := a.clients.length
    let a : Agent := { a with clients := a.clients ++ [a.newClient c.identity] }
    some ((a.setSlot s (.filled i)).setConnect n { c with stage := .ended (.ok i) }, [.started n i])
  | .connecting s, .error e =>
    some ((a.setSlot s .vacant).setConnect n { c with stage := .ended (.error e) }, [])
  | _, _ => none

def stepAbandon (a : Agent) (n : Nat) : Option Next := do
  let c ← a.connects[n]?
  match c.stage with
  | .ended _ | .abandoned => none
  | .connecting s =>
    some ((a.setSlot s .vacant).setConnect n { c with stage := .abandoned }, [])
  | _ => some (a.setConnect n { c with stage := .abandoned }, [])

def connectedClients (a : Agent) : List Nat :=
  a.identities.filterMap fun (_, s) => match a.slots[s]? with
    | some (Slot.filled i) => some i
    | _ => none

def clientCount (a : Agent) : Nat := a.connectedClients.length

def stopClient (a : Agent) (i : Nat) (stage : StopStage) : Option (Agent × StopStage) := do
  let c ← a.clients[i]?
  let (channel, joinable, stage) ← stopStep c.channel c.joinable stage
  some (a.setClient i { c with channel, joinable }, stage)

def stepStopping (a : Agent) (n : Nat) : Option Next := do
  let s ← a.stops[n]?
  let (a, stage) ← a.stopClient s.client s.stage
  some ({ a with stops := a.stops.set n { s with stage } }, [])

def setShutdown (a : Agent) (n : Nat) (s : ShutdownStage) : Agent :=
  { a with shutdowns := a.shutdowns.set n ⟨s⟩ }

def stopSlot (a : Agent) (slot : Nat) (rest : List Nat) (stage : StopStage) :
    Option (Agent × ShutdownStage) :=
  match a.slots[slot]?, stage with
  | some (.filled _), .ended => some (a, .stopping rest .asking)
  | some (.filled i), stage =>
    (a.stopClient i stage).map fun (a, stage) => (a, .stopping (slot :: rest) stage)
  | _, _ => some (a, .stopping rest .asking)

def stepDraining (a : Agent) (n : Nat) (slots : List Nat) : Option Next := do
  let s ← a.shutdowns[n]?
  if s.stage = .draining ∧ slots.Perm (a.identities.map Prod.snd) then
    some (Agent.setShutdown { a with identities := [] } n (.stopping slots .asking), [])
  else none

def stepShutting (a : Agent) (n : Nat) : Option Next := do
  let s ← a.shutdowns[n]?
  match s.stage with
  | .stopping [] _ => some (a.setShutdown n .ended, [])
  | .stopping (slot :: rest) stage =>
    let (a, stage) ← a.stopSlot slot rest stage
    some (a.setShutdown n stage, [])
  | .draining | .ended => none

def liveSlots (a : Agent) : List Nat :=
  a.identities.map Prod.snd ++ a.connects.filterMap Connect.slot? ++
    a.shutdowns.flatMap fun s => match s.stage with
      | .stopping slots _ => slots
      | _ => []

def isHeld (a : Agent) (i : Nat) : Bool :=
  a.clients[i]?.any (·.kept) ||
    a.liveSlots.any (fun s => a.slots[s]? == some (.filled i)) ||
    a.calls.any (fun c => c.client == i && c.isOpen) ||
    a.stops.any fun s => s.client == i && s.stage != .ended

def stepDrop (a : Agent) (i : Nat) : Option Next := do
  let c ← a.clients[i]?
  if a.isHeld i || c.channel.shutdown then none
  else some (a.setClient i { c with channel := c.channel.requestStop }, [])

def step (a : Agent) : Action → Option Next
  | .ask i s => some ({ a with calls := a.calls ++ [{ client := i, subject := s }] }, [])
  | .connect i => some ({ a with connects := a.connects ++ [{ identity := i }] }, [])
  | .stop i => some ({ a with stops := a.stops ++ [{ client := i }] }, [])
  | .shutdown => some ({ a with shutdowns := a.shutdowns ++ [{}] }, [])
  | .release i =>
    some ({ a with clients := a.clients.modify i fun c => { c with kept := false } }, [])
  | .channel i input => if input.source = .store then none else a.stepChannel i input
  | .storage i turns => a.stepStorage i turns
  | .outside t => some ({ a with tree := t }, [])
  | .call n input => a.stepCall n input
  | .connecting n => a.stepConnecting n
  | .connected n r => a.stepConnected n r
  | .abandon n => a.stepAbandon n
  | .stopping n => a.stepStopping n
  | .draining n slots => a.stepDraining n slots
  | .shutting n => a.stepShutting n
  | .drop i => a.stepDrop i

structure Moment where
  before : Agent
  action : Action
  after : Agent
  events : List Event

inductive Run : Agent → List Moment → Agent → Prop where
  | rest {a : Agent} : Run a [] a
  | step {a b c : Agent} {x : Action} {es : List Event} {later : List Moment}
      (next : a.step x = some (b, es)) (run : Run b later c) : Run a (⟨a, x, b, es⟩ :: later) c

def play (a : Agent) : List Action → Option (List Moment × Agent)
  | [] => some ([], a)
  | x :: rest => do
    let (b, es) ← a.step x
    let (later, c) ← b.play rest
    some (⟨a, x, b, es⟩ :: later, c)

end Agent
end FirewallAgent

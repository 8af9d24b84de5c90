import FirewallAgent.Scenario.World
import FirewallAgent.Store.Session

/-!
Scenarios from start to end. Steps run one after another; a step in the background goes on beside
those after it. What a step left behind is read a millisecond after its end.
-/
namespace FirewallAgent.Scenario

structure Setup where
  code : String := "INST"
  uuid : String := "device-uuid"
  backoff : Nat := 5000
  tokenTimeout : Nat := 5000
  storePath : String
  lockName : String
  storeText : Option String := none
  shadowed : Bool := false
  caching : Bool := false

namespace Setup

def storeTree (s : Setup) : FileTree :=
  match s.storeText with
  | some text => FileTree.fresh.plant s.storePath (.file (Text.toBytes text))
  | none => .fresh

def world (s : Setup) : Except StorageError World :=
  match Store.openAt s.storeTree s.storePath s.lockName with
  | .error e => .error e
  | .ok store =>
    let tree := if s.shadowed then Store.Session.shadow s.storeTree else s.storeTree
    .ok { agent := { device := { uuid := s.uuid }, tree, store, cache := { enabled := s.caching }
                     backoff := .ofMillis s.backoff }
          tokenTimeout := s.tokenTimeout }

end Setup

namespace World

def adopt (w : World) (i : Identity) (s : Service) : World :=
  let agent : Agent := { w.agent with clients := w.agent.clients ++ [w.agent.newClient i] }
  let w : World := { w with agent, remotes := w.remotes ++ [{ service := s }] }
  w.settle

def isKept (w : World) (i : Nat) : Bool := w.agent.clients[i]?.any (·.kept)

def setTree (w : World) (tree : FileTree) : World := { w with agent := { w.agent with tree } }

def setCache (w : World) (cache : DecisionCache Fingerprint) : World :=
  { w with agent := { w.agent with cache } }

def grant (w : World) (i : Nat) (t : String) : World :=
  let agent : Agent := w.agent.absorb i (.token t)
  { w with agent }.reactChannel i (.token t)

def save (w : World) (code : String) (c : Credential) : World × Except StorageError Unit :=
  match Store.openAt w.agent.tree w.agent.store.path w.agent.store.lockName with
  | .error e => (w, .error e)
  | .ok h =>
    let (tree, _, r) := Store.saveCredential w.agent.tree h code c
    (w.setTree tree, r)

def start (w : World) (i : Nat) : Deed → World × Watch
  | .rest => (w, .known .done)
  | .ask s =>
    if w.isKept i then (w.act (.ask i s), .call w.agent.calls.length) else (w, .known .noClient)
  | .grant t => if w.isKept i then (w.grant i t, .known .done) else (w, .known .noClient)
  | .stop =>
    if w.isKept i then (w.act (.stop i), .stop w.agent.stops.length) else (w, .known .noClient)
  | .release => if w.isKept i then (w.act (.release i), .known .done) else (w, .known .noClient)
  | .enableCache on => (w.setCache (w.agent.cache.setEnabled on), .known .done)
  | .clearCache => (w.setCache w.agent.cache.clear, .known .done)
  | .peekCache r => (w, .known (.cached (w.agent.cache.get (.ofRequest r))))
  | .save code c =>
    let (w, r) := w.save code c
    (w, .known (.saved r))
  | .load code => (w, .known (.loaded (Store.loadCredential w.agent.store code)))
  | .writeStore text =>
    (w.setTree (w.agent.tree.plant w.agent.store.path (.file (Text.toBytes text))), .known .done)
  | .shadowStore => (w.setTree (Store.Session.shadow w.agent.tree), .known .done)
  | .connect identity plan =>
    let planned : World := { w with plans := w.plans ++ [plan] }
    (planned.act (.connect identity), .connect w.agent.connects.length)
  | .countClients => (w, .known (.count w.agent.clientCount))
  | .shutdown => (w.act .shutdown, .shutdown w.agent.shutdowns.length)

def result? (w : World) (k : Nat) : Option (Nat × Outcome) := w.tasks[k]?.bind (·.result)

end World

structure Report where
  time : Nat
  outcome : Outcome
  clients : List Client
  cache : DecisionCache Fingerprint

def runStep (bound : Nat) (w : World) (s : Step) : World × Report :=
  let w := w.advance bound s.time
  let (w, watch) := w.start s.client s.deed
  let k := w.tasks.length
  let w : World := { w with tasks := w.tasks ++ [{ background := s.background, watch }] }
  let w := w.settle
  let w := if s.background then w else World.run none (fun w => (w.result? k).isSome) bound w
  let (time, outcome) :=
    if s.background then (w.now, .spawned) else (w.result? k).getD (w.now, .spawned)
  let w := w.advance bound (time + 1)
  (w, ⟨time, outcome, w.agent.clients, w.agent.cache⟩)

def runSteps (bound : Nat) (w : World) : List Step → World × List Report
  | [] => (w, [])
  | s :: rest =>
    let (w, r) := runStep bound w s
    let (w, rs) := runSteps bound w rest
    (w, r :: rs)

def patience : Nat := 3600000

def run (w : World) (steps : List Step) : World × List Report :=
  let served := w.remotes.foldl (fun n r => n + r.service.weight) 16
  let bound := steps.foldl (fun n s => n + s.weight) served
  let (w, reports) := runSteps bound w steps
  (World.run (some (w.now + patience)) (fun w => w.tasks.all fun t => t.result.isSome) bound w, reports)

def World.backgroundResults (w : World) : List (Option (Nat × Outcome)) :=
  (w.tasks.filter (·.background)).map (·.result)

def World.tally (w : World) : List (Metric × Nat) :=
  w.metrics.eraseDups.map fun m => (m, w.metrics.count m)

end FirewallAgent.Scenario

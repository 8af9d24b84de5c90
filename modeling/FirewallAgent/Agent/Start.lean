import FirewallAgent.Agent
import FirewallAgent.Config

/-!
Starting an agent from its configuration. Nothing is opened for a configuration that is not valid,
and a device must be known before the store is opened.
-/
namespace FirewallAgent.Agent

def ofParts (t : FileTree) (c : Config) (device : Device) (store : Store.Handle) : Agent :=
  { device, tree := t, store, connections := .ofCapacity c.cacheCapacity.toNat, backoff := c.backoff }

def ofConfig (t : FileTree) (c : Config) : Except AgentError Agent :=
  match c.validate with
  | .error e => .error (.invalidConfiguration e.text)
  | .ok () =>
    match Device.discover c.deviceUuid Device.sources t with
    | .error e => .error e
    | .ok device =>
      match Store.openAt t c.storePath c.lockName with
      | .error e => .error (.storage e)
      | .ok store => .ok (ofParts t c device store)

end FirewallAgent.Agent

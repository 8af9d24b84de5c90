import FirewallAgent.Credential
import FirewallAgent.Lock.Name
import FirewallAgent.Store.Job

/-!
Store handles at work one after another: opening, reading and changing records.
-/
namespace FirewallAgent.Store

def openAt (t : FileTree) (path lockName : String) : Except StorageError Handle :=
  match Lock.openKey lockName with
  | .error f => .error (.lock lockName f)
  | .ok _ =>
    match perform t { path, lockName } .reload with
    | (_, h, .ok ()) => .ok h
    | (_, _, .error e) => .error e

def reload (t : FileTree) (h : Handle) (turns : List Turn := []) :
    FileTree × Handle × Except StorageError Unit :=
  perform t h .reload turns

def set (t : FileTree) (h : Handle) (key value : String) :
    FileTree × Handle × Except StorageError Unit :=
  perform t h (.update (.put [(key, value)]))

def clear (t : FileTree) (h : Handle) (turns : List Turn := []) :
    FileTree × Handle × Except StorageError Unit :=
  perform t h (.update .clear) turns

def credentialEntries (code : String) (c : Credential) : Entries :=
  [(Credential.idKey code, c.appId), (Credential.secretKey code, c.appSecret)]

def saveCredential (t : FileTree) (h : Handle) (code : String) (c : Credential)
    (turns : List Turn := []) : FileTree × Handle × Except StorageError Unit :=
  perform t h (.update (.put (credentialEntries code c))) turns

def loadCredential (h : Handle) (code : String) : Option Credential := Credential.find? h.memory code

inductive Request where
  | openStore
  | close
  | set (key value : String)
  | get (key : String)
  | keys
  | reload
  | clear
  | load (code : String)
  | save (code : String) (c : Credential)
  | files (entries : List (String × FileEntry))
  | unlink
  | shadow
  deriving DecidableEq

inductive Reply where
  | done
  | opened (path : String) (keys : List String)
  | closed (wasOpen : Bool)
  | value (v : Option String)
  | keys (ks : List String)
  | credential (c : Option Credential)
  | notOpen
  | failed (e : StorageError)
  deriving DecidableEq

structure Session where
  tree : FileTree
  path : String
  lockName : String
  handles : List (String × Handle) := []

namespace Session

def shadow (t : FileTree) : FileTree :=
  (t.remove "state").plant "state" (.file (Text.toBytes "not a directory"))

def keep (s : Session) (label : String) (h : Handle) : Session :=
  { s with handles := (label, h) :: s.handles.filter (·.1 != label) }

def settle (s : Session) (label : String) :
    FileTree × Handle × Except StorageError Unit → Session × Reply
  | (t, h, r) => ({ s with tree := t }.keep label h, match r with
    | .ok () => .done
    | .error e => .failed e)

def onHandle (s : Session) (label : String) (f : Handle → Session × Reply) : Session × Reply :=
  match s.handles.lookup label with
  | none => (s, .notOpen)
  | some h => f h

def handle (s : Session) (label : String) : Request → Session × Reply
  | .openStore =>
    match openAt s.tree s.path s.lockName with
    | .ok h => (s.keep label h, .opened h.path h.keys)
    | .error e => (s, .failed e)
  | .close =>
    ({ s with handles := s.handles.filter (·.1 != label) },
      .closed (s.handles.lookup label).isSome)
  | .set k v => s.onHandle label fun h => s.settle label (Store.set s.tree h k v)
  | .get k => s.onHandle label fun h => (s, .value (h.get? k))
  | .keys => s.onHandle label fun h => (s, .keys h.keys)
  | .reload => s.onHandle label fun h => s.settle label (Store.reload s.tree h)
  | .clear => s.onHandle label fun h => s.settle label (Store.clear s.tree h)
  | .load code => s.onHandle label fun h => (s, .credential (loadCredential h code))
  | .save code c => s.onHandle label fun h => s.settle label (saveCredential s.tree h code c)
  | .files es => ({ s with tree := es.foldl (fun t e => t.plant e.1 e.2) s.tree }, .done)
  | .unlink =>
    ({ s with tree := if s.tree.isDir s.path then s.tree else s.tree.remove s.path }, .done)
  | .shadow => ({ s with tree := shadow s.tree }, .done)

end Session
end FirewallAgent.Store

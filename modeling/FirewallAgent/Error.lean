import FirewallAgent.Status

/-!
Failures and their wording. Each failure names its cause; the texts that operators read are
produced here and nowhere else.
-/
namespace FirewallAgent

inductive FileError where
  | notFound
  | exists
  | notDirectory
  | isDirectory
  | invalid
  | nameTooLong
  | notText
  | nulInPath
  | other (text : String)
  deriving DecidableEq, Repr

def FileError.text : FileError → String
  | notFound => "No such file or directory (os error 2)"
  | .exists => "File exists (os error 17)"
  | notDirectory => "Not a directory (os error 20)"
  | isDirectory => "Is a directory (os error 21)"
  | invalid => "Invalid argument (os error 22)"
  | nameTooLong => "File name too long (os error 36)"
  | notText => "stream did not contain valid UTF-8"
  | nulInPath => "file name contained an unexpected NUL byte"
  | other t => t

inductive LockFault where
  | nulInName
  | file (e : FileError)
  | neverSized
  | neverReady
  | other (text : String)
  deriving DecidableEq, Repr

def LockFault.text : LockFault → String
  | nulInName => "name contains a NUL byte"
  | file e => e.text
  | neverSized => "shared segment was never sized by its creator"
  | neverReady => "mutex was never initialized by its creator"
  | other t => t

inductive StorageError where
  | io (path : String) (cause : FileError)
  | malformedRecord (line : Nat)
  | lock (name : String) (fault : LockFault)
  deriving DecidableEq, Repr

def StorageError.text : StorageError → String
  | io path cause => "IO error on " ++ path ++ ": " ++ cause.text
  | malformedRecord line =>
    "malformed record at line " ++ toString line ++ ": no unescaped '=' separator"
  | lock name fault => "named lock " ++ name ++ " unavailable: " ++ fault.text

inductive AgentError where
  | streamNotRunning
  | tokenUnavailable
  | connectionTimeout (target : String)
  | credentialPersist (e : StorageError)
  | certificateNotFound (path : String)
  | deviceUnavailable
  | storage (e : StorageError)
  | transport (s : Status)
  | invalidConfiguration (reason : String)
  deriving DecidableEq, Repr

def AgentError.text : AgentError → String
  | streamNotRunning => "control channel is not streaming"
  | tokenUnavailable => "no bearer token became available before the timeout"
  | connectionTimeout target => "timed out establishing the channel to " ++ target
  | credentialPersist e => "failed to persist device credentials: " ++ e.text
  | certificateNotFound path => "server certificate not found: " ++ path
  | deviceUnavailable => "device UUID is unavailable"
  | storage e => "storage operation failed: " ++ e.text
  | transport s => "remote call failed: " ++ s.text
  | invalidConfiguration reason => "invalid configuration: " ++ reason

def StorageError.isFault : StorageError → Bool
  | malformedRecord _ => false
  | _ => true

def StorageError.causes : StorageError → List String
  | io _ cause => [cause.text]
  | _ => []

def AgentError.causes : AgentError → List String
  | credentialPersist e => e.text :: e.causes
  | storage e => e.text :: e.causes
  | transport s => [s.text]
  | _ => []

end FirewallAgent

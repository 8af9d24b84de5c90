import FirewallAgent.Error
import FirewallAgent.FilePath

/-!
Names of host-wide locks. Leading slashes do not count; what is left has to be a single file name.
-/
namespace FirewallAgent.Lock

/- What a name comes to. `tooLong` names pass the first check and are refused by the file system
under which the segments live; `directory` names are its own. -/
inductive NameShape where
  | hasNul
  | refused
  | tooLong
  | directory
  | segment (key : String)
  deriving DecidableEq, Repr

def longestRefused : Nat := 259

def longestKey : Nat := 255

def shape (name : String) : NameShape :=
  let key := name.toList.dropWhile (· = '/')
  let size := (Text.toBytes (String.ofList key)).length
  if name.toList.contains '\x00' then .hasNul
  else if key.isEmpty ∨ key.contains '/' ∨ size > longestRefused then .refused
  else if size > longestKey then .tooLong
  else if key = ['.'] ∨ key = ['.', '.'] then .directory
  else .segment (String.ofList key)

def openKey (name : String) : Except LockFault String :=
  match shape name with
  | .hasNul => .error .nulInName
  | .refused | .directory => .error (.file .invalid)
  | .tooLong => .error (.file .nameTooLong)
  | .segment key => .ok key

def unlinkKey (name : String) : Except LockFault (Option String) :=
  match shape name with
  | .hasNul => .error .nulInName
  | .refused => .ok none
  | .tooLong => .error (.file .nameTooLong)
  | .directory => .error (.file .isDirectory)
  | .segment key => .ok (some key)

end FirewallAgent.Lock

import FirewallAgent.Error
import FirewallAgent.FilePath

/-!
A tree of files and directories as a value, with the calls that the agent makes on it. A relative
path starts at the tree's working directory. Links and permissions do not exist here; a call that
an operating system refuses for such a reason is a fault that the caller brings in from outside.
-/
namespace FirewallAgent

abbrev Location := List String

inductive FileEntry where
  | file (content : Bytes)
  | dir
  deriving DecidableEq

structure FileTree where
  home : Location := []
  entries : List (Location × FileEntry) := []
  deriving DecidableEq, Inhabited

namespace FileTree

def fresh : FileTree := ⟨["home"], [(["home"], .dir)]⟩

def look (t : FileTree) (l : Location) : Option FileEntry :=
  if l = [] then some .dir else (t.entries.find? fun e => e.1 == l).map Prod.snd

def erase (t : FileTree) (l : Location) : FileTree :=
  { t with entries := t.entries.filter fun e => e.1 != l }

def put (t : FileTree) (l : Location) (e : FileEntry) : FileTree :=
  { t with entries := (l, e) :: (t.erase l).entries }

theorem lookPutSelf (t : FileTree) {l : Location} (e : FileEntry) (h : l ≠ []) :
    (t.put l e).look l = some e := by
  simp [look, put, h]

theorem lookPutOther (t : FileTree) {l m : Location} (e : FileEntry) (h : m ≠ l) :
    (t.put l e).look m = t.look m := by
  have hm : ((l, e).1 == m) = false := by simpa using fun h' => h h'.symm
  simp only [look, put, erase, List.find?_cons, hm, List.find?_filter]
  congr 4
  funext p
  by_cases hp : p.1 = m <;> simp_all

inductive Target where
  | place (l : Location)
  | name (dir : Location) (name : String) (mustBeDir : Bool)
  deriving DecidableEq

def longestName : Nat := 255

def longestPath : Nat := 4095

def follow (t : FileTree) (mustBeDir : Bool) : Location → List String → Except FileError Target
  | l, [] => .ok (.place l)
  | l, p :: rest =>
    if p = "." then follow t mustBeDir l rest
    else if p = ".." then follow t mustBeDir l.dropLast rest
    else if (Text.toBytes p).length > longestName then .error .nameTooLong
    else if rest.isEmpty then .ok (.name l p mustBeDir)
    else match t.look (l ++ [p]) with
      | none => .error .notFound
      | some (.file _) => .error .notDirectory
      | some .dir => follow t mustBeDir (l ++ [p]) rest

def resolve (t : FileTree) (path : String) : Except FileError Target :=
  if path.toList.contains '\x00' then .error .nulInPath
  else if path = "" then .error .notFound
  else if (Text.toBytes path).length > longestPath then .error .nameTooLong
  else
    let start := if FilePath.isAbsolute path then [] else t.home
    let mustBeDir := path.toList.getLast? == some '/'
    t.follow mustBeDir start ((FilePath.parts path).filter (· ≠ ""))

def read (t : FileTree) (path : String) : Except FileError Bytes := do
  match ← t.resolve path with
  | .place _ => .error .isDirectory
  | .name d n mustBeDir =>
    match t.look (d ++ [n]) with
    | none => .error .notFound
    | some .dir => .error .isDirectory
    | some (.file b) => if mustBeDir then .error .notDirectory else .ok b

def readText (t : FileTree) (path : String) : Except FileError String := do
  match Text.ofBytes? (← t.read path) with
  | none => .error .notText
  | some s => .ok s

def isDir (t : FileTree) (path : String) : Bool :=
  match t.resolve path with
  | .ok (.place _) => true
  | .ok (.name d n _) => t.look (d ++ [n]) == some .dir
  | .error _ => false

def pathExists (t : FileTree) (path : String) : Bool :=
  match t.resolve path with
  | .ok (.place _) => true
  | .ok (.name d n mustBeDir) =>
    match t.look (d ++ [n]) with
    | none => false
    | some .dir => true
    | some (.file _) => !mustBeDir
  | .error _ => false

def makeDir (t : FileTree) (path : String) : Except FileError FileTree := do
  match ← t.resolve path with
  | .place _ => .error .exists
  | .name d n _ =>
    if (t.look (d ++ [n])).isSome then .error .exists else .ok (t.put (d ++ [n]) .dir)

/- Makes the first of the paths a directory, after those behind it if they are missing. Directories
made before a failure stay. -/
def makeDirs (t : FileTree) : List String → FileTree × Except FileError Unit
  | [] => (t, .error (.other "failed to create whole tree"))
  | path :: up =>
    if path = "" then (t, .ok ()) else
    match t.makeDir path with
    | .ok t => (t, .ok ())
    | .error .notFound =>
      match makeDirs t up with
      | (t, .error e) => (t, .error e)
      | (t, .ok ()) =>
        match t.makeDir path with
        | .ok t => (t, .ok ())
        | .error e => (t, if t.isDir path then .ok () else .error e)
    | .error e => (t, if t.isDir path then .ok () else .error e)

def openEmpty (t : FileTree) (path : String) : Except FileError (FileTree × Location) := do
  match ← t.resolve path with
  | .place _ => .error .isDirectory
  | .name d n mustBeDir =>
    match t.look (d ++ [n]) with
    | some .dir => .error .isDirectory
    | some (.file _) =>
      if mustBeDir then .error .notDirectory else .ok (t.put (d ++ [n]) (.file []), d ++ [n])
    | none =>
      if mustBeDir then .error .isDirectory else .ok (t.put (d ++ [n]) (.file []), d ++ [n])

def append (t : FileTree) (l : Location) (more : Bytes) : FileTree :=
  match t.look l with
  | some (.file b) => t.put l (.file (b ++ more))
  | _ => t

def write (t : FileTree) (path : String) (content : Bytes) : Except FileError FileTree := do
  let (t, l) ← t.openEmpty path
  .ok (t.append l content)

def rename (t : FileTree) (path new : String) : Except FileError FileTree := do
  match ← t.resolve path, ← t.resolve new with
  | .name d n mustBeDir, .name d' n' mustBeDir' =>
    match t.look (d ++ [n]), t.look (d' ++ [n']) with
    | none, _ => .error .notFound
    | some .dir, _ => .error .notDirectory
    | some (.file _), some .dir => .error .isDirectory
    | some (.file b), _ =>
      if mustBeDir || mustBeDir' then .error .notDirectory
      else .ok ((t.erase (d ++ [n])).put (d' ++ [n']) (.file b))
  | _, _ => .error .isDirectory

def remove (t : FileTree) (path : String) : FileTree :=
  match t.resolve path with
  | .ok (.name d n _) =>
    { t with entries := t.entries.filter fun e => !(d ++ [n]).isPrefixOf e.1 }
  | _ => t

def plant (t : FileTree) (path : String) (e : FileEntry) : FileTree :=
  match e with
  | .dir => (t.makeDirs (FilePath.ancestors path)).1
  | .file b =>
    let t := match FilePath.parent? path with
      | some up => (t.makeDirs (FilePath.ancestors up)).1
      | none => t
    match t.write path b with
    | .ok t => t
    | .error _ => t

def listing (t : FileTree) : List String :=
  let below := t.entries.filterMap fun e =>
    if t.home.isPrefixOf e.1 && e.1 ≠ t.home then
      let path := "./" ++ FilePath.join (e.1.drop t.home.length)
      some (match e.2 with | .dir => path ++ "/" | .file _ => path)
    else none
  below.mergeSort (· ≤ ·)

end FileTree
end FirewallAgent

import FirewallAgent.Cli.Run

/-!
The command line program. It reads the files that a command may look at, lets the command work on
them, and writes back those that came out different.
-/
namespace FirewallAgent.Program
open Cli

def firstPaths (i : Invocation) : List String :=
  i.configPath.toList ++ Config.searchPaths ++ match i.command with
    | .validateConfig path => path.toList
    | .generateConfig path _ => [path]
    | _ => []

def laterPaths (c : Config) : List String :=
  c.storePath :: c.certificatePath.toList ++ Device.sources

def plantFrom (t : FileTree) (path : String) : IO FileTree := do
  let here ← IO.currentDir
  if ← (here / path).isDir then return t.plant path .dir
  if ← (here / path).pathExists then
    return t.plant path (.file (← IO.FS.readBinFile (here / path)).toList)
  for up in (FilePath.ancestors path).drop 1 do
    if up ≠ "" then
      if ← (here / up).isDir then return t.plant up .dir
  return t

def isUnchanged (before : FileTree) (path : String) (content : Bytes) : Bool :=
  match before.read path with
  | .ok old => old == content
  | .error _ => false

def writeBack (before after : FileTree) (path : String) : IO Unit := do
  match after.read path with
  | .error _ => pure ()
  | .ok content =>
    if isUnchanged before path content then return
    let here ← IO.currentDir
    match FilePath.parent? path with
    | some up => IO.FS.createDirAll (here / up)
    | none => pure ()
    let staged := path ++ ".new"
    IO.FS.writeBinFile (here / staged) ⟨content.toArray⟩
    IO.FS.rename (here / staged) (here / path)

def site (i : Invocation) (fromEnv : Option String) : IO (Site × List String) := do
  let tree ← (firstPaths i).foldlM plantFrom FileTree.fresh
  let later := match Config.loadOrDefault tree fromEnv i.configPath with
    | .ok c => laterPaths c
    | .error _ => []
  let tree ← later.foldlM plantFrom tree
  return ({ tree, fromEnv }, firstPaths i ++ later)

def perform (fromEnv : Option String) (i : Invocation) : IO Exit := do
  let (before, paths) ← site i fromEnv
  let (after, exit) := before.perform i
  paths.forM (writeBack before.tree after.tree)
  return exit

def start (args : List String) : IO Exit := do
  let fromEnv ← IO.getEnv Config.pathVariable
  match Invocation.ofArguments fromEnv args with
  | .ok i => perform fromEnv i
  | .error r => return refuse r

end FirewallAgent.Program

def main (args : List String) : IO UInt32 := do
  let exit ← FirewallAgent.Program.start args
  IO.print exit.stdout
  IO.eprint exit.stderr
  return UInt32.ofNat exit.code

import FirewallAgent.FileTree
import FirewallAgent.Store.Record

/-!
The work a store handle does under its named lock, one file-system call at a time. A job reads the
file, may replace it by way of a staging file next to it, and only then changes the handle's
memory. Any call may fail from outside, and a write may get only part of its bytes out.
-/
namespace FirewallAgent.Store

inductive Change where
  | put (es : Entries)
  | clear
  deriving DecidableEq

def Change.apply (d : Dictionary) : Change → Dictionary
  | put es => es.foldl (fun d e => d.insert e.1 e.2) d
  | clear => .empty

inductive Job where
  | reload
  | update (c : Change)
  deriving DecidableEq

structure Handle where
  path : String
  lockName : String
  memory : Dictionary := .empty
  deriving DecidableEq, Inhabited

namespace Handle

def get? (h : Handle) (key : String) : Option String := h.memory.get? key

def keys (h : Handle) : List String := h.memory.keys

end Handle

def stagingPath (path : String) : String := FilePath.withExtension path "tmp"

def folder? (path : String) : Option String :=
  (FilePath.parent? path).filter (· ≠ "")

inductive Stage where
  | locking
  | reading
  | makingDirs (next : Dictionary)
  | opening (next : Dictionary)
  | writing (next : Dictionary) (file : Location) (rest : Bytes)
  | syncing (next : Dictionary)
  | replacing (next : Dictionary)
  | keeping (next : Dictionary)
  | unlocking (result : Except StorageError Unit)
  | done (result : Except StorageError Unit)

inductive Turn where
  | goes
  | writes (count : Nat)
  | fails (e : FileError)
  | lockFails (f : LockFault)
  deriving DecidableEq

/- What a read fails with from outside. Whether the file is there is for the tree to say. -/
def Turn.readFault? : Turn → Option FileError
  | .fails .notFound => none
  | .fails e => some e
  | _ => none

@[simp] theorem goesReading : Turn.goes.readFault? = none := rfl

def readRecords (t : FileTree) (path : String) : Except StorageError Dictionary :=
  match t.readText path with
  | .ok text => parse text
  | .error .notFound => .ok .empty
  | .error e => .error (.io path e)

structure Work where
  tree : FileTree
  memory : Dictionary
  stage : Stage

namespace Work

def fail (w : Work) (e : StorageError) : Work := { w with stage := .unlocking (.error e) }

def afterRead (w : Work) (path : String) (job : Job) : Except StorageError Dictionary → Work
  | .error e => w.fail e
  | .ok found =>
    match job with
    | .reload => { w with stage := .keeping found }
    | .update c =>
      let next := c.apply found
      { w with stage := if (folder? path).isSome then .makingDirs next else .opening next }

def step (path lockName : String) (job : Job) (turn : Turn) (w : Work) : Work :=
  match w.stage with
  | .locking =>
    match turn with
    | .lockFails f => { w with stage := .done (.error (.lock lockName f)) }
    | _ => { w with stage := .reading }
  | .reading =>
    match turn.readFault? with
    | some e => w.fail (.io path e)
    | none => w.afterRead path job (readRecords w.tree path)
  | .makingDirs next =>
    match folder? path with
    | none => { w with stage := .opening next }
    | some dir =>
      match turn with
      | .fails e => w.fail (.io dir e)
      | _ =>
        match w.tree.makeDirs (FilePath.ancestors dir) with
        | (t, .ok ()) => { w with tree := t, stage := .opening next }
        | (t, .error e) => { w with tree := t }.fail (.io dir e)
  | .opening next =>
    match turn with
    | .fails e => w.fail (.io (stagingPath path) e)
    | _ =>
      match w.tree.openEmpty (stagingPath path) with
      | .ok (t, file) =>
        { w with tree := t, stage := .writing next file (Text.toBytes (serialize next)) }
      | .error e => w.fail (.io (stagingPath path) e)
  | .writing next file rest =>
    match turn with
    | .fails e => w.fail (.io (stagingPath path) e)
    | .writes n =>
      { w with
        tree := w.tree.append file (rest.take n), stage := .writing next file (rest.drop n) }
    | _ => { w with tree := w.tree.append file rest, stage := .syncing next }
  | .syncing next =>
    match turn with
    | .fails e => w.fail (.io (stagingPath path) e)
    | _ => { w with stage := .replacing next }
  | .replacing next =>
    match turn with
    | .fails e => w.fail (.io path e)
    | _ =>
      match w.tree.rename (stagingPath path) path with
      | .ok t => { w with tree := t, stage := .keeping next }
      | .error e => w.fail (.io path e)
  | .keeping next => { w with memory := next, stage := .unlocking (.ok ()) }
  | .unlocking result => { w with stage := .done result }
  | .done _ => w

def stepsLeft : Stage → Nat
  | .locking => 9
  | .reading => 8
  | .makingDirs _ => 7
  | .opening _ => 6
  | .writing .. => 5
  | .syncing _ => 4
  | .replacing _ => 3
  | .keeping _ => 2
  | .unlocking _ => 1
  | .done _ => 0

theorem stepsLeftStep (path lockName : String) (job : Job) (w : Work) :
    stepsLeft (w.step path lockName job .goes).stage ≤ stepsLeft w.stage - 1 := by
  cases hs : w.stage <;> simp only [step, hs]
  case reading =>
    simp only [goesReading]
    cases readRecords w.tree path with
    | error e => simp [afterRead, fail, stepsLeft]
    | ok found =>
      cases job with
      | reload => simp [afterRead, stepsLeft]
      | update c => simp only [afterRead]; split <;> simp [stepsLeft]
  case makingDirs next =>
    split
    · simp [stepsLeft]
    · split <;> simp [stepsLeft, fail]
  case opening next => split <;> simp [stepsLeft, fail]
  case replacing next => split <;> simp [stepsLeft, fail]
  all_goals simp [stepsLeft]

def finish (path lockName : String) (job : Job) : Nat → Work → Work
  | 0, w => w
  | n + 1, w => finish path lockName job n (w.step path lockName job .goes)

end Work

/- A whole job. Its first calls go as the turns say, and all after them as they should. -/
def perform (t : FileTree) (h : Handle) (job : Job) (turns : List Turn := []) :
    FileTree × Handle × Except StorageError Unit :=
  let w := turns.foldl (fun w turn => w.step h.path h.lockName job turn) ⟨t, h.memory, .locking⟩
  let w := Work.finish h.path h.lockName job (Work.stepsLeft .locking) w
  let result := match w.stage with
    | .done r => r
    | _ => .error (.lock h.lockName .neverReady)
  (w.tree, { h with memory := w.memory }, result)

end FirewallAgent.Store

import FirewallAgent.Proofs.Store.Course
import FirewallAgent.Proofs.Store.Grammar
import FirewallAgent.Proofs.Store.Retention

/-! What is left of an operation that failed. No handle remembers anything of it, and as long as it was
not past the reading of the file, nothing was written either. The error tells which call it was that
went wrong. -/
namespace FirewallAgent.Store

inductive Breaks (path lockName : String) (t : FileTree) (turn : Turn) : Stage → StorageError → Prop where
  | locking {f : LockFault} (failed : turn = .lockFails f) :
      Breaks path lockName t turn .locking (.lock lockName f)
  | reading {e : FileError} (failed : turn.readFault? = some e) :
      Breaks path lockName t turn .reading (.io path e)
  | unreadable {e : FileError} (calm : turn.readFault? = none) (failed : t.readText path = .error e)
      (there : e ≠ .notFound) : Breaks path lockName t turn .reading (.io path e)
  | malformed {text : String} {before after : List (List Char)} {line : List Char}
      (calm : turn.readFault? = none) (read : t.readText path = .ok text)
      (parts : lines text.toList = before ++ line :: after) (fine : ∀ l ∈ before, ¬ Offends l)
      (bad : Offends line) :
      Breaks path lockName t turn .reading (.malformedRecord (before.length + 1))
  | makingDirs {dir : String} {e : FileError} {next : Dictionary} (folder : folder? path = some dir)
      (failed : turn = .fails e ∨ (t.makeDirs (FilePath.ancestors dir)).2 = .error e) :
      Breaks path lockName t turn (.makingDirs next) (.io dir e)
  | opening {e : FileError} {next : Dictionary}
      (failed : turn = .fails e ∨ t.openEmpty (stagingPath path) = .error e) :
      Breaks path lockName t turn (.opening next) (.io (stagingPath path) e)
  | writing {e : FileError} {next : Dictionary} {file : Location} {rest : Bytes}
      (failed : turn = .fails e) :
      Breaks path lockName t turn (.writing next file rest) (.io (stagingPath path) e)
  | syncing {e : FileError} {next : Dictionary} (failed : turn = .fails e) :
      Breaks path lockName t turn (.syncing next) (.io (stagingPath path) e)
  | replacing {e : FileError} {next : Dictionary}
      (failed : turn = .fails e ∨ t.rename (stagingPath path) path = .error e) :
      Breaks path lockName t turn (.replacing next) (.io path e)

def Stage.isEarly : Stage → Bool
  | .locking | .reading => true
  | _ => false

def Stage.isTrying : Stage → Bool
  | .unlocking _ | .done _ => false
  | _ => true

inductive Fares (path lockName : String) (t : FileTree) (memory : Dictionary) (turn : Turn) :
    Stage → Work → Prop where
  | refused {e : StorageError} (why : Breaks path lockName t turn .locking e) :
      Fares path lockName t memory turn .locking ⟨t, memory, .done (.error e)⟩
  | enters : Fares path lockName t memory turn .locking ⟨t, memory, .reading⟩
  | breaks {stage : Stage} {u : FileTree} {e : StorageError}
      (why : Breaks path lockName t turn stage e) (untouched : stage.isEarly = true → u = t) :
      Fares path lockName t memory turn stage ⟨u, memory, .unlocking (.error e)⟩
  | goesOn {stage : Stage} {u : FileTree} {next : Stage} (trying : next.isTrying = true)
      (late : next.isEarly = false) : Fares path lockName t memory turn stage ⟨u, memory, next⟩
  | keeps {stage : Stage} {next : Dictionary} :
      Fares path lockName t memory turn stage ⟨t, next, .unlocking (.ok ())⟩

variable {path lockName : String} {job : Job} {t u : FileTree} {memory : Dictionary} {turn : Turn}
  {stage : Stage}

theorem Fares.late {e : StorageError} (why : Breaks path lockName t turn stage e)
    (late : stage.isEarly = false) :
    Fares path lockName t memory turn stage ⟨u, memory, .unlocking (.error e)⟩ :=
  .breaks why fun early => absurd (early.symm.trans late) (by simp)

theorem faresReading : Fares path lockName t memory turn .reading
    (Work.step path lockName job turn ⟨t, memory, .reading⟩) := by
  simp only [Work.step]
  split
  · rename_i e failed
    exact .breaks (.reading failed) fun _ => rfl
  · rename_i calm
    cases records : readRecords t path with
    | ok found =>
      cases job with
      | reload => exact .goesOn rfl rfl
      | update c =>
        simp only [Work.afterRead]
        split <;> exact .goesOn rfl rfl
    | error e =>
      refine .breaks ?_ fun _ => rfl
      unfold readRecords at records
      split at records
      · rename_i text read
        obtain ⟨before, line, after, parts, fine, bad, rfl⟩ := readLinesFails records
        rw [Nat.add_comm]
        exact .malformed calm read parts fine bad
      · contradiction
      · rename_i e there failed
        cases Except.error.inj records
        exact .unreadable calm failed there

theorem fares (trying : stage.isTrying = true) :
    Fares path lockName t memory turn stage (Work.step path lockName job turn ⟨t, memory, stage⟩) := by
  cases stage with
  | unlocking r | done r => contradiction
  | reading => exact faresReading
  | locking =>
    simp only [Work.step]
    split
    · exact .refused (.locking rfl)
    · exact .enters
  | makingDirs next =>
    simp only [Work.step]
    split
    · exact .goesOn rfl rfl
    · rename_i folder
      split
      · exact .late (.makingDirs folder (.inl rfl)) rfl
      · split
        · exact .goesOn rfl rfl
        · rename_i failed
          exact .late (.makingDirs folder (.inr (congrArg Prod.snd failed))) rfl
  | opening next =>
    simp only [Work.step]
    split
    · exact .late (.opening (.inl rfl)) rfl
    · split
      · exact .goesOn rfl rfl
      · rename_i failed
        exact .late (.opening (.inr failed)) rfl
  | writing next file rest =>
    simp only [Work.step]
    split
    · exact .late (.writing rfl) rfl
    · exact .goesOn rfl rfl
    · exact .goesOn rfl rfl
  | syncing next =>
    simp only [Work.step]
    split
    · exact .late (.syncing rfl) rfl
    · exact .goesOn rfl rfl
  | replacing next =>
    simp only [Work.step]
    split
    · exact .late (.replacing (.inl rfl)) rfl
    · split
      · exact .goesOn rfl rfl
      · rename_i failed
        exact .late (.replacing (.inr failed)) rfl
  | keeping next => exact .keeps

namespace Sharing

structure Alike (s t : Sharing) (n : Nat) : Prop where
  desk : t.desks[n]? = s.desks[n]?
  answers : ∀ q, t.told n q = s.told n q

def Untouched (n : Nat) (past : List Moment) : Prop :=
  ∀ m ∈ past, m.isOf n → m.after.tree = m.before.tree

/- One of the calls went wrong, for a reason that gives this error. Up to the reading of the file it left
all files alone, and so did what came after it. -/
def Broke (n : Nat) (op : Operation) (past : List Moment) (e : StorageError) : Prop :=
  ∃ m ∈ past, ∃ turn stage, m.action = .advance n turn ∧ IsAt m.before n op stage ∧
    Breaks m.before.path m.before.lockName m.before.tree turn stage e ∧
    (stage.isEarly = true → Untouched n past)

def Tried (n : Nat) (op : Operation) (old : Dictionary) (past : List Moment) (memory : Dictionary) :
    Stage → Prop
  | .locking | .reading => memory = old ∧ Untouched n past
  | .unlocking (.ok ()) => True
  | .unlocking (.error e) => memory = old ∧ Broke n op past e
  | .done _ => False
  | _ => memory = old

def Trying (n : Nat) (op : Operation) (d : Desk) (past : List Moment) (s : Sharing) : Prop :=
  ∃ stage memory, s.desks[n]? = some { memory, isOpen := d.isOpen, task := some (op, stage) } ∧
    Tried n op d.memory past memory stage

variable {s t : Sharing} {a : Action} {es : List Event} {past : List Moment} {n k : Nat} {d : Desk}
  {op : Operation} {m : Moment} {old : Dictionary} {stage : Stage} {e : StorageError}

theorem Untouched.later (still : Untouched n past) (same : m.isOf n → m.after.tree = m.before.tree) :
    Untouched n (past ++ [m]) := by
  intro k member
  rcases List.mem_append.mp member with before | last
  · exact still k before
  · cases List.mem_singleton.mp last
    exact same

theorem Broke.later (broke : Broke n op past e) (same : m.isOf n → m.after.tree = m.before.tree) :
    Broke n op (past ++ [m]) e := by
  obtain ⟨k, member, turn, stage, advances, at_, why, untouched⟩ := broke
  exact ⟨k, List.mem_append_left _ member, turn, stage, advances, at_, why,
    fun early => (untouched early).later same⟩

theorem Tried.later (tried : Tried n op old past memory stage)
    (same : m.isOf n → m.after.tree = m.before.tree) : Tried n op old (past ++ [m]) memory stage := by
  cases stage with
  | locking | reading => exact ⟨tried.1, tried.2.later same⟩
  | unlocking r =>
    cases r with
    | ok => trivial
    | error e => exact ⟨tried.1, tried.2.later same⟩
  | done r => exact absurd tried id
  | makingDirs | opening | writing | syncing | replacing | keeping => exact tried

theorem Tried.early (tried : Tried n op old past memory stage) (trying : stage.isTrying = true) :
    memory = old ∧ (stage.isEarly = true → Untouched n past) := by
  cases stage with
  | locking | reading => exact ⟨tried.1, fun _ => tried.2⟩
  | unlocking | done => contradiction
  | makingDirs | opening | writing | syncing | replacing | keeping =>
    exact ⟨tried, fun early => absurd early (by simp [Stage.isEarly])⟩

theorem Tried.more {next : Stage} (same : memory = old) (trying : next.isTrying = true)
    (late : next.isEarly = false) : Tried n op old past memory next := by
  cases next with
  | locking | reading => contradiction
  | unlocking | done => contradiction
  | makingDirs | opening | writing | syncing | replacing | keeping => exact same

theorem Tried.calls {w : Work} (tried : Tried n op old past memory stage) (at_ : IsAt m.before n op stage)
    (advances : m.action = .advance n turn) (after : m.after.tree = w.tree)
    (work : w = Work.step m.before.path m.before.lockName op.job turn ⟨m.before.tree, memory, stage⟩) :
    (∃ e, w.stage = .done (.error e) ∧ w.memory = old ∧ Broke n op (past ++ [m]) e) ∨
      w.stage = .done (.ok ()) ∨ Tried n op old (past ++ [m]) w.memory w.stage := by
  by_cases trying : stage.isTrying = true
  · obtain ⟨same, untouched⟩ := tried.early trying
    have broke : ∀ {e}, Breaks m.before.path m.before.lockName m.before.tree turn stage e →
        (stage.isEarly = true → w.tree = m.before.tree) → Broke n op (past ++ [m]) e := by
      intro e why still
      refine ⟨m, List.mem_append_right _ List.mem_cons_self, turn, stage, advances, at_, why, ?_⟩
      exact fun early => (untouched early).later fun _ => after.trans (still early)
    have fared : Fares m.before.path m.before.lockName m.before.tree memory turn stage w :=
      work ▸ fares trying
    cases fared with
    | refused why => exact .inl ⟨_, rfl, same, broke why fun _ => rfl⟩
    | enters => exact .inr (.inr ⟨same, (untouched rfl).later fun _ => after⟩)
    | breaks why still => exact .inr (.inr ⟨same, broke why still⟩)
    | goesOn trying late => exact .inr (.inr (.more same trying late))
    | keeps => exact .inr (.inr trivial)
  · cases stage with
    | unlocking r =>
      subst work
      cases r with
      | ok => exact .inr (.inl rfl)
      | error e => exact .inl ⟨e, rfl, tried.1, tried.2.later fun _ => after⟩
    | done r => exact absurd tried id
    | _ => exact absurd rfl trying

theorem Tried.desk (tried : Tried n op old past memory stage) (x : Dictionary) :
    deskAfter d op x stage = { memory := x, isOpen := d.isOpen, task := some (op, stage) } := by
  cases stage with
  | done r => exact absurd tried id
  | _ => rfl

theorem beginTrying (next : s.step (.start n op) = some (t, es)) :
    ∃ d, s.desks[n]? = some d ∧ d.task = none ∧ Trying n op d [⟨s, .start n op, t, es⟩] t := by
  cases stepActs next with
  | @begins _ _ d idle =>
    obtain ⟨found, none⟩ := idleDesk idle
    refine ⟨d, found, none, .locking, d.memory, deskSet found _, rfl, ?_⟩
    intro m only _
    cases List.mem_singleton.mp only
    rfl

theorem Trying.next (trying : Trying n op d past m.before)
    (next : m.before.step m.action = some (m.after, m.events)) (quiet : ∀ op r, ¬ m.ends n op r) :
    Trying n op d (past ++ [m]) m.after := by
  obtain ⟨stage, memory, found, tried⟩ := trying
  by_cases mine : m.isOf n
  · obtain ⟨turn, w, advances, work, tree, desk, events⟩ := (stepActs next).atWork found rfl mine
    have loud : ∀ r, w.stage = .done r → m.ends n op r := by
      intro r done
      rw [Moment.ends, events, done]
      exact List.mem_cons_self
    rcases tried.calls ⟨_, found, rfl⟩ advances tree work with ⟨e, done, _⟩ | done | still
    · exact absurd (loud _ done) (quiet op _)
    · exact absurd (loud _ done) (quiet op _)
    · exact ⟨w.stage, w.memory, desk.trans (congrArg some (still.desk w.memory)), still⟩
  · exact ⟨stage, memory, (stepActs next).elsewhere found mine, tried.later fun own => absurd own mine⟩

theorem Trying.failed {op' : Operation} (trying : Trying n op d past m.before)
    (next : m.before.step m.action = some (m.after, m.events)) (ended : m.ends n op' (.error e)) :
    m.after.desks[n]? = some { memory := d.memory, isOpen := d.isOpen } ∧
      Broke n op (past ++ [m]) e := by
  obtain ⟨stage, memory, found, tried⟩ := trying
  have mine := (stepActs next).ended ended
  obtain ⟨turn, w, advances, work, tree, desk, events⟩ := (stepActs next).atWork found rfl mine
  rw [Moment.ends, events] at ended
  obtain ⟨r, stops, same⟩ := callEvent ended
  cases same
  rcases tried.calls ⟨_, found, rfl⟩ advances tree work with ⟨e', done, kept, broke⟩ | done | still
  · cases stops.symm.trans done
    rw [desk, stops, kept]
    exact ⟨rfl, broke⟩
  · cases stops.symm.trans done
  · rw [stops] at still
    exact absurd still id

structure Failed (s t : Sharing) (ms : List Moment) (n : Nat) (op : Operation) (e : StorageError) :
    Prop where
  own : Alike s t n
  others : ∀ m ∈ ms, m.isOf n → ∀ k, k ≠ n → Alike m.before m.after k
  reason : Broke n op ms e

/- From any state whatever, and whatever other handles do meanwhile: an operation that fails is
remembered by nobody, and its error is that of the call which went wrong. A missing file is empty. -/
theorem failuresAreForgotten {first last : Moment} {work : List Moment}
    (course : Course s (first :: (work ++ [last])) t) (begun : first.action = .start n op)
    (busy : ∀ m ∈ work, ∀ op r, ¬ m.ends n op r) (failed : last.ends n op (.error e)) :
    Failed s t (first :: (work ++ [last])) n op e ∧
      ∀ (u : FileTree) (h : Handle), u.readText h.path = .error .notFound →
        Store.reload u h = (u, { h with memory := .empty }, .ok ()) := by
  have others : ∀ m ∈ first :: (work ++ [last]), m.isOf n → ∀ k, k ≠ n → Alike m.before m.after k := by
    intro m there mine k other
    have acts := stepActs (course.member there)
    have desk := acts.others mine other
    exact ⟨desk, toldSame desk ⟨acts.place.1, acts.place.2.1⟩⟩
  have place := course.place
  cases course with
  | @step _ u _ a es _ next later =>
    cases begun
    obtain ⟨before, ending, rest⟩ := later.around
    obtain ⟨d, found, none, trying⟩ := beginTrying next
    have still : Trying n op d (⟨s, .start n op, u, es⟩ :: work) last.before := by
      refine before.keeps (P := fun past s' => Trying n op d (⟨s, .start n op, u, es⟩ :: past) s') ?_ trying
      rintro past m post rfl trying step
      exact trying.next step (busy m (by simp))
    obtain ⟨desk, broke⟩ := still.failed ending failed
    cases rest with
    | rest =>
      have same : last.after.desks[n]? = s.desks[n]? := by
        rw [desk, found, ← none]
      exact ⟨⟨⟨same, toldSame same place⟩, others, broke⟩,
        fun u h absent => reloadGoes (absentRecords absent)⟩

def spoiled : Sharing :=
  { path := "store", lockName := "/lock", segment := 0
    tree := FileTree.fresh.plant "store" (.file (Text.toBytes "a=1\nbroken\n"))
    host := { segments := [{ sized := true, initialised := 1, ready := true }] }
    desks := [{ memory := ⟨[("a", "1")], by decide⟩, isOpen := true }, { isOpen := true }] }

def spoiledSchedule : List Action :=
  [.start 0 (.set "b" "2"), .start 1 .clear, .advance 0 .goes, .advance 0 .goes,
    .advance 1 (.lockFails .neverReady), .advance 0 .goes]

def Event.isEnd (n : Nat) : Event → Bool
  | .ended m _ _ => m == n
  | _ => false

theorem quietMoment {m : Moment} (quiet : m.events.all (fun e => !e.isEnd n) = true)
    (op : Operation) (r : Except StorageError Unit) : ¬ m.ends n op r := by
  intro ended
  have still := List.all_eq_true.mp quiet _ ended
  simp [Event.isEnd] at still

theorem spoiledFileIsLeftAlone : ∃ first work last t,
    Course spoiled (first :: (work ++ [last])) t ∧ first.action = .start 0 (.set "b" "2") ∧
    (∀ m ∈ work, ∀ op r, ¬ m.ends 0 op r) ∧
    last.ends 0 (.set "b" "2") (.error (.malformedRecord 2)) ∧
    Failed spoiled t (first :: (work ++ [last])) 0 (.set "b" "2") (.malformedRecord 2) ∧
    t.told 0 (.get "a") = some (.value (some "1")) := by
  have smooth : (spoiled.film spoiledSchedule).any (fun r =>
      r.1.head?.any (fun first => decide (first.action = .start 0 (.set "b" "2"))) &&
      (r.1.tail.dropLast.all (fun m => m.events.all fun e => !e.isEnd 0) &&
      r.1.tail.getLast?.any fun last =>
        decide (.ended 0 (.set "b" "2") (.error (.malformedRecord 2)) ∈ last.events))) = true := by
    decide +kernel
  obtain ⟨⟨ms, t⟩, played, fine⟩ := (Option.any_eq_true _ _).mp smooth
  have course := filmCourse played
  obtain ⟨begins, fine⟩ := Bool.and_eq_true_iff.mp fine
  obtain ⟨quiet, ends⟩ := Bool.and_eq_true_iff.mp fine
  obtain ⟨first, head, starts⟩ := (Option.any_eq_true _ _).mp begins
  obtain ⟨last, final, broken⟩ := (Option.any_eq_true _ _).mp ends
  obtain ⟨rest, rfl⟩ := List.head?_eq_some_iff.mp head
  obtain ⟨work, rfl⟩ := List.getLast?_eq_some_iff.mp final
  have begun : first.action = .start 0 (.set "b" "2") := of_decide_eq_true starts
  have busy : ∀ m ∈ work, ∀ op r, ¬ m.ends 0 op r := fun m there =>
    quietMoment (List.all_eq_true.mp quiet m (by simpa using there))
  have failed : Event.ended 0 (.set "b" "2") (.error (.malformedRecord 2)) ∈ last.events :=
    of_decide_eq_true broken
  have left := (failuresAreForgotten course begun busy failed).1
  exact ⟨first, work, last, t, course, begun, busy, failed, left,
    (left.own.answers (.get "a")).trans (by decide +kernel)⟩

end Sharing
end FirewallAgent.Store

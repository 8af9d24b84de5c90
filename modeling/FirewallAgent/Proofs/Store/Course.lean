import FirewallAgent.Proofs.Lock.Segment
import FirewallAgent.Store.Sharing
import Mathlib.Control.Monad.Basic

/-! Handles on one store, moment by moment. Whoever holds the lock is at work and everyone else waits for
it, so a call is one of four: a lock refused or taken, a step inside, or the lock given back. -/
namespace FirewallAgent.Store

def Stage.isInside : Stage → Bool
  | .locking => false
  | .done _ => false
  | _ => true

theorem insideStep {path lockName : String} {job : Job} {w : Work} (turn : Turn)
    (inside : w.stage.isInside = true) (more : ∀ r, w.stage ≠ .unlocking r) :
    (w.step path lockName job turn).stage.isInside = true := by
  obtain ⟨tree, memory, stage⟩ := w
  cases stage with
  | locking => contradiction
  | done r => contradiction
  | unlocking r => exact absurd rfl (more r)
  | keeping next => rfl
  | reading =>
    simp only [Work.step]
    split
    · rfl
    · cases readRecords tree path with
      | error e => rfl
      | ok found =>
        cases job with
        | reload => rfl
        | update c => simp only [Work.afterRead]; split <;> rfl
  | makingDirs | opening | writing | syncing | replacing =>
    simp only [Work.step]
    repeat' split
    all_goals rfl

theorem lockingStep (path lockName : String) (job : Job) (turn : Turn) (t : FileTree)
    (memory : Dictionary) :
    Work.step path lockName job turn ⟨t, memory, .locking⟩ = ⟨t, memory, .reading⟩ ∨
      ∃ f, turn = .lockFails f ∧ Work.step path lockName job turn ⟨t, memory, .locking⟩ =
        ⟨t, memory, .done (.error (.lock lockName f))⟩ := by
  cases turn with
  | lockFails f => exact .inr ⟨f, rfl, rfl⟩
  | goes => exact .inl rfl
  | writes n => exact .inl rfl
  | fails e => exact .inl rfl

namespace Sharing

deriving instance DecidableEq for Event

structure Moment where
  before : Sharing
  action : Action
  after : Sharing
  events : List Event

inductive Course : Sharing → List Moment → Sharing → Prop where
  | rest {s : Sharing} : Course s [] s
  | step {s t u : Sharing} {a : Action} {es : List Event} {later : List Moment}
      (next : s.step a = some (t, es)) (course : Course t later u) :
      Course s (⟨s, a, t, es⟩ :: later) u

def Action.desk? : Action → Option Nat
  | .attach => none
  | .start n _ | .advance n _ | .ask n _ => some n

def Moment.isOf (m : Moment) (n : Nat) : Prop := m.action.desk? = some n

def Moment.ends (m : Moment) (n : Nat) (op : Operation) (r : Except StorageError Unit) : Prop :=
  .ended n op r ∈ m.events

def IsAt (s : Sharing) (n : Nat) (op : Operation) (stage : Stage) : Prop :=
  ∃ d, s.desks[n]? = some d ∧ d.task = some (op, stage)

variable {s t : Sharing} {a : Action} {es : List Event} {past ms : List Moment} {n m : Nat} {d x : Desk}
  {op : Operation} {stage : Stage} {turn : Turn}

theorem Course.split {xs ys : List Moment} (course : Course s (xs ++ ys) t) :
    ∃ u, Course s xs u ∧ Course u ys t := by
  induction xs generalizing s with
  | nil => exact ⟨s, .rest, course⟩
  | cons m rest ih =>
    cases course with
    | step next later =>
      obtain ⟨u, first, last⟩ := ih later
      exact ⟨u, .step next first, last⟩

theorem Course.around {xs ys : List Moment} {m : Moment} (course : Course s (xs ++ m :: ys) t) :
    Course s xs m.before ∧ m.before.step m.action = some (m.after, m.events) ∧ Course m.after ys t := by
  obtain ⟨u, first, last⟩ := course.split
  cases last with
  | step next later => exact ⟨first, next, later⟩

theorem Course.member {m : Moment} (course : Course s ms t) (there : m ∈ ms) :
    m.before.step m.action = some (m.after, m.events) := by
  obtain ⟨xs, ys, rfl⟩ := List.append_of_mem there
  exact course.around.2.1

theorem Course.keeps {P : List Moment → Sharing → Prop} (course : Course s ms t)
    (keep : ∀ past m post, ms = past ++ m :: post → P past m.before →
      m.before.step m.action = some (m.after, m.events) → P (past ++ [m]) m.after)
    (start : P [] s) : P ms t := by
  suffices ∀ past post u, ms = past ++ post → Course u post t → P past u → P ms t from
    this [] ms s rfl course start
  intro past post u parts later held
  induction later generalizing past with
  | rest => simpa [parts] using held
  | @step u v _ a es post next later ih =>
    refine ih course (past ++ [⟨u, a, v, es⟩]) (by simpa using parts) ?_
    exact keep past ⟨u, a, v, es⟩ post parts held next

theorem deskSet (found : s.desks[n]? = some d) (x : Desk) : (s.setDesk n x).desks[n]? = some x := by
  obtain ⟨bound, _⟩ := List.getElem?_eq_some_iff.mp found
  simp [setDesk, bound]

theorem deskOther (x : Desk) (other : m ≠ n) : (s.setDesk n x).desks[m]? = s.desks[m]? := by
  simp [setDesk, List.getElem?_set_ne (Ne.symm other)]

theorem idleDesk (idle : s.idle? n = some d) : s.desks[n]? = some d ∧ d.task = none := by
  unfold idle? at idle
  obtain ⟨found, test⟩ := Option.filter_eq_some_iff.mp idle
  refine ⟨found, ?_⟩
  have both : d.isOpen = true ∧ d.task.isNone = true := by simpa using test
  exact Option.isNone_iff_eq_none.mp both.2

theorem IsAt.same {op' : Operation} {stage' : Stage} (at_ : IsAt s n op stage)
    (also : IsAt s n op' stage') : op = op' ∧ stage = stage' := by
  obtain ⟨d, found, task⟩ := at_
  obtain ⟨d', found', task'⟩ := also
  cases Option.some.inj (found.symm.trans found')
  cases Option.some.inj (task.symm.trans task')
  exact ⟨rfl, rfl⟩

theorem IsAt.idle (at_ : IsAt s n op stage) : s.idle? n = none := by
  obtain ⟨d, found, task⟩ := at_
  simp [idle?, found, task]

theorem IsAt.fromSet (at_ : IsAt (s.setDesk n x) m op stage) :
    (m = n ∧ x.task = some (op, stage)) ∨ (m ≠ n ∧ IsAt s m op stage) := by
  obtain ⟨e, found, task⟩ := at_
  by_cases same : m = n
  · subst same
    obtain ⟨bound, rfl⟩ := List.getElem?_eq_some_iff.mp found
    exact .inl ⟨rfl, by simpa [setDesk] using task⟩
  · exact .inr ⟨same, e, (deskOther x same).symm.trans found, task⟩

theorem IsAt.set (found : s.desks[n]? = some d) (task : x.task = some (op, stage)) :
    IsAt (s.setDesk n x) n op stage := ⟨x, deskSet found x, task⟩

theorem IsAt.other (at_ : IsAt s m op stage) (other : m ≠ n) : IsAt (s.setDesk n x) m op stage := by
  obtain ⟨e, found, task⟩ := at_
  exact ⟨e, (deskOther x other).trans found, task⟩

def told (s : Sharing) (n : Nat) (q : Query) : Option Reply :=
  (s.idle? n).map fun d => q.reply ⟨s.path, s.lockName, d.memory⟩

theorem toldSame (desk : t.desks[n]? = s.desks[n]?) (place : t.path = s.path ∧ t.lockName = s.lockName)
    (q : Query) : t.told n q = s.told n q := by
  simp only [told, idle?, desk, place]

theorem toldIdle (found : s.desks[n]? = some d) (ready : d.isOpen = true) (idle : d.task = none)
    (q : Query) : s.told n q = some (q.reply ⟨s.path, s.lockName, d.memory⟩) := by
  simp [told, idle?, found, Option.filter, ready, idle]

inductive Acts (s : Sharing) : Action → Sharing → List Event → Prop where
  | attaches :
      Acts s .attach { s with desks := s.desks ++ [{ task := some (.openStore, .locking) }] } []
  | begins {n : Nat} {op : Operation} {d : Desk} (idle : s.idle? n = some d) :
      Acts s (.start n op) (s.setDesk n { d with task := some (op, .locking) }) []
  | calls {n : Nat} {turn : Turn} {d : Desk} {op : Operation} {stage : Stage} {w : Work}
      {host : Lock.Host} (found : s.desks[n]? = some d) (task : d.task = some (op, stage))
      (work : w = Work.step s.path s.lockName op.job turn ⟨s.tree, d.memory, stage⟩)
      (locked : s.lockAfter n stage w.stage = some host) :
      Acts s (.advance n turn)
        ({ s with tree := w.tree, host }.setDesk n (deskAfter d op w.memory w.stage))
        (eventsAfter n op w.stage)
  | answers {n : Nat} {q : Query} {d : Desk} (idle : s.idle? n = some d) :
      Acts s (.ask n q) s [.answered n q (q.reply ⟨s.path, s.lockName, d.memory⟩)]

theorem stepActs (next : s.step a = some (t, es)) : Acts s a t es := by
  cases a with
  | attach =>
    cases Option.some.inj next
    exact .attaches
  | start n op =>
    obtain ⟨d, idle, same⟩ := Option.map_eq_some_iff.mp next
    cases same
    exact .begins idle
  | advance n turn =>
    simp only [step, stepDesk, bind, Option.bind_eq_some_iff] at next
    obtain ⟨d, found, ⟨op, stage⟩, task, host, locked, last⟩ := next
    cases Option.some.inj last
    exact .calls found task rfl locked
  | ask n q =>
    obtain ⟨d, idle, same⟩ := Option.map_eq_some_iff.mp next
    cases same
    exact .answers idle

theorem Acts.place (acts : Acts s a t es) :
    t.path = s.path ∧ t.lockName = s.lockName ∧ t.segment = s.segment := by
  cases acts <;> exact ⟨rfl, rfl, rfl⟩

theorem Acts.elsewhere (acts : Acts s a t es) (found : s.desks[m]? = some d)
    (other : a.desk? ≠ some m) : t.desks[m]? = some d := by
  have apart : ∀ {n : Nat}, some n ≠ some m → m ≠ n := fun differ same => differ (same ▸ rfl)
  cases acts with
  | attaches =>
    obtain ⟨bound, _⟩ := List.getElem?_eq_some_iff.mp found
    exact (List.getElem?_append_left bound).trans found
  | begins idle => exact (deskOther _ (apart other)).trans found
  | calls at_ task work locked => exact (deskOther _ (apart other)).trans found
  | answers idle => exact found

theorem Acts.others (acts : Acts s a t es) (mine : a.desk? = some n) (other : m ≠ n) :
    t.desks[m]? = s.desks[m]? := by
  cases acts with
  | attaches => contradiction
  | answers idle => rfl
  | begins idle | calls found task work locked =>
    cases mine
    exact deskOther _ other

theorem Course.place (course : Course s ms t) : t.path = s.path ∧ t.lockName = s.lockName := by
  induction course with
  | rest => exact ⟨rfl, rfl⟩
  | step next _ ih =>
    have here := (stepActs next).place
    exact ⟨ih.1.trans here.1, ih.2.trans here.2.1⟩

theorem callEvent {e : Event} (there : e ∈ eventsAfter n op stage) :
    ∃ r, stage = .done r ∧ e = .ended n op r := by
  unfold eventsAfter at there
  split at there
  · exact ⟨_, rfl, List.mem_singleton.mp there⟩
  · contradiction

theorem Acts.answered {q : Query} {r : Reply} (acts : Acts s a t es) (there : .answered n q r ∈ es) :
    s.told n q = some r := by
  cases acts with
  | attaches | begins => contradiction
  | calls =>
    obtain ⟨_, _, same⟩ := callEvent there
    contradiction
  | answers idle =>
    cases List.mem_singleton.mp there
    simp [told, idle]

theorem Acts.ended {r : Except StorageError Unit} (acts : Acts s a t es)
    (there : .ended n op r ∈ es) : a.desk? = some n := by
  cases acts with
  | attaches | begins => contradiction
  | answers => exact absurd (List.mem_singleton.mp there) (by simp)
  | calls =>
    obtain ⟨_, _, same⟩ := callEvent there
    cases same
    rfl

theorem Acts.atWork (acts : Acts s a t es) (found : s.desks[n]? = some d)
    (task : d.task = some (op, stage)) (mine : a.desk? = some n) : ∃ turn w, a = .advance n turn ∧
      w = Work.step s.path s.lockName op.job turn ⟨s.tree, d.memory, stage⟩ ∧ t.tree = w.tree ∧
      t.desks[n]? = some (deskAfter d op w.memory w.stage) ∧ es = eventsAfter n op w.stage := by
  have busy : s.idle? n = none := IsAt.idle ⟨d, found, task⟩
  cases acts with
  | attaches => contradiction
  | begins idle | answers idle =>
    cases mine
    exact absurd (idle.symm.trans busy) (by simp)
  | @calls _ turn d' _ _ w host found' task' work locked =>
    cases mine
    cases Option.some.inj (found.symm.trans found')
    cases Option.some.inj (task.symm.trans task')
    exact ⟨turn, w, rfl, work, rfl, deskSet found _, rfl⟩

/- The handle that holds the lock is at work, and every other one is idle or waits for the lock. -/
structure Attended (s : Sharing) : Prop where
  inside : ∀ n, s.host.owner? s.segment = some n → ∃ op stage, IsAt s n op stage ∧
    stage.isInside = true
  outside : ∀ n op stage, IsAt s n op stage → s.host.owner? s.segment ≠ some n → stage = .locking

theorem Attended.notOwner (attended : Attended s)
    (away : ∀ op stage, IsAt s n op stage → stage.isInside = false) :
    s.host.owner? s.segment ≠ some n := by
  intro owner
  obtain ⟨op, stage, at_, inside⟩ := attended.inside n owner
  exact absurd (inside.symm.trans (away op stage at_)) (by simp)

theorem Attended.idleApart (attended : Attended s) (idle : s.idle? n = some d) :
    s.host.owner? s.segment ≠ some n :=
  attended.notOwner fun _ _ at_ => absurd (idle.symm.trans at_.idle) (by simp)

theorem Attended.waitingApart (attended : Attended s) (waits : IsAt s n op .locking) :
    s.host.owner? s.segment ≠ some n :=
  attended.notOwner fun _ _ at_ => (waits.same at_).2 ▸ rfl

inductive Serves (s : Sharing) (n : Nat) (turn : Turn) (d : Desk) (op : Operation) :
    Stage → Sharing → List Event → Prop where
  | refused {f : LockFault} (failed : turn = .lockFails f) :
      Serves s n turn d op .locking (s.setDesk n { memory := d.memory, isOpen := d.isOpen })
        [.ended n op (.error (.lock s.lockName f))]
  | enters {host : Lock.Host} (taken : s.host.acquire? s.segment n = some host) :
      Serves s n turn d op .locking
        ({ s with host }.setDesk n { d with task := some (op, .reading) }) []
  | works {stage : Stage} {w : Work} (owner : s.host.owner? s.segment = some n)
      (inside : stage.isInside = true)
      (work : w = Work.step s.path s.lockName op.job turn ⟨s.tree, d.memory, stage⟩)
      (stays : w.stage.isInside = true) :
      Serves s n turn d op stage
        ({ s with tree := w.tree }.setDesk n
          { memory := w.memory, isOpen := d.isOpen, task := some (op, w.stage) }) []
  | leaves {r : Except StorageError Unit} (owner : s.host.owner? s.segment = some n) :
      Serves s n turn d op (.unlocking r)
        ({ s with host := s.host.release s.segment n }.setDesk n (deskAfter d op d.memory (.done r)))
        [.ended n op r]

theorem Attended.serves (attended : Attended s) {w : Work} {host : Lock.Host}
    (found : s.desks[n]? = some d) (task : d.task = some (op, stage))
    (work : w = Work.step s.path s.lockName op.job turn ⟨s.tree, d.memory, stage⟩)
    (locked : s.lockAfter n stage w.stage = some host) :
    Serves s n turn d op stage
      ({ s with tree := w.tree, host }.setDesk n (deskAfter d op w.memory w.stage))
      (eventsAfter n op w.stage) := by
  have here : IsAt s n op stage := ⟨d, found, task⟩
  by_cases owner : s.host.owner? s.segment = some n
  · obtain ⟨_, _, at_, inside⟩ := attended.inside n owner
    obtain ⟨rfl, rfl⟩ := here.same at_
    by_cases last : ∃ r, stage = .unlocking r
    · obtain ⟨r, rfl⟩ := last
      subst work
      cases Option.some.inj locked
      exact .leaves owner
    · have stays : w.stage.isInside = true :=
        work ▸ insideStep turn inside fun r same => last ⟨r, same⟩
      have sameHost : host = s.host := by
        cases stage <;> first | contradiction | exact absurd ⟨_, rfl⟩ last | skip
        all_goals exact (Option.some.inj locked).symm
      subst sameHost
      have desk : deskAfter d op w.memory w.stage =
          { memory := w.memory, isOpen := d.isOpen, task := some (op, w.stage) } := by
        cases same : w.stage <;> first | rfl | (rw [same] at stays; contradiction)
      have silent : eventsAfter n op w.stage = [] := by
        cases same : w.stage <;> first | rfl | (rw [same] at stays; contradiction)
      rw [desk, silent]
      exact .works owner inside work stays
  · cases attended.outside n op stage here owner
    rcases lockingStep s.path s.lockName op.job turn s.tree d.memory with taken | ⟨f, failed, refused⟩
    · rw [taken] at work
      subst work
      exact .enters locked
    · rw [refused] at work
      subst work
      cases Option.some.inj locked
      exact .refused failed

theorem Attended.begins (attended : Attended s) (idle : s.idle? n = some d) (op : Operation) :
    Attended (s.setDesk n { d with task := some (op, .locking) }) where
  inside m owner := by
    obtain ⟨op', stage, at_, inside⟩ := attended.inside m owner
    have other : m ≠ n := fun same => attended.idleApart idle (same ▸ owner)
    exact ⟨op', stage, at_.other other, inside⟩
  outside m op' stage at_ owner := by
    rcases at_.fromSet with ⟨rfl, same⟩ | ⟨_, old⟩
    · cases same
      rfl
    · exact attended.outside m op' stage old owner

theorem Attended.attaches (attended : Attended s) :
    Attended { s with desks := s.desks ++ [{ task := some (.openStore, .locking) }] } where
  inside n owner := by
    obtain ⟨op, stage, ⟨d, found, task⟩, inside⟩ := attended.inside n owner
    obtain ⟨bound, _⟩ := List.getElem?_eq_some_iff.mp found
    exact ⟨op, stage, ⟨d, (List.getElem?_append_left bound).trans found, task⟩, inside⟩
  outside n op stage at_ owner := by
    obtain ⟨d, found, task⟩ := at_
    by_cases old : n < s.desks.length
    · rw [List.getElem?_append_left old] at found
      exact attended.outside n op stage ⟨d, found, task⟩ owner
    · rw [List.getElem?_append_right (Nat.le_of_not_lt old)] at found
      cases List.mem_singleton.mp (List.mem_of_getElem? found)
      cases task
      rfl

theorem Attended.served (attended : Attended s) (found : s.desks[n]? = some d)
    (serves : Serves s n turn d op stage t es) (task : d.task = some (op, stage)) : Attended t := by
  cases serves with
  | refused failed =>
    have free := attended.waitingApart ⟨d, found, task⟩
    refine ⟨?_, ?_⟩
    · intro k owner
      obtain ⟨op', stage', at_, inside⟩ := attended.inside k owner
      exact ⟨op', stage', at_.other fun same => free (same ▸ owner), inside⟩
    · intro k op' stage' at_ owner
      rcases at_.fromSet with ⟨rfl, none⟩ | ⟨_, old⟩
      · contradiction
      · exact attended.outside k op' stage' old owner
  | enters taken =>
    obtain ⟨nobody, mine⟩ := Lock.Host.acquiredOwner taken
    refine ⟨?_, ?_⟩
    · intro k owner
      cases Option.some.inj (mine.symm.trans owner)
      exact ⟨op, .reading, .set found rfl, rfl⟩
    · intro k op' stage' at_ owner
      rcases at_.fromSet with ⟨rfl, _⟩ | ⟨_, old⟩
      · exact absurd mine owner
      · exact attended.outside k op' stage' old (by simp [nobody])
  | @works _ w owner inside work stays =>
    refine ⟨?_, ?_⟩
    · intro k holder
      cases Option.some.inj (owner.symm.trans holder)
      exact ⟨op, w.stage, .set found rfl, stays⟩
    · intro k op' stage' at_ holder
      rcases at_.fromSet with ⟨rfl, _⟩ | ⟨_, old⟩
      · exact absurd owner holder
      · exact attended.outside k op' stage' old holder
  | @leaves r owner =>
    have released := Lock.Host.releasedOwner owner
    refine ⟨?_, ?_⟩
    · intro k holder
      exact absurd (released.symm.trans holder) (by simp)
    · intro k op' stage' at_ _
      rcases at_.fromSet with ⟨rfl, same⟩ | ⟨other, old⟩
      · rcases r with _ | _ <;> contradiction
      · refine attended.outside k op' stage' old ?_
        intro holder
        exact other (Option.some.inj (holder.symm.trans owner))

theorem attendedStep (attended : Attended s) (next : s.step a = some (t, es)) : Attended t := by
  cases stepActs next with
  | attaches => exact attended.attaches
  | begins idle => exact attended.begins idle _
  | calls found task work locked => exact attended.served found (attended.serves found task work locked) task
  | answers idle => exact attended

theorem Attended.endedWell (attended : Attended s) (next : s.step a = some (t, es))
    (there : .ended n op (.ok ()) ∈ es) : ∃ d, s.desks[n]? = some d ∧
      d.task = some (op, .unlocking (.ok ())) ∧ s.host.owner? s.segment = some n ∧
      ∀ q, t.told n q = some (q.reply ⟨s.path, s.lockName, d.memory⟩) := by
  cases stepActs next with
  | attaches | begins => contradiction
  | answers => exact absurd (List.mem_singleton.mp there) (by simp)
  | @calls _ _ d _ _ _ _ found task work locked =>
    have serves := attended.serves found task work locked
    generalize eventsAfter _ _ _ = es at serves there
    generalize Sharing.setDesk _ _ _ = t at serves ⊢
    cases serves with
    | refused => exact absurd (List.mem_singleton.mp there) (by simp)
    | enters | works => contradiction
    | leaves owner =>
      cases List.mem_singleton.mp there
      refine ⟨d, found, task, owner, ?_⟩
      have idle := deskSet (s := { s with host := s.host.release s.segment n }) found
        { memory := d.memory, isOpen := true }
      have answers := toldIdle idle rfl rfl
      exact answers

def film (s : Sharing) : List Action → Option (List Moment × Sharing)
  | [] => some ([], s)
  | a :: rest => do
    let (t, es) ← s.step a
    let (later, u) ← t.film rest
    some (⟨s, a, t, es⟩ :: later, u)

theorem filmCourse {as : List Action} (played : s.film as = some (ms, t)) : Course s ms t := by
  induction as generalizing s ms with
  | nil =>
    cases Option.some.inj played
    exact .rest
  | cons a rest ih =>
    simp only [film, bind, Option.bind_eq_some_iff] at played
    obtain ⟨⟨u, es⟩, step, ⟨later, v⟩, tail, last⟩ := played
    cases Option.some.inj last
    exact .step step (ih tail)

end Sharing
end FirewallAgent.Store

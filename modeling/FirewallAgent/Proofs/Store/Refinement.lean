import FirewallAgent.Proofs.Store.Course
import FirewallAgent.Proofs.Store.Ledger

/-! Handles on one store refine the ledger, in every order of their calls. Between critical sections
the file shows the ledger's shared dictionary; inside one, the handle that holds the lock knows what
it found when it took it, and nobody else has touched the file since. -/
namespace FirewallAgent.Store
open FileTree (Holds)

def Keeps (t : FileTree) (path : String) (shared : Dictionary) (written : Bool) : Prop :=
  Shows t path shared ∨
    (t.readText path = .error .notFound ∧ shared = .empty ∧ written = false)

theorem Keeps.records {t : FileTree} {path : String} {shared : Dictionary} {written : Bool}
    (h : Keeps t path shared written) : readRecords t path = .ok shared := by
  rcases h with shows_ | ⟨absent, rfl, _⟩
  · exact shows_.records
  · exact absentRecords absent

namespace Sharing

structure Simulates (s : Sharing) (l : Ledger) (written : Bool) : Prop where
  outside : ∀ n d, s.desks[n]? = some d → s.host.owner? s.segment ≠ some n →
    d.memory = l.snapshots n ∧ ∀ op stage, d.task = some (op, stage) → stage = .locking
  inside : ∀ n, s.host.owner? s.segment = some n → ∃ d op stage before,
    s.desks[n]? = some d ∧ d.task = some (op, stage) ∧ stage.isInside = true ∧
    Keeps before s.path l.shared written ∧
    Reached s.path op.job before (l.snapshots n) ⟨s.tree, d.memory, stage⟩
  free : s.host.owner? s.segment = none → Keeps s.tree s.path l.shared written
  unused : ∀ n, s.desks.length ≤ n → l.snapshots n = .empty

variable {s t : Sharing} {l : Ledger} {written : Bool} {n : Nat} {d : Desk} {op : Operation}

theorem Simulates.idleOutside (sim : Simulates s l written) (found : s.desks[n]? = some d)
    (idle : d.task = none) : s.host.owner? s.segment ≠ some n := by
  intro owner
  obtain ⟨e, op, stage, _, same, task, _⟩ := sim.inside n owner
  cases Option.some.inj (found.symm.trans same)
  rw [idle] at task
  contradiction

theorem simulatesAttach (sim : Simulates s l written) :
    Simulates { s with desks := s.desks ++ [{ task := some (.openStore, .locking) }] } l written := by
  refine ⟨?_, ?_, sim.free, ?_⟩
  · intro n d found owner
    by_cases old : n < s.desks.length
    · rw [List.getElem?_append_left old] at found
      exact sim.outside n d found owner
    · rw [List.getElem?_append_right (Nat.le_of_not_lt old)] at found
      have fresh := List.mem_singleton.mp (List.mem_of_getElem? found)
      subst fresh
      refine ⟨(sim.unused n (Nat.le_of_not_lt old)).symm, ?_⟩
      intro op stage task
      cases task
      rfl
  · intro n owner
    obtain ⟨d, op, stage, before, found, rest⟩ := sim.inside n owner
    obtain ⟨bound, _⟩ := List.getElem?_eq_some_iff.mp found
    exact ⟨d, op, stage, before, (List.getElem?_append_left bound).trans found, rest⟩
  · intro n long
    rw [List.length_append] at long
    exact sim.unused n (by omega)

theorem simulatesStart (sim : Simulates s l written) (idle : s.idle? n = some d) (op : Operation) :
    Simulates (s.setDesk n { d with task := some (op, .locking) }) l written := by
  obtain ⟨found, none⟩ := idleDesk idle
  have notOwner := sim.idleOutside found none
  refine ⟨?_, ?_, sim.free, ?_⟩
  · intro m e at_ owner
    by_cases same : m = n
    · subst same
      rw [deskSet found] at at_
      cases Option.some.inj at_
      refine ⟨(sim.outside m d found notOwner).1, ?_⟩
      intro op stage task
      cases task
      rfl
    · rw [deskOther _ same] at at_
      exact sim.outside m e at_ owner
  · intro m owner
    have other : m ≠ n := fun same => notOwner (same ▸ owner)
    obtain ⟨e, op, stage, before, at_, rest⟩ := sim.inside m owner
    exact ⟨e, op, stage, before, (deskOther _ other).trans at_, rest⟩
  · intro m long
    exact sim.unused m (by simpa [setDesk] using long)

theorem Simulates.others (sim : Simulates s l written) {host : Lock.Host} {tree : FileTree} {x : Desk}
    (quiet : ∀ m, m ≠ n → s.host.owner? s.segment ≠ some m) (m : Nat) (e : Desk) (other : m ≠ n)
    (at_ : (Sharing.setDesk { s with tree, host } n x).desks[m]? = some e) :
    e.memory = l.snapshots m ∧ ∀ op stage, e.task = some (op, stage) → stage = .locking := by
  rw [deskOther _ other] at at_
  exact sim.outside m e at_ (quiet m other)

theorem simulatesLocking (sim : Simulates s l written) {host : Lock.Host}
    (found : s.desks[n]? = some d)
    (taken : s.host.acquire? s.segment n = some host) :
    Simulates ({ s with host }.setDesk n { d with task := some (op, .reading) }) l written := by
  obtain ⟨nobody, mine⟩ := Lock.Host.acquiredOwner taken
  have notOwner : s.host.owner? s.segment ≠ some n := by simp [nobody]
  have memory := (sim.outside n d found notOwner).1
  refine ⟨?_, ?_, ?_, ?_⟩
  · intro m e at_ owner
    by_cases same : m = n
    · subst same
      exact absurd mine owner
    · exact sim.others (fun k _ => by simp [nobody]) m e same at_
  · intro m owner
    have same : n = m := Option.some.inj (mine.symm.trans owner)
    subst same
    exact ⟨{ d with task := some (op, .reading) }, op, .reading, s.tree, deskSet found _, rfl, rfl,
      sim.free nobody, memory, rfl⟩
  · intro free
    exact absurd (mine.symm.trans free) (by simp)
  · intro m long
    exact sim.unused m (by simpa [setDesk] using long)

theorem simulatesInside (sim : Simulates s l written) {w : Work} {before : FileTree}
    (found : s.desks[n]? = some d) (owner : s.host.owner? s.segment = some n)
    (keeps : Keeps before s.path l.shared written) (inside : w.stage.isInside = true)
    (reached : Reached s.path op.job before (l.snapshots n) w) :
    Simulates ({ s with tree := w.tree }.setDesk n
      { memory := w.memory, isOpen := d.isOpen, task := some (op, w.stage) }) l written := by
  refine ⟨?_, ?_, ?_, ?_⟩
  · intro m e at_ notOwner
    have other : m ≠ n := fun same => notOwner (same ▸ owner)
    rw [deskOther _ other] at at_
    exact sim.outside m e at_ notOwner
  · intro m holder
    have same : n = m := Option.some.inj (owner.symm.trans holder)
    subst same
    exact ⟨_, op, w.stage, before, deskSet found _, rfl, inside, keeps, reached⟩
  · intro free
    exact absurd (owner.symm.trans free) (by simp)
  · intro m long
    exact sim.unused m (by simpa [setDesk] using long)

theorem simulatesEnd (sim : Simulates s l written) {shared memory : Dictionary} {w : Bool}
    (found : s.desks[n]? = some d) (owner : s.host.owner? s.segment = some n)
    (keeps : Keeps s.tree s.path shared w) :
    Simulates ({ s with host := s.host.release s.segment n }.setDesk n { memory, isOpen := true })
      { l.note n memory with shared } w := by
  have released := Lock.Host.releasedOwner owner
  have quiet : ∀ m, m ≠ n → s.host.owner? s.segment ≠ some m := by
    intro m other same
    exact other (Option.some.inj (same.symm.trans owner))
  refine ⟨?_, ?_, ?_, ?_⟩
  · intro m e at_ _
    by_cases same : m = n
    · subst same
      cases Option.some.inj ((deskSet found _).symm.trans at_)
      exact ⟨(Ledger.noteSelf l m memory).symm, by simp⟩
    · have old := sim.others quiet m e same at_
      exact ⟨old.1.trans (Ledger.noteOther l memory same).symm, old.2⟩
  · intro m holder
    exact absurd (released.symm.trans holder) (by simp)
  · intro _
    exact keeps
  · intro m long
    obtain ⟨bound, _⟩ := List.getElem?_eq_some_iff.mp found
    have old : s.desks.length ≤ m := by simpa [setDesk] using long
    have other : m ≠ n := by omega
    exact (Ledger.noteOther l memory other).trans (sim.unused m old)

theorem simulatesUnlocking (sim : Simulates s l written) {before : FileTree}
    {r : Except StorageError Unit} (found : s.desks[n]? = some d)
    (owner : s.host.owner? s.segment = some n) (keeps : Keeps before s.path l.shared written)
    (reached : Reached s.path op.job before (l.snapshots n) ⟨s.tree, d.memory, .unlocking r⟩)
    (calls : (Event.ended n op r).isFault = false) :
    ∃ m, l.run [.ended n op r] = some m ∧
      Simulates ({ s with host := s.host.release s.segment n }.setDesk n
        (deskAfter d op d.memory (.done r))) m (written || (Event.ended n op r).isWrite) := by
  rw [Ledger.runOne]
  cases r with
  | error e =>
    rcases reached.2 with fault | read
    · exact absurd (fault.symm.trans calls) (by simp)
    · exact absurd (keeps.records.symm.trans read) (by simp)
  | ok u =>
    obtain ⟨records, read, memory, settled⟩ := reached
    cases Except.ok.inj (keeps.records.symm.trans read)
    have alike := writtenAlike op .empty l.shared
    cases wrote : op.written? l.shared with
    | none =>
      rw [readingJob wrote] at memory settled
      have quiet : (Event.ended n op (.ok u)).isWrite = false := by
        simpa [Event.isWrite, wrote] using alike
      have same : d.memory = l.shared := memory
      refine ⟨l.note n l.shared, by simp [Ledger.step, wrote], ?_⟩
      rw [quiet, Bool.or_false, same]
      have untouched : s.tree = before := settled
      exact simulatesEnd sim found owner (untouched ▸ keeps)
    | some records =>
      obtain ⟨c, job, applied⟩ := writingJob wrote
      rw [job] at memory settled
      have loud : (Event.ended n op (.ok u)).isWrite = true := by
        simpa [Event.isWrite, wrote] using alike
      have same : d.memory = records := memory.trans applied
      obtain ⟨at_, held⟩ := settled
      rw [applied] at held
      refine ⟨{ l.note n records with shared := withoutComments records },
        by simp [Ledger.step, wrote], ?_⟩
      rw [loud, Bool.or_true, same]
      exact simulatesEnd sim found owner (.inl (holdsShows held))

theorem Simulates.attended (sim : Simulates s l written) : Attended s where
  inside n owner := by
    obtain ⟨d, op, stage, _, found, task, inside, _⟩ := sim.inside n owner
    exact ⟨op, stage, ⟨d, found, task⟩, inside⟩
  outside n op stage at_ owner := by
    obtain ⟨d, found, task⟩ := at_
    exact (sim.outside n d found owner).2 op stage task

theorem simulatesCall {stage : Stage} {turn : Turn} {es : List Event} (sim : Simulates s l written)
    (found : s.desks[n]? = some d) (task : d.task = some (op, stage))
    (serves : Serves s n turn d op stage t es) (calls : ∀ e ∈ es, e.isFault = false) :
    ∃ m, l.run es = some m ∧ Simulates t m (written || es.any Event.isWrite) := by
  cases serves with
  | refused failed =>
    have fine := calls _ List.mem_cons_self
    exact absurd fine (by simp [Event.isFault, StorageError.isFault])
  | enters taken => exact ⟨l, rfl, by simpa using simulatesLocking sim found taken⟩
  | @works _ w owner _ work stays =>
    obtain ⟨d', op', stage', before, found', task', _, keeps, reached⟩ := sim.inside n owner
    cases Option.some.inj (found.symm.trans found')
    cases Option.some.inj (task.symm.trans task')
    have onward : Reached s.path op.job before (l.snapshots n) w := work ▸ reachedStep turn reached
    exact ⟨l, rfl, by simpa using simulatesInside sim found owner keeps stays onward⟩
  | @leaves r owner =>
    obtain ⟨d', op', stage', before, found', task', _, keeps, reached⟩ := sim.inside n owner
    cases Option.some.inj (found.symm.trans found')
    cases Option.some.inj (task.symm.trans task')
    have fine := calls (.ended n op r) List.mem_cons_self
    simpa using simulatesUnlocking sim found owner keeps reached fine

theorem simulatesStep {a : Action} {es : List Event} (sim : Simulates s l written)
    (next : s.step a = some (t, es)) (calls : ∀ e ∈ es, e.isFault = false) :
    ∃ m, l.run es = some m ∧ Simulates t m (written || es.any Event.isWrite) := by
  cases stepActs next with
  | attaches => exact ⟨l, rfl, by simpa using simulatesAttach sim⟩
  | begins idle => exact ⟨l, rfl, by simpa using simulatesStart sim idle _⟩
  | calls found task work locked =>
    exact simulatesCall sim found task (sim.attended.serves found task work locked) calls
  | @answers n q d idle =>
    obtain ⟨found, none⟩ := idleDesk idle
    have memory := (sim.outside n d found (sim.idleOutside found none)).1
    refine ⟨l, ?_, by simpa [Event.isWrite] using sim⟩
    rw [Ledger.runOne]
    simp [Ledger.step, replyAnswer, memory]

theorem runSimulated {s t : Sharing} {es : List Event} {found : Dictionary}
    (sim : Simulates s (.start found) false) (run : Run s es t)
    (calls : ∀ e ∈ es, e.isFault = false) :
    ∃ l, (Ledger.start found).run es = some l ∧ Simulates t l (es.any Event.isWrite) := by
  induction run with
  | start => exact ⟨_, rfl, sim⟩
  | step run next ih =>
    obtain ⟨l, ran, simulated⟩ := ih fun e he => calls e (List.mem_append_left _ he)
    obtain ⟨m, more, after⟩ := simulatesStep simulated next fun e he =>
      calls e (List.mem_append_right _ he)
    refine ⟨m, (Ledger.runAppend ran _).trans more, ?_⟩
    rw [List.any_append]
    exact after

structure Fresh (s : Sharing) (found : Dictionary) : Prop where
  alone : s.desks = []
  unlocked : s.host.owner? s.segment = none
  file : Shows s.tree s.path found ∨ (s.tree.readText s.path = .error .notFound ∧ found = .empty)

theorem freshSimulated {s : Sharing} {found : Dictionary} (fresh : Fresh s found) :
    Simulates s (.start found) false := by
  refine ⟨?_, ?_, ?_, fun n _ => rfl⟩
  · intro n d at_
    simp [fresh.alone] at at_
  · intro n owner
    exact absurd (fresh.unlocked.symm.trans owner) (by simp)
  · intro _
    rcases fresh.file with shown | absent
    · exact .inl shown
    · exact .inr ⟨absent.1, absent.2, rfl⟩

theorem sharedStoreRefinesLedger {s t : Sharing} {found : Dictionary} {es : List Event}
    (fresh : Fresh s found) (run : Run s es t) (calls : ∀ e ∈ es, e.isFault = false) :
    ∃ l, (Ledger.start found).run es = some l ∧
      (∀ n d, t.desks[n]? = some d → d.task = none → d.memory = l.snapshots n) ∧
      (t.host.owner? t.segment = none → Shows t.tree t.path l.shared ∨
        (t.tree.readText t.path = .error .notFound ∧ l.shared = .empty ∧
          ∀ e ∈ es, e.isWrite = false)) ∧
      (∀ key, isComment key = false →
        l.shared.get? key = es.foldl (Event.recorded key) (found.get? key)) := by
  obtain ⟨l, ran, sim⟩ := runSimulated (freshSimulated fresh) run calls
  refine ⟨l, ran, ?_, ?_, ?_⟩
  · intro n d at_ idle
    exact (sim.outside n d at_ (sim.idleOutside at_ idle)).1
  · intro free
    rcases sim.free free with shown | ⟨absent, empty, quiet⟩
    · exact .inl shown
    · exact .inr ⟨absent, empty, by simpa using quiet⟩
  · intro key plain
    exact Ledger.runRecorded plain ran

theorem Run.next {s t u : Sharing} {a : Action} {first es : List Event}
    (step : s.step a = some (t, first)) (run : Run t es u) : Run s (first ++ es) u := by
  induction run with
  | start => simpa using Run.step .start step
  | step _ next ih =>
    rw [← List.append_assoc]
    exact .step ih next

theorem playRun {s t : Sharing} {as : List Action} {es : List Event}
    (played : s.play as = some (t, es)) : Run s es t := by
  induction as generalizing s es with
  | nil =>
    cases Option.some.inj played
    exact .start
  | cons a rest ih =>
    simp only [play, bind, Option.bind_eq_some_iff] at played
    obtain ⟨⟨u, first⟩, step, ⟨v, more⟩, tail, last⟩ := played
    cases Option.some.inj last
    exact .next step (ih tail)

/- Two handles on one file. The second one saves a credential in the middle of what the first does
and finds the record of the first again. -/
def pair : Sharing :=
  { path := "store", lockName := "/lock", segment := 0, tree := .fresh
    host := { segments := [{ sized := true, initialised := 1, ready := true }] } }

def pairSchedule : List Action :=
  [.attach, .attach] ++ List.replicate 4 (.advance 0 .goes) ++ List.replicate 4 (.advance 1 .goes) ++
    [.start 0 (.set "color" "red"), .start 1 (.save "code" ⟨"id", "secret"⟩)] ++
    List.replicate 3 (.advance 0 .goes) ++ [.advance 0 (.writes 4)] ++
    List.replicate 5 (.advance 0 .goes) ++ List.replicate 8 (.advance 1 .goes) ++
    [.ask 1 (.get "color"), .ask 0 (.load "code")]

theorem pairRefinesLedger : Fresh pair .empty ∧ ∃ es t,
    Run pair es t ∧ (∀ e ∈ es, e.isFault = false) ∧ es.length = 6 ∧
      ∃ l, (Ledger.start .empty).run es = some l ∧
        (t.host.owner? t.segment = none → Shows t.tree t.path l.shared ∨
          (t.tree.readText t.path = .error .notFound ∧ l.shared = .empty ∧
            ∀ e ∈ es, e.isWrite = false)) := by
  have fresh : Fresh pair .empty := ⟨rfl, rfl, .inr ⟨by rfl, rfl⟩⟩
  refine ⟨fresh, ?_⟩
  have smooth : (pair.play pairSchedule).any
      (fun r => r.2.all (fun e => !e.isFault) && r.2.length == 6) = true := by decide +kernel
  obtain ⟨⟨t, es⟩, played, fine⟩ := (Option.any_eq_true _ _).mp smooth
  obtain ⟨calls, size⟩ := Bool.and_eq_true_iff.mp fine
  have run := playRun played
  have calls : ∀ e ∈ es, e.isFault = false := by simpa using calls
  obtain ⟨l, ran, _, file, _⟩ := sharedStoreRefinesLedger fresh run calls
  exact ⟨es, t, run, calls, by simpa using size, l, ran, file⟩

end Sharing
end FirewallAgent.Store

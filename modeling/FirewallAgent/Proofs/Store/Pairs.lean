import FirewallAgent.Proofs.FileTree.Content
import FirewallAgent.Proofs.Store.Course
import FirewallAgent.Proofs.Store.Retention

/-! The two records of a credential, in the file and in every memory. As long as nothing but a rename
changes the file, both of them are from one credential, and one that was meant for this code. What is
kept for another code comes through a save as it was found under the lock. -/
namespace FirewallAgent.Store
open FileTree (Holds)

def Paired (given : String → Credential → Prop) (d : Dictionary) : Prop :=
  ∀ code, (d.get? (Credential.idKey code) = none ∧ d.get? (Credential.secretKey code) = none) ∨
    ∃ x, given code x ∧ d.get? (Credential.idKey code) = some x.appId ∧
      d.get? (Credential.secretKey code) = some x.appSecret

def Operation.fits (given : String → Credential → Prop) : Operation → Prop
  | .set _ _ => False
  | .save code x => given code x
  | _ => True

variable {given more : String → Credential → Prop} {d : Dictionary} {code other : String} {x : Credential}

theorem pairedEmpty : Paired given .empty := fun _ => .inl ⟨rfl, rfl⟩

theorem Paired.widen (pairs : Paired given d) (wide : ∀ code x, given code x → more code x) :
    Paired more d := by
  intro code
  refine (pairs code).imp_right ?_
  rintro ⟨x, whole, halves⟩
  exact ⟨x, wide code x whole, halves⟩

theorem Paired.find (pairs : Paired given d) (code : String) :
    Credential.find? d code = none ∨ ∃ x, given code x ∧ Credential.find? d code = some x := by
  rcases pairs code with ⟨noId, _⟩ | ⟨x, whole, hasId, hasSecret⟩
  · exact .inl (by simp [Credential.find?, noId])
  · exact .inr ⟨x, whole, by simp [Credential.find?, hasId, hasSecret]⟩

theorem evenPaired (even : ∀ code, (d.get? (Credential.idKey code)).isSome =
    (d.get? (Credential.secretKey code)).isSome) :
    Paired (fun code x => Credential.find? d code = some x) d := by
  intro code
  have both := even code
  cases hasId : d.get? (Credential.idKey code) with
  | none => exact .inl ⟨rfl, by simpa [hasId] using both.symm⟩
  | some appId =>
    obtain ⟨appSecret, hasSecret⟩ := Option.isSome_iff_exists.mp (both.symm.trans (by simp [hasId]))
    exact .inr ⟨⟨appId, appSecret⟩, by simp [Credential.find?, hasId, hasSecret], rfl, hasSecret⟩

theorem Paired.even (pairs : Paired given d) (code : String) :
    (d.get? (Credential.idKey code)).isSome = (d.get? (Credential.secretKey code)).isSome := by
  rcases pairs code with ⟨noId, noSecret⟩ | ⟨x, _, hasId, hasSecret⟩
  · rw [noId, noSecret]
  · rw [hasId, hasSecret]
    rfl

theorem getSavedOther (d : Dictionary) (x : Credential) (apart : other ≠ code) :
    (Change.apply d (.put (credentialEntries code x))).get? (Credential.idKey other) =
        d.get? (Credential.idKey other) ∧
      (Change.apply d (.put (credentialEntries code x))).get? (Credential.secretKey other) =
        d.get? (Credential.secretKey other) := by
  have ids : Credential.idKey code ≠ Credential.idKey other :=
    fun same => apart ((String.append_left_inj _).mp same).symm
  have secrets : Credential.secretKey code ≠ Credential.secretKey other :=
    fun same => apart ((String.append_left_inj _).mp same).symm
  simp [Change.apply, credentialEntries, ids, secrets, credentialKeys, (credentialKeys _ _).symm]

theorem findSavedOther (d : Dictionary) (x : Credential) (apart : other ≠ code) :
    Credential.find? (Change.apply d (.put (credentialEntries code x))) other =
      Credential.find? d other := by
  obtain ⟨ids, secrets⟩ := getSavedOther d x apart
  simp only [Credential.find?, ids, secrets]

theorem Paired.save (pairs : Paired given d) (whole : given code x) :
    Paired given (Change.apply d (.put (credentialEntries code x))) := by
  intro other
  by_cases same : other = code
  · subst same
    exact .inr ⟨x, whole, by simp [Change.apply, credentialEntries, (credentialKeys _ _).symm],
      by simp [Change.apply, credentialEntries]⟩
  · obtain ⟨ids, secrets⟩ := getSavedOther d x same
    rw [ids, secrets]
    exact pairs other

theorem Paired.plain (pairs : Paired given d) : Paired given (withoutComments d) := by
  intro code
  rw [getWithoutComments, getWithoutComments, commentId, commentSecret]
  cases isComment code with
  | true => exact .inl ⟨rfl, rfl⟩
  | false => exact pairs code

theorem Paired.result {op : Operation} (pairs : Paired given d) (fits : op.fits given) :
    Paired given (op.job.result d) := by
  cases op with
  | openStore | reload => exact pairs
  | clear => exact pairedEmpty
  | save code x => exact pairs.save fits
  | set key value => exact absurd fits id

variable {path lockName : String} {job : Job} {before : FileTree} {memory : Dictionary} {w : Work}

theorem reachedMemory (reached : Reached path job before memory w) : w.memory = memory ∨
    ∃ found, readRecords before path = .ok found ∧ w.memory = job.result found := by
  cases stage : w.stage with
  | locking | reading | makingDirs | opening | writing | syncing | replacing | keeping =>
    simp only [Reached, stage] at reached
    exact .inl reached.1
  | unlocking r | done r =>
    cases r with
    | error e =>
      simp only [Reached, stage] at reached
      exact .inl reached.1
    | ok =>
      simp only [Reached, stage] at reached
      obtain ⟨found, read, same, _⟩ := reached
      exact .inr ⟨found, read, same⟩

theorem replacingStep {next : Dictionary} (turn : Turn) (reached : Reached path job before memory w)
    (stage : w.stage = .replacing next) : (w.step path lockName job turn).tree = w.tree ∨
      ∃ found, readRecords before path = .ok found ∧
        readRecords (w.step path lockName job turn).tree path =
          .ok (withoutComments (job.result found)) := by
  simp only [Reached, stage] at reached
  obtain ⟨_, ⟨c, found, rfl, read, rfl⟩, l, held⟩ := reached
  simp only [Work.step, stage]
  split
  · exact .inl rfl
  · split
    · rename_i moved
      obtain ⟨m, there⟩ := held.rename moved
      exact .inr ⟨found, read, (holdsShows there).records⟩
    · exact .inl rfl

theorem sameContent {t u : FileTree} {found : Dictionary} (same : u.content? path = t.content? path)
    (read : readRecords u path = .ok found) : readRecords t path = .ok found ∨ found = .empty := by
  cases there : u.read path with
  | ok b =>
    have before : t.read path = .ok b :=
      FileTree.contentRead.mp (same.symm.trans (FileTree.contentRead.mpr there))
    refine .inl ?_
    simpa only [readRecords, FileTree.readText, before, there] using read
  | error e =>
    refine .inr ?_
    simp only [readRecords, FileTree.readText, there, bind, Except.bind] at read
    split at read
    · contradiction
    · exact (Except.ok.inj read).symm
    · contradiction

namespace Sharing

inductive Given (start : Sharing) (past : List Moment) (code : String) (x : Credential) : Prop where
  | found {d : Dictionary} (read : readRecords start.tree start.path = .ok d)
      (there : Credential.find? d code = some x)
  | saved {m : Moment} {n : Nat} (member : m ∈ past) (begun : m.action = .start n (.save code x))

def Moment.renames (m : Moment) : Bool :=
  match m.action with
  | .advance n _ =>
    match (m.before.desks[n]?).bind Desk.task with
    | some (_, .replacing _) => true
    | _ => false
  | _ => false

def Moment.sets (m : Moment) : Bool :=
  match m.action with
  | .start _ (.set _ _) => true
  | _ => false

def Took (past : List Moment) (n : Nat) (op : Operation) (tree : FileTree) : Prop :=
  ∃ earlier m later, past = earlier ++ m :: later ∧ m.before.tree = tree ∧
    IsAt m.before n op .locking ∧ IsAt m.after n op .reading ∧
    ∀ k ∈ later, ∀ op r, ¬ k.ends n op r

def FilePaired (given : String → Credential → Prop) (t : FileTree) (path : String) : Prop :=
  ∀ found, readRecords t path = .ok found → Paired given found

def DeskPaired (given : String → Credential → Prop) (d : Desk) : Prop :=
  Paired given d.memory ∧ ∀ op stage, d.task = some (op, stage) → op.fits given

def Holding (given : String → Credential → Prop) (past : List Moment) (s : Sharing) (n : Nat) (d : Desk)
    (op : Operation) (stage : Stage) : Prop :=
  ∃ before memory, Took past n op before ∧ FilePaired given before s.path ∧ Paired given memory ∧
    Reached s.path op.job before memory ⟨s.tree, d.memory, stage⟩

structure Kept (start : Sharing) (past : List Moment) (s : Sharing) : Prop where
  place : s.path = start.path
  attended : Attended s
  file : FilePaired (Given start past) s.tree s.path
  desks : ∀ (n : Nat) (d : Desk), s.desks[n]? = some d → DeskPaired (Given start past) d
  inside : ∀ (n : Nat) (d : Desk) op stage, s.desks[n]? = some d → d.task = some (op, stage) →
    s.host.owner? s.segment = some n → Holding (Given start past) past s n d op stage

variable {start s t : Sharing} {a : Action} {es : List Event} {past ms : List Moment} {n : Nat}
  {m : Moment} {op : Operation} {stage : Stage} {turn : Turn}

theorem FilePaired.widen {tree : FileTree} {path : String} (pairs : FilePaired given tree path)
    (wide : ∀ code x, given code x → more code x) : FilePaired more tree path :=
  fun found read => (pairs found read).widen wide

theorem Given.later (past : List Moment) (m : Moment) (code : String) (x : Credential)
    (old : Given start past code x) : Given start (past ++ [m]) code x := by
  cases old with
  | found read there => exact .found read there
  | saved member begun => exact .saved (List.mem_append_left _ member) begun

theorem DeskPaired.widen {d : Desk} (pairs : DeskPaired given d)
    (wide : ∀ code x, given code x → more code x) : DeskPaired more d := by
  refine ⟨pairs.1.widen wide, ?_⟩
  intro op stage task
  have fits := pairs.2 op stage task
  cases op with
  | save code x => exact wide code x fits
  | openStore | reload | clear => trivial
  | set key value => exact fits

theorem Took.later {tree : FileTree} (took : Took past n op tree) (quiet : ∀ op r, ¬ m.ends n op r) :
    Took (past ++ [m]) n op tree := by
  obtain ⟨earlier, k, later, rfl, rest, at_, reads, still⟩ := took
  refine ⟨earlier, k, later ++ [m], by simp, rest, at_, reads, ?_⟩
  intro k' member
  rcases List.mem_append.mp member with old | new
  · exact still k' old
  · cases List.mem_singleton.mp new
    exact quiet

theorem Holding.later {d : Desk} (holding : Holding (Given start past) past s n d op stage)
    (quiet : ∀ op r, ¬ m.ends n op r) (same : t.tree = s.tree) (place : t.path = s.path) :
    Holding (Given start (past ++ [m])) (past ++ [m]) t n d op stage := by
  obtain ⟨before, memory, took, file, old, reached⟩ := holding
  rw [Holding, same, place]
  exact ⟨before, memory, took.later quiet, file.widen (Given.later past m),
    old.widen (Given.later past m), reached⟩

theorem deskAll {P : Nat → Desk → Prop} {x : Desk} (all : ∀ (k : Nat) (d : Desk), s.desks[k]? = some d → P k d)
    (own : P n x) (k : Nat) (d : Desk) (found : (s.setDesk n x).desks[k]? = some d) : P k d := by
  by_cases same : k = n
  · subst same
    obtain ⟨bound, rfl⟩ := List.getElem?_eq_some_iff.mp found
    simpa [setDesk] using own
  · exact all k d ((deskOther x same).symm.trans found)

theorem Kept.aside (kept : Kept start past s) (attended : Attended t) (tree : t.tree = s.tree)
    (place : t.path = s.path) (owner : t.host.owner? t.segment = s.host.owner? s.segment)
    (desks : ∀ (n : Nat) (d : Desk), t.desks[n]? = some d → s.desks[n]? = some d ∨
      (DeskPaired (Given start (past ++ [m])) d ∧ s.host.owner? s.segment ≠ some n))
    (quiet : ∀ n, s.host.owner? s.segment = some n → ∀ op r, ¬ m.ends n op r) :
    Kept start (past ++ [m]) t where
  place := place.trans kept.place
  attended := attended
  file := by
    rw [tree, place]
    exact kept.file.widen (Given.later past m)
  desks n d found := by
    rcases desks n d found with old | ⟨new, _⟩
    · exact (kept.desks n d old).widen (Given.later past m)
    · exact new
  inside n d op stage found task holder := by
    rw [owner] at holder
    rcases desks n d found with old | ⟨_, apart⟩
    · exact (kept.inside n d op stage old task holder).later (quiet n holder) tree place
    · exact absurd holder apart

theorem Kept.attaches (kept : Kept start past s)
    (attended : Attended { s with desks := s.desks ++ [{ task := some (.openStore, .locking) }] })
    (quiet : m.events = []) : Kept start (past ++ [m])
      { s with desks := s.desks ++ [{ task := some (.openStore, .locking) }] } := by
  refine kept.aside attended rfl rfl rfl ?_ (by simp [Moment.ends, quiet])
  intro n d found
  by_cases old : n < s.desks.length
  · exact .inl ((List.getElem?_append_left old).symm.trans found)
  · rw [List.getElem?_append_right (Nat.le_of_not_lt old)] at found
    cases List.mem_singleton.mp (List.mem_of_getElem? found)
    refine .inr ⟨⟨pairedEmpty, ?_⟩, kept.attended.notOwner ?_⟩
    · rintro op stage same
      cases same
      trivial
    · rintro op stage ⟨d, there, _⟩
      exact absurd (List.getElem?_eq_some_iff.mp there).1 old

theorem Kept.begins {d : Desk} (kept : Kept start past s) (idle : s.idle? n = some d)
    (attended : Attended (s.setDesk n { d with task := some (op, .locking) })) (quiet : m.events = [])
    (fits : op.fits (Given start (past ++ [m]))) :
    Kept start (past ++ [m]) (s.setDesk n { d with task := some (op, .locking) }) := by
  refine kept.aside attended rfl rfl rfl ?_ (by simp [Moment.ends, quiet])
  refine deskAll (fun k e found => .inl found) (.inr ⟨⟨?_, ?_⟩, kept.attended.idleApart idle⟩)
  · exact ((kept.desks n d (idleDesk idle).1).widen (Given.later past m)).1
  · intro op' stage same
    cases same
    exact fits

theorem Kept.refused {d : Desk} {r : Except StorageError Unit} (kept : Kept start past s)
    (found : s.desks[n]? = some d) (task : d.task = some (op, .locking))
    (attended : Attended (s.setDesk n { memory := d.memory, isOpen := d.isOpen }))
    (events : m.events = [.ended n op r]) :
    Kept start (past ++ [m]) (s.setDesk n { memory := d.memory, isOpen := d.isOpen }) := by
  have apart := kept.attended.waitingApart ⟨d, found, task⟩
  have pairs := (kept.desks n d found).widen (Given.later past m)
  refine kept.aside attended rfl rfl rfl ?_ ?_
  · refine deskAll (fun k e found => .inl found) (.inr ⟨⟨pairs.1, ?_⟩, apart⟩)
    intro op' stage same
    contradiction
  · intro k owner op' r' ended
    rw [Moment.ends, events] at ended
    cases List.mem_singleton.mp ended
    exact apart owner

theorem Kept.enters {d : Desk} {host : Lock.Host} (kept : Kept start past s)
    (found : s.desks[n]? = some d) (task : d.task = some (op, .locking))
    (taken : s.host.acquire? s.segment n = some host) (before : m.before = s)
    (after : m.after = { s with host }.setDesk n { d with task := some (op, .reading) })
    (attended : Attended m.after) : Kept start (past ++ [m]) m.after := by
  obtain ⟨_, mine⟩ := Lock.Host.acquiredOwner taken
  have wide : ∀ code x, Given start past code x → Given start (past ++ [m]) code x :=
    Given.later past m
  have pairs := (kept.desks n d found).widen wide
  have took : Took (past ++ [m]) n op s.tree :=
    ⟨past, m, [], rfl, by rw [before], before ▸ ⟨d, found, task⟩, after ▸ .set found rfl, by simp⟩
  refine ⟨?_, attended, ?_, ?_, ?_⟩ <;> rw [after]
  · exact kept.place
  · exact kept.file.widen wide
  · refine deskAll (fun k e there => (kept.desks k e there).widen wide) ⟨pairs.1, ?_⟩
    intro op' stage same
    cases same
    exact pairs.2 op .locking task
  · intro k e op' stage there task' holder
    cases Option.some.inj (mine.symm.trans holder)
    cases Option.some.inj ((deskSet found _).symm.trans there)
    cases task'
    exact ⟨s.tree, d.memory, took, kept.file.widen wide, pairs.1, rfl, rfl⟩

theorem Kept.works {d : Desk} {w : Work} (kept : Kept start past s)
    (found : s.desks[n]? = some d) (task : d.task = some (op, stage))
    (owner : s.host.owner? s.segment = some n)
    (work : w = Work.step s.path s.lockName op.job turn ⟨s.tree, d.memory, stage⟩)
    (attended : Attended ({ s with tree := w.tree }.setDesk n
      { memory := w.memory, isOpen := d.isOpen, task := some (op, w.stage) }))
    (quiet : m.events = [])
    (only : w.tree.content? s.path = s.tree.content? s.path ∨ ∃ next, stage = .replacing next) :
    Kept start (past ++ [m]) ({ s with tree := w.tree }.setDesk n
      { memory := w.memory, isOpen := d.isOpen, task := some (op, w.stage) }) := by
  have wide : ∀ code x, Given start past code x → Given start (past ++ [m]) code x :=
    Given.later past m
  obtain ⟨before, memory, took, file, old, reached⟩ := kept.inside n d op stage found task owner
  have fits := (kept.desks n d found).2 op stage task
  have onward : Reached s.path op.job before memory w := work ▸ reachedStep turn reached
  have pairs : Paired (Given start past) w.memory := by
    rcases reachedMemory onward with same | ⟨records, read, same⟩
    · exact same ▸ old
    · exact same ▸ (file records read).result fits
  have now : FilePaired (Given start past) w.tree s.path := by
    intro records read
    rcases only with same | ⟨next, replacing⟩
    · rcases sameContent same read with read | rfl
      · exact kept.file records read
      · exact pairedEmpty
    · subst work
      rcases replacingStep turn reached replacing with same | ⟨was, read', new⟩
      · rw [same] at read
        exact kept.file records read
      · cases Except.ok.inj (new.symm.trans read)
        exact ((file was read').result fits).plain
  refine ⟨kept.place, attended, now.widen wide, ?_, ?_⟩
  · refine deskAll (fun k e there => (kept.desks k e there).widen wide) ⟨pairs.widen wide, ?_⟩
    intro op' stage' same
    cases same
    exact ((kept.desks n d found).widen wide).2 op stage task
  · intro k e op' stage' there task' holder
    cases Option.some.inj (owner.symm.trans holder)
    cases Option.some.inj ((deskSet found _).symm.trans there)
    cases task'
    exact ⟨before, memory, took.later (by simp [Moment.ends, quiet]), file.widen wide, old.widen wide, onward⟩

theorem Kept.leaves {d : Desk} {r : Except StorageError Unit} (kept : Kept start past s)
    (found : s.desks[n]? = some d) (owner : s.host.owner? s.segment = some n)
    (attended : Attended ({ s with host := s.host.release s.segment n }.setDesk n
      (deskAfter d op d.memory (.done r)))) :
    Kept start (past ++ [m]) ({ s with host := s.host.release s.segment n }.setDesk n
      (deskAfter d op d.memory (.done r))) := by
  have wide : ∀ code x, Given start past code x → Given start (past ++ [m]) code x :=
    Given.later past m
  have pairs := (kept.desks n d found).widen wide
  refine ⟨kept.place, attended, kept.file.widen wide, ?_, ?_⟩
  · refine deskAll (fun k e there => (kept.desks k e there).widen wide) ?_
    cases r with
    | ok | error => exact ⟨pairs.1, fun _ _ same => absurd same (by simp [deskAfter])⟩
  · intro k e op' stage there task holder
    exact absurd ((Lock.Host.releasedOwner owner).symm.trans holder) (by simp)

theorem Kept.serves {d : Desk} (kept : Kept start past s) (found : s.desks[n]? = some d)
    (task : d.task = some (op, stage)) (serves : Serves s n turn d op stage t es) (attended : Attended t)
    (only : t.tree.content? s.path = s.tree.content? s.path ∨ ∃ next, stage = .replacing next) :
    Kept start (past ++ [⟨s, a, t, es⟩]) t := by
  cases serves with
  | refused failed => exact kept.refused found task attended rfl
  | enters taken => exact kept.enters (m := ⟨s, a, _, []⟩) found task taken rfl rfl attended
  | works owner _ work _ => exact kept.works found task owner work attended rfl only
  | leaves owner => exact kept.leaves found owner attended

theorem Kept.next (kept : Kept start past s) (next : s.step a = some (t, es))
    (only : t.tree.content? start.path = s.tree.content? start.path ∨
      Moment.renames ⟨s, a, t, es⟩ = true)
    (whole : Moment.sets ⟨s, a, t, es⟩ = false) :
    Kept start (past ++ [⟨s, a, t, es⟩]) t := by
  have attended := attendedStep kept.attended next
  cases stepActs next with
  | attaches => exact kept.attaches attended rfl
  | @begins n op d idle =>
    refine kept.begins idle attended rfl ?_
    cases op with
    | openStore | reload | clear => trivial
    | save code x => exact .saved (List.mem_append_right _ List.mem_cons_self) rfl
    | set key value => contradiction
  | @calls n turn d op stage w host found task work locked =>
    refine kept.serves found task (kept.attended.serves found task work locked) attended ?_
    refine kept.place ▸ only.imp_right ?_
    intro renames
    simp only [Moment.renames, found, Option.bind_some, task] at renames
    split at renames
    · rename_i same
      cases same
      exact ⟨_, rfl⟩
    · contradiction
  | answers idle =>
    refine kept.aside attended rfl rfl rfl (fun n d found => .inl found) ?_
    intro n _ op r ended
    exact absurd (List.mem_singleton.mp ended) (by simp)

structure Even (s : Sharing) : Prop where
  alone : s.desks = []
  unlocked : s.host.owner? s.segment = none
  file : ∀ found, readRecords s.tree s.path = .ok found → ∀ code,
    (found.get? (Credential.idKey code)).isSome = (found.get? (Credential.secretKey code)).isSome

theorem evenKept (even : Even start) : Kept start [] start where
  place := rfl
  attended := ⟨fun n owner => absurd (even.unlocked.symm.trans owner) (by simp),
    fun n op stage at_ => by
      obtain ⟨d, found, _⟩ := at_
      simp [even.alone] at found⟩
  file found read := (evenPaired (even.file found read)).widen fun _ _ there => .found read there
  desks n d found := by simp [even.alone] at found
  inside n d op stage found := by simp [even.alone] at found

/- Both halves of a credential are of one that was saved for its code. A save changes nothing for other
codes: its handle answers as if it had reloaded when it took the lock. -/
theorem credentialsStayWhole (even : Even start) (course : Course start ms t)
    (renamed : ∀ m ∈ ms, m.after.tree.content? start.path = m.before.tree.content? start.path ∨
      m.renames = true)
    (whole : ∀ m ∈ ms, m.sets = false)
    (earlier : List Moment) (m : Moment) (later : List Moment) (parts : ms = earlier ++ m :: later) :
    (∀ n code r, .answered n (.load code) r ∈ m.events → r = .credential none ∨
      ∃ x, r = .credential (some x) ∧ Given start earlier code x) ∧
    (∀ n code x, m.ends n (.save code x) (.ok ()) → ∃ tree, Took earlier n (.save code x) tree ∧
      ∀ other, other ≠ code → ∀ h : Handle, h.path = start.path → ∃ h',
        Store.reload tree h = (tree, h', .ok ()) ∧
        m.after.told n (.load other) = some (.credential (loadCredential h' other))) := by
  subst parts
  obtain ⟨before, next, _⟩ := course.around
  have kept : Kept start earlier m.before := by
    refine before.keeps ?_ (evenKept even)
    intro past k post parts kept step
    have here : k ∈ earlier ++ m :: later := by simp [parts]
    exact kept.next step (renamed k here) (whole k here)
  refine ⟨?_, ?_⟩
  · intro n code r answered
    have reply := (stepActs next).answered answered
    obtain ⟨d, idle, rfl⟩ := Option.map_eq_some_iff.mp reply
    have pairs := (kept.desks n d (idleDesk idle).1).1
    refine (pairs.find code).imp (fun none => ?_) ?_
    · exact congrArg Reply.credential none
    · rintro ⟨x, given, there⟩
      exact ⟨x, congrArg Reply.credential there, given⟩
  · intro n code x ended
    obtain ⟨d, found, task, owner, answers⟩ := kept.attended.endedWell next ended
    obtain ⟨tree, memory, took, _, _, reached⟩ := kept.inside n d _ _ found task owner
    obtain ⟨records, read, result, _⟩ := reached
    refine ⟨tree, took, ?_⟩
    intro other apart h place
    have read' : readRecords tree h.path = .ok records := by rw [place, ← kept.place]; exact read
    refine ⟨_, reloadGoes read', ?_⟩
    have saved : d.memory = Change.apply records (.put (credentialEntries code x)) := result
    rw [answers, Query.reply, loadCredential, loadCredential, saved, findSavedOther records x apart]

/- Two handles save for codes of which one ends like a key of the other. The second one's first attempt
at the lock fails, and it takes the lock after the first has saved. -/
def couple : Sharing :=
  { path := "store", lockName := "/lock", segment := 0
    tree := FileTree.fresh.plant "store" (.file (Text.toBytes "a.app_id=1\na.app_secret=2\n"))
    host := { segments := [{ sized := true, initialised := 1, ready := true }] } }

def likeKey : Operation := .save "a.app_id" ⟨"5", "6"⟩

def coupleSchedule : List Action := List.flatten
  [[.attach, .attach], List.replicate 4 (.advance 0 .goes), List.replicate 4 (.advance 1 .goes),
    [.start 0 (.save "a" ⟨"3", "4"⟩), .start 1 likeKey], List.replicate 3 (.advance 0 .goes),
    [.advance 0 (.writes 4), .advance 1 (.lockFails .neverReady)], List.replicate 5 (.advance 0 .goes),
    [.start 1 likeKey], List.replicate 8 (.advance 1 .goes), [.ask 1 (.load "a")]]

def Moment.tidy (m : Moment) : Bool :=
  (m.after.tree.content? couple.path == m.before.tree.content? couple.path || m.renames) && !m.sets

theorem tidyMoment {m : Moment} (tidy : m.tidy = true) :
    (m.after.tree.content? couple.path = m.before.tree.content? couple.path ∨ m.renames = true) ∧
      m.sets = false := by
  unfold Moment.tidy at tidy
  simpa only [Bool.and_eq_true, Bool.or_eq_true, beq_iff_eq, Bool.not_eq_true'] using tidy

theorem evenCouple : Even couple where
  alone := rfl
  unlocked := rfl
  file found there := by
    have read : readRecords couple.tree couple.path =
        .ok (Change.apply .empty (.put (credentialEntries "a" ⟨"1", "2"⟩))) := by decide +kernel
    cases Except.ok.inj (read.symm.trans there)
    have pairs : Paired (fun _ _ => True)
        (Change.apply .empty (.put (credentialEntries "a" ⟨"1", "2"⟩))) := pairedEmpty.save trivial
    exact pairs.even

theorem likeKeyStaysApart : Even couple ∧ ∃ ms t, Course couple ms t ∧
    (∀ m ∈ ms, m.after.tree.content? couple.path = m.before.tree.content? couple.path ∨
      m.renames = true) ∧
    (∀ m ∈ ms, m.sets = false) ∧
    ∃ earlier m k, ms = earlier ++ [m, k] ∧ m.ends 1 likeKey (.ok ()) ∧
      (∃ tree, Took earlier 1 likeKey tree ∧ ∃ h',
        Store.reload tree ⟨couple.path, "/lock", .empty⟩ = (tree, h', .ok ()) ∧
        m.after.told 1 (.load "a") = some (.credential (loadCredential h' "a"))) ∧
      .answered 1 (.load "a") (.credential (some ⟨"3", "4"⟩)) ∈ k.events ∧
      Given couple (earlier ++ [m]) "a" ⟨"3", "4"⟩ := by
  have smooth : (couple.film coupleSchedule).any (fun r => r.1.all Moment.tidy &&
      (r.1.getLast?.any (fun k =>
        decide (.answered 1 (.load "a") (.credential (some ⟨"3", "4"⟩)) ∈ k.events)) &&
      r.1.dropLast.getLast?.any fun m => decide (.ended 1 likeKey (.ok ()) ∈ m.events))) = true := by
    decide +kernel
  obtain ⟨⟨ms, t⟩, played, fine⟩ := (Option.any_eq_true _ _).mp smooth
  have course := filmCourse played
  obtain ⟨tidy, fine⟩ := Bool.and_eq_true_iff.mp fine
  obtain ⟨answers, ends⟩ := Bool.and_eq_true_iff.mp fine
  obtain ⟨k, final, asked⟩ := (Option.any_eq_true _ _).mp answers
  obtain ⟨m, last, saves⟩ := (Option.any_eq_true _ _).mp ends
  obtain ⟨before, rfl⟩ := List.getLast?_eq_some_iff.mp final
  rw [List.dropLast_concat] at last
  obtain ⟨earlier, rfl⟩ := List.getLast?_eq_some_iff.mp last
  have ended : Event.ended 1 likeKey (.ok ()) ∈ m.events := of_decide_eq_true saves
  have answered := of_decide_eq_true asked
  have tidy := List.all_eq_true.mp tidy
  have renamed := fun k member => (tidyMoment (tidy k member)).1
  have whole := fun k member => (tidyMoment (tidy k member)).2
  have saved := (credentialsStayWhole evenCouple course renamed whole earlier m [k] (by simp)).2
  have loaded := (credentialsStayWhole evenCouple course renamed whole (earlier ++ [m]) k [] rfl).1
  obtain ⟨tree, took, others⟩ := saved 1 _ _ ended
  refine ⟨evenCouple, _, t, course, renamed, whole, earlier, m, k, by simp, ended,
    ⟨tree, took, others "a" (by decide) ⟨couple.path, "/lock", .empty⟩ rfl⟩, answered, ?_⟩
  rcases loaded 1 "a" _ answered with none | ⟨x, same, given⟩
  · cases none
  · cases same
    exact given

end Sharing
end FirewallAgent.Store

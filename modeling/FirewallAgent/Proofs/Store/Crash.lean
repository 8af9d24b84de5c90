import FirewallAgent.Proofs.FileTree.Content
import FirewallAgent.Proofs.Store.Work

/-! What is at the store's path when an update stops anywhere on its way. A reader without the lock finds
the old file or the whole new one, as long as the staging file has a name of its own and the path does
not lead through a directory that is made on the way. -/
namespace FirewallAgent.Store
open FileTree (Holds Rooted Widened)

def withFolder (t : FileTree) (path : String) : FileTree :=
  match folder? path with
  | none => t
  | some dir => (t.makeDirs (FilePath.ancestors dir)).1

theorem withFolderWidened (t : FileTree) (path : String) : Widened t (withFolder t path) := by
  unfold withFolder
  split
  · exact .refl t
  · exact FileTree.makeDirsWidened _

def StagedInPlace (path : String) : Prop := ∃ s, s ≠ "" ∧ FilePath.name? path = some (s ++ ".tmp")

theorem stagedInPlace {path name : String} (named : FilePath.name? path = some name) :
    StagedInPlace path ↔ FilePath.stem name ++ ".tmp" = name := by
  have plain : '.' ∉ "tmp".toList := by decide
  have extended := FilePath.sameExtended name plain
  simp only [String.append_assoc] at extended
  rw [StagedInPlace, named]
  refine ⟨?_, ?_⟩
  · rintro ⟨s, filled, same⟩
    exact extended.mpr ⟨s, filled, Option.some.inj same⟩
  · intro same
    obtain ⟨s, filled, whole⟩ := extended.mp same
    exact ⟨s, filled, congrArg some whole⟩

instance (path : String) : Decidable (StagedInPlace path) :=
  match named : FilePath.name? path with
  | none => .isFalse (by simp [StagedInPlace, named])
  | some _ => decidable_of_iff _ (stagedInPlace named).symm

example : StagedInPlace "state/credentials.tmp" := by decide +kernel
example : ¬ StagedInPlace "state/.tmp" := by decide +kernel

def Steady (t : FileTree) (path : String) : Prop :=
  t.content? path ≠ none ∨ (t.Rooted ∧ ".." ∉ FilePath.parts path)

theorem Steady.folder {t : FileTree} {path : String} (steady : Steady t path) :
    (withFolder t path).content? path = t.content? path := by
  have wide := withFolderWidened t path
  cases old : t.content? path with
  | some b => exact wide.content old
  | none =>
    obtain ⟨rooted, straight⟩ := steady.resolve_left (fun there => there old)
    cases now : (withFolder t path).content? path with
    | none => rfl
    | some b => exact absurd (old.symm.trans (rooted.content straight wide now)) (by simp)

def whole (next : Dictionary) : Bytes := Text.toBytes (serialize next)

def Aims (t : FileTree) (path : String) (c : Change) (next : Dictionary) : Prop :=
  ∃ found, readRecords t path = .ok found ∧ next = c.apply found

def OldOrNew (t : FileTree) (path : String) (c : Change) (now : Option Bytes) : Prop :=
  now = t.content? path ∨ ∃ next, Aims t path c next ∧ now = some (whole next)

/- What else can be there: a beginning of the new file, or what the path leads to once its directories
are made. -/
inductive Found (t : FileTree) (path : String) (c : Change) : Option Bytes → Prop where
  | whole {now : Option Bytes} (fine : OldOrNew t path c now) : Found t path c now
  | torn {now : Option Bytes} {next : Dictionary} (shared : StagedInPlace path) (aims : Aims t path c next)
      (part : ∀ b, now = some b → b <+: Store.whole next) : Found t path c now
  | bared : Found t path c ((withFolder t path).content? path)

theorem Found.fine {t : FileTree} {path : String} {c : Change} {now : Option Bytes}
    (found : Found t path c now) (apart : ¬ StagedInPlace path) (steady : Steady t path) :
    OldOrNew t path c now := by
  cases found with
  | whole fine => exact fine
  | torn shared => exact absurd shared apart
  | bared => exact .inl steady.folder

structure Staged (path : String) (base now : FileTree) (file : Location) (b : Bytes) : Prop where
  leads : ∃ d n, base.resolve (stagingPath path) = .ok (.name d n false) ∧ file = d ++ [n]
  free : base.look file ≠ some .dir
  only : now = base.put file (.file b)

variable {path lockName : String} {t base now : FileTree} {file : Location} {b : Bytes}

theorem Staged.opened (ok : base.openEmpty (stagingPath path) = .ok (now, file)) :
    Staged path base now file [] := by
  obtain ⟨d, n, leads, free, rfl, rfl⟩ := FileTree.openedTarget ok
  exact ⟨⟨d, n, leads, rfl⟩, free, rfl⟩

theorem Staged.named (h : Staged path base now file b) : file ≠ [] := by
  obtain ⟨d, n, _, rfl⟩ := h.leads
  simp

theorem Staged.append (h : Staged path base now file b) (more : Bytes) :
    Staged path base (now.append file more) file (b ++ more) := by
  refine ⟨h.leads, h.free, ?_⟩
  have there := FileTree.lookPutSelf base (.file b) h.named
  rw [h.only, FileTree.append, there]
  simp [FileTree.put, FileTree.erase]

theorem Staged.holds (h : Staged path base now file b) : Holds now (stagingPath path) file b := by
  obtain ⟨d, n, leads, same⟩ := h.leads
  refine ⟨⟨d, n, ?_, same⟩, ?_⟩
  · rw [h.only]
    exact FileTree.resolveKept (FileTree.putKeepsDirs b h.free) leads
  · rw [h.only]
    exact FileTree.lookPutSelf base _ h.named

theorem Staged.content (h : Staged path base now file b) : now.content? path = base.content? path ∨
    (StagedInPlace path ∧ ∀ c, now.content? path = some c → c = b) := by
  obtain ⟨d, n, leads, rfl⟩ := h.leads
  rw [h.only]
  have slash : '/' ∉ "tmp".toList := by decide
  have dot : '.' ∉ "tmp".toList := by decide
  have beside := FileTree.besideContent slash dot leads h.free b
  refine beside.imp_right ?_
  rintro ⟨⟨s, filled, named⟩, only⟩
  exact ⟨⟨s, filled, by simpa [String.append_assoc] using named⟩, only⟩

def Passed (path : String) (t : FileTree) (c : Change) (w : Work) : Prop :=
  match w.stage with
  | .locking | .reading => w.tree = t
  | .makingDirs next => w.tree = t ∧ Aims t path c next
  | .opening next => w.tree = withFolder t path ∧ Aims t path c next
  | .writing next file rest => Aims t path c next ∧
      ∃ b, Staged path (withFolder t path) w.tree file b ∧ b ++ rest = whole next
  | .syncing next | .replacing next => Aims t path c next ∧
      ∃ file, Staged path (withFolder t path) w.tree file (whole next)
  | .keeping _ | .unlocking _ | .done _ => Found t path c (w.tree.content? path)

variable {c : Change} {w : Work} {next : Dictionary}

theorem foundOld (same : w.tree = t) : Found t path c (w.tree.content? path) :=
  .whole (.inl (same ▸ rfl))

theorem foundBared (same : w.tree = withFolder t path) : Found t path c (w.tree.content? path) :=
  same ▸ .bared

/- While the staging file is written it can be seen only if it is the file itself. -/
theorem foundStaged (aims : Aims t path c next) (staged : Staged path (withFolder t path) w.tree file b)
    (part : b <+: whole next) : Found t path c (w.tree.content? path) := by
  rcases staged.content with same | ⟨shared, only⟩
  · rw [same]
    exact .bared
  · exact .torn shared aims fun x there => only x there ▸ part

theorem Passed.found (h : Passed path t c w) : Found t path c (w.tree.content? path) := by
  cases stage : w.stage with
  | locking | reading =>
    simp only [Passed, stage] at h
    exact foundOld h
  | makingDirs next =>
    simp only [Passed, stage] at h
    exact foundOld h.1
  | opening next =>
    simp only [Passed, stage] at h
    exact foundBared h.1
  | writing next file rest =>
    simp only [Passed, stage] at h
    obtain ⟨aims, b, staged, all⟩ := h
    exact foundStaged aims staged ⟨rest, all⟩
  | syncing next | replacing next =>
    simp only [Passed, stage] at h
    obtain ⟨aims, file, staged⟩ := h
    exact foundStaged aims staged List.prefix_rfl
  | keeping | unlocking | done => simpa only [Passed, stage] using h

theorem passedReading (turn : Turn) (same : w.tree = t) (stage : w.stage = .reading) :
    Passed path t c (w.step path lockName (.update c) turn) := by
  have read : Passed path t c (w.afterRead path (.update c) (readRecords w.tree path)) := by
    cases records : readRecords w.tree path with
    | error e => exact foundOld same
    | ok found =>
      have aims : Aims t path c (c.apply found) := ⟨found, same ▸ records, rfl⟩
      simp only [Work.afterRead]
      split
      · exact ⟨same, aims⟩
      · rename_i bare
        refine ⟨?_, aims⟩
        simp [withFolder, Option.not_isSome_iff_eq_none.mp bare, same]
  simp only [Work.step, stage]
  split
  · exact foundOld same
  · exact read

theorem passedMakingDirs (turn : Turn) (same : w.tree = t) (aims : Aims t path c next)
    (stage : w.stage = .makingDirs next) : Passed path t c (w.step path lockName (.update c) turn) := by
  simp only [Work.step, stage]
  split
  · rename_i bare
    exact ⟨by simp [withFolder, bare, same], aims⟩
  · rename_i dir folder
    split
    · exact foundOld same
    · split
      · rename_i u made
        have there : withFolder t path = u := by simp only [withFolder, folder, ← same, made]
        exact ⟨there.symm, aims⟩
      · rename_i u e failed
        have there : withFolder t path = u := by simp only [withFolder, folder, ← same, failed]
        exact foundBared there.symm

theorem passedOpening (turn : Turn) (same : w.tree = withFolder t path) (aims : Aims t path c next)
    (stage : w.stage = .opening next) : Passed path t c (w.step path lockName (.update c) turn) := by
  simp only [Work.step, stage]
  split
  · exact foundBared same
  · split
    · rename_i opened
      exact ⟨aims, [], .opened (same ▸ opened), rfl⟩
    · exact foundBared same

theorem passedWriting {rest : Bytes} (turn : Turn) (aims : Aims t path c next)
    (staged : Staged path (withFolder t path) w.tree file b) (all : b ++ rest = whole next)
    (stage : w.stage = .writing next file rest) :
    Passed path t c (w.step path lockName (.update c) turn) := by
  simp only [Work.step, stage]
  split
  · exact foundStaged aims staged ⟨rest, all⟩
  · rename_i n
    refine ⟨aims, _, staged.append _, ?_⟩
    rw [List.append_assoc, List.take_append_drop, all]
  · exact ⟨aims, file, all ▸ staged.append rest⟩

theorem passedReplacing (turn : Turn) (aims : Aims t path c next)
    (staged : Staged path (withFolder t path) w.tree file (whole next))
    (stage : w.stage = .replacing next) : Passed path t c (w.step path lockName (.update c) turn) := by
  have still := foundStaged aims staged List.prefix_rfl
  simp only [Work.step, stage]
  split
  · exact still
  · split
    · rename_i moved
      obtain ⟨m, held⟩ := staged.holds.rename moved
      exact .whole (.inr ⟨next, aims, FileTree.contentRead.mpr held.read⟩)
    · exact still

theorem passedStep (turn : Turn) (h : Passed path t c w) :
    Passed path t c (w.step path lockName (.update c) turn) := by
  cases stage : w.stage with
  | locking =>
    simp only [Passed, stage] at h
    simp only [Work.step, stage]
    split
    · exact foundOld h
    · exact h
  | reading =>
    simp only [Passed, stage] at h
    exact passedReading turn h stage
  | makingDirs next =>
    simp only [Passed, stage] at h
    exact passedMakingDirs turn h.1 h.2 stage
  | opening next =>
    simp only [Passed, stage] at h
    exact passedOpening turn h.1 h.2 stage
  | writing next file rest =>
    simp only [Passed, stage] at h
    obtain ⟨aims, b, staged, all⟩ := h
    exact passedWriting turn aims staged all stage
  | syncing next =>
    have found := h.found
    simp only [Passed, stage] at h
    simp only [Work.step, stage]
    split
    · exact found
    · exact h
  | replacing next =>
    simp only [Passed, stage] at h
    obtain ⟨aims, file, staged⟩ := h
    exact passedReplacing turn aims staged stage
  | keeping | unlocking | done => simpa only [Passed, Work.step, stage] using h

def stopped (t : FileTree) (h : Handle) (job : Job) (turns : List Turn) : Work :=
  turns.foldl (fun w turn => w.step h.path h.lockName job turn) ⟨t, h.memory, .locking⟩

theorem stoppedPassed (t : FileTree) (h : Handle) (c : Change) (turns : List Turn) :
    Passed h.path t c (stopped t h (.update c) turns) :=
  turnsKeep (fun _ turn passed => passedStep turn passed) turns rfl

/- Wherever an update stops, a reader finds what was there or all that is to be there, unless the file is
its own staging file or comes to light with its directories. -/
theorem stoppedUpdatesAreWhole (t : FileTree) (h : Handle) (c : Change) (turns : List Turn) :
    Found t h.path c ((stopped t h (.update c) turns).tree.content? h.path) ∧
      (¬ StagedInPlace h.path → Steady t h.path →
        OldOrNew t h.path c ((stopped t h (.update c) turns).tree.content? h.path)) := by
  have found := (stoppedPassed t h c turns).found
  exact ⟨found, found.fine⟩

def shelved (path text : String) : FileTree := FileTree.fresh.plant path (.file (Text.toBytes text))

def halfWritten (calls : Nat) : List Turn := List.replicate calls .goes ++ [.writes 6]

theorem halfWrittenFileIsHidden :
    ¬ StagedInPlace "state/credentials.conf" ∧
    Steady (shelved "state/credentials.conf" "a=1\n") "state/credentials.conf" ∧
    OldOrNew (shelved "state/credentials.conf" "a=1\n") "state/credentials.conf" (.put [("b", "2")])
      ((stopped (shelved "state/credentials.conf" "a=1\n") ⟨"state/credentials.conf", "/lock", .empty⟩
        (.update (.put [("b", "2")])) (halfWritten 4)).tree.content? "state/credentials.conf") := by
  have apart : ¬ StagedInPlace "state/credentials.conf" := by decide +kernel
  have steady : Steady (shelved "state/credentials.conf" "a=1\n") "state/credentials.conf" :=
    .inl (by decide +kernel)
  exact ⟨apart, steady, (stoppedUpdatesAreWhole _ ⟨"state/credentials.conf", "/lock", .empty⟩ _ _).2
    apart steady⟩

theorem notOldOrNew {t : FileTree} {seen : Option Bytes} (found : Dictionary)
    (read : readRecords t path = .ok found) (old : seen ≠ t.content? path)
    (new : seen ≠ some (whole (c.apply found))) : ¬ OldOrNew t path c seen := by
  rintro (same | ⟨next, ⟨found', read', rfl⟩, same⟩)
  · exact old same
  · cases read.symm.trans read'
    exact new same

/- The staging file of the one path is the file itself. The other one leads through a directory that is
missing at first, and on to a file that was not to be seen before. -/
theorem halfWrittenFilesAreFound :
    ¬ OldOrNew (shelved "store.tmp" "a=1\n") "store.tmp" (.put [("b", "2")])
      ((stopped (shelved "store.tmp" "a=1\n") ⟨"store.tmp", "/lock", .empty⟩
        (.update (.put [("b", "2")])) (halfWritten 3)).tree.content? "store.tmp") ∧
    ¬ OldOrNew ((shelved "y" "k=v\n").plant "y.tmp" .dir) "x/../y" (.put [("a", "1")])
      ((stopped ((shelved "y" "k=v\n").plant "y.tmp" .dir) ⟨"x/../y", "/lock", .empty⟩
        (.update (.put [("a", "1")])) (halfWritten 4)).tree.content? "x/../y") := by
  refine ⟨notOldOrNew ⟨[("a", "1")], by decide⟩ rfl ?_ ?_, notOldOrNew .empty rfl ?_ ?_⟩
  all_goals decide +kernel

end FirewallAgent.Store

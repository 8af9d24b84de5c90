import FirewallAgent.Proofs.FileTree
import FirewallAgent.Proofs.Store.Record
import FirewallAgent.Store.Session

/-! What a job has done at each of its stages, however its calls go. Nothing is written before the
file was read, what is written is the change applied to what was found, and the handle's memory
changes only when all of it is under the store's path. -/
namespace FirewallAgent.Store
open FileTree (Holds)

def Shows (t : FileTree) (path : String) (d : Dictionary) : Prop :=
  ∃ text, t.readText path = .ok text ∧ parse text = .ok d

theorem Shows.records {t : FileTree} {path : String} {d : Dictionary} (h : Shows t path d) :
    readRecords t path = .ok d := by
  obtain ⟨text, read, parsed⟩ := h
  simp [readRecords, read, parsed]

theorem absentRecords {t : FileTree} {path : String} (h : t.readText path = .error .notFound) :
    readRecords t path = .ok .empty := by simp [readRecords, h]

theorem holdsShows {t : FileTree} {path : String} {l : Location} {d : Dictionary}
    (h : Holds t path l (Text.toBytes (serialize d))) : Shows t path (withoutComments d) :=
  ⟨serialize d, h.readText, parseSerialize d⟩

def Job.result (found : Dictionary) : Job → Dictionary
  | .reload => found
  | .update c => c.apply found

def Settled (path : String) (before now : FileTree) (found : Dictionary) : Job → Prop
  | .reload => now = before
  | .update c => ∃ l, Holds now path l (Text.toBytes (serialize (c.apply found)))

def Blamed (path : String) (before : FileTree) (e : StorageError) : Prop :=
  e.isFault = true ∨ readRecords before path = .error e

def Planned (path : String) (job : Job) (before : FileTree) (next : Dictionary) : Prop :=
  ∃ c found, job = .update c ∧ readRecords before path = .ok found ∧ next = c.apply found

def Reached (path : String) (job : Job) (before : FileTree) (memory : Dictionary) (w : Work) : Prop :=
  match w.stage with
  | .locking | .reading => w.memory = memory ∧ w.tree = before
  | .makingDirs next | .opening next => w.memory = memory ∧ Planned path job before next
  | .writing next file rest => w.memory = memory ∧ Planned path job before next ∧
      ∃ b, Holds w.tree (stagingPath path) file b ∧ b ++ rest = Text.toBytes (serialize next)
  | .syncing next | .replacing next => w.memory = memory ∧ Planned path job before next ∧
      ∃ l, Holds w.tree (stagingPath path) l (Text.toBytes (serialize next))
  | .keeping next => w.memory = memory ∧ ∃ found, readRecords before path = .ok found ∧
      next = job.result found ∧ Settled path before w.tree found job
  | .unlocking (.ok ()) | .done (.ok ()) => ∃ found, readRecords before path = .ok found ∧
      w.memory = job.result found ∧ Settled path before w.tree found job
  | .unlocking (.error e) | .done (.error e) => w.memory = memory ∧ Blamed path before e

variable {path lockName : String} {job : Job} {before : FileTree} {memory : Dictionary} {w : Work}

theorem reachedFail (h : w.memory = memory) {e : StorageError} (blame : Blamed path before e) :
    Reached path job before memory (w.fail e) := ⟨h, blame⟩

theorem reachedAfterRead (same : w.memory = memory) (tree : w.tree = before) :
    Reached path job before memory (w.afterRead path job (readRecords w.tree path)) := by
  cases read : readRecords w.tree path with
  | error e => exact reachedFail same (.inr (tree ▸ read))
  | ok found =>
    have found' : readRecords before path = .ok found := tree ▸ read
    cases job with
    | reload => exact ⟨same, found, found', rfl, tree⟩
    | update c =>
      have planned : Planned path (.update c) before (c.apply found) := ⟨c, found, rfl, found', rfl⟩
      simp only [Work.afterRead]
      split
      · exact ⟨same, planned⟩
      · exact ⟨same, planned⟩

theorem reachedMakingDirs {next : Dictionary} (turn : Turn) (same : w.memory = memory)
    (planned : Planned path job before next) (stage : w.stage = .makingDirs next) :
    Reached path job before memory (w.step path lockName job turn) := by
  simp only [Work.step, stage]
  split
  · exact ⟨same, planned⟩
  · split
    · exact reachedFail same (.inl rfl)
    · split
      · exact ⟨same, planned⟩
      · exact ⟨same, .inl rfl⟩

theorem reachedOpening {next : Dictionary} (turn : Turn) (same : w.memory = memory)
    (planned : Planned path job before next) (stage : w.stage = .opening next) :
    Reached path job before memory (w.step path lockName job turn) := by
  simp only [Work.step, stage]
  split
  · exact reachedFail same (.inl rfl)
  · split
    · rename_i opened
      exact ⟨same, planned, [], FileTree.openEmptyHolds opened, rfl⟩
    · exact reachedFail same (.inl rfl)

theorem reachedWriting {next : Dictionary} {file : Location} {rest b : Bytes} (turn : Turn)
    (same : w.memory = memory) (planned : Planned path job before next)
    (stage : w.stage = .writing next file rest) (held : Holds w.tree (stagingPath path) file b)
    (all : b ++ rest = Text.toBytes (serialize next)) :
    Reached path job before memory (w.step path lockName job turn) := by
  simp only [Work.step, stage]
  split
  · exact reachedFail same (.inl rfl)
  · rename_i n
    refine ⟨same, planned, b ++ rest.take n, held.append _, ?_⟩
    rw [List.append_assoc, List.take_append_drop, all]
  · exact ⟨same, planned, file, all ▸ held.append rest⟩

theorem reachedReplacing {next : Dictionary} {l : Location} (turn : Turn)
    (same : w.memory = memory) (planned : Planned path job before next)
    (stage : w.stage = .replacing next)
    (held : Holds w.tree (stagingPath path) l (Text.toBytes (serialize next))) :
    Reached path job before memory (w.step path lockName job turn) := by
  obtain ⟨c, found, rfl, read, rfl⟩ := planned
  simp only [Work.step, stage]
  split
  · exact reachedFail same (.inl rfl)
  · split
    · rename_i moved
      exact ⟨same, found, read, rfl, held.rename moved⟩
    · exact reachedFail same (.inl rfl)

theorem reachedStep (turn : Turn) (h : Reached path job before memory w) :
    Reached path job before memory (w.step path lockName job turn) := by
  cases stage : w.stage with
  | locking =>
    simp only [Reached, stage] at h
    simp only [Work.step, stage]
    split
    · exact ⟨h.1, .inl rfl⟩
    · exact h
  | reading =>
    simp only [Reached, stage] at h
    simp only [Work.step, stage]
    split
    · exact reachedFail h.1 (.inl rfl)
    · exact reachedAfterRead h.1 h.2
  | makingDirs next =>
    simp only [Reached, stage] at h
    exact reachedMakingDirs turn h.1 h.2 stage
  | opening next =>
    simp only [Reached, stage] at h
    exact reachedOpening turn h.1 h.2 stage
  | writing next file rest =>
    simp only [Reached, stage] at h
    obtain ⟨same, planned, b, held, all⟩ := h
    exact reachedWriting turn same planned stage held all
  | syncing next =>
    simp only [Reached, stage] at h
    simp only [Work.step, stage]
    split
    · exact reachedFail h.1 (.inl rfl)
    · exact h
  | replacing next =>
    simp only [Reached, stage] at h
    obtain ⟨same, planned, l, held⟩ := h
    exact reachedReplacing turn same planned stage held
  | keeping next =>
    simp only [Reached, stage] at h
    obtain ⟨_, found, read, next, settled⟩ := h
    simp only [Work.step, stage]
    exact ⟨found, read, next, settled⟩
  | unlocking result =>
    cases result with
    | ok | error => simpa only [Work.step, stage, Reached] using h
  | done result =>
    cases result with
    | ok | error => simpa only [Work.step, stage, Reached] using h

theorem turnsKeep {P : Work → Prop} (keep : ∀ w turn, P w → P (w.step path lockName job turn))
    (turns : List Turn) (held : P w) :
    P (turns.foldl (fun w turn => w.step path lockName job turn) w) := by
  induction turns generalizing w with
  | nil => exact held
  | cons turn rest ih => exact ih (keep w turn held)

/- The calls after the last turn bring any work to its end: each leaves fewer of them to do. -/
theorem finishEnds {n : Nat} (enough : Work.stepsLeft w.stage ≤ n) :
    ∃ r, (Work.finish path lockName job n w).stage = .done r := by
  induction n generalizing w with
  | zero =>
    cases stage : w.stage with
    | done r => exact ⟨r, stage⟩
    | _ => simp [stage, Work.stepsLeft] at enough
  | succ n ih =>
    have fewer := Work.stepsLeftStep path lockName job w
    exact ih (by omega)

theorem stepsLeftMost (stage : Stage) : Work.stepsLeft stage ≤ Work.stepsLeft .locking := by
  cases stage <;> simp [Work.stepsLeft]

theorem finishKeeps {P : Work → Prop} (keep : ∀ w, P w → P (w.step path lockName job .goes))
    (n : Nat) (held : P w) : P (Work.finish path lockName job n w) := by
  induction n generalizing w with
  | zero => exact held
  | succ n ih => exact ih (keep w held)

theorem performKeeps {t u : FileTree} {h k : Handle} {turns : List Turn}
    {r : Except StorageError Unit} {P : Work → Prop} (start : P ⟨t, h.memory, .locking⟩)
    (keep : ∀ w turn, P w → P (w.step h.path h.lockName job turn))
    (done : perform t h job turns = (u, k, r)) :
    ∃ w, P w ∧ u = w.tree ∧ k = { h with memory := w.memory } ∧ w.stage = .done r := by
  obtain ⟨rfl, rest⟩ := Prod.mk.inj done
  obtain ⟨rfl, rfl⟩ := Prod.mk.inj rest
  refine ⟨_, finishKeeps (keep · .goes) _ (turnsKeep keep turns start), rfl, rfl, ?_⟩
  have ended (w : Work) : ∃ r,
      (Work.finish h.path h.lockName job (Work.stepsLeft .locking) w).stage = .done r :=
    finishEnds (stepsLeftMost w.stage)
  obtain ⟨r, stage⟩ := ended _
  rw [stage]

theorem performOk {t u : FileTree} {h k : Handle} {turns : List Turn}
    (ok : perform t h job turns = (u, k, .ok ())) :
    ∃ found, readRecords t h.path = .ok found ∧ k = { h with memory := job.result found } ∧
      Settled h.path t u found job := by
  obtain ⟨w, reached, rfl, rfl, stage⟩ :=
    performKeeps (P := Reached h.path job t h.memory) ⟨rfl, rfl⟩ (fun _ turn => reachedStep turn) ok
  simp only [Reached, stage] at reached
  obtain ⟨found, read, memory, settled⟩ := reached
  exact ⟨found, read, by rw [memory], settled⟩

def Stage.isReading : Stage → Bool
  | .locking | .reading | .keeping _ | .unlocking _ | .done _ => true
  | _ => false

theorem reloadStep (turn : Turn) (reading : w.stage.isReading = true) :
    (w.step path lockName .reload turn).stage.isReading = true ∧
      (w.step path lockName .reload turn).tree = w.tree := by
  cases stage : w.stage with
  | makingDirs | opening | writing | syncing | replacing => simp [stage, Stage.isReading] at reading
  | locking =>
    simp only [Work.step, stage]
    split <;> exact ⟨rfl, rfl⟩
  | reading =>
    simp only [Work.step, stage]
    split
    · exact ⟨rfl, rfl⟩
    · cases readRecords w.tree path <;> exact ⟨rfl, rfl⟩
  | keeping next =>
    simp [Work.step, stage, Stage.isReading]
  | unlocking result =>
    simp [Work.step, stage, Stage.isReading]
  | done result =>
    simp [Work.step, stage, Stage.isReading]

theorem reloadTree {t u : FileTree} {h k : Handle} {turns : List Turn}
    {r : Except StorageError Unit} (done : reload t h turns = (u, k, r)) : u = t := by
  obtain ⟨w, kept, rfl, _⟩ :=
    performKeeps (P := fun w => w.stage.isReading = true ∧ w.tree = t) ⟨rfl, rfl⟩
      (fun _ turn kept =>
        ⟨(reloadStep turn kept.1).1, (reloadStep turn kept.1).2.trans kept.2⟩) done
  exact kept.2

theorem commentAppend (code : String) {rest : String} (more : isComment rest = false) :
    isComment (code ++ rest) = isComment code := by
  unfold isComment at more ⊢
  rw [String.toList_append]
  cases chars : code.toList with
  | nil => exact more
  | cons c cs => rfl

theorem commentId (code : String) : isComment (Credential.idKey code) = isComment code :=
  commentAppend code (by decide)

theorem commentSecret (code : String) : isComment (Credential.secretKey code) = isComment code :=
  commentAppend code (by decide)

theorem credentialKeys (a b : String) : Credential.idKey a ≠ Credential.secretKey b := by
  intro same
  have ends := congrArg (fun key => key.toList.getLast?) same
  simp [Credential.idKey, Credential.secretKey, String.toList_append] at ends

theorem findWithoutComments (d : Dictionary) (code : String) :
    Credential.find? (withoutComments d) code =
      if isComment code then none else Credential.find? d code := by
  simp only [Credential.find?, getWithoutComments, commentId, commentSecret]
  cases isComment code <;> rfl

theorem findSaved (d : Dictionary) (code : String) (x : Credential) :
    Credential.find? (Change.apply d (.put (credentialEntries code x))) code = some x := by
  simp [Credential.find?, Change.apply, credentialEntries, (credentialKeys code code).symm]

theorem readUncommented {t : FileTree} {found : Dictionary} {key : String}
    (read : readRecords t path = .ok found) (comment : isComment key = true) :
    found.get? key = none := by
  unfold readRecords at read
  split at read
  · cases there : found.get? key with
    | none => rfl
    | some v =>
      have plain := parsePlain read _ (Entries.valueOfMember there)
      simp [comment] at plain
  · cases Except.ok.inj read
    rfl
  · contradiction

theorem saveRecords {t u : FileTree} {h k : Handle} {code : String} {x : Credential}
    {turns : List Turn} (ok : saveCredential t h code x turns = (u, k, .ok ())) :
    ∃ found now, readRecords t h.path = .ok found ∧ readRecords u k.path = .ok now ∧
      (∀ key, key ≠ Credential.idKey code → key ≠ Credential.secretKey code →
        now.get? key = found.get? key) ∧
      (isComment code = false → Credential.find? now code = some x) := by
  obtain ⟨found, read, rfl, l, held⟩ := performOk ok
  refine ⟨found, _, read, (holdsShows held).records, ?_, ?_⟩
  · intro key notId notSecret
    rw [getWithoutComments]
    cases comment : isComment key with
    | true => exact (readUncommented read comment).symm
    | false => simp [Change.apply, credentialEntries, notId.symm, notSecret.symm]
  · intro plain
    rw [findWithoutComments, plain]
    exact findSaved found code x

end FirewallAgent.Store

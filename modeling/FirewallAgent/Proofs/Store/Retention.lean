import FirewallAgent.Config
import FirewallAgent.Proofs.Store.Work

/-! What is left of a write for whoever reads the file next. Reading gives back every record but those
whose key begins with a number sign: writing does not escape this sign, and reading takes the line for
a comment. A credential is lost with them if its code begins so. -/
namespace FirewallAgent.Store

structure Rereads (t : FileTree) (path : String) (d : Dictionary) : Prop where
  reloads : ∀ h : Handle, h.path = path → Store.reload t h = (t, { h with memory := d }, .ok ())
  however : ∀ (h k : Handle) (turns : List Turn) (u : FileTree), h.path = path →
    Store.reload t h turns = (u, k, .ok ()) → k.memory = d
  opens : ∀ lockName name, Lock.openKey lockName = .ok name →
    openAt t path lockName = .ok ⟨path, lockName, d⟩

variable {t u : FileTree} {h k : Handle} {path : String} {d : Dictionary} {turns : List Turn}

theorem reloadGoes (read : readRecords t h.path = .ok d) :
    reload t h = (t, { h with memory := d }, .ok ()) := by
  simp [reload, perform, Work.finish, Work.stepsLeft, Work.step, Work.afterRead, read]

theorem rereadsOfRecords (read : readRecords t path = .ok d) : Rereads t path d where
  reloads h same := reloadGoes (same ▸ read)
  however h k turns u same ok := by
    obtain ⟨found, read', rfl, _⟩ := performOk ok
    have one : Except.ok found = Except.ok d := (same ▸ read').symm.trans read
    exact Except.ok.inj one
  opens lockName name free := by
    have loaded := reloadGoes (h := { path, lockName }) read
    rw [reload] at loaded
    simp [openAt, free, loaded]

theorem performPath {job : Job} {r : Except StorageError Unit}
    (done : perform t h job turns = (u, k, r)) : k.path = h.path := by
  obtain ⟨_, rest⟩ := Prod.mk.inj done
  obtain ⟨rfl, _⟩ := Prod.mk.inj rest
  rfl

theorem updateRereads {c : Change} (ok : perform t h (.update c) turns = (u, k, .ok ())) :
    Rereads u h.path (withoutComments k.memory) := by
  obtain ⟨found, _, rfl, l, held⟩ := performOk ok
  exact rereadsOfRecords (holdsShows held).records

theorem putRemembers {key value : String}
    (ok : perform t h (.update (.put [(key, value)])) turns = (u, k, .ok ())) :
    k.memory.get? key = some value := by
  obtain ⟨found, _, rfl, _⟩ := performOk ok
  simp [Job.result, Change.apply]

theorem saveRemembers {code : String} {x : Credential}
    (ok : saveCredential t h code x turns = (u, k, .ok ())) : loadCredential k code = some x := by
  obtain ⟨found, _, rfl, _⟩ := performOk ok
  exact findSaved found code x

theorem keptWhole : withoutComments d = d ↔ ∀ e ∈ d.entries, isComment e.1 = false := by
  have entries : (withoutComments d).entries = d.entries.filter fun e => !isComment e.1 := rfl
  constructor
  · intro same
    have all := entries.symm.trans (congrArg Dictionary.entries same)
    simpa using List.filter_eq_self.mp all
  · intro plain
    refine Dictionary.sameEntries (entries.trans (List.filter_eq_self.mpr ?_))
    simpa using plain

/- A record that was written is read back by everyone, unless its key begins with a number sign. -/
theorem writesAreReread (t u : FileTree) (h k : Handle) (turns : List Turn) :
    (∀ key value, perform t h (.update (.put [(key, value)])) turns = (u, k, .ok ()) →
      Rereads u h.path (withoutComments k.memory) ∧
        (withoutComments k.memory).get? key = if isComment key then none else some value) ∧
    (∀ code x, saveCredential t h code x turns = (u, k, .ok ()) →
      Rereads u h.path (withoutComments k.memory) ∧
        Credential.find? (withoutComments k.memory) code = if isComment code then none else some x) ∧
    ∀ d, parse (serialize d) = .ok (withoutComments d) ∧
      (parse (serialize d) = .ok d ↔ ∀ e ∈ d.entries, isComment e.1 = false) := by
  refine ⟨?_, ?_, ?_⟩
  · intro key value ok
    refine ⟨updateRereads ok, ?_⟩
    rw [getWithoutComments, putRemembers ok]
  · intro code x ok
    refine ⟨updateRereads ok, ?_⟩
    rw [findWithoutComments]
    exact congrArg _ (saveRemembers ok)
  · intro d
    have read := parseSerialize d
    refine ⟨read, ?_⟩
    rw [read, Except.ok.injEq]
    exact keptWhole

def shelf : Handle := { path := "store", lockName := "/lock" }

theorem escapedRecordsAreReread :
    (∃ u k d, set .fresh shelf "a=b" "c\\d\n" = (u, k, .ok ()) ∧ Rereads u "store" d ∧
      d.get? "a=b" = some "c\\d\n") ∧
    (∃ u k d, saveCredential .fresh shelf "code" ⟨"id", "#"⟩ = (u, k, .ok ()) ∧
      Rereads u "store" d ∧ Credential.find? d "code" = some ⟨"id", "#"⟩) ∧
    ∃ d, parse (serialize (Dictionary.empty.insert "a" "#")) = .ok d ∧ d.get? "a" = some "#" := by
  refine ⟨?_, ?_, ?_⟩
  · obtain ⟨u, k, ok⟩ : ∃ u k, set .fresh shelf "a=b" "c\\d\n" = (u, k, .ok ()) := ⟨_, _, rfl⟩
    obtain ⟨reread, got⟩ := (writesAreReread .fresh u shelf k []).1 _ _ ok
    exact ⟨u, k, _, ok, reread, got.trans (if_neg (by decide))⟩
  · obtain ⟨u, k, ok⟩ : ∃ u k, saveCredential .fresh shelf "code" ⟨"id", "#"⟩ = (u, k, .ok ()) :=
      ⟨_, _, rfl⟩
    obtain ⟨reread, got⟩ := (writesAreReread .fresh u shelf k []).2.1 _ _ ok
    exact ⟨u, k, _, ok, reread, got.trans (if_neg (by decide))⟩
  · have read := ((writesAreReread .fresh .fresh shelf shelf []).2.2
      (Dictionary.empty.insert "a" "#")).2.mpr (by decide)
    exact ⟨_, read, rfl⟩

theorem signedRecordsAreLost :
    (∃ u k, set .fresh shelf "#k" "v" = (u, k, .ok ()) ∧ k.get? "#k" = some "v" ∧
      ∃ l, reload u k = (u, l, .ok ()) ∧ l.get? "#k" = none) ∧
    (Config.validate { serverAddr := "localhost:443", installationCode := "#INST" } = .ok () ∧
      ∃ u k, saveCredential .fresh shelf "#INST" ⟨"id", "secret"⟩ = (u, k, .ok ()) ∧
        ∃ l, reload u k = (u, l, .ok ()) ∧ loadCredential l "#INST" = none) ∧
    ∃ d, parse (serialize d) ≠ .ok d := by
  have sign : isComment "#k" = true := by decide
  have code : isComment "#INST" = true := by decide
  refine ⟨?_, ⟨rfl, ?_⟩, Dictionary.empty.insert "#k" "v", ?_⟩
  · obtain ⟨u, k, ok⟩ : ∃ u k, set .fresh shelf "#k" "v" = (u, k, .ok ()) := ⟨_, _, rfl⟩
    have reread := (updateRereads ok).reloads k (performPath ok)
    refine ⟨u, k, ok, putRemembers ok, _, reread, ?_⟩
    exact (getWithoutComments k.memory "#k").trans (if_pos sign)
  · obtain ⟨u, k, ok⟩ : ∃ u k, saveCredential .fresh shelf "#INST" ⟨"id", "secret"⟩ = (u, k, .ok ()) :=
      ⟨_, _, rfl⟩
    have reread := (updateRereads ok).reloads k (performPath ok)
    refine ⟨u, k, ok, _, reread, ?_⟩
    exact (findWithoutComments k.memory "#INST").trans (if_pos code)
  · rw [parseSerialize, ne_eq, Except.ok.injEq]
    decide

end FirewallAgent.Store

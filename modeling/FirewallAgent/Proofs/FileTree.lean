import FirewallAgent.FileTree

/-! What a path leads to while files are written. A path keeps its meaning as long as every directory
stays a directory, so a file that was opened under a path is found there again, and after a rename
the new name leads to the bytes of the old one. -/
namespace FirewallAgent.FileTree

theorem lookEraseOther (t : FileTree) {l m : Location} (h : m ≠ l) :
    (t.erase l).look m = t.look m := by
  simp only [look, erase, List.find?_filter]
  congr 3
  funext e
  by_cases he : e.1 = m
  · subst he; simp [h]
  · simp [he]

theorem lookEraseSelf (t : FileTree) {l : Location} (h : l ≠ []) : (t.erase l).look l = none := by
  simp [look, erase, h]

def DirsKept (t u : FileTree) : Prop :=
  u.home = t.home ∧ ∀ l, t.look l = some .dir → u.look l = some .dir

theorem DirsKept.trans {t u v : FileTree} (first : DirsKept t u) (second : DirsKept u v) :
    DirsKept t v :=
  ⟨second.1.trans first.1, fun l h => second.2 l (first.2 l h)⟩

theorem putKeepsDirs {t : FileTree} {l : Location} (b : Bytes) (h : t.look l ≠ some .dir) :
    DirsKept t (t.put l (.file b)) := by
  refine ⟨rfl, ?_⟩
  intro m dir
  have other : m ≠ l := fun same => h (same ▸ dir)
  exact (lookPutOther t _ other).trans dir

theorem eraseKeepsDirs {t : FileTree} {l : Location} (h : t.look l ≠ some .dir) :
    DirsKept t (t.erase l) := by
  refine ⟨rfl, ?_⟩
  intro m dir
  have other : m ≠ l := fun same => h (same ▸ dir)
  exact (lookEraseOther t other).trans dir

theorem followKept {t u : FileTree} (kept : DirsKept t u) {mustBeDir : Bool} {l : Location}
    {ps : List String} {x : Target} (ok : t.follow mustBeDir l ps = .ok x) :
    u.follow mustBeDir l ps = .ok x := by
  induction ps generalizing l with
  | nil => exact ok
  | cons p rest ih =>
    rw [follow] at ok ⊢
    by_cases dot : p = "."
    · rw [if_pos dot] at ok ⊢
      exact ih ok
    rw [if_neg dot] at ok ⊢
    by_cases dots : p = ".."
    · rw [if_pos dots] at ok ⊢
      exact ih ok
    rw [if_neg dots] at ok ⊢
    split at ok
    · contradiction
    · rename_i short
      rw [if_neg short]
      split at ok
      · rename_i last
        rw [if_pos last]
        exact ok
      · rename_i more
        rw [if_neg more]
        cases found : t.look (l ++ [p]) with
        | none => simp [found] at ok
        | some e =>
          cases e with
          | file b => simp [found] at ok
          | dir =>
            simp only [found] at ok
            simp only [kept.2 _ found]
            exact ih ok

theorem resolveKept {t u : FileTree} (kept : DirsKept t u) {path : String} {x : Target}
    (ok : t.resolve path = .ok x) : u.resolve path = .ok x := by
  unfold resolve at ok ⊢
  rw [kept.1]
  split at ok
  · contradiction
  · rename_i noNul
    rw [if_neg noNul]
    split at ok
    · contradiction
    · rename_i filled
      rw [if_neg filled]
      split at ok
      · contradiction
      · rename_i short
        rw [if_neg short]
        exact followKept kept ok

structure Holds (t : FileTree) (path : String) (l : Location) (b : Bytes) : Prop where
  leads : ∃ d n, t.resolve path = .ok (.name d n false) ∧ l = d ++ [n]
  file : t.look l = some (.file b)

theorem Holds.named {t : FileTree} {path : String} {l : Location} {b : Bytes}
    (h : Holds t path l b) : l ≠ [] := by
  obtain ⟨d, n, _, same⟩ := h.leads
  simp [same]

theorem Holds.read {t : FileTree} {path : String} {l : Location} {b : Bytes}
    (h : Holds t path l b) : t.read path = .ok b := by
  obtain ⟨d, n, leads, same⟩ := h.leads
  have file := h.file
  rw [same] at file
  simp [FileTree.read, leads, file, bind, Except.bind]

theorem Holds.readText {t : FileTree} {path : String} {l : Location} {s : String}
    (h : Holds t path l (Text.toBytes s)) : t.readText path = .ok s := by
  simp [FileTree.readText, h.read, bind, Except.bind]

theorem openedTarget {t u : FileTree} {path : String} {l : Location}
    (ok : t.openEmpty path = .ok (u, l)) : ∃ d n, t.resolve path = .ok (.name d n false) ∧
      t.look (d ++ [n]) ≠ some .dir ∧ u = t.put (d ++ [n]) (.file []) ∧ l = d ++ [n] := by
  simp only [openEmpty, bind, Except.bind] at ok
  split at ok
  · contradiction
  · rename_i x leads
    cases x with
    | place m => contradiction
    | name d n mustBeDir =>
      dsimp only at ok
      split at ok
      · contradiction
      · rename_i b found
        split at ok
        · contradiction
        · rename_i plain
          cases Except.ok.inj ok
          simp only [Bool.not_eq_true] at plain
          exact ⟨d, n, plain ▸ leads, by simp [found], rfl, rfl⟩
      · rename_i found
        split at ok
        · contradiction
        · rename_i plain
          cases Except.ok.inj ok
          simp only [Bool.not_eq_true] at plain
          exact ⟨d, n, plain ▸ leads, by simp [found], rfl, rfl⟩

theorem openEmptyHolds {t u : FileTree} {path : String} {l : Location}
    (ok : t.openEmpty path = .ok (u, l)) : Holds u path l [] := by
  obtain ⟨d, n, leads, free, rfl, rfl⟩ := openedTarget ok
  exact ⟨⟨d, n, resolveKept (putKeepsDirs [] free) leads, rfl⟩, lookPutSelf t _ (by simp)⟩

theorem Holds.append {t : FileTree} {path : String} {l : Location} {b : Bytes}
    (h : Holds t path l b) (more : Bytes) : Holds (t.append l more) path l (b ++ more) := by
  have grown : t.append l more = t.put l (.file (b ++ more)) := by
    simp [FileTree.append, h.file]
  obtain ⟨d, n, leads, same⟩ := h.leads
  have free : t.look l ≠ some .dir := by simp [h.file]
  rw [grown]
  exact ⟨⟨d, n, resolveKept (putKeepsDirs _ free) leads, same⟩, lookPutSelf t _ h.named⟩

theorem movedTarget {t u : FileTree} {path new : String} {d : Location} {n : String} {b : Bytes}
    (leads : t.resolve path = .ok (.name d n false)) (file : t.look (d ++ [n]) = some (.file b))
    (ok : t.rename path new = .ok u) : ∃ d' n', t.resolve new = .ok (.name d' n' false) ∧
      t.look (d' ++ [n']) ≠ some .dir ∧ u = (t.erase (d ++ [n])).put (d' ++ [n']) (.file b) := by
  simp only [FileTree.rename, leads, bind, Except.bind] at ok
  split at ok
  · contradiction
  · rename_i x goal
    cases x with
    | place m => contradiction
    | name d' n' mustBeDir =>
      simp only [file] at ok
      split at ok
      · contradiction
      · contradiction
      · contradiction
      · rename_i same free
        cases same
        split at ok
        · contradiction
        · rename_i plain
          cases Except.ok.inj ok
          simp only [Bool.false_or, Bool.not_eq_true] at plain
          exact ⟨d', n', plain ▸ goal, free, rfl⟩

theorem Holds.rename {t u : FileTree} {path new : String} {l : Location} {b : Bytes}
    (h : Holds t path l b) (ok : t.rename path new = .ok u) : ∃ m, Holds u new m b := by
  obtain ⟨d, n, leads, rfl⟩ := h.leads
  obtain ⟨d', n', goal, free, rfl⟩ := movedTarget leads h.file ok
  have erased : DirsKept t (t.erase (d ++ [n])) := eraseKeepsDirs (by simp [h.file])
  have stillFree : (t.erase (d ++ [n])).look (d' ++ [n']) ≠ some .dir := by
    by_cases one : d' ++ [n'] = d ++ [n]
    · simp [one, lookEraseSelf]
    · rw [lookEraseOther t one]
      exact free
  have kept := erased.trans (putKeepsDirs b stillFree)
  exact ⟨d' ++ [n'], ⟨d', n', resolveKept kept goal, rfl⟩, lookPutSelf _ _ (by simp)⟩

end FirewallAgent.FileTree

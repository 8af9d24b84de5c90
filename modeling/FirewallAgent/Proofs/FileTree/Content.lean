import FirewallAgent.Proofs.FilePath
import FirewallAgent.Proofs.FileTree

/-! What is found at a path while other files come and go. A path finds what is in its own place in its
own directory. New directories do not change that, unless the path led through one that was missing
and back again. -/
namespace FirewallAgent.FileTree
open FilePath (Named)

def content? (t : FileTree) (path : String) : Option Bytes := (t.read path).toOption

theorem contentRead {t : FileTree} {path : String} {b : Bytes} :
    t.content? path = some b ↔ t.read path = .ok b := by
  unfold content?
  cases t.read path <;> simp [Except.toOption]

def walk (t : FileTree) : Location → List String → Option Location
  | l, [] => some l
  | l, p :: rest =>
    if p = "." then walk t l rest
    else if p = ".." then walk t l.dropLast rest
    else if (Text.toBytes p).length > longestName then none
    else if t.look (l ++ [p]) = some .dir then walk t (l ++ [p]) rest
    else none

variable {t u : FileTree} {l d : Location} {ps : List String} {mustBeDir : Bool}

theorem walkKept (kept : DirsKept t u) (walked : t.walk l ps = some d) : u.walk l ps = some d := by
  induction ps generalizing l with
  | nil => exact walked
  | cons p rest ih =>
    rw [walk] at walked ⊢
    split at walked
    · rename_i dot
      rw [if_pos dot]
      exact ih walked
    · rename_i dot
      rw [if_neg dot]
      split at walked
      · rename_i dots
        rw [if_pos dots]
        exact ih walked
      · rename_i dots
        rw [if_neg dots]
        split at walked
        · contradiction
        · rename_i short
          rw [if_neg short]
          split at walked
          · rename_i dir
            rw [if_pos (kept.2 _ dir)]
            exact ih walked
          · contradiction

theorem followWalked (walked : t.walk l ps = some d) {rest : List String} (more : rest ≠ []) :
    t.follow mustBeDir l (ps ++ rest) = t.follow mustBeDir d rest := by
  induction ps generalizing l with
  | nil =>
    cases Option.some.inj walked
    rfl
  | cons p ps ih =>
    rw [walk] at walked
    rw [List.cons_append, follow]
    split at walked
    · rename_i dot
      rw [if_pos dot]
      exact ih walked
    · rename_i dot
      rw [if_neg dot]
      split at walked
      · rename_i dots
        rw [if_pos dots]
        exact ih walked
      · rename_i dots
        rw [if_neg dots]
        split at walked
        · contradiction
        · rename_i short
          have on : (ps ++ rest).isEmpty = false := by simp [more]
          rw [if_neg short, on, if_neg (by simp)]
          split at walked
          · rename_i dir
            rw [dir]
            exact ih walked
          · contradiction

theorem followNames {m : Location} {n : String} {b : Bool}
    (ok : t.follow mustBeDir l ps = .ok (.name m n b)) : ∃ dirs, ps = dirs ++ [n] ∧
      t.walk l dirs = some m ∧ n ≠ "." ∧ n ≠ ".." := by
  induction ps generalizing l with
  | nil => simp [follow] at ok
  | cons p rest ih =>
    rw [follow] at ok
    split at ok
    · rename_i dot
      obtain ⟨dirs, rfl, walked, proper⟩ := ih ok
      refine ⟨p :: dirs, rfl, ?_, proper⟩
      rw [walk, if_pos dot]
      exact walked
    · rename_i dot
      split at ok
      · rename_i dots
        obtain ⟨dirs, rfl, walked, proper⟩ := ih ok
        refine ⟨p :: dirs, rfl, ?_, proper⟩
        rw [walk, if_neg dot, if_pos dots]
        exact walked
      · rename_i dots
        split at ok
        · contradiction
        · rename_i short
          split at ok
          · rename_i last
            cases Except.ok.inj ok
            exact ⟨[], by simpa using last, rfl, dot, dots⟩
          · split at ok
            · contradiction
            · contradiction
            · rename_i dir
              obtain ⟨dirs, rfl, walked, proper⟩ := ih ok
              refine ⟨p :: dirs, rfl, ?_, proper⟩
              rw [walk, if_neg dot, if_neg dots, if_neg short, if_pos dir]
              exact walked

def origin (t : FileTree) (path : String) : Location :=
  if FilePath.isAbsolute path then [] else t.home

def way (ps : List String) : List String := ps.filter (· ≠ "")

structure EndsAt (path : String) (dirs : List String) (name : String) (dots : List String) : Prop where
  parted : way (FilePath.parts path) = dirs ++ name :: dots
  dotted : ∀ p ∈ dots, p = "."
  here : name ≠ "."
  up : name ≠ ".."

theorem Named.endsAt {path name : String} {dirs idle : List String} (h : Named path dirs name idle) :
    EndsAt path (way dirs) name (way idle) where
  parted := by simp [FileTree.way, h.parted, h.filled]
  dotted p there := by
    obtain ⟨member, filled⟩ := List.mem_filter.mp there
    exact (h.silent p member).resolve_left (by simpa using filled)
  here := h.here
  up := h.up

theorem resolveNames {path : String} {m : Location} {n : String} {b : Bool}
    (ok : t.resolve path = .ok (.name m n b)) : ∃ dirs, EndsAt path dirs n [] ∧
      t.walk (t.origin path) dirs = some m ∧ FilePath.name? path = some n := by
  unfold resolve at ok
  split at ok
  · contradiction
  · split at ok
    · contradiction
    · split at ok
      · contradiction
      · obtain ⟨dirs, parted, walked, here, up⟩ := followNames ok
        have last : (way (FilePath.parts path)).getLast? = some n := by
          rw [way, parted, List.getLast?_concat]
        exact ⟨dirs, ⟨parted, by simp, here, up⟩, walked, FilePath.nameOfLast last here up⟩

theorem followDots {dots : List String} (all : ∀ p ∈ dots, p = ".") :
    t.follow mustBeDir l dots = .ok (.place l) := by
  induction dots with
  | nil => rfl
  | cons p rest ih =>
    rw [follow, if_pos (all p List.mem_cons_self)]
    exact ih fun q there => all q (List.mem_cons_of_mem p there)

section
variable {path name : String} {dirs dots : List String}

theorem resolveAlike (h : EndsAt path dirs name dots) (before : t.walk (t.origin path) dirs = some d)
    (after : u.walk (u.origin path) dirs = some d)
    (same : u.look (d ++ [name]) = t.look (d ++ [name])) : u.resolve path = t.resolve path := by
  have last : ∀ mustBeDir, u.follow mustBeDir d (name :: dots) = t.follow mustBeDir d (name :: dots) := by
    intro mustBeDir
    rw [follow, follow, if_neg h.here, if_neg h.up, if_neg h.here, if_neg h.up, same]
    cases t.look (d ++ [name]) with
    | none => rfl
    | some e => cases e <;> simp [followDots h.dotted]
  have whole : ∀ mustBeDir, u.follow mustBeDir (u.origin path) (way (FilePath.parts path)) =
      t.follow mustBeDir (t.origin path) (way (FilePath.parts path)) := by
    intro mustBeDir
    rw [h.parted, followWalked before (by simp), followWalked after (by simp), last]
  unfold resolve
  split
  · rfl
  · split
    · rfl
    · split
      · rfl
      · exact whole _

theorem resolveNamed (h : EndsAt path dirs name dots) (walked : t.walk (t.origin path) dirs = some d)
    {m : Location} {n : String} {b : Bool} (ok : t.resolve path = .ok (.name m n b)) :
    m = d ∧ n = name := by
  obtain ⟨front, ends, walked', _⟩ := resolveNames ok
  have parted := h.parted.symm.trans ends.parted
  rcases List.eq_nil_or_concat dots with none | ⟨rest, p, some⟩
  · rw [none] at parted
    obtain ⟨rfl, one⟩ := List.append_inj' parted rfl
    cases one
    exact ⟨Option.some.inj (walked'.symm.trans walked), rfl⟩
  · have dot : p = "." := h.dotted p (by simp [some])
    rw [some, dot, List.concat_eq_append, ← List.cons_append, ← List.append_assoc] at parted
    have last := (List.append_inj' parted rfl).2
    exact absurd (List.singleton_inj.mp last).symm ends.here

theorem readAlike (h : EndsAt path dirs name dots) (before : t.walk (t.origin path) dirs = some d)
    (after : u.walk (u.origin path) dirs = some d)
    (same : u.look (d ++ [name]) = t.look (d ++ [name])) : u.read path = t.read path := by
  have leads := resolveAlike h before after same
  unfold read
  rw [leads]
  cases ok : t.resolve path with
  | error e => rfl
  | ok x =>
    cases x with
    | place m => rfl
    | name m n b =>
      obtain ⟨rfl, rfl⟩ := resolveNamed h before ok
      simp only [bind, Except.bind, same]

theorem readFile (h : EndsAt path dirs name dots) (walked : t.walk (t.origin path) dirs = some d)
    {b c : Bytes} (file : t.look (d ++ [name]) = some (.file b)) (ok : t.read path = .ok c) : c = b := by
  unfold read at ok
  cases leads : t.resolve path with
  | error e => simp [leads, bind, Except.bind] at ok
  | ok x =>
    cases x with
    | place m => simp [leads, bind, Except.bind] at ok
    | name m n plain =>
      obtain ⟨rfl, rfl⟩ := resolveNamed h walked leads
      simp only [leads, bind, Except.bind, file] at ok
      split at ok
      · contradiction
      · exact (Except.ok.inj ok).symm

end

theorem originKept (kept : DirsKept t u) (path : String) : u.origin path = t.origin path := by
  simp [origin, kept.1]

/- A file that another extension names is not the one at the path, unless they share their name. -/
theorem besideContent {path ext : String} {n : String} (plain : '/' ∉ ext.toList) (bare : '.' ∉ ext.toList)
    (leads : t.resolve (FilePath.withExtension path ext) = .ok (.name d n false))
    (free : t.look (d ++ [n]) ≠ some .dir) (b : Bytes) :
    (t.put (d ++ [n]) (.file b)).content? path = t.content? path ∨
      ((∃ s, s ≠ "" ∧ FilePath.name? path = some (s ++ "." ++ ext)) ∧
        ∀ c, (t.put (d ++ [n]) (.file b)).content? path = some c → c = b) := by
  have kept := putKeepsDirs b free
  obtain ⟨front, ends, walked, _⟩ := resolveNames leads
  cases named : FilePath.name? path with
  | none =>
    -- such a path leads to a directory, if anywhere, and its extension cannot change
    have same : FilePath.withExtension path ext = path := by simp [FilePath.withExtension, named]
    rw [same] at leads
    obtain ⟨_, _, _, found⟩ := resolveNames leads
    exact absurd (named.symm.trans found) (by simp)
  | some own =>
    obtain ⟨dirs, idle, h⟩ := FilePath.namedParts named
    have beside : way (FilePath.parts (FilePath.withExtension path ext)) =
        way dirs ++ [FilePath.stem own ++ "." ++ ext] := by
      rw [h.extended ext plain]
      simp [way]
    obtain ⟨rfl, one⟩ := List.append_inj' (beside.symm.trans ends.parted) rfl
    cases one
    have begins : t.origin (FilePath.withExtension path ext) = t.origin path := by
      simp [origin, h.absolute plain]
    rw [begins] at walked
    have after : (t.put (d ++ [FilePath.stem own ++ "." ++ ext]) (.file b)).walk
        ((t.put (d ++ [FilePath.stem own ++ "." ++ ext]) (.file b)).origin path) (way dirs) = some d := by
      rw [originKept kept]
      exact walkKept kept walked
    by_cases one : FilePath.stem own ++ "." ++ ext = own
    · rw [one] at after ⊢
      obtain ⟨s, filled, same⟩ := (FilePath.sameExtended own bare).mp one
      refine .inr ⟨⟨s, filled, congrArg some same⟩, ?_⟩
      intro c found
      exact readFile (Named.endsAt h) after (lookPutSelf t _ (by simp)) (contentRead.mp found)
    · refine .inl (congrArg Except.toOption (readAlike (Named.endsAt h) walked after (lookPutOther t _ ?_)))
      intro same
      exact one (List.append_cancel_left same |> List.singleton_inj.mp).symm

theorem readHolds {path : String} {b : Bytes} (ok : t.read path = .ok b) : ∃ l, Holds t path l b := by
  unfold read at ok
  cases leads : t.resolve path with
  | error e => simp [leads, bind, Except.bind] at ok
  | ok x =>
    cases x with
    | place m => simp [leads, bind, Except.bind] at ok
    | name d n mustBeDir =>
      simp only [leads, bind, Except.bind] at ok
      split at ok
      · contradiction
      · contradiction
      · rename_i file
        split at ok
        · contradiction
        · rename_i plain
          cases Except.ok.inj ok
          simp only [Bool.not_eq_true] at plain
          exact ⟨d ++ [n], ⟨d, n, plain ▸ leads, rfl⟩, file⟩

structure Widened (t u : FileTree) : Prop where
  home : u.home = t.home
  kept : ∀ l e, t.look l = some e → u.look l = some e
  files : ∀ l b, u.look l = some (.file b) → t.look l = some (.file b)

theorem Widened.refl (t : FileTree) : Widened t t := ⟨rfl, fun _ _ h => h, fun _ _ h => h⟩

theorem Widened.trans {v : FileTree} (first : Widened t u) (second : Widened u v) : Widened t v :=
  ⟨second.home.trans first.home, fun l e h => second.kept l e (first.kept l e h),
    fun l b h => first.files l b (second.files l b h)⟩

theorem Widened.dirs (h : Widened t u) : DirsKept t u := ⟨h.home, fun l dir => h.kept l .dir dir⟩

theorem makeDirWidened {path : String} (ok : t.makeDir path = .ok u) : Widened t u := by
  unfold makeDir at ok
  cases leads : t.resolve path with
  | error e => simp [leads, bind, Except.bind] at ok
  | ok x =>
    cases x with
    | place m => simp [leads, bind, Except.bind] at ok
    | name d n mustBeDir =>
      simp only [leads, bind, Except.bind] at ok
      split at ok
      · contradiction
      · rename_i new
        cases Except.ok.inj ok
        have absent : t.look (d ++ [n]) = none := by simpa using new
        refine ⟨rfl, ?_, ?_⟩
        · intro l e there
          have other : l ≠ d ++ [n] := by
            rintro rfl
            exact absurd (absent.symm.trans there) nofun
          exact (lookPutOther t _ other).trans there
        · intro l b there
          by_cases same : l = d ++ [n]
          · rw [same, lookPutSelf t _ (by simp)] at there
            exact absurd (Option.some.inj there) nofun
          · exact (lookPutOther t _ same).symm.trans there

theorem makeDirsWidened (paths : List String) : Widened t (t.makeDirs paths).1 := by
  induction paths generalizing t with
  | nil => exact .refl t
  | cons path up ih =>
    rw [makeDirs]
    split
    · exact .refl t
    · split
      · rename_i made
        exact makeDirWidened made
      · have above := ih (t := t)
        split
        · rename_i failed
          exact failed ▸ above
        · rename_i done
          rw [done] at above
          split
          · rename_i made
            exact above.trans (makeDirWidened made)
          · exact above
      · exact .refl t

theorem Widened.content {path : String} {b : Bytes} (h : Widened t u) (found : t.content? path = some b) :
    u.content? path = some b := by
  obtain ⟨l, ⟨d, n, leads, same⟩, file⟩ := readHolds (contentRead.mp found)
  have there : Holds u path l b := ⟨⟨d, n, resolveKept h.dirs leads, same⟩, h.kept l _ file⟩
  exact contentRead.mpr there.read

def Rooted (t : FileTree) : Prop := ∀ l n e, t.look (l ++ [n]) = some e → t.look l = some .dir

theorem Rooted.above (rooted : t.Rooted) {n : String} {more : List String} {e : FileEntry}
    (there : t.look (l ++ n :: more) = some e) : t.look l = some .dir := by
  induction more generalizing l n with
  | nil => exact rooted l n e there
  | cons p rest ih => exact rooted l n .dir (ih (l := l ++ [n]) (by simpa using there))

theorem walkDown (straight : ".." ∉ ps) (walked : t.walk l ps = some d) : ∃ more, d = l ++ more := by
  induction ps generalizing l with
  | nil =>
    cases Option.some.inj walked
    exact ⟨[], by simp⟩
  | cons p rest ih =>
    have rest_ : ".." ∉ rest := fun there => straight (List.mem_cons_of_mem p there)
    have first : p ≠ ".." := fun same => straight (same ▸ List.mem_cons_self)
    rw [walk, if_neg first] at walked
    split at walked
    · exact ih rest_ walked
    · split at walked
      · contradiction
      · split at walked
        · obtain ⟨more, rfl⟩ := ih rest_ walked
          exact ⟨p :: more, by simp⟩
        · contradiction

theorem Rooted.walk (rooted : t.Rooted) (straight : ".." ∉ ps) (walked : u.walk l ps = some d)
    {n : String} {e : FileEntry} (there : t.look (d ++ [n]) = some e) : t.walk l ps = some d := by
  induction ps generalizing l with
  | nil => exact walked
  | cons p rest ih =>
    have rest_ : ".." ∉ rest := fun there => straight (List.mem_cons_of_mem p there)
    have first : p ≠ ".." := fun same => straight (same ▸ List.mem_cons_self)
    rw [FileTree.walk, if_neg first] at walked ⊢
    split at walked
    · rename_i dot
      rw [if_pos dot]
      exact ih rest_ walked
    · rename_i dot
      rw [if_neg dot]
      split at walked
      · contradiction
      · rename_i short
        rw [if_neg short]
        split at walked
        · obtain ⟨more, rfl⟩ := walkDown rest_ walked
          have dir : t.look (l ++ [p]) = some .dir := by
            cases more with
            | nil => exact rooted _ n e (by simpa using there)
            | cons q qs => exact rooted.above (by simpa using there)
          rw [if_pos dir]
          exact ih rest_ walked
        · contradiction

theorem Rooted.content {path : String} {b : Bytes} (rooted : t.Rooted) (straight : ".." ∉ FilePath.parts path)
    (wide : Widened t u) (found : u.content? path = some b) : t.content? path = some b := by
  obtain ⟨l, ⟨d, n, leads, rfl⟩, file⟩ := readHolds (contentRead.mp found)
  have old := wide.files _ _ file
  obtain ⟨dirs, ends, walked, _⟩ := resolveNames leads
  have down : ".." ∉ dirs := by
    intro there
    have member : ".." ∈ way (FilePath.parts path) := ends.parted ▸ List.mem_append_left _ there
    exact straight (List.mem_filter.mp member).1
  have before := rooted.walk down walked old
  rw [originKept wide.dirs] at before
  have back := resolveAlike ends before walked (file.trans old.symm)
  have there : Holds t path (d ++ [n]) b := ⟨⟨d, n, back ▸ leads, rfl⟩, old⟩
  exact contentRead.mpr there.read

end FirewallAgent.FileTree

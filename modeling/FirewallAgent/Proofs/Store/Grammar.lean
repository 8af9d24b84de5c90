import FirewallAgent.Proofs.Store.Record
import Mathlib.Control.Monad.Basic
import Mathlib.Data.List.DropRight

/-! The grammar of record files. The rows of a text are what stands between its line feeds; each is blank,
a comment or a record, which has an equals sign behind an even number of backslashes. The reader accepts a
text if all rows are of these kinds, it names the first row that is not, and of two records of one key the
later one counts. -/
namespace FirewallAgent.Store

variable {d : Dictionary} {n : Nat} {line key value rest : List Char} {ls : List (List Char)}

def chomp (row : List Char) : List Char := if row.getLast? = some '\r' then row.dropLast else row

/- No line feed stands behind the last row, so it keeps its carriage return. -/
def rowsOf (cs : List Char) : List (List Char) :=
  (cs.splitOn '\n').dropLast.map chomp ++ (cs.splitOn '\n').getLast?.toList

def rows (text : String) : List (List Char) := rowsOf text.toList

def slashes (cs : List Char) : Nat := (cs.rtakeWhile (· == '\\')).length

/- The line has an equals sign between these two parts, and backslashes escape each other before it. -/
def Splits (line key value : List Char) : Prop := line = key ++ '=' :: value ∧ slashes key % 2 = 0

def SplitsFirst (line key value : List Char) : Prop :=
  Splits line key value ∧ ∀ k v, Splits line k v → key.length ≤ k.length

inductive Admitted (row : List Char) : Prop where
  | blank (empty : row = [])
  | comment (sign : row.head? = some '#')
  | record {key value : List Char} (split : Splits row key value)

def Records (row : List Char) (key value : String) : Prop :=
  row.head? ≠ some '#' ∧
    ∃ k v, SplitsFirst row k v ∧ unescape k = key.toList ∧ unescape v = value.toList

theorem splitOnBreak (cs : List Char) : ('\n' :: cs).splitOn '\n' = [] :: cs.splitOn '\n' := by
  rw [List.splitOn, List.splitOnP_cons_eq_if_modifyHead]
  rfl

theorem splitOnOther {c : Char} (other : c ≠ '\n') (cs : List Char) :
    (c :: cs).splitOn '\n' = (cs.splitOn '\n').modifyHead (c :: ·) := by
  rw [List.splitOn, List.splitOnP_cons_eq_if_modifyHead, if_neg (by simpa using other)]
  rfl

theorem splitOnParts (cs : List Char) : ∃ p ps, cs.splitOn '\n' = p :: ps :=
  List.exists_cons_of_ne_nil (List.splitOnP_ne_nil _ cs)

theorem rowsFilled (cs : List Char) : rowsOf cs ≠ [] := by
  obtain ⟨p, ps, parts⟩ := splitOnParts cs
  simp [rowsOf, parts]

theorem rowsBreak (cs : List Char) : rowsOf ('\n' :: cs) = [] :: rowsOf cs := by
  obtain ⟨p, ps, parts⟩ := splitOnParts cs
  simp [rowsOf, splitOnBreak, parts, chomp]

theorem rowsReturn (cs : List Char) : rowsOf ('\r' :: '\n' :: cs) = [] :: rowsOf cs := by
  obtain ⟨p, ps, parts⟩ := splitOnParts cs
  simp [rowsOf, splitOnOther (c := '\r') (by decide), splitOnBreak, parts, chomp]

theorem chompCons {c : Char} {p : List Char} (kept : ¬ (c = '\r' ∧ p = [])) :
    chomp (c :: p) = c :: chomp p := by
  cases p with
  | nil =>
    have other : c ≠ '\r' := fun same => kept ⟨same, rfl⟩
    simp [chomp, other]
  | cons x xs =>
    simp only [chomp, List.getLast?_cons_cons, List.dropLast_cons_cons]
    split <;> rfl

theorem splitOnEmpty {cs q : List Char} {qs : List (List Char)}
    (parts : cs.splitOn '\n' = [] :: q :: qs) : cs.head? = some '\n' := by
  cases cs with
  | nil => simp at parts
  | cons x xs =>
    by_cases same : x = '\n'
    · rw [same]
      rfl
    · obtain ⟨p, ps, found⟩ := splitOnParts xs
      simp [splitOnOther same, found] at parts

theorem rowsOther {c : Char} {cs : List Char} (other : c ≠ '\n')
    (alone : ¬ (c = '\r' ∧ cs.head? = some '\n')) :
    rowsOf (c :: cs) = (rowsOf cs).modifyHead (c :: ·) := by
  obtain ⟨p, ps, parts⟩ := splitOnParts cs
  cases ps with
  | nil => simp [rowsOf, splitOnOther other, parts]
  | cons q qs =>
    have kept : ¬ (c = '\r' ∧ p = []) := by
      rintro ⟨same, rfl⟩
      exact alone ⟨same, splitOnEmpty parts⟩
    simp [rowsOf, splitOnOther other, parts, chompCons kept]

theorem linesRows (cs : List Char) : rowsOf cs = lines cs ∨ rowsOf cs = lines cs ++ [[]] := by
  fun_induction lines cs with
  | case1 => exact .inr rfl
  | case2 rest ih => simpa [rowsBreak] using ih
  | case3 c rest _ pair ih =>
    obtain ⟨rfl, feed⟩ := pair
    obtain ⟨cs, rfl⟩ : ∃ cs, rest = '\n' :: cs := List.head?_eq_some_iff.mp feed
    rwa [rowsReturn, ← rowsBreak]
  | case4 c rest other alone none ih =>
    rw [rowsOther other alone]
    rw [none] at ih
    rcases ih with same | same
    · exact absurd same (rowsFilled rest)
    · simp [same]
  | case5 c rest other alone l ls found ih =>
    rw [rowsOther other alone]
    rw [found] at ih
    rcases ih with same | same <;> simp [same]

theorem readLinesBlankEnd (d : Dictionary) (n : Nat) (ls : List (List Char)) :
    readLines d n (ls ++ [[]]) = readLines d n ls := by
  induction ls generalizing d n with
  | nil => rfl
  | cons line rest ih =>
    simp only [List.cons_append, readLines, ih]

theorem parseRows (text : String) : parse text = readLines .empty 1 (rows text) := by
  rw [parse, rows]
  rcases linesRows text.toList with same | same
  · rw [same]
  · rw [same, readLinesBlankEnd]

theorem slashesPlain {c : Char} (other : c ≠ '\\') (cs : List Char) : slashes (c :: cs) = slashes cs := by
  induction cs using List.reverseRecOn with
  | nil => simp [slashes, List.rtakeWhile, other]
  | append_singleton cs x ih =>
    unfold slashes at *
    rw [← List.cons_append, List.rtakeWhile_concat, List.rtakeWhile_concat]
    split <;> simp_all

theorem slashesPair (c : Char) (cs : List Char) :
    slashes ('\\' :: c :: cs) % 2 = slashes cs % 2 := by
  induction cs using List.reverseRecOn with
  | nil =>
    by_cases same : c = '\\' <;> simp [slashes, List.rtakeWhile, same]
  | append_singleton cs x ih =>
    unfold slashes at *
    rw [← List.cons_append, ← List.cons_append, List.rtakeWhile_concat, List.rtakeWhile_concat]
    split
    · rw [List.length_append, List.length_append, Nat.add_mod, ih, ← Nat.add_mod]
    · rfl

theorem splitsSign (rest : List Char) : Splits ('=' :: rest) [] rest := ⟨rfl, rfl⟩

theorem splitsPlain {c : Char} (sign : c ≠ '=') (slash : c ≠ '\\') :
    Splits (c :: rest) key value ↔ ∃ k, key = c :: k ∧ Splits rest k value := by
  constructor
  · rintro ⟨parts, even⟩
    cases key with
    | nil => exact absurd (List.cons.inj parts).1 sign
    | cons x k =>
      simp only [List.cons_append, List.cons.injEq] at parts
      obtain ⟨rfl, parts⟩ := parts
      rw [slashesPlain slash] at even
      exact ⟨k, rfl, parts, even⟩
  · rintro ⟨k, rfl, rfl, even⟩
    exact ⟨rfl, by rwa [slashesPlain slash]⟩

theorem splitsPair {c : Char} :
    Splits ('\\' :: c :: rest) key value ↔ ∃ k, key = '\\' :: c :: k ∧ Splits rest k value := by
  constructor
  · rintro ⟨parts, even⟩
    match key with
    | [] => simp at parts
    | [x] =>
      obtain ⟨rfl, _⟩ := List.cons.inj parts
      simp [slashes, List.rtakeWhile] at even
    | x :: y :: k =>
      simp only [List.cons_append, List.cons.injEq] at parts
      obtain ⟨rfl, rfl, parts⟩ := parts
      rw [slashesPair] at even
      exact ⟨k, rfl, parts, even⟩
  · rintro ⟨k, rfl, rfl, even⟩
    exact ⟨rfl, by rwa [slashesPair]⟩

theorem SplitsFirst.sign (rest : List Char) : SplitsFirst ('=' :: rest) [] rest :=
  ⟨splitsSign rest, fun _ _ _ => Nat.zero_le _⟩

theorem SplitsFirst.plain {c : Char} (sign : c ≠ '=') (slash : c ≠ '\\')
    (first : SplitsFirst rest key value) : SplitsFirst (c :: rest) (c :: key) value := by
  refine ⟨(splitsPlain sign slash).mpr ⟨key, rfl, first.1⟩, ?_⟩
  intro k v split
  obtain ⟨k, rfl, later⟩ := (splitsPlain sign slash).mp split
  exact Nat.succ_le_succ (first.2 k v later)

theorem SplitsFirst.pair (c : Char) (first : SplitsFirst rest key value) :
    SplitsFirst ('\\' :: c :: rest) ('\\' :: c :: key) value := by
  refine ⟨splitsPair.mpr ⟨key, rfl, first.1⟩, ?_⟩
  intro k v split
  obtain ⟨k, rfl, later⟩ := splitsPair.mp split
  exact Nat.succ_le_succ (Nat.succ_le_succ (first.2 k v later))

theorem cutFirst (found : cut line = some (key, value)) : SplitsFirst line key value := by
  fun_induction cut line generalizing key value with
  | case1 => contradiction
  | case2 rest =>
    cases Option.some.inj found
    exact .sign rest
  | case3 => contradiction
  | case4 c rest _ ih =>
    obtain ⟨p, later, same⟩ := Option.map_eq_some_iff.mp found
    cases same
    exact (ih later).pair c
  | case5 c rest sign slash ih =>
    obtain ⟨p, later, same⟩ := Option.map_eq_some_iff.mp found
    cases same
    exact (ih later).plain sign slash

theorem cutNowhere (nowhere : cut line = none) : ¬ Splits line key value := by
  fun_induction cut line generalizing key with
  | case1 => simp [Splits]
  | case2 => contradiction
  | case3 =>
    rintro ⟨parts, even⟩
    cases key with
    | nil => simp at parts
    | cons x k => simp at parts
  | case4 c rest _ ih =>
    intro split
    obtain ⟨k, _, later⟩ := splitsPair.mp split
    exact ih (Option.map_eq_none_iff.mp nowhere) later
  | case5 c rest sign slash ih =>
    intro split
    obtain ⟨k, _, later⟩ := (splitsPlain sign slash).mp split
    exact ih (Option.map_eq_none_iff.mp nowhere) later

theorem SplitsFirst.unique {k v : List Char} (one : SplitsFirst line key value)
    (other : SplitsFirst line k v) : key = k ∧ value = v := by
  have long : key.length = k.length := Nat.le_antisymm (one.2 k v other.1) (other.2 key value one.1)
  obtain ⟨same, rest⟩ := List.append_inj (one.1.1.symm.trans other.1.1) long
  exact ⟨same, (List.cons.inj rest).2⟩

def Offends (line : List Char) : Prop := isSkipped line = false ∧ cut line = none

theorem offendsIff : Offends line ↔ ¬ Admitted line := by
  constructor
  · rintro ⟨kept, nowhere⟩ admitted
    cases admitted with
    | blank empty => simp [isSkipped, empty] at kept
    | comment sign => simp [isSkipped, sign] at kept
    | record split => exact cutNowhere nowhere split
  · intro other
    constructor
    · rw [isSkipped, Bool.or_eq_false_iff]
      constructor
      · exact List.isEmpty_eq_false_iff.mpr fun empty => other (.blank empty)
      · exact beq_false_of_ne fun sign => other (.comment sign)
    · rw [Option.eq_none_iff_forall_ne_some]
      intro p found
      exact other (.record (cutFirst found).1)

theorem recordsSkipped {k v : String} (skipped : isSkipped line = true) : ¬ Records line k v := by
  rintro ⟨other, key, value, first, _⟩
  rw [isSkipped, Bool.or_eq_true] at skipped
  rcases skipped with empty | sign
  · cases List.isEmpty_iff.mp empty
    simp [SplitsFirst, Splits] at first
  · exact other (beq_iff_eq.mp sign)

theorem recordsCut {k v : String} (kept : isSkipped line = false) (found : cut line = some (key, value)) :
    Records line k v ↔ String.ofList (unescape key) = k ∧ String.ofList (unescape value) = v := by
  rw [← String.toList_inj, ← String.toList_inj, String.toList_ofList, String.toList_ofList]
  constructor
  · rintro ⟨_, x, y, first, names, tells⟩
    obtain ⟨rfl, rfl⟩ := (cutFirst found).unique first
    exact ⟨names, tells⟩
  · rintro ⟨names, tells⟩
    rw [isSkipped, Bool.or_eq_false_iff] at kept
    exact ⟨ne_of_beq_false kept.2, key, value, cutFirst found, names, tells⟩

theorem readLinesOffends (bad : Offends line) (d : Dictionary) (n : Nat) (ls : List (List Char)) :
    readLines d n (line :: ls) = .error (.malformedRecord n) := by
  rw [readLines, if_neg (by simp [bad.1]), bad.2]

theorem readLinesNext (fine : ¬ Offends line) (d : Dictionary) :
    ∃ e, (∀ n ls, readLines d n (line :: ls) = readLines e (n + 1) ls) ∧
      ∀ k v, e.get? k = some v ↔
        Records line k v ∨ ((∀ other, ¬ Records line k other) ∧ d.get? k = some v) := by
  cases skipped : isSkipped line with
  | true =>
    have unsaid : ∀ k v, ¬ Records line k v := fun k v => recordsSkipped skipped
    exact ⟨d, fun n ls => by rw [readLines, if_pos skipped], fun k v => by simp [unsaid]⟩
  | false =>
    cases found : cut line with
    | none => exact absurd ⟨skipped, found⟩ fine
    | some p =>
      obtain ⟨key, value⟩ := p
      refine ⟨d.insert (String.ofList (unescape key)) (String.ofList (unescape value)), ?_, ?_⟩
      · intro n ls
        rw [readLines, if_neg (by simp [skipped]), found]
      · intro k v
        rw [Dictionary.getInsert]
        simp only [recordsCut skipped found]
        split
        · rename_i same
          simp [same]
        · rename_i other
          simp [other]

theorem readLinesFails {d : Dictionary} {n : Nat} {ls : List (List Char)} {e : StorageError}
    (failed : readLines d n ls = .error e) : ∃ before line after, ls = before ++ line :: after ∧
      (∀ l ∈ before, ¬ Offends l) ∧ Offends line ∧ e = .malformedRecord (n + before.length) := by
  induction ls generalizing d n with
  | nil => contradiction
  | cons line rest ih =>
    by_cases bad : Offends line
    · rw [readLinesOffends bad] at failed
      exact ⟨[], line, rest, rfl, by simp, bad, (Except.error.inj failed).symm⟩
    · obtain ⟨next, goes, _⟩ := readLinesNext bad d
      obtain ⟨before, other, after, parts, fine, offends, same⟩ := ih ((goes n rest).symm.trans failed)
      refine ⟨line :: before, other, after, by rw [parts]; rfl, ?_, offends, ?_⟩
      · exact List.forall_mem_cons.mpr ⟨bad, fine⟩
      · rw [same, List.length_cons, Nat.add_right_comm, Nat.add_assoc]

theorem readLinesStops {before after : List (List Char)} (fine : ∀ l ∈ before, ¬ Offends l)
    (bad : Offends line) (d : Dictionary) (n : Nat) :
    readLines d n (before ++ line :: after) = .error (.malformedRecord (n + before.length)) := by
  induction before generalizing d n with
  | nil => exact readLinesOffends bad d n after
  | cons row before ih =>
    obtain ⟨first, rest⟩ := List.forall_mem_cons.mp fine
    obtain ⟨next, goes, _⟩ := readLinesNext first d
    rw [List.cons_append, goes, ih rest, List.length_cons, Nat.add_right_comm, Nat.add_assoc]

def LastRecords (ls : List (List Char)) (key value : String) : Prop :=
  ∃ before row after, ls = before ++ row :: after ∧ Records row key value ∧
    ∀ r ∈ after, ∀ other, ¬ Records r key other

theorem lastRecordsCons {k v : String} : LastRecords (line :: ls) k v ↔
    LastRecords ls k v ∨ (Records line k v ∧ ∀ r ∈ ls, ∀ other, ¬ Records r k other) := by
  constructor
  · rintro ⟨before, row, after, parts, tells, last⟩
    cases before with
    | nil =>
      obtain ⟨rfl, rfl⟩ := List.cons.inj parts
      exact .inr ⟨tells, last⟩
    | cons first before => exact .inl ⟨before, row, after, (List.cons.inj parts).2, tells, last⟩
  · rintro (⟨before, row, after, rfl, tells, last⟩ | ⟨tells, last⟩)
    · exact ⟨line :: before, row, after, rfl, tells, last⟩
    · exact ⟨[], line, ls, rfl, tells, last⟩

theorem readLinesReads {e : Dictionary} (read : readLines d n ls = .ok e) :
    (∀ l ∈ ls, ¬ Offends l) ∧
      ∀ k v, e.get? k = some v ↔
        LastRecords ls k v ∨ ((∀ r ∈ ls, ∀ other, ¬ Records r k other) ∧ d.get? k = some v) := by
  induction ls generalizing d n with
  | nil =>
    cases Except.ok.inj read
    exact ⟨by simp, fun k v => by simp [LastRecords]⟩
  | cons line rest ih =>
    by_cases bad : Offends line
    · rw [readLinesOffends bad] at read
      contradiction
    · obtain ⟨next, goes, gets⟩ := readLinesNext bad d
      obtain ⟨fine, later⟩ := ih ((goes n rest).symm.trans read)
      refine ⟨List.forall_mem_cons.mpr ⟨bad, fine⟩, ?_⟩
      intro k v
      rw [later, gets, lastRecordsCons, List.forall_mem_cons]
      tauto

theorem parsingFollowsGrammar (text : String) :
    ((∃ d, parse text = .ok d) ↔ ∀ row ∈ rows text, Admitted row) ∧
    (∀ e, parse text = .error e ↔ ∃ before row after, rows text = before ++ row :: after ∧
      (∀ r ∈ before, Admitted r) ∧ ¬ Admitted row ∧ e = .malformedRecord (before.length + 1)) ∧
    ∀ d, parse text = .ok d →
      ∀ key value, d.get? key = some value ↔ LastRecords (rows text) key value := by
  have admittedIff : ∀ {row}, Admitted row ↔ ¬ Offends row := by
    intro row
    rw [offendsIff, not_not]
  simp only [admittedIff, not_not, parseRows]
  refine ⟨⟨?_, ?_⟩, fun e => ⟨?_, ?_⟩, ?_⟩
  · rintro ⟨d, read⟩
    exact (readLinesReads read).1
  · intro fine
    cases read : readLines .empty 1 (rows text) with
    | ok d => exact ⟨d, rfl⟩
    | error e =>
      obtain ⟨before, row, after, parts, _, bad, _⟩ := readLinesFails read
      exact absurd bad (fine row (by simp [parts]))
  · intro failed
    obtain ⟨before, row, after, parts, fine, bad, same⟩ := readLinesFails failed
    exact ⟨before, row, after, parts, fine, bad, by rw [same, Nat.add_comm]⟩
  · rintro ⟨before, row, after, parts, fine, bad, rfl⟩
    rw [parts, readLinesStops fine bad, Nat.add_comm]
  · intro d read key value
    rw [(readLinesReads read).2 key value, Dictionary.getEmpty]
    simp

def handEdited : String := "a=1\r\n\n# a=3\na=2\\=x\n#"

def spoiled : String := "a=1\r\n\nb\\=2\n"

theorem editedRecordsAreTold :
    (∃ d, parse handEdited = .ok d ∧ d.get? "a" = some "2=x" ∧
      LastRecords (rows handEdited) "a" "2=x") ∧
    parse spoiled = .error (.malformedRecord 3) := by
  constructor
  · have read : parse handEdited = .ok (.ofList [("a", "2=x")]) := by decide +kernel
    have got : (Dictionary.ofList [("a", "2=x")]).get? "a" = some "2=x" := by decide +kernel
    exact ⟨_, read, got, ((parsingFollowsGrammar handEdited).2.2 _ read "a" "2=x").mp got⟩
  · have parts : rows spoiled = [['a', '=', '1'], []] ++ ['b', '\\', '=', '2'] :: [[]] := by decide +kernel
    have split : Splits ['a', '=', '1'] ['a'] ['1'] := ⟨rfl, rfl⟩
    have bad : ¬ Admitted ['b', '\\', '=', '2'] := offendsIff.mp ⟨rfl, rfl⟩
    refine ((parsingFollowsGrammar spoiled).2.1 _).mpr ⟨_, _, _, parts, ?_, bad, rfl⟩
    simpa using ⟨Admitted.record split, .blank rfl⟩

end FirewallAgent.Store

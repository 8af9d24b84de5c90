import FirewallAgent.Proofs.Dictionary
import FirewallAgent.Store.Record

/-! What reading finds in a text that was written from a dictionary. Every entry comes back, except
that a key beginning with a number sign makes its whole line a comment. No key that was read begins
with a number sign, so nothing is lost by a second round. -/
namespace FirewallAgent.Store

def isComment (key : String) : Bool := key.toList.head? == some '#'

def withoutComments (d : Dictionary) : Dictionary := d.keep fun key => !isComment key

theorem getWithoutComments (d : Dictionary) (key : String) :
    (withoutComments d).get? key = if isComment key then none else d.get? key := by
  rw [withoutComments, Dictionary.getKeep]
  cases isComment key <;> rfl

def recordText (e : String × String) : List Char :=
  escape e.1.toList ++ '=' :: escape e.2.toList

theorem recordLineText (e : String × String) : recordLine e = recordText e ++ ['\n'] := by
  simp [recordLine, recordText]

theorem escapeCharClean {c x : Char} (member : x ∈ escapeChar c) : x ≠ '\n' ∧ x ≠ '\r' := by
  unfold escapeChar at member
  repeat' split at member
  all_goals simp_all
  all_goals rcases member with rfl | rfl <;> simp

theorem escapeClean {cs : List Char} {x : Char} (member : x ∈ escape cs) : x ≠ '\n' ∧ x ≠ '\r' := by
  obtain ⟨c, _, hx⟩ := List.mem_flatMap.mp member
  exact escapeCharClean hx

theorem recordTextClean {e : String × String} {x : Char} (member : x ∈ recordText e) :
    x ≠ '\n' ∧ x ≠ '\r' := by
  rcases List.mem_append.mp member with key | value
  · exact escapeClean key
  · rcases List.mem_cons.mp value with rfl | value
    · exact ⟨by decide, by decide⟩
    · exact escapeClean value

theorem linesOfLine {line : List Char} (clean : ∀ c ∈ line, c ≠ '\n' ∧ c ≠ '\r') (rest : List Char) :
    lines (line ++ '\n' :: rest) = line :: lines rest := by
  induction line with
  | nil => simp [lines]
  | cons c line ih =>
    have head := clean c List.mem_cons_self
    have tail := ih fun x hx => clean x (List.mem_cons_of_mem c hx)
    simp [lines, head.1, head.2, tail]

theorem cutSign (rest : List Char) : cut ('=' :: rest) = some ([], rest) := by
  rw [cut.eq_def]
  exact if_pos rfl

theorem cutPair (c : Char) (rest : List Char) :
    cut ('\\' :: c :: rest) = (cut rest).map fun p => ('\\' :: c :: p.1, p.2) := by
  rw [cut, if_neg (by decide), if_pos rfl]

theorem cutPlain {c : Char} (sign : c ≠ '=') (slash : c ≠ '\\') (rest : List Char) :
    cut (c :: rest) = (cut rest).map fun p => (c :: p.1, p.2) := by
  rw [cut.eq_def]
  exact (if_neg sign).trans (if_neg slash)

theorem cutEscapeChar (c : Char) (rest : List Char) :
    cut (escapeChar c ++ rest) = (cut rest).map fun p => (escapeChar c ++ p.1, p.2) := by
  by_cases h1 : c = '\n'
  · subst h1; exact cutPair 'n' rest
  by_cases h2 : c = '\r'
  · subst h2; exact cutPair 'r' rest
  by_cases h3 : c = '\t'
  · subst h3; exact cutPair 't' rest
  by_cases h4 : c = '\\'
  · subst h4; exact cutPair '\\' rest
  by_cases h5 : c = '='
  · subst h5; exact cutPair '=' rest
  simpa [escapeChar, h1, h2, h3, h4, h5] using cutPlain h5 h4 rest

theorem cutEscape (cs rest : List Char) :
    cut (escape cs ++ '=' :: rest) = some (escape cs, rest) := by
  induction cs with
  | nil => exact cutSign rest
  | cons c cs ih =>
    have head : escape (c :: cs) = escapeChar c ++ escape cs := rfl
    rw [head, List.append_assoc, cutEscapeChar, ih, Option.map_some]

theorem escapeCharHead (c : Char) (rest : List Char) :
    (escapeChar c ++ rest).head? = some '#' ↔ c = '#' := by
  unfold escapeChar
  repeat' split
  all_goals simp_all

theorem recordTextHead (e : String × String) :
    (recordText e).head? = some '#' ↔ e.1.toList.head? = some '#' := by
  unfold recordText
  cases e.1.toList with
  | nil => simp [escape]
  | cons c cs =>
    have split : escape (c :: cs) = escapeChar c ++ escape cs := rfl
    rw [split, List.append_assoc, escapeCharHead, List.head?_cons, Option.some.injEq]

theorem skippedRecord (e : String × String) : isSkipped (recordText e) = isComment e.1 := by
  have filled : (recordText e).isEmpty = false := by simp [recordText]
  rw [isSkipped, isComment, filled, Bool.false_or, Bool.eq_iff_iff, beq_iff_eq, beq_iff_eq]
  exact recordTextHead e

theorem readLinesSerialized (d : Dictionary) (n : Nat) (es : Entries) :
    readLines d n (lines (es.flatMap recordLine)) =
      .ok (d.insertAll (es.filter fun e => !isComment e.1)) := by
  induction es generalizing d n with
  | nil => simp [lines, readLines, Dictionary.insertAll]
  | cons e rest ih =>
    have first : lines ((e :: rest).flatMap recordLine) =
        recordText e :: lines (rest.flatMap recordLine) := by
      rw [List.flatMap_cons, recordLineText, List.append_assoc]
      exact linesOfLine (fun c hc => recordTextClean hc) _
    rw [first, readLines, skippedRecord]
    cases comment : isComment e.1 with
    | true => simpa [comment] using ih d (n + 1)
    | false =>
      have found : cut (recordText e) = some (escape e.1.toList, escape e.2.toList) :=
        cutEscape e.1.toList (escape e.2.toList)
      simpa [found, comment, Dictionary.insertAll] using ih (d.insert e.1 e.2) (n + 1)

theorem parseSerialize (d : Dictionary) : parse (serialize d) = .ok (withoutComments d) := by
  rw [parse, serialize, String.toList_ofList, readLinesSerialized]
  exact congrArg Except.ok (Dictionary.insertAllKeep d fun key => !isComment key)

theorem unescapeHead {cs : List Char} (sign : (unescape cs).head? = some '#') :
    cs.head? = some '#' := by
  match cs with
  | [] => simp [unescape] at sign
  | [c] => simpa [unescape] using sign
  | c :: d :: rest =>
    rw [unescape] at sign
    split at sign
    · unfold unescapePair at sign
      repeat' split at sign
      all_goals simp at sign
    · simpa using sign

theorem cutHead {line key value : List Char} (found : cut line = some (key, value))
    (sign : key.head? = some '#') : line.head? = some '#' := by
  match line with
  | [] => simp [cut] at found
  | c :: rest =>
    rw [cut.eq_def] at found
    dsimp only at found
    split at found
    · cases Option.some.inj found
      simp at sign
    · split at found
      · cases rest with
        | nil => simp at found
        | cons d rest =>
          obtain ⟨p, _, same⟩ := Option.map_eq_some_iff.mp found
          cases same
          simpa using sign
      · obtain ⟨p, _, same⟩ := Option.map_eq_some_iff.mp found
        cases same
        simpa using sign

theorem readLinesPlain {d e : Dictionary} {n : Nat} {ls : List (List Char)}
    (plain : ∀ x ∈ d.entries, isComment x.1 = false) (read : readLines d n ls = .ok e) :
    ∀ x ∈ e.entries, isComment x.1 = false := by
  induction ls generalizing d n with
  | nil =>
    cases Except.ok.inj read
    exact plain
  | cons line rest ih =>
    rw [readLines] at read
    split at read
    · exact ih plain read
    · rename_i kept
      cases found : cut line with
      | none => simp [found] at read
      | some p =>
        obtain ⟨key, value⟩ := p
        simp only [found] at read
        refine ih ?_ read
        intro x hx
        rcases Entries.placedKey hx with same | old
        · rw [same, isComment, String.toList_ofList]
          apply beq_false_of_ne
          intro sign
          have lineSign := cutHead found (unescapeHead sign)
          simp [isSkipped, lineSign] at kept
        · exact plain x old

theorem parsePlain {text : String} {d : Dictionary} (read : parse text = .ok d) :
    ∀ x ∈ d.entries, isComment x.1 = false :=
  readLinesPlain (by simp [Dictionary.empty]) read

end FirewallAgent.Store

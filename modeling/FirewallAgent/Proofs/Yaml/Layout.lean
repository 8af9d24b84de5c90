import FirewallAgent.Yaml.Layout
import FirewallAgent.Proofs.Yaml.Quoted

/-! The tokens of a mapping of scalars that has a line for each entry. Every line takes the scanner three
steps, to its key, its colon and its value, and the first colon opens the block. -/
namespace FirewallAgent.Yaml.Layout
open Writer

variable {s t u : Layout} {g : Glyph} {rest : List Glyph} {tokens : List Token} {opened : Bool}
  {line column fuel : Nat} {c : Char} {cs key text written after : List Char}

theorem runSame (same : s.toToken = t.toToken) : run fuel s = run fuel t := by
  cases fuel with
  | zero => rfl
  | succ fuel => simp only [run, same]

theorem runNext (token : s.toToken = t) (first : t.rest = g :: rest) (fresh : t.refreshAll? g = some t)
    (next : (t.closeBlocks g.column).next? g rest = some u) : run (fuel + 1) s = run fuel u := by
  simp only [run, token, first, fresh, Option.bind_eq_bind, Option.bind_some, next]

theorem skipNothing {flow allowed : Bool} (level : isLevel g.char = true) (solid : g.char ≠ ' ')
    (comment : g.char ≠ '#') : skip flow allowed false (g :: rest) = (allowed, g :: rest) := by
  have tabless : g.char ≠ '\t' := by
    intro tab
    rw [tab] at level
    exact Bool.false_ne_true level
  simp [skip, levelUnbroken level, solid, comment, tabless]

theorem tokenHere (first : s.rest = g :: rest) (level : isLevel g.char = true) (solid : g.char ≠ ' ')
    (comment : g.char ≠ '#') : s.toToken = s := by
  simp only [toToken, first, skipNothing level solid comment]
  rw [← first]

theorem closeNothing (within : s.indent ≤ column) : s.closeBlocks column = s := by
  have stays : closing column s.tokens s.indent s.around = (s.tokens, s.indent, s.around) := by
    cases s.around with
    | nil => rfl
    | cons i is => rw [closing, if_neg (by omega)]
  unfold closeBlocks
  rw [stays]
  split <;> rfl

theorem boundaryOther {mark : Char} (other : g.char ≠ mark) : isBoundary mark (g :: rest) = false := by
  unfold isBoundary
  split
  · rename_i same
    cases same
    simp [other]
  · rfl

theorem headSpaceless (solid : endsWord rest = false) : (rest.head?.any fun g => isSpace g.char) = false := by
  cases rest with
  | nil => rfl
  | cons h rest =>
    rw [endsWord, isWhite, Bool.or_eq_false_iff] at solid
    exact solid.1

section
variable (ordinary : isIndicator g.char = false)
  (marks : g.char = '-' ∨ g.char = '?' ∨ g.char = ':' → endsWord rest = false)
  (solid : isWhite g.char = false)
include ordinary marks solid

theorem startsPlain : Plain.isStart false g.char rest = true := by
  unfold Plain.isStart
  by_cases hyphen : g.char = '-'
  · rw [solid, headSpaceless (marks (.inl hyphen)), hyphen]
    rfl
  · by_cases colon : g.char = '?' ∨ g.char = ':'
    · have word := marks (.inr colon)
      rcases colon with same | same <;> simp [same, isWhite, isSpace, isBreak, word]
    · simp_all [isIndicator]

theorem nextPlain (flow : s.outer = []) (hyphens : isBoundary '-' (g :: rest) = false)
    (stops : isBoundary '.' (g :: rest) = false) : s.next? g rest = s.plain? g rest := by
  have start := startsPlain ordinary marks solid
  have block : s.inFlow = false := by rw [inFlow, flow]; rfl
  have mark (m : Char) (one : m = '-' ∨ m = '?' ∨ m = ':') : ¬ (g.char = m ∧ endsWord rest = true) := by
    rintro ⟨rfl, ends⟩
    exact Bool.false_ne_true ((marks one).symm.trans ends)
  simp only [isIndicator, List.contains_cons, List.contains_nil, Bool.or_eq_false_iff, beq_eq_false_iff_ne,
    Bool.or_false] at ordinary
  simp only [next?, block, hyphens, stops, start, ordinary, mark '-' (by simp), mark '?' (by simp),
    mark ':' (by simp), and_false, if_false, if_true, Bool.false_eq_true, false_or, false_and]

end

theorem nextColon (colon : g.char = ':') (ends : endsWord rest = true) :
    s.next? g rest = s.value? g rest := by
  have hyphens : isBoundary '-' (g :: rest) = false := boundaryOther (by simp [colon])
  have stops : isBoundary '.' (g :: rest) = false := boundaryOther (by simp [colon])
  unfold next?
  simp [hyphens, stops, colon, ends]

def atLine (tokens : List Token) (opened : Bool) (line : Nat) (cs : List Char) : Layout where
  rest := locate line 0 cs
  tokens := tokens
  indent := if opened then 0 else -1
  around := if opened then [-1] else []

def behindKey (tokens : List Token) (opened : Bool) (key : List Char) (line : Nat) (cs : List Char) :
    Layout where
  rest := locate line key.length cs
  tokens := .scalar .plain key :: tokens
  indent := if opened then 0 else -1
  around := if opened then [-1] else []
  keyAllowed := false
  candidate := some ⟨opened, tokens.length, line, 0⟩

def beforeValue (tokens : List Token) (line column : Nat) (cs : List Char) : Layout where
  rest := locate line (column + 1) cs
  tokens := tokens
  indent := 0
  around := [-1]
  keyAllowed := false

def isKey : List Char → Bool
  | [] => false
  | c :: cs => !isIndicator c && !(['-', '?', '.'].contains c) && decide (cs.length < 1024) &&
      (c :: cs).all fun d => isLevel d && d != ' ' && d != ':'

theorem keyParts (named : isKey key = true) : ∃ c cs, key = c :: cs ∧ isIndicator c = false ∧
    (c ≠ '-' ∧ c ≠ '?' ∧ c ≠ '.') ∧ cs.length < 1024 ∧
    ∀ d ∈ c :: cs, isLevel d = true ∧ d ≠ ' ' ∧ d ≠ ':' := by
  cases key with
  | nil => cases named
  | cons c cs =>
    simp only [isKey, Bool.and_eq_true, Bool.not_eq_true', decide_eq_true_eq, List.all_eq_true,
      bne_iff_ne] at named
    obtain ⟨⟨⟨ordinary, marks⟩, short⟩, chars⟩ := named
    exact ⟨c, cs, rfl, ordinary, by simpa using marks, short, fun d mem =>
      ⟨(chars d mem).1.1, (chars d mem).1.2, (chars d mem).2⟩⟩

theorem commentless (ordinary : isIndicator c = false) : c ≠ '#' := by
  rintro rfl
  exact absurd ordinary (by decide)

theorem lineIndent (opened : Bool) : (if opened then (0 : Int) else -1) ≤ (column : Int) := by
  split <;> omega

theorem keyStep (named : isKey key = true) :
    run (fuel + 1) (atLine tokens opened line (key ++ ':' :: ' ' :: after)) =
      run fuel (behindKey tokens opened key line (':' :: ' ' :: after)) := by
  obtain ⟨c, cs, rfl, ordinary, ⟨hyphen, question, stop⟩, -, chars⟩ := keyParts named
  obtain ⟨level, solid, colon⟩ := chars c List.mem_cons_self
  have first : (atLine tokens opened line (c :: cs ++ ':' :: ' ' :: after)).rest =
      ⟨c, line, 0⟩ :: locate line 1 (cs ++ ':' :: ' ' :: after) := locateCons (levelUnbroken level)
  refine runNext (tokenHere first level solid (commentless ordinary)) first ?_ ?_
  · rfl
  · rw [closeNothing (lineIndent opened), nextPlain ordinary (by simp [hyphen, question, colon])
      (levelSolid level solid) rfl (boundaryOther hyphen) (boundaryOther stop)]
    have read (least : Int) : Plain.read false least [] .empty
        (⟨c, line, 0⟩ :: locate line 1 (cs ++ ':' :: ' ' :: after)) =
          some ⟨c :: cs, false, locate line (cs.length + 1) (':' :: ' ' :: after)⟩ := by
      refine (congrArg _ first.symm).trans ((Plain.wordRead chars).trans ?_)
      rw [Plain.colonRead, List.append_nil, List.reverse_reverse, Nat.zero_add]
      rfl
    cases opened <;> simp [plain?, remember?, dropCandidate?, atLine, behindKey, inFlow, emit, read]

theorem colonStep (short : key.length ≤ 1024) :
    run (fuel + 1) (behindKey tokens opened key line (':' :: ' ' :: after)) =
      run fuel (beforeValue (.value :: .scalar .plain key :: .key ::
        if opened then tokens else .blockMapping :: tokens) line (key.length + 1) after) := by
  have first : (behindKey tokens opened key line (':' :: ' ' :: after)).rest =
      ⟨':', line, key.length⟩ :: locate line (key.length + 1) (' ' :: after) := rfl
  have near : isStale ⟨':', line, key.length⟩ ⟨opened, tokens.length, line, 0⟩ = false := by
    simp [isStale, short]
  let spaced : Layout := { beforeValue (.value :: .scalar .plain key :: .key ::
      if opened then tokens else .blockMapping :: tokens) line (key.length + 1) [] with
    rest := locate line (key.length + 1) (' ' :: after) }
  have token : run (fuel + 1) (behindKey tokens opened key line (':' :: ' ' :: after)) = run fuel spaced := by
    refine runNext (tokenHere first rfl (by simp) (by simp)) first ?_ ?_
    · simp [refreshAll?, behindKey, refresh?, near]
    · rw [closeNothing (lineIndent opened), nextColon rfl rfl]
      cases opened <;>
        simp [value?, behindKey, beforeValue, openBlock, insertAt, inFlow, emit, Nat.add_assoc, spaced]
  -- the space is read over before the value
  exact token.trans (runSame rfl)

def Scanned (style : ScalarStyle) (text written : List Char) : Prop :=
  ∀ {fuel tokens line column after}, OpensLine after →
    run (fuel + 1) (beforeValue tokens line column (written ++ '\n' :: after)) =
      run fuel (atLine (.scalar style text :: tokens) true (line + 1) after)

theorem plainStart (allowed : allowsPlain (c :: cs) = true) : c ≠ ' ' ∧ isIndicator c = false ∧
    (c = '-' ∨ c = '?' ∨ c = ':' → endsWord (locate line column (cs ++ after)) = false) := by
  simp only [allowsPlain, startsSpecially, List.head?_cons, Bool.not_eq_true',
    Bool.or_eq_false_iff] at allowed
  obtain ⟨⟨⟨⟨⟨solid, -⟩, -⟩, -⟩, ⟨⟨ordinary, marks⟩, -⟩, -⟩, -⟩ := allowed
  refine ⟨by simpa using solid, ordinary, fun mark => ?_⟩
  have special : (c == '?' || c == ':' || c == '-') = true := by
    rcases mark with rfl | rfl | rfl <;> rfl
  rw [special, Bool.true_and] at marks
  cases cs with
  | nil => cases marks
  | cons d ds =>
    rw [List.cons_append, locate, endsWord]
    exact Bool.eq_false_iff.mpr fun white => Bool.false_ne_true (marks.symm.trans (Plain.whiteGap white))

theorem plainScanned (allowed : allowsPlain text = true) (any : text ≠ []) : Scanned .plain text text := by
  intro fuel tokens line column after opens
  obtain ⟨c, cs, rfl⟩ := List.exists_cons_of_ne_nil any
  have goes := Plain.allowedGoes allowed
  have level := goes.level c List.mem_cons_self
  obtain ⟨solid, ordinary, marks⟩ := plainStart allowed
  have first : (beforeValue tokens line column (c :: cs ++ '\n' :: after)).rest =
      ⟨c, line, column + 1⟩ :: locate line (column + 2) (cs ++ '\n' :: after) :=
    locateCons (levelUnbroken level)
  have read : Plain.read false 1 [] .empty
      (⟨c, line, column + 1⟩ :: locate line (column + 2) (cs ++ '\n' :: after)) =
        some ⟨c :: cs, true, locate (line + 1) 0 after⟩ := by
    refine (congrArg _ first.symm).trans ((Plain.lineRead (b := []) goes).trans ?_)
    rw [Plain.endRead opens, List.nil_append, List.append_nil, List.reverse_reverse]
  refine runNext (tokenHere first level solid (commentless ordinary)) first rfl ?_
  rw [closeNothing (Int.natCast_nonneg _), nextPlain ordinary marks (levelSolid level solid) rfl
    (boundaryLater _ _ _ (Nat.succ_ne_zero _)) (boundaryLater _ _ _ (Nat.succ_ne_zero _))]
  have scanned (g : Glyph) (gs : List Glyph) (cs : List Char) :
      (beforeValue tokens line column cs).plain? g gs = (Plain.read false 1 [] .empty (g :: gs)).bind
        fun r => some { beforeValue (.scalar .plain r.text :: tokens) line column [] with
          keyAllowed := r.newLine, rest := r.rest } := rfl
  rw [scanned, read]
  rfl

theorem quotedScanned {mark : Char} {style : ScalarStyle} (reader : List Glyph → Option Quoted.Read)
    (level : isLevel mark = true) (solid : mark ≠ ' ') (comment : mark ≠ '#')
    (next : ∀ (s : Layout) line column rest, s.next? ⟨mark, line, column + 1⟩ rest =
      s.inline? ⟨mark, line, column + 1⟩ (quoted style (reader rest)))
    (reads : ∀ line column after, ∃ later, reader (locate line (column + 1) (written ++ '\n' :: after)) =
      some ⟨text, locate line later ('\n' :: after)⟩) : Scanned style text (mark :: written) := by
  intro fuel tokens line column after _
  have first : (beforeValue tokens line column (mark :: written ++ '\n' :: after)).rest =
      ⟨mark, line, column + 1⟩ :: locate line (column + 2) (written ++ '\n' :: after) :=
    locateCons (levelUnbroken level)
  obtain ⟨later, read⟩ := reads line (column + 1) after
  let behind : Layout := { beforeValue (.scalar style text :: tokens) line column [] with
    rest := locate line later ('\n' :: after) }
  have token : run (fuel + 1) (beforeValue tokens line column (mark :: written ++ '\n' :: after)) =
      run fuel behind := by
    refine runNext (tokenHere first level solid comment) first rfl ?_
    rw [closeNothing (Int.natCast_nonneg _), next, read]
    rfl
  exact token.trans (runSame rfl)

theorem singleScanned (level : ∀ c ∈ text, isLevel c = true) :
    Scanned .singleQuoted text ('\'' :: (text.flatMap Quoted.doubled ++ ['\''])) := by
  refine quotedScanned (Quoted.single [] .empty) rfl (by decide) (by decide) (fun s line column rest => ?_)
    fun line column after => ?_
  · simp [next?, boundaryLater]
  · rw [List.append_assoc]
    exact Quoted.singleWhole level line column after

theorem doubleScanned (text : List Char) :
    Scanned .doubleQuoted text ('"' :: (text.flatMap escape ++ ['"'])) := by
  refine quotedScanned (Quoted.double [] .empty .text) rfl (by decide) (by decide)
    (fun s line column rest => ?_) fun line column after => ?_
  · simp [next?, boundaryLater]
  · rw [List.append_assoc]
    exact Quoted.doubleWhole text line column ('\n' :: after)

end FirewallAgent.Yaml.Layout

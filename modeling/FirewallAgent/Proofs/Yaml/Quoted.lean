import FirewallAgent.Yaml.Scalar.Quoted
import FirewallAgent.Proofs.Text.Numeral
import FirewallAgent.Proofs.Yaml.Plain
import Mathlib.Algebra.Group.Nat.Defs

/-! Scalars in quotes read back. Single quotes hold any text on one line; double quotes hold any text at all,
since whatever could be mistaken is escaped. -/
namespace FirewallAgent.Yaml.Quoted
open FirewallAgent.Text Writer

variable {line column : Nat} {c : Char} {cs after text b : List Char}

def doubled (c : Char) : List Char := if c = '\'' then ['\'', '\''] else [c]

theorem doubledSame {d : Char} (mem : d ∈ doubled c) : d = c := by
  unfold doubled at mem
  split at mem <;> simp_all

theorem singleOther {g : Glyph} {gs : List Glyph} (level : isLevel g.char = true) (solid : g.char ≠ ' ')
    (inside : g.column ≠ 0) (other : g.char ≠ '\'') :
    single text (.inLine b) (g :: gs) = single (g.char :: (b ++ text)) .empty gs := by
  have spaceless := spaceless level solid
  cases gs with
  | nil =>
    rw [single, single, if_neg spaceless, levelUnbroken level, atBoundaryLater _ _ inside, if_neg other]
    rfl
  | cons h gs =>
    rw [single, if_neg spaceless, levelUnbroken level, atBoundaryLater _ _ inside, if_neg other]
    rfl

theorem singleTwo : single text (.inLine b) (locate line (column + 1) ('\'' :: '\'' :: cs)) =
    single ('\'' :: (b ++ text)) .empty (locate line (column + 3) cs) := by
  rw [locateCons rfl, locateCons rfl, single, atBoundaryLater _ _ (Nat.succ_ne_zero column)]
  rfl

theorem singleEnd : single text (.inLine b) (locate line (column + 1) ('\'' :: '\n' :: cs)) =
    some ⟨(b ++ text).reverse, locate line (column + 2) ('\n' :: cs)⟩ := by
  rw [locateCons rfl, locateBreak, single, atBoundaryLater _ _ (Nat.succ_ne_zero column)]
  rfl

theorem singleSpace (text b : List Char) : single text (.inLine b) (locate line column (' ' :: cs)) =
    single text (.inLine (' ' :: b)) (locate line (column + 1) cs) := by
  rw [locateCons rfl]
  cases locate line (column + 1) cs <;> rfl

theorem singleRead (level : ∀ c ∈ cs, isLevel c = true) :
    ∃ later,
      single text (.inLine b) (locate line (column + 1) (cs.flatMap doubled ++ '\'' :: '\n' :: after)) =
        some ⟨(cs.reverse ++ (b ++ text)).reverse, locate line later ('\n' :: after)⟩ := by
  induction cs generalizing text b column with
  | nil => exact ⟨_, singleEnd⟩
  | cons c cs ih =>
    have first := level c List.mem_cons_self
    have others := fun d mem => level d (List.mem_cons_of_mem c mem)
    rw [List.flatMap_cons, List.append_assoc, List.reverse_cons, List.append_assoc]
    by_cases quote : c = '\''
    · subst quote
      obtain ⟨later, read⟩ := @ih (column + 2) ('\'' :: (b ++ text)) [] others
      exact ⟨later, singleTwo.trans read⟩
    · have alone : doubled c = [c] := if_neg quote
      rw [alone, List.singleton_append]
      by_cases blank : c = ' '
      · subst blank
        obtain ⟨later, read⟩ := @ih (column + 1) text (' ' :: b) others
        exact ⟨later, (singleSpace text b).trans read⟩
      · obtain ⟨later, read⟩ := @ih (column + 1) (c :: (b ++ text)) [] others
        rw [locateCons (levelUnbroken first), singleOther first blank (Nat.succ_ne_zero column) quote]
        exact ⟨later, read⟩

theorem singleWhole (level : ∀ c ∈ cs, isLevel c = true) (line column : Nat) (after : List Char) :
    ∃ later, single [] .empty (locate line (column + 1) (cs.flatMap doubled ++ '\'' :: '\n' :: after)) =
      some ⟨cs, locate line later ('\n' :: after)⟩ := by
  obtain ⟨later, read⟩ := @singleRead line column cs after [] [] level
  exact ⟨later, read.trans (by simp)⟩

theorem breakChars (ends : isBreak c = true) : c = '\n' ∨ c = '\u2028' ∨ c = '\u2029' := by
  simp only [isBreak, Bool.or_eq_true, beq_iff_eq] at ends
  rcases ends with (newline | separator) | separator
  · exact .inl newline
  · exact .inr (.inl (Char.toNat_inj.mp separator))
  · exact .inr (.inr (Char.toNat_inj.mp separator))

theorem digitUnbroken {d : Nat} (digit : Numeral.digit? 16 c = some d) : isBreak c = false := by
  refine Bool.eq_false_iff.mpr fun ends => ?_
  have found : (Numeral.digit? 16 c).isSome = true := by rw [digit]; rfl
  rcases breakChars ends with rfl | rfl | rfl <;> exact Bool.false_ne_true found

theorem hexRead {ds : List Nat} {value : Nat} (spells : Numeral.Spells 16 cs ds) (any : ds ≠ [])
    (code : charOf? (ds.foldl (fun v d => v * 16 + d) value) = some c) :
    double text .empty (.hex ds.length value) (locate line column (cs ++ after)) =
      double (c :: text) .empty .text (locate line (column + cs.length) after) := by
  induction ds generalizing cs value column with
  | nil => exact absurd rfl any
  | cons d ds ih =>
    obtain ⟨e, cs, rfl, first, others⟩ := List.map_eq_cons_iff.mp spells
    rw [List.cons_append, locateCons (digitUnbroken first), List.length_cons, double, first]
    cases ds with
    | nil =>
      cases List.map_eq_nil_iff.mp others
      have last : charOf? (value * 16 + d) = some c := code
      simp only [last]
      rfl
    | cons d' ds =>
      refine (ih others (List.cons_ne_nil d' ds) code).trans ?_
      rw [List.length_cons, Nat.add_assoc, Nat.add_comm 1]

theorem backslashRead (text b : List Char) :
    double text (.inLine b) .text (locate line (column + 1) ('\\' :: after)) =
      double (b ++ text) .empty .escape (locate line (column + 2) after) := by
  rw [locateCons rfl, double, atBoundaryLater _ _ (Nat.succ_ne_zero column)]
  rfl

theorem shortRead {e : Char} (short : shortEscape? c = some e) :
    double text (.inLine b) .text (locate line (column + 1) ('\\' :: e :: after)) =
      double (c :: (b ++ text)) .empty .text (locate line (column + 3) after) := by
  refine (backslashRead text b).trans ?_
  unfold shortEscape? at short
  split at short <;> cases short <;> rfl

theorem paddedSpells {width n : Nat} (wide : 0 < width) (fits : n < 16 ^ width) :
    ∃ ds, Numeral.Spells 16 (hexDigits width n) ds ∧ ds.length = width ∧
      ds.foldl (fun v d => v * 16 + d) 0 = n := by
  obtain ⟨ds, spells, whole⟩ := Numeral.writeSpells Char.toUpper (by decide) Numeral.hexDigits n
  have same : (Numeral.write 16 n).length = ds.length := by simpa using congrArg List.length spells
  have short : ds.length ≤ width := by
    rw [← same]
    exact (Nat.length_toDigits_le_iff (by decide) wide).mpr fits
  have zeros (k : Nat) : (List.replicate k 0).foldl (fun v d => v * 16 + d) 0 = 0 := by
    induction k with
    | zero => rfl
    | succ k ih => exact ih
  refine ⟨List.replicate (width - ds.length) 0 ++ ds, ?_, ?_, ?_⟩
  · unfold hexDigits
    rw [← same]
    simp only [List.length_map]
    exact Numeral.Spells.append (by simp [Numeral.Spells, Numeral.digit?]) spells
  · rw [List.length_append, List.length_replicate]
    omega
  · rw [List.foldl_append, zeros]
    exact whole

theorem charOfCode (c : Char) : charOf? c.toNat = some c := by
  unfold charOf?
  rw [if_pos (show c.toNat.isValidChar from c.valid), Char.ofNat_toNat]

theorem codeRead {e : Char} {width : Nat} (wide : 0 < width) (plain : escape? e = none)
    (unbroken : isBreak e = false) (length : hexLength? e = some width) (fits : c.toNat < 16 ^ width) :
    double text (.inLine b) .text (locate line (column + 1) ('\\' :: e :: hexDigits width c.toNat ++ after)) =
      double (c :: (b ++ text)) .empty .text
        (locate line (column + 1 + ('\\' :: e :: hexDigits width c.toNat).length) after) := by
  obtain ⟨ds, spells, rfl, whole⟩ := paddedSpells wide fits
  rw [List.cons_append, List.cons_append, backslashRead, locateCons unbroken, double, unbroken]
  simp only [plain, length, Bool.false_eq_true, if_false]
  rw [hexRead spells (List.ne_nil_of_length_pos wide) (by rw [whole, charOfCode])]
  have place (k : Nat) : column + 2 + 1 + k = column + 1 + (k + 1 + 1) := by omega
  rw [place]
  rfl

theorem charSmall (c : Char) : c.toNat < 16 ^ 8 := by
  have valid : c.toNat.isValidChar := c.valid
  unfold Nat.isValidChar at valid
  omega

theorem shownRead (level : isLevel c = true) (solid : c ≠ ' ') (quote : c ≠ '"') (backslash : c ≠ '\\') :
    double text (.inLine b) .text (locate line (column + 1) (c :: after)) =
      double (c :: (b ++ text)) .empty .text (locate line (column + 2) after) := by
  rw [locateCons (levelUnbroken level), double, if_neg (spaceless level solid), levelUnbroken level,
    atBoundaryLater _ _ (Nat.succ_ne_zero column), if_neg quote, if_neg backslash]
  rfl

theorem escapeRead (solid : c ≠ ' ') :
    double text (.inLine b) .text (locate line (column + 1) (escape c ++ after)) =
      double (c :: (b ++ text)) .empty .text (locate line (column + 1 + (escape c).length) after) := by
  unfold escape
  split
  · rename_i shown
    simp only [Bool.and_eq_true, bne_iff_ne, Bool.not_eq_true'] at shown
    obtain ⟨⟨⟨shown, unbroken⟩, quote⟩, backslash⟩ := shown
    exact shownRead (shownLevel shown unbroken) solid quote backslash
  · split
    · rename_i short
      exact shortRead short
    · split
      · rename_i small
        exact codeRead (show 0 < 2 by decide) rfl rfl rfl (Nat.lt_succ_of_le small)
      · split
        · rename_i small
          exact codeRead (show 0 < 4 by decide) rfl rfl rfl (Nat.lt_succ_of_le small)
        · exact codeRead (show 0 < 8 by decide) rfl rfl rfl (charSmall c)

theorem doubleRead :
    ∃ later, double text (.inLine b) .text (locate line (column + 1) (cs.flatMap escape ++ '"' :: after)) =
      some ⟨(cs.reverse ++ (b ++ text)).reverse, locate line later after⟩ := by
  induction cs generalizing text b column with
  | nil =>
    refine ⟨column + 2, ?_⟩
    rw [List.flatMap_nil, List.nil_append, locateCons rfl, double,
      atBoundaryLater _ _ (Nat.succ_ne_zero column)]
    rfl
  | cons c cs ih =>
    rw [List.flatMap_cons, List.append_assoc, List.reverse_cons, List.append_assoc]
    by_cases blank : c = ' '
    · subst blank
      obtain ⟨later, read⟩ := @ih (column + 1) text (' ' :: b)
      exact ⟨later, read⟩
    · obtain ⟨later, read⟩ := @ih (column + (escape c).length) (c :: (b ++ text)) []
      rw [escapeRead blank, Nat.add_right_comm]
      exact ⟨later, read⟩

theorem doubleWhole (cs : List Char) (line column : Nat) (after : List Char) :
    ∃ later, double [] .empty .text (locate line (column + 1) (cs.flatMap escape ++ '"' :: after)) =
      some ⟨cs, locate line later after⟩ := by
  obtain ⟨later, read⟩ := @doubleRead line column cs after [] []
  exact ⟨later, read.trans (by simp)⟩

end FirewallAgent.Yaml.Quoted

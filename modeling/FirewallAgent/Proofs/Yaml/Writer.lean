import FirewallAgent.Proofs.Yaml.Mapping

/-! What the writer makes of a printable text scans back to that text. It goes on one line, in the style that
was chosen for it, and what is chosen to go without quotes stands for no null, number or truth value. -/
namespace FirewallAgent.Yaml.Writer
open FirewallAgent.Text Layout Entry

def isVisible (c : Char) : Bool :=
  0x20 ≤ c.toNat && !(0x7F ≤ c.toNat && c.toNat ≤ 0x9F) && c.toNat != 0x2028 && c.toNat != 0x2029

variable {c : Char} {cs : List Char}

theorem visibleUnbroken (visible : isVisible c = true) : isLineEnd c = false := by
  simp only [isVisible, Bool.and_eq_true, bne_iff_ne, Bool.not_eq_true', Bool.and_eq_false_iff,
    decide_eq_true_eq, decide_eq_false_iff_not] at visible
  simp only [isLineEnd, Bool.or_eq_false_iff, beq_eq_false_iff_ne]
  refine ⟨⟨⟨⟨?_, ?_⟩, by omega⟩, visible.1.2⟩, visible.2⟩
  · rintro rfl
    exact absurd visible.1.1.1 (by decide)
  · rintro rfl
    exact absurd visible.1.1.1 (by decide)

theorem visibleLevel (visible : isVisible c = true) : isLevel c = true := by
  refine tablessLevel ?_ (visibleUnbroken visible)
  rintro rfl
  exact Bool.false_ne_true visible

theorem asciiVisible (low : 0x20 ≤ c.toNat) (high : c.toNat ≤ 0x7E) : isVisible c = true := by
  simp only [isVisible, Bool.and_eq_true, bne_iff_ne, Bool.not_eq_true', Bool.and_eq_false_iff,
    decide_eq_true_eq, decide_eq_false_iff_not]
  omega

theorem asciiSeen (low : 0x20 ≤ c.toNat) (high : c.toNat ≤ 0x7E) : isSeen c = true := by
  simp [isSeen, isShown, visibleUnbroken (asciiVisible low high), low, high]

theorem codesOrdered {a b : Char} (ordered : a ≤ b) : a.toNat ≤ b.toNat :=
  UInt32.le_iff_toNat_le.mp (Char.le_def.mp ordered)

theorem digitSeen {d : Nat} (digit : Numeral.digit? 16 c = some d) : isSeen c = true := by
  have within {a b : Char} (range : a ≤ c ∧ c ≤ b) (low : 0x20 ≤ a.toNat) (high : b.toNat ≤ 0x7E) :
      isSeen c = true :=
    asciiSeen (Nat.le_trans low (codesOrdered range.1)) (Nat.le_trans (codesOrdered range.2) high)
  simp only [Numeral.digit?] at digit
  split at digit
  · exact within ‹_› (by decide) (by decide)
  · split at digit
    · exact within ‹_› (by decide) (by decide)
    · split at digit
      · exact within ‹_› (by decide) (by decide)
      · simp at digit

theorem codeSeen {width : Nat} (wide : 0 < width) (fits : c.toNat < 16 ^ width) :
    ∀ d ∈ hexDigits width c.toNat, isSeen d = true := by
  obtain ⟨ds, spells, -⟩ := Quoted.paddedSpells wide fits
  intro d mem
  have digit : Numeral.digit? 16 d ∈ ds.map some := spells ▸ List.mem_map_of_mem mem
  obtain ⟨n, -, same⟩ := List.mem_map.mp digit
  exact digitSeen same.symm

theorem escapeSeen (c : Char) : ∀ d ∈ escape c, isSeen d = true := by
  have marked {e : Char} {cs : List Char} (first : isSeen e = true) (others : ∀ d ∈ cs, isSeen d = true) :
      ∀ d ∈ '\\' :: e :: cs, isSeen d = true := by
    intro d mem
    rcases List.mem_cons.mp mem with rfl | mem
    · rfl
    · rcases List.mem_cons.mp mem with rfl | mem
      · exact first
      · exact others d mem
  unfold escape
  split
  · rename_i shown
    simp only [Bool.and_eq_true] at shown
    intro d mem
    rw [List.mem_singleton.mp mem, isSeen, Bool.and_eq_true]
    exact shown.1.1
  · split
    · rename_i short
      refine marked ?_ (by simp)
      unfold shortEscape? at short
      split at short <;> cases short <;> rfl
    · split
      · exact marked rfl (codeSeen (by decide) (Nat.lt_succ_of_le ‹_›))
      · split
        · exact marked rfl (codeSeen (by decide) (Nat.lt_succ_of_le ‹_›))
        · exact marked rfl (codeSeen (by decide) (Quoted.charSmall c))

theorem indentedLine (unbroken : ∀ c ∈ cs, isLineEnd c = false) : indented false cs = cs := by
  induction cs with
  | nil => rfl
  | cons c cs ih =>
    rw [indented, unbroken c List.mem_cons_self, if_neg Bool.false_ne_true, if_neg Bool.false_ne_true,
      ih fun d mem => unbroken d (List.mem_cons_of_mem c mem)]

structure Written (style : ScalarStyle) (text written : List Char) : Prop where
  scanned : Scanned style text written
  seen : ∀ c ∈ written, isSeen c = true

theorem unshownSeen (shown : isUnshown cs = false) (unbroken : ∀ c ∈ cs, isLineEnd c = false) :
    ∀ c ∈ cs, isSeen c = true := by
  intro c mem
  rw [isUnshown, Bool.or_eq_false_iff] at shown
  have seen := List.any_eq_false.mp shown.1 c mem
  rw [isSeen, unbroken c mem]
  simpa using seen

theorem plainWritten (allowed : allowsPlain cs = true) (any : cs ≠ []) : Written .plain cs cs := by
  refine ⟨plainScanned allowed any, ?_⟩
  simp only [allowsPlain, Bool.not_eq_true', Bool.or_eq_false_iff] at allowed
  exact unshownSeen allowed.1.1.2 fun c mem => by simpa using List.any_eq_false.mp allowed.1.1.1.2 c mem

theorem quotedSeen {mark : Char} {written : List Char} (first : isSeen mark = true)
    (inside : ∀ c ∈ written, isSeen c = true) : ∀ c ∈ mark :: (written ++ [mark]), isSeen c = true := by
  intro c mem
  rcases List.mem_cons.mp mem with rfl | mem
  · exact first
  · rcases List.mem_append.mp mem with mem | mem
    · exact inside c mem
    · rw [List.mem_singleton.mp mem]
      exact first

theorem singleWritten (visible : ∀ c ∈ cs, isVisible c = true) (allowed : allowsSingle cs = true) :
    Written .singleQuoted cs ('\'' :: (cs.flatMap Quoted.doubled ++ ['\''])) := by
  refine ⟨singleScanned fun c mem => visibleLevel (visible c mem), quotedSeen rfl fun c mem => ?_⟩
  rw [allowsSingle, Bool.not_eq_true', Bool.or_eq_false_iff] at allowed
  obtain ⟨d, here, inside⟩ := List.mem_flatMap.mp mem
  rw [Quoted.doubledSame inside]
  exact unshownSeen allowed.1 (fun c mem => visibleUnbroken (visible c mem)) d here

theorem doubleWritten (cs : List Char) : Written .doubleQuoted cs ('"' :: (cs.flatMap escape ++ ['"'])) := by
  refine ⟨doubleScanned cs, quotedSeen rfl fun d mem => ?_⟩
  obtain ⟨c, -, inside⟩ := List.mem_flatMap.mp mem
  exact escapeSeen c d inside

theorem styleCases (visible : ∀ c ∈ cs, isVisible c = true) :
    (style cs = .plain ∧ allowsPlain cs = true ∧ Resolution.isAmbiguous cs = false) ∨
      (style cs = .singleQuoted ∧ allowsSingle cs = true) ∨ style cs = .doubleQuoted := by
  have oneLine : cs.contains '\n' = false := by
    refine Bool.eq_false_iff.mpr fun feed => ?_
    exact Bool.false_ne_true (visible '\n' (List.contains_iff_mem.mp feed))
  rw [style, oneLine, if_neg Bool.false_ne_true]
  split
  · rename_i plain
    rw [Bool.and_eq_true, Bool.not_eq_true'] at plain
    exact .inl ⟨rfl, plain⟩
  · split
    · exact .inr (.inl ⟨rfl, ‹_›⟩)
    · exact .inr (.inr rfl)

theorem quotedLine (visible : ∀ c ∈ cs, isVisible c = true) :
    indented false (cs.flatMap Quoted.doubled) = cs.flatMap Quoted.doubled := by
  refine indentedLine fun c mem => ?_
  obtain ⟨d, here, inside⟩ := List.mem_flatMap.mp mem
  rw [Quoted.doubledSame inside]
  exact visibleUnbroken (visible d here)

theorem endlessLine (visible : ∀ c ∈ cs, isVisible c = true) : endsInLineEnd cs = false := by
  rw [endsInLineEnd]
  cases last : cs.getLast? with
  | none => rfl
  | some c => exact visibleUnbroken (visible c (List.mem_of_getLast? last))

theorem styleUnambiguous (visible : ∀ c ∈ cs, isVisible c = true) (plain : style cs = .plain) :
    Resolution.isAmbiguous cs = false := by
  rcases styleCases visible with ⟨-, -, clear⟩ | ⟨single, -⟩ | double
  · exact clear
  · cases plain.symm.trans single
  · cases plain.symm.trans double

theorem writtenBack (visible : ∀ c ∈ cs, isVisible c = true) :
    ∃ written, write cs = written ++ ['\n'] ∧ Written (style cs) cs written := by
  rcases styleCases visible with ⟨plain, allowed, clear⟩ | ⟨single, allowed⟩ | double
  · have any : cs ≠ [] := by
      rintro rfl
      exact Bool.false_ne_true clear.symm
    refine ⟨_, ?_, plain ▸ plainWritten allowed any⟩
    rw [write, plain]
  · refine ⟨_, ?_, single ▸ singleWritten visible allowed⟩
    have lines : write cs = '\'' :: indented false (cs.flatMap Quoted.doubled) ++
        (if endsInLineEnd cs then indentation else []) ++ ['\'', '\n'] := by
      rw [write, single]
      rfl
    rw [lines, quotedLine visible, endlessLine visible]
    simp
  · refine ⟨_, ?_, double ▸ doubleWritten cs⟩
    rw [write, double]
    simp

def isSimple (c : Char) : Bool :=
  (0x30 ≤ c.toNat && c.toNat ≤ 0x39) || (0x61 ≤ c.toNat && c.toNat ≤ 0x7A)

theorem simpleOther (d : Char) (other : isSimple d = false) (simple : isSimple c = true) : c ≠ d := by
  rintro rfl
  exact Bool.false_ne_true (other.symm.trans simple)

theorem simpleParts (simple : isSimple c = true) :
    isSeen c = true ∧ isGap c = false ∧ isIndicator c = false := by
  have seen : isSeen c = true := by
    simp only [isSimple, Bool.or_eq_true, Bool.and_eq_true, decide_eq_true_eq] at simple
    exact asciiSeen (by omega) (by omega)
  refine ⟨seen, ?_, ?_⟩
  · rw [isSeen, Bool.and_eq_true, Bool.not_eq_true'] at seen
    rw [isGap, seen.2, beq_false_of_ne (simpleOther ' ' rfl simple),
      beq_false_of_ne (simpleOther '\t' rfl simple)]
    rfl
  · simp only [isIndicator, List.contains_eq_mem, decide_eq_false_iff_not]
    intro mem
    have others : (['#', ',', '[', ']', '\x7b', '\x7d', '&', '*', '!', '|', '>', '\'', '"', '%', '@',
        '\x60'].all fun d => !isSimple d) = true := rfl
    have other := List.all_eq_true.mp others c mem
    rw [simple] at other
    exact Bool.false_ne_true other

theorem noPair {p : Char → Char → Bool} (none : ∀ a ∈ cs, ∀ b, p a b = false) : hasPair p cs = false := by
  induction cs with
  | nil => rfl
  | cons a cs ih =>
    cases cs with
    | nil => rfl
    | cons b cs =>
      rw [hasPair, none a List.mem_cons_self, ih fun c mem => none c (List.mem_cons_of_mem a mem)]
      rfl

theorem simpleStart (simple : ∀ c ∈ cs, isSimple c = true) : startsSpecially cs = false := by
  cases cs with
  | nil => rfl
  | cons c cs =>
    have simple := simple c List.mem_cons_self
    have question := simpleOther '?' rfl simple
    have colon := simpleOther ':' rfl simple
    have hyphen := simpleOther '-' rfl simple
    have stop := simpleOther '.' rfl simple
    simp [startsSpecially, (simpleParts simple).2.2, question, colon, hyphen, hyphen.symm, stop.symm,
      List.isPrefixOf]

theorem simpleAllowed (simple : ∀ c ∈ cs, isSimple c = true) : allowsPlain cs = true := by
  have first : cs.head? ≠ some ' ' := fun first =>
    simpleOther ' ' rfl (simple ' ' (List.mem_of_head? first)) rfl
  have last (d : Char) (other : isSimple d = false) : cs.getLast? ≠ some d := fun last =>
    simpleOther d other (simple d (List.mem_of_getLast? last)) rfl
  have seen (c) (mem : c ∈ cs) := (simpleParts (simple c mem)).1
  simp only [isSeen, Bool.and_eq_true, Bool.not_eq_true'] at seen
  have unbroken : cs.any isLineEnd = false :=
    List.any_eq_false.mpr fun c mem => by simp [(seen c mem).2]
  have shown : cs.any (fun c => !isShown c) = false :=
    List.any_eq_false.mpr fun c mem => by simp [(seen c mem).1]
  have pairs : hasPair (fun a b => (a == ':' && isGap b) || (isGap a && b == '#')) cs = false :=
    noPair fun a mem b => by simp [simpleOther ':' rfl (simple a mem), (simpleParts (simple a mem)).2.1]
  have spaces : hasPair (fun a b => a == ' ' && isLineEnd b) cs = false :=
    noPair fun a mem b => by simp [simpleOther ' ' rfl (simple a mem)]
  simp [allowsPlain, endsInSpace, readsOn, isUnshown, first, last ' ' rfl, last ':' rfl, unbroken, shown,
    pairs, spaces, simpleStart simple]

end FirewallAgent.Yaml.Writer

import FirewallAgent.Yaml.Scalar.Plain
import FirewallAgent.Yaml.Writer

/-! Scalars without quotes read back. Nothing in a text that may go without them ends it early: no colon
stands before a gap, no comment sign behind one, and it lies on one line. -/
namespace FirewallAgent.Yaml
open Writer

def isLevel (c : Char) : Bool := !isBreak c && c != '\t'

variable {line column : Nat} {c : Char} {cs after text b : List Char} {gap : Bool}

theorem levelUnbroken (level : isLevel c = true) : isBreak c = false := by
  simp only [isLevel, Bool.and_eq_true, Bool.not_eq_true'] at level
  exact level.1

theorem levelSpace (level : isLevel c = true) : isSpace c = true ↔ c = ' ' := by
  simp only [isLevel, Bool.and_eq_true, bne_iff_ne] at level
  simp [isSpace, level.2]

theorem spaceless (level : isLevel c = true) (solid : c ≠ ' ') : ¬ isSpace c = true :=
  fun space => solid ((levelSpace level).mp space)

theorem levelSolid (level : isLevel c = true) (solid : c ≠ ' ') : isWhite c = false := by
  rw [isWhite, levelUnbroken level, Bool.or_false]
  exact Bool.eq_false_iff.mpr (spaceless level solid)

theorem locateCons (single : isBreak c = false) :
    locate line column (c :: cs) = ⟨c, line, column⟩ :: locate line (column + 1) cs := by
  rw [locate, single]
  rfl

theorem locateBreak : locate line column ('\n' :: cs) = ⟨'\n', line, column⟩ :: locate (line + 1) 0 cs := rfl

theorem boundaryLater (mark : Char) (g : Glyph) (gs : List Glyph) (later : g.column ≠ 0) :
    isBoundary mark (g :: gs) = false := by
  unfold isBoundary
  split
  · rename_i same
    cases same
    simp [later]
  · rfl

theorem atBoundaryLater (g : Glyph) (gs : List Glyph) (later : g.column ≠ 0) :
    atBoundary (g :: gs) = false := by
  rw [atBoundary, boundaryLater _ g gs later, boundaryLater _ g gs later]
  rfl

theorem tablessLevel (tabless : c ≠ '\t') (unbroken : isLineEnd c = false) : isLevel c = true := by
  simp only [isLineEnd, Bool.or_eq_false_iff] at unbroken
  simp [isLevel, isBreak, tabless, unbroken]

theorem shownLevel (shown : isShown c = true) (unbroken : isLineEnd c = false) : isLevel c = true := by
  refine tablessLevel ?_ unbroken
  rintro rfl
  exact Bool.false_ne_true shown

def OpensLine (cs : List Char) : Prop := ∀ c, cs.head? = some c → isLevel c = true ∧ c ≠ ' ' ∧ c ≠ '#'

namespace Plain

theorem whiteGap (white : isWhite c = true) : isGap c = true := by
  simp only [isWhite, isSpace, isBreak, isGap, isLineEnd, Bool.or_eq_true] at white ⊢
  grind

structure Goes (gap : Bool) (cs : List Char) : Prop where
  level : ∀ c ∈ cs, isLevel c = true
  pairs : hasPair (fun a b => (a == ':' && isGap b) || (isGap a && b == '#')) cs = false
  colon : cs.getLast? ≠ some ':'
  solid : cs.getLast? ≠ some ' '
  first : gap = true → cs ≠ [] ∧ cs.head? ≠ some '#'

theorem Goes.tail (goes : Goes gap (c :: cs)) : Goes (c == ' ') cs := by
  have inner {d : Char} (last : (c :: cs).getLast? ≠ some d) : cs.getLast? ≠ some d := by
    cases cs with
    | nil => simp
    | cons e es => rwa [List.getLast?_cons_cons] at last
  refine ⟨fun d mem => goes.level d (List.mem_cons_of_mem c mem), ?_, inner goes.colon, inner goes.solid, ?_⟩
  · have pairs := goes.pairs
    cases cs with
    | nil => rfl
    | cons e es =>
      rw [hasPair, Bool.or_eq_false_iff] at pairs
      exact pairs.2
  · intro gap
    have blank := eq_of_beq gap
    have pairs := goes.pairs
    have solid := goes.solid
    subst blank
    cases cs with
    | nil => simp at solid
    | cons e es =>
      refine ⟨by simp, fun comment => ?_⟩
      cases comment
      simp [hasPair, isGap] at pairs

theorem Goes.endless (goes : Goes gap (c :: cs)) (colon : c = ':') :
    endsWord (locate line column (cs ++ after)) = false := by
  subst colon
  have pairs := goes.pairs
  have last := goes.colon
  cases cs with
  | nil => simp at last
  | cons e es =>
    rw [hasPair, Bool.or_eq_false_iff, Bool.or_eq_false_iff] at pairs
    have loose : isGap e = false := by simpa using pairs.1.1
    rw [List.cons_append, locate, endsWord]
    exact Bool.eq_false_iff.mpr fun white => Bool.false_ne_true (loose.symm.trans (whiteGap white))

theorem allowedGoes (allowed : allowsPlain cs = true) : Goes false cs := by
  simp only [allowsPlain, readsOn, isUnshown, endsInSpace, Bool.not_eq_true', Bool.or_eq_false_iff] at allowed
  obtain ⟨⟨⟨⟨⟨-, solid⟩, lines⟩, shown, -⟩, -⟩, colon, pairs⟩ := allowed
  refine ⟨fun c mem => ?_, pairs, by simpa using colon, by simpa using solid, by simp⟩
  have seen := List.any_eq_false.mp shown c mem
  exact shownLevel (by simpa using seen) (by simpa using List.any_eq_false.mp lines c mem)

theorem spaceRead (text b : List Char) : read false 1 text (.inLine b) (locate line column (' ' :: cs)) =
    read false 1 text (.inLine (' ' :: b)) (locate line (column + 1) cs) := rfl

theorem charRead {text b : List Char} (level : isLevel c = true) (solid : c ≠ ' ')
    (comment : b ≠ [] → c ≠ '#') (colon : c = ':' → endsWord (locate line (column + 2) cs) = false) :
    read false 1 text (.inLine b) (locate line (column + 1) (c :: cs)) =
      read false 1 (c :: (b ++ text)) .empty (locate line (column + 2) cs) := by
  have stays : (!(Gap.inLine b).isEmpty && ((!false && decide (((column + 1 : Nat) : Int) < 1)) ||
      atBoundary (⟨c, line, column + 1⟩ :: locate line (column + 2) cs) || c == '#')) = false := by
    rw [atBoundaryLater _ _ (Nat.succ_ne_zero column)]
    cases b with
    | nil => rfl
    | cons d b =>
      have inside : ¬ ((column + 1 : Nat) : Int) < 1 := by omega
      rw [decide_eq_false inside, beq_false_of_ne (comment (List.cons_ne_nil d b))]
      rfl
  have goes : stopsAt false c (locate line (column + 2) cs) = false := by
    unfold stopsAt
    by_cases same : c = ':'
    · simp [colon same]
    · simp [same]
  rw [locateCons (levelUnbroken level), read, if_neg (spaceless level solid), levelUnbroken level, stays, goes]
  rfl

theorem lineRead (goes : Goes (!b.isEmpty) cs) :
    read false 1 text (.inLine b) (locate line (column + 1) (cs ++ after)) =
      read false 1 (cs.reverse ++ (b ++ text)) .empty (locate line (column + 1 + cs.length) after) := by
  induction cs generalizing text b column with
  | nil =>
    cases b with
    | nil => rfl
    | cons d b => exact absurd rfl (goes.first rfl).1
  | cons c cs ih =>
    have level := goes.level c List.mem_cons_self
    by_cases blank : c = ' '
    · subst blank
      rw [List.cons_append, spaceRead, ih (b := ' ' :: b) goes.tail]
      simp only [List.reverse_cons, List.append_assoc, List.cons_append, List.nil_append, List.length_cons,
        Nat.add_comm, Nat.add_left_comm]
    · have next : Goes (!List.isEmpty ([] : List Char)) cs := by
        have tail := goes.tail
        rwa [beq_false_of_ne blank] at tail
      have comment : b ≠ [] → c ≠ '#' := fun some => by
        simpa using (goes.first (by simpa using some)).2
      rw [List.cons_append, charRead level blank comment goes.endless]
      refine (ih next).trans ?_
      simp only [List.reverse_cons, List.append_assoc, List.cons_append, List.nil_append, List.length_cons,
        Nat.add_comm, Nat.add_left_comm]

theorem endRead (opens : OpensLine after) : read false 1 text .empty (locate line column ('\n' :: after)) =
    some ⟨text.reverse, true, locate (line + 1) 0 after⟩ := by
  cases after with
  | nil => rfl
  | cons c cs =>
    obtain ⟨level, solid, -⟩ := opens c rfl
    have next : read false 1 text .empty (locate line column ('\n' :: c :: cs)) =
        read false 1 text (.acrossLines ['\n'] []) (locate (line + 1) 0 (c :: cs)) := rfl
    rw [next, locateCons (levelUnbroken level), read, if_neg (spaceless level solid),
      levelUnbroken level]
    rfl

theorem wordRead {least : Int} (word : ∀ c ∈ cs, isLevel c = true ∧ c ≠ ' ' ∧ c ≠ ':') :
    read false least text .empty (locate line column (cs ++ after)) =
      read false least (cs.reverse ++ text) .empty (locate line (column + cs.length) after) := by
  induction cs generalizing text column with
  | nil => rfl
  | cons c cs ih =>
    obtain ⟨level, solid, plain⟩ := word c List.mem_cons_self
    have goes : stopsAt false c (locate line (column + 1) (cs ++ after)) = false := by
      simp [stopsAt, plain]
    rw [List.cons_append, locateCons (levelUnbroken level), read, if_neg (spaceless level solid),
      levelUnbroken level, goes]
    refine (ih fun d mem => word d (List.mem_cons_of_mem c mem)).trans ?_
    simp only [List.reverse_cons, List.append_assoc, List.cons_append, List.nil_append, List.length_cons,
      Nat.add_comm, Nat.add_left_comm, Gap.textEmpty]

theorem colonRead {least : Int} : read false least text .empty (locate line column (':' :: ' ' :: after)) =
    some ⟨text.reverse, false, locate line column (':' :: ' ' :: after)⟩ := rfl

end Plain
end FirewallAgent.Yaml

import FirewallAgent.Yaml.Node
import FirewallAgent.Proofs.Yaml.Layout

/-! A mapping of scalars read back from its lines. The tokens of the lines follow one another inside one
block, and each entry takes the parser a bounded number of steps. -/
namespace FirewallAgent.Yaml
open Writer Layout

structure Entry where
  key : List Char
  style : ScalarStyle
  text : List Char
  written : List Char

namespace Entry

def chars (e : Entry) : List Char := e.key ++ ':' :: ' ' :: (e.written ++ ['\n'])

def tokens (e : Entry) : List Token := [.key, .scalar .plain e.key, .value, .scalar e.style e.text]

def nodes (e : Entry) : Node × Node :=
  (.scalar ⟨String.ofList e.key, .plain, none⟩, .scalar ⟨String.ofList e.text, e.style, none⟩)

def isSeen (c : Char) : Bool := isShown c && !isLineEnd c

structure Fine (e : Entry) : Prop where
  named : isKey e.key = true
  scanned : Scanned e.style e.text e.written
  seen : (e.key ++ e.written).all isSeen = true

end Entry

variable {e : Entry} {es : List Entry} {tokens rest : List Token} {opened : Bool} {line column fuel : Nat}
  {after : List Char}

theorem entryScanned (fine : e.Fine) (opens : OpensLine after) :
    run (fuel + 3) (atLine tokens opened line (e.chars ++ after)) =
      run fuel (atLine (e.tokens.reverse ++ if opened then tokens else .blockMapping :: tokens) true
        (line + 1) after) := by
  have short : e.key.length ≤ 1024 := by
    obtain ⟨c, cs, key, -, -, short, -⟩ := keyParts fine.named
    rw [key]
    exact short
  have shape : e.chars ++ after = e.key ++ ':' :: ' ' :: (e.written ++ '\n' :: after) := by
    simp [Entry.chars]
  rw [shape, keyStep fine.named, colonStep short, fine.scanned opens]
  rfl

theorem entriesOpen (fine : ∀ e ∈ es, e.Fine) : OpensLine (es.flatMap Entry.chars) := by
  cases es with
  | nil => intro c first; cases first
  | cons e es =>
    obtain ⟨c, cs, key, ordinary, -, -, chars⟩ := keyParts (fine e List.mem_cons_self).named
    obtain ⟨level, solid, -⟩ := chars c List.mem_cons_self
    intro d first
    have same : c = d := by simpa [Entry.chars, key] using first
    subst same
    exact ⟨level, solid, commentless ordinary⟩

theorem entriesScanned (fine : ∀ e ∈ es, e.Fine) :
    run (3 * es.length + fuel) (atLine tokens true line (es.flatMap Entry.chars)) =
      run fuel (atLine ((es.flatMap Entry.tokens).reverse ++ tokens) true (line + es.length) []) := by
  induction es generalizing tokens line with
  | nil => rw [List.length_nil, Nat.mul_zero, Nat.zero_add]; rfl
  | cons e es ih =>
    have others := fun f mem => fine f (List.mem_cons_of_mem e mem)
    have room : 3 * (e :: es).length + fuel = 3 * es.length + fuel + 3 := by
      rw [List.length_cons]
      omega
    rw [room, List.flatMap_cons, entryScanned (fine e List.mem_cons_self) (entriesOpen others), ih others,
      if_pos rfl, List.flatMap_cons, List.reverse_append, List.append_assoc, List.length_cons, Nat.add_assoc,
      Nat.add_comm 1]

theorem finished : run (fuel + 1) (atLine tokens true line []) = some (tokens.reverse ++ [.blockEnd]) := by
  have last : run (fuel + 1) (atLine tokens true line []) = some (Token.blockEnd :: tokens).reverse := rfl
  rw [last, List.reverse_cons]

theorem seenAllowed {c : Char} (seen : c = '\n' ∨ Entry.isSeen c = true) :
    isAllowed c = true ∧ c ≠ '\r' ∧ c.toNat ≠ 0x85 := by
  rcases seen with rfl | seen
  · decide
  · simp only [Entry.isSeen, isShown, isLineEnd, Bool.and_eq_true, Bool.or_eq_true, Bool.not_eq_true',
      Bool.or_eq_false_iff, beq_iff_eq, beq_eq_false_iff_ne, decide_eq_true_eq, bne_iff_ne] at seen
    refine ⟨?_, seen.2.1.1.1.2, seen.2.1.1.2⟩
    simp only [isAllowed, Bool.or_eq_true, Bool.and_eq_true, beq_iff_eq, decide_eq_true_eq]
    grind

theorem seenPlaced {cs : List Char} (seen : ∀ c ∈ cs, c = '\n' ∨ Entry.isSeen c = true)
    (mark : cs.head? ≠ some byteOrderMark) : glyphs? cs = some (locate 0 0 cs) := by
  have allowed : cs.all isAllowed = true := List.all_eq_true.mpr fun c mem => (seenAllowed (seen c mem)).1
  have unified : unifyBreaks cs = cs := by
    clear mark allowed
    induction cs with
    | nil => rfl
    | cons c cs ih =>
      obtain ⟨-, feed, next⟩ := seenAllowed (seen c List.mem_cons_self)
      rw [unifyBreaks, if_neg feed, if_neg next, ih fun d mem => seen d (List.mem_cons_of_mem c mem)]
  simp only [glyphs?, if_neg mark, allowed, if_true, unified]

theorem lengthLocate (cs : List Char) : (locate line column cs).length = cs.length := by
  induction cs generalizing line column with
  | nil => rfl
  | cons c cs ih =>
    rw [locate, List.length_cons, List.length_cons]
    split <;> rw [ih]

theorem entriesPlaced (fine : ∀ e ∈ es, e.Fine) :
    glyphs? (es.flatMap Entry.chars) = some (locate 0 0 (es.flatMap Entry.chars)) := by
  refine seenPlaced (fun c mem => ?_) ?_
  · obtain ⟨e, here, inside⟩ := List.mem_flatMap.mp mem
    have seen := List.all_eq_true.mp (fine e here).seen c
    simp only [Entry.chars, List.mem_append, List.mem_cons, List.not_mem_nil, or_false] at inside seen
    rcases inside with key | rfl | rfl | written | rfl
    · exact .inr (seen (.inl key))
    · exact .inr rfl
    · exact .inr rfl
    · exact .inr (seen (.inr written))
    · exact .inl rfl
  · cases es with
    | nil => simp
    | cons e es =>
      have fine := fine e List.mem_cons_self
      obtain ⟨c, cs, key, -⟩ := keyParts fine.named
      have seen := List.all_eq_true.mp fine.seen c (by simp [key])
      rw [List.flatMap_cons, Entry.chars, key, List.cons_append, List.cons_append, List.head?_cons]
      rintro same
      cases Option.some.inj same
      exact Bool.false_ne_true seen

theorem entriesLong (es : List Entry) : 3 * es.length ≤ (es.flatMap Entry.chars).length := by
  induction es with
  | nil => exact Nat.le_refl 0
  | cons e es ih =>
    simp only [List.flatMap_cons, List.length_append, List.length_cons, Entry.chars, List.length_nil]
    omega

theorem entriesTokens (fine : ∀ e ∈ es, e.Fine) (any : es ≠ []) :
    tokens? (es.flatMap Entry.chars) = some (.blockMapping :: (es.flatMap Entry.tokens ++ [.blockEnd])) := by
  rw [tokens?, entriesPlaced fine, Option.bind_some, lengthLocate]
  obtain ⟨e, es, rfl⟩ := List.exists_cons_of_ne_nil any
  have others := fun f mem => fine f (List.mem_cons_of_mem e mem)
  obtain ⟨spare, room⟩ := Nat.exists_eq_add_of_le (entriesLong (e :: es))
  have split : ((e :: es).flatMap Entry.chars).length + 1 = 3 * es.length + (spare + 1) + 3 := by
    rw [room, List.length_cons]
    omega
  rw [split, List.flatMap_cons]
  have start (cs : List Char) : ({ rest := locate 0 0 cs } : Layout) = atLine [] false 0 cs := rfl
  rw [start, entryScanned (fine e List.mem_cons_self) (entriesOpen others), entriesScanned others, finished]
  simp [Entry.tokens]

theorem entryParsed {names : Node.Names} {before : List (Node × Node)} :
    Node.blockEntries (fuel + 4) before names (e.tokens ++ rest) =
      Node.blockEntries (fuel + 3) (e.nodes :: before) names rest := rfl

theorem entriesParsed {names : Node.Names} {before : List (Node × Node)} :
    Node.blockEntries (es.length + fuel + 3) before names (es.flatMap Entry.tokens ++ .blockEnd :: rest) =
      some (.mapping (before.reverse ++ es.map Entry.nodes), names, rest) := by
  induction es generalizing before with
  | nil => simp [Node.blockEntries]
  | cons e es ih =>
    have room : (e :: es).length + fuel + 3 = es.length + fuel + 4 := by
      rw [List.length_cons]
      omega
    rw [room, List.flatMap_cons, List.append_assoc, entryParsed, ih]
    simp

theorem documentParsed (es : List Entry) :
    Node.document? (.blockMapping :: (es.flatMap Entry.tokens ++ [.blockEnd])) =
      some (.mapping (es.map Entry.nodes), []) := by
  have size : (es.flatMap Entry.tokens).length = 4 * es.length := by
    induction es with
    | nil => rfl
    | cons e es ih =>
      rw [List.flatMap_cons, List.length_append, ih, List.length_cons, Nat.mul_succ, Nat.add_comm]
      rfl
  obtain ⟨spare, room⟩ : ∃ spare,
      4 * (Token.blockMapping :: (es.flatMap Entry.tokens ++ [.blockEnd])).length + 4 =
        es.length + spare + 3 + 1 := by
    refine ⟨15 * es.length + 8, ?_⟩
    simp only [List.length_cons, List.length_append, size, List.length_nil]
    omega
  unfold Node.document?
  dsimp only
  rw [room]
  have block (names : Node.Names) (ts : List Token) :
      Node.ofTokens? (es.length + spare + 3 + 1) true false names (.blockMapping :: ts) =
        Node.blockEntries (es.length + spare + 3) [] names ts := rfl
  rw [if_neg (by simp [Node.isDirective, Node.isOneOf]), block, entriesParsed]
  rfl

theorem mappingReadBack (fine : ∀ e ∈ es, e.Fine) (any : es ≠ []) :
    Node.read? (String.ofList (es.flatMap Entry.chars)) = some (some (.mapping (es.map Entry.nodes))) := by
  unfold Node.read?
  rw [String.toList_ofList, entriesTokens fine any]
  simp [documentParsed]

end FirewallAgent.Yaml

import FirewallAgent.Yaml.Property
import FirewallAgent.Yaml.Scalar.Plain
import FirewallAgent.Yaml.Scalar.Quoted
import FirewallAgent.Yaml.Scalar.Block

/-!
From characters to tokens. Indentation opens and closes blocks. A key needs no mark in front: a
node that could be one is remembered for each open bracket, and the colon behind it, which must
follow on the same line within 1024 columns, puts the marks before it.
-/
namespace FirewallAgent.Yaml

structure Candidate where
  required : Bool
  before : Nat
  line : Nat
  column : Nat
  deriving DecidableEq, Repr

structure Layout where
  rest : List Glyph
  tokens : List Token := []
  indent : Int := -1
  around : List Int := []
  keyAllowed : Bool := true
  candidate : Option Candidate := none
  outer : List (Option Candidate) := []

namespace Layout

def inFlow (s : Layout) : Bool := !s.outer.isEmpty

def emit (s : Layout) (t : Token) : Layout := { s with tokens := t :: s.tokens }

def insertAt (s : Layout) (n : Nat) (t : Token) : Layout :=
  let later := s.tokens.length - n
  { s with tokens := s.tokens.take later ++ t :: s.tokens.drop later }

def openBlock (s : Layout) (column : Int) (n : Nat) (t : Token) : Layout :=
  if s.inFlow then s
  else if s.indent < column then
    { s.insertAt n t with around := s.indent :: s.around, indent := column }
  else s

def closing (column : Int) (tokens : List Token) (indent : Int) : List Int → List Token × Int × List Int
  | [] => (tokens, indent, [])
  | i :: is => if column < indent then closing column (.blockEnd :: tokens) i is else (tokens, indent, i :: is)

def closeBlocks (s : Layout) (column : Int) : Layout :=
  if s.inFlow then s
  else
    let (tokens, indent, around) := closing column s.tokens s.indent s.around
    { s with tokens := tokens, indent := indent, around := around }

def dropCandidate? (s : Layout) : Option Layout :=
  if s.candidate.any Candidate.required then none else some { s with candidate := none }

def remember? (s : Layout) (g : Glyph) : Option Layout :=
  if s.keyAllowed then do
    let s ← s.dropCandidate?
    let required := !s.inFlow && decide (s.indent = g.column)
    some { s with candidate := some ⟨required, s.tokens.length, g.line, g.column⟩ }
  else some s

def isStale (g : Glyph) (c : Candidate) : Bool := decide (c.line < g.line ∨ c.column + 1024 < g.column)

def refresh? (g : Glyph) (c : Option Candidate) : Option (Option Candidate) :=
  match c with
  | none => some none
  | some c => if isStale g c then (if c.required then none else some none) else some (some c)

def refreshAll? (s : Layout) (g : Glyph) : Option Layout := do
  let c ← refresh? g s.candidate
  let cs ← s.outer.mapM (refresh? g)
  some { s with candidate := c, outer := cs }

def skip (flow keyAllowed : Bool) (comment : Bool) : List Glyph → Bool × List Glyph
  | [] => (keyAllowed, [])
  | g :: rest =>
    if isBreak g.char then skip flow (keyAllowed || !flow) false rest
    else if comment then skip flow keyAllowed true rest
    else if g.char = ' ' ∨ (g.char = '\t' ∧ (flow ∨ ¬ keyAllowed)) then skip flow keyAllowed false rest
    else if g.char = '#' then skip flow keyAllowed true rest
    else (keyAllowed, g :: rest)

def toToken (s : Layout) : Layout :=
  let (allowed, rest) := skip s.inFlow s.keyAllowed false s.rest
  { s with keyAllowed := allowed, rest := rest }

def openFlow? (s : Layout) (g : Glyph) (rest : List Glyph) (t : Token) : Option Layout := do
  let s ← s.remember? g
  some { s.emit t with
    outer := s.candidate :: s.outer, candidate := none, keyAllowed := true, rest := rest }

def closeFlow? (s : Layout) (rest : List Glyph) (t : Token) : Option Layout := do
  let s ← s.dropCandidate?
  let s := match s.outer with
    | [] => s
    | c :: cs => { s with candidate := c, outer := cs }
  some { s.emit t with keyAllowed := false, rest := rest }

def comma? (s : Layout) (rest : List Glyph) : Option Layout := do
  let s ← s.dropCandidate?
  some { s.emit .comma with keyAllowed := true, rest := rest }

def mark? (s : Layout) (g : Glyph) (rest : List Glyph) (block t : Token) (allowed : Bool) :
    Option Layout :=
  if !s.inFlow && !s.keyAllowed then none
  else do
    let s ← (s.openBlock g.column s.tokens.length block).dropCandidate?
    some { s.emit t with keyAllowed := allowed, rest := rest }

def value? (s : Layout) (g : Glyph) (rest : List Glyph) : Option Layout :=
  match s.candidate with
  | some c =>
    let s := (s.insertAt c.before .key).openBlock c.column c.before .blockMapping
    some { s.emit .value with candidate := none, keyAllowed := false, rest := rest }
  | none =>
    if !s.inFlow && !s.keyAllowed then none
    else
      let s := s.openBlock g.column s.tokens.length .blockMapping
      some { s.emit .value with keyAllowed := !s.inFlow, rest := rest }

def boundary? (s : Layout) (rest : List Glyph) (t : Token) : Option Layout := do
  let s ← (s.closeBlocks (-1)).dropCandidate?
  some { s.emit t with keyAllowed := false, rest := rest }

def directive? (s : Layout) (rest : List Glyph) : Option Layout := do
  let s ← (s.closeBlocks (-1)).dropCandidate?
  let (t, rest) ← Property.directive? rest
  some { s.emit t with keyAllowed := false, rest := rest }

def inline? (s : Layout) (g : Glyph) (read : Option (Token × List Glyph)) : Option Layout := do
  let s ← s.remember? g
  let (t, rest) ← read
  some { s.emit t with keyAllowed := false, rest := rest }

def block? (s : Layout) (rest : List Glyph) (literal : Bool) : Option Layout := do
  let s ← s.dropCandidate?
  let (text, rest) ← Block.read literal s.indent rest
  some { s.emit (.scalar (if literal then .literal else .folded) text) with
    keyAllowed := true, rest := rest }

def plain? (s : Layout) (g : Glyph) (rest : List Glyph) : Option Layout := do
  let s ← s.remember? g
  let r ← Plain.read s.inFlow (s.indent + 1) [] .empty (g :: rest)
  some { s.emit (.scalar .plain r.text) with keyAllowed := r.newLine, rest := r.rest }

def quoted (style : ScalarStyle) (r : Option Quoted.Read) : Option (Token × List Glyph) :=
  r.map fun r => (.scalar style r.text, r.rest)

def next? (s : Layout) (g : Glyph) (rest : List Glyph) : Option Layout :=
  let c := g.char
  let flow := s.inFlow
  if g.column = 0 ∧ c = '%' then s.directive? rest
  else if isBoundary '-' (g :: rest) then s.boundary? (rest.drop 2) .documentStart
  else if isBoundary '.' (g :: rest) then s.boundary? (rest.drop 2) .documentEnd
  else if c = '[' then s.openFlow? g rest .openSequence
  else if c = '\x7b' then s.openFlow? g rest .openMapping
  else if c = ']' then s.closeFlow? rest .closeSequence
  else if c = '\x7d' then s.closeFlow? rest .closeMapping
  else if c = ',' then s.comma? rest
  else if c = '-' ∧ endsWord rest then s.mark? g rest .blockSequence .item true
  else if c = '?' ∧ (flow ∨ endsWord rest) then s.mark? g rest .blockMapping .key (!flow)
  else if c = ':' ∧ (flow ∨ endsWord rest) then s.value? g rest
  else if c = '*' then s.inline? g ((Property.name? rest).map fun (w, r) => (.alias w, r))
  else if c = '&' then s.inline? g ((Property.name? rest).map fun (w, r) => (.anchor w, r))
  else if c = '!' then s.inline? g (Property.tag? flow (g :: rest))
  else if c = '|' ∧ ¬ flow then s.block? rest true
  else if c = '>' ∧ ¬ flow then s.block? rest false
  else if c = '\'' then s.inline? g (quoted .singleQuoted (Quoted.single [] .empty rest))
  else if c = '"' then s.inline? g (quoted .doubleQuoted (Quoted.double [] .empty .text rest))
  else if Plain.isStart flow c rest then s.plain? g rest
  else none

def finish? (s : Layout) : Option (List Token) := do
  let s ← (s.closeBlocks (-1)).dropCandidate?
  some s.tokens.reverse

/- Every token takes at least one character. -/
def run : (fuel : Nat) → Layout → Option (List Token)
  | 0, _ => none
  | fuel + 1, s =>
    let s := s.toToken
    match s.rest with
    | [] => s.finish?
    | g :: rest => do
      let s ← s.refreshAll? g
      let s ← (s.closeBlocks g.column).next? g rest
      run fuel s

end Layout

def tokens? (cs : List Char) : Option (List Token) :=
  (glyphs? cs).bind fun gs => Layout.run (gs.length + 1) { rest := gs }

end FirewallAgent.Yaml

import FirewallAgent.Yaml.Gap
import FirewallAgent.Text.Numeral

/-!
Block scalars: indented lines below `|` or `>`. The header may fix the indentation and says what
becomes of line ends at the end. Under `>` single line feeds between lines that start with text
fold into spaces.
-/
namespace FirewallAgent.Yaml.Block
open FirewallAgent.Text

inductive Chomp where
  | strip | clip | keep
  deriving DecidableEq, Repr

structure Header where
  chomp : Chomp := .clip
  deeper : Option Nat := none
  deriving DecidableEq, Repr

def chomp? (c : Char) : Option Chomp :=
  if c = '+' then some .keep else if c = '-' then some .strip else none

def takeChomp (h : Header) : List Glyph → Header × List Glyph
  | [] => (h, [])
  | g :: rest => match chomp? g.char with
    | some c => (⟨c, h.deeper⟩, rest)
    | none => (h, g :: rest)

def takeDeeper? (h : Header) : List Glyph → Option (Header × List Glyph)
  | [] => some (h, [])
  | g :: rest => match Numeral.digit? 10 g.char with
    | some 0 => none
    | some d => some (⟨h.chomp, some d⟩, rest)
    | none => some (h, g :: rest)

def header? (gs : List Glyph) : Option (Header × List Glyph) :=
  match gs.head?.bind fun g => chomp? g.char with
  | some _ => let (h, rest) := takeChomp {} gs; takeDeeper? h rest
  | none => (takeDeeper? {} gs).map fun (h, rest) =>
    if h.deeper.isSome then takeChomp h rest else (h, rest)

def lineRest? (gs : List Glyph) : Option (List Glyph) :=
  let gs := gs.dropWhile fun g => isSpace g.char
  let gs := if gs.head?.any fun g => g.char == '#' then gs.dropWhile fun g => !isBreak g.char else gs
  match gs with
  | [] => some []
  | g :: rest => if isBreak g.char then some rest else none

def indentation? (most : Nat) : List Glyph → Option Nat
  | [] => some most
  | g :: rest =>
    if g.char = ' ' then indentation? most rest
    else if g.char = '\t' then none
    else if isBreak g.char then indentation? (max most g.column) rest
    else some (max most g.column)

structure Lines where
  text : List Char := []
  lineEnd : List Char := []
  blankLines : List Char := []
  indented : Bool := false
  inside : Bool := false
  deriving DecidableEq, Repr

def Lines.join (literal : Bool) (s : Lines) (c : Char) : Lines :=
  let gap :=
    if !literal && s.lineEnd == ['\n'] && !s.indented && !isSpace c then
      if s.blankLines.isEmpty then [' '] else s.blankLines
    else s.blankLines ++ s.lineEnd
  ⟨c :: (gap ++ s.text), [], [], isSpace c, true⟩

def lines (literal : Bool) (indent : Nat) (s : Lines) : List Glyph → Option (Lines × List Glyph)
  | [] => some (s, [])
  | g :: rest =>
    if s.inside then
      if isBreak g.char then
        lines literal indent ⟨s.text, [g.char], s.blankLines, s.indented, false⟩ rest
      else lines literal indent ⟨g.char :: s.text, s.lineEnd, s.blankLines, s.indented, true⟩ rest
    else if isBreak g.char then
      lines literal indent ⟨s.text, s.lineEnd, g.char :: s.blankLines, s.indented, false⟩ rest
    else if g.column < indent then
      if g.char = ' ' then lines literal indent s rest
      else if g.char = '\t' then none
      else some (s, g :: rest)
    else lines literal indent (s.join literal g.char) rest

def Lines.finish (chomp : Chomp) (s : Lines) : List Char :=
  match chomp with
  | .strip => s.text.reverse
  | .clip => (s.lineEnd ++ s.text).reverse
  | .keep => (s.blankLines ++ s.lineEnd ++ s.text).reverse

/- `around` is the indentation of the block around, -1 outside all blocks. The sign in front has
been read. -/
def read (literal : Bool) (around : Int) (gs : List Glyph) : Option (List Char × List Glyph) := do
  let (h, gs) ← header? gs
  let gs ← lineRest? gs
  let indent ← match h.deeper with
    | some d => some (around.toNat + d)
    | none => (indentation? 0 gs).map fun most => max 1 (max most (around + 1).toNat)
  let (s, rest) ← lines literal indent {} gs
  some (s.finish h.chomp, rest)

end FirewallAgent.Yaml.Block

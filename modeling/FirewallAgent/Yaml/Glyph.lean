/-!
Characters with their places. Layout in YAML is told by columns, so a text is first turned into
its characters, each with its line and column. All line ends become line feeds, except the two
Unicode separators, which stay themselves. A byte order mark may open the text; control characters
may not occur.
-/
namespace FirewallAgent.Yaml

structure Glyph where
  char : Char
  line : Nat
  column : Nat
  deriving DecidableEq, Repr

def isBreak (c : Char) : Bool := c == '\n' || c.toNat == 0x2028 || c.toNat == 0x2029

def isSpace (c : Char) : Bool := c == ' ' || c == '\t'

def isWhite (c : Char) : Bool := isSpace c || isBreak c

def isWord (c : Char) : Bool := c.isAlphanum || c == '_' || c == '-'

def isAllowed (c : Char) : Bool :=
  let n := c.toNat
  n == 0x09 || n == 0x0A || n == 0x0D || (0x20 ≤ n && n ≤ 0x7E) || n == 0x85 ||
    (0xA0 ≤ n && n ≤ 0xFFFD) || 0x10000 ≤ n

def unifyBreaks : List Char → List Char
  | [] => []
  | c :: rest =>
    if c = '\r' then
      if rest.head? = some '\n' then unifyBreaks rest else '\n' :: unifyBreaks rest
    else if c.toNat = 0x85 then '\n' :: unifyBreaks rest
    else c :: unifyBreaks rest

def locate (line column : Nat) : List Char → List Glyph
  | [] => []
  | c :: rest =>
    ⟨c, line, column⟩ :: if isBreak c then locate (line + 1) 0 rest else locate line (column + 1) rest

def byteOrderMark : Char := '\ufeff'

/- A second byte order mark is read over too, but takes up a column. -/
def glyphs? (cs : List Char) : Option (List Glyph) :=
  let cs := if cs.head? = some byteOrderMark then cs.tail else cs
  if cs.all isAllowed then
    let cs := unifyBreaks cs
    if cs.head? = some byteOrderMark then some (locate 0 1 cs.tail) else some (locate 0 0 cs)
  else none

def endsWord : List Glyph → Bool
  | [] => true
  | g :: _ => isWhite g.char

def isBoundary (mark : Char) : List Glyph → Bool
  | a :: b :: c :: rest =>
    a.column == 0 && a.char == mark && b.char == mark && c.char == mark && endsWord rest
  | _ => false

def atBoundary (gs : List Glyph) : Bool := isBoundary '-' gs || isBoundary '.' gs

end FirewallAgent.Yaml

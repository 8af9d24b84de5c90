import FirewallAgent.Yaml.Token
import FirewallAgent.Yaml.Glyph
import FirewallAgent.Text.Numeral
import FirewallAgent.Text.Utf8

/-!
What may stand before a node or a document: names of anchors, tags, and the directives that give a
version or abbreviate tags.
-/
namespace FirewallAgent.Yaml.Property
open FirewallAgent.Text

def takeWord : List Glyph → List Char × List Glyph
  | [] => ([], [])
  | g :: rest => if isWord g.char then let (w, r) := takeWord rest; (g.char :: w, r) else ([], g :: rest)

def skipSpaces (gs : List Glyph) : List Glyph := gs.dropWhile fun g => isSpace g.char

def name? (gs : List Glyph) : Option (List Char × List Glyph) :=
  let (w, rest) := takeWord gs
  let ends := endsWord rest ||
    rest.head?.any fun g => ['?', ':', ',', ']', '\x7d', '%', '@', '\x60'].contains g.char
  if w.isEmpty || !ends then none else some (w, rest)

def octetCount? (b : UInt8) : Option Nat :=
  if b < 0x80 then some 1
  else if b < 0xC0 then none
  else if b < 0xE0 then some 2
  else if b < 0xF0 then some 3
  else if b < 0xF8 then some 4
  else none

def decodeOctets (bs : Bytes) : List Char :=
  match Text.ofBytes? bs with
  | some s => s.toList
  | none => ['\ufffd']

def octet? (a b : Char) : Option UInt8 := do
  let x ← Numeral.digit? 16 a
  let y ← Numeral.digit? 16 b
  some (UInt8.ofNat (x * 16 + y))

def isUriChar (whole : Bool) (c : Char) : Bool :=
  isWord c || [';', '/', '?', ':', '@', '&', '=', '+', '$', '.', '%', '!', '~', '*', '\'', '(', ')'].contains c ||
    (whole && [',', '[', ']'].contains c)

/- A part of a URI. Characters of a `whole` one include commas and square brackets. `missing` is
the number of octets that the character in `octets` still lacks; all lists are newest first. -/
def uri (whole : Bool) (text : List Char) (missing : Nat) (octets : Bytes) :
    List Glyph → Option (List Char × List Glyph)
  | [] => if missing = 0 then some (text.reverse, []) else none
  | g :: rest =>
    if g.char = '%' then
      match rest with
      | a :: b :: rest =>
        match octet? a.char b.char with
        | none => none
        | some x =>
          let count? :=
            if missing = 0 then (octetCount? x).map (· - 1)
            else if x &&& 0xC0 = 0x80 then some (missing - 1) else none
          match count? with
          | none => none
          | some 0 => uri whole ((decodeOctets (x :: octets).reverse).reverse ++ text) 0 [] rest
          | some n => uri whole text n (x :: octets) rest
      | _ => none
    else if missing ≠ 0 then none
    else if isUriChar whole g.char then uri whole (g.char :: text) 0 [] rest
    else some (text.reverse, g :: rest)

def tagHandle? : List Glyph → Option (List Char × List Glyph)
  | [] => none
  | g :: rest =>
    if g.char = '!' then
      let (w, rest) := takeWord rest
      match rest with
      | h :: rest' => if h.char = '!' then some ('!' :: w ++ ['!'], rest') else some ('!' :: w, rest)
      | [] => some ('!' :: w, [])
    else none

def isClosedHandle (h : List Char) : Bool := decide (2 ≤ h.length) && h.getLast? == some '!'

def tagParts? (gs : List Glyph) : Option ((List Char × List Char) × List Glyph) :=
  match gs with
  | a :: b :: rest =>
    if b.char = '<' then do
      let (text, rest) ← uri true [] 0 [] rest
      match text, rest with
      | _ :: _, g :: rest => if g.char = '>' then some (([], text), rest) else none
      | _, _ => none
    else parts (a :: b :: rest)
  | gs => parts gs
where
  parts (gs : List Glyph) : Option ((List Char × List Char) × List Glyph) := do
    let (h, rest) ← tagHandle? gs
    if isClosedHandle h then
      let (text, rest) ← uri false [] 0 [] rest
      if text.isEmpty then none else some ((h, text), rest)
    else
      let (text, rest) ← uri false h.tail.reverse 0 [] rest
      if text.isEmpty then some (([], ['!']), rest) else some ((['!'], text), rest)

def tag? (flow : Bool) (gs : List Glyph) : Option (Token × List Glyph) := do
  let ((h, s), rest) ← tagParts? gs
  if endsWord rest || (flow && rest.head?.any fun g => g.char == ',') then some (.tag h s, rest)
  else none

def number? (gs : List Glyph) : Option (Nat × List Glyph) :=
  let ds := (gs.takeWhile fun g => g.char.isDigit).filterMap fun g => Numeral.digit? 10 g.char
  if ds.isEmpty || decide (9 < ds.length) then none
  else some (Numeral.value 10 ds, gs.dropWhile fun g => g.char.isDigit)

def version? (gs : List Glyph) : Option (Token × List Glyph) := do
  let (major, rest) ← number? (skipSpaces gs)
  match rest with
  | g :: rest =>
    if g.char = '.' then
      let (minor, rest) ← number? rest
      some (.version major minor, rest)
    else none
  | [] => none

def abbreviation? (gs : List Glyph) : Option (Token × List Glyph) := do
  let (h, rest) ← tagHandle? (skipSpaces gs)
  if !(isClosedHandle h || h == ['!']) then none
  else if !rest.head?.any fun g => isSpace g.char then none
  else
    let (text, rest) ← uri true [] 0 [] (skipSpaces rest)
    if text.isEmpty || !endsWord rest then none else some (.handle h text, rest)

def directive? (gs : List Glyph) : Option (Token × List Glyph) := do
  let (w, rest) := takeWord gs
  if !endsWord rest then none
  else
    let (t, rest) ←
      if w = ['Y', 'A', 'M', 'L'] then version? rest
      else if w = ['T', 'A', 'G'] then abbreviation? rest
      else none
    let rest := skipSpaces rest
    let rest :=
      if rest.head?.any fun g => g.char == '#' then rest.dropWhile fun g => !isBreak g.char else rest
    match rest with
    | [] => some (t, [])
    | g :: rest => if isBreak g.char then some (t, rest) else none

end FirewallAgent.Yaml.Property

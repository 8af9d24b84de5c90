import FirewallAgent.Yaml.Token
import FirewallAgent.Yaml.Resolution

/-!
Writing a text as the value of a key. A text goes without quotes where that reads back, else in
single quotes; lines go below a bar, and what cannot be shown goes into escapes between double
quotes.
-/
namespace FirewallAgent.Yaml.Writer
open FirewallAgent.Text

def isLineEnd (c : Char) : Bool :=
  c == '\n' || c == '\r' || c.toNat == 0x85 || c.toNat == 0x2028 || c.toNat == 0x2029

def isShown (c : Char) : Bool :=
  let n := c.toNat
  n == 0x0A || (0x20 ≤ n && n ≤ 0x7E) || n == 0x85 || (0xA0 ≤ n && n ≤ 0xFFFD && n != 0xFEFF)

def isGap (c : Char) : Bool := c == ' ' || c == '\t' || isLineEnd c

def hasPair (p : Char → Char → Bool) : List Char → Bool
  | a :: b :: rest => p a b || hasPair p (b :: rest)
  | _ => false

def isIndicator (c : Char) : Bool :=
  ['#', ',', '[', ']', '\x7b', '\x7d', '&', '*', '!', '|', '>', '\'', '"', '%', '@', '\x60'].contains c

def startsSpecially : List Char → Bool
  | [] => false
  | c :: rest =>
    isIndicator c ||
      ((c == '?' || c == ':' || c == '-') && (match rest with | [] => true | d :: _ => isGap d)) ||
      ['-', '-', '-'].isPrefixOf (c :: rest) || ['.', '.', '.'].isPrefixOf (c :: rest)

def readsOn (cs : List Char) : Bool :=
  cs.getLast? == some ':' ||
    hasPair (fun a b => (a == ':' && isGap b) || (isGap a && b == '#')) cs

def isUnshown (cs : List Char) : Bool :=
  cs.any (fun c => !isShown c) || hasPair (fun a b => a == ' ' && isLineEnd b) cs

def endsInSpace (cs : List Char) : Bool := cs.getLast? == some ' '

def allowsPlain (cs : List Char) : Bool :=
  !(cs.head? == some ' ' || endsInSpace cs || cs.any isLineEnd || isUnshown cs ||
    startsSpecially cs || readsOn cs)

def allowsSingle (cs : List Char) : Bool :=
  !(isUnshown cs || hasPair (fun a b => isLineEnd a && b == ' ') cs)

def allowsLines (cs : List Char) : Bool := !(isUnshown cs || endsInSpace cs)

def style (cs : List Char) : ScalarStyle :=
  if cs.contains '\n' then (if allowsLines cs then .literal else .doubleQuoted)
  else if allowsPlain cs && !Resolution.isAmbiguous cs then .plain
  else if allowsSingle cs then .singleQuoted
  else .doubleQuoted

def hexDigits (width n : Nat) : List Char :=
  let ds := (Numeral.write 16 n).map Char.toUpper
  List.replicate (width - ds.length) '0' ++ ds

def shortEscape? (c : Char) : Option Char :=
  match c with
  | '\x00' => some '0'
  | '\x07' => some 'a'
  | '\x08' => some 'b'
  | '\t' => some 't'
  | '\n' => some 'n'
  | '\x0b' => some 'v'
  | '\x0c' => some 'f'
  | '\r' => some 'r'
  | '\x1b' => some 'e'
  | '"' => some '"'
  | '\\' => some '\\'
  | '\x85' => some 'N'
  | '\xa0' => some '_'
  | '\u2028' => some 'L'
  | '\u2029' => some 'P'
  | _ => none

def escape (c : Char) : List Char :=
  if isShown c && !isLineEnd c && c != '"' && c != '\\' then [c]
  else match shortEscape? c with
    | some e => ['\\', e]
    | none =>
      if c.toNat ≤ 0xFF then '\\' :: 'x' :: hexDigits 2 c.toNat
      else if c.toNat ≤ 0xFFFF then '\\' :: 'u' :: hexDigits 4 c.toNat
      else '\\' :: 'U' :: hexDigits 8 c.toNat

def indentation : List Char := [' ', ' ']

def indented (fresh : Bool) : List Char → List Char
  | [] => []
  | c :: rest =>
    if isLineEnd c then c :: indented true rest
    else if fresh then indentation ++ c :: indented false rest
    else c :: indented false rest

def endsInLineEnd (cs : List Char) : Bool := cs.getLast?.any isLineEnd

def lineHints (cs : List Char) : List Char :=
  (if cs.head?.any fun c => c == ' ' || isLineEnd c then ['2'] else []) ++
    (if !endsInLineEnd cs then ['-']
     else if endsInLineEnd cs.dropLast || cs.length == 1 then ['+'] else [])

def write (cs : List Char) : List Char :=
  match style cs with
  | .plain | .folded => cs ++ ['\n']
  | .singleQuoted =>
    '\'' :: indented false (cs.flatMap fun c => if c = '\'' then ['\'', '\''] else [c]) ++
      (if endsInLineEnd cs then indentation else []) ++ ['\'', '\n']
  | .doubleQuoted => '"' :: cs.flatMap escape ++ ['"', '\n']
  | .literal =>
    '|' :: lineHints cs ++ '\n' :: indented true cs ++ (if endsInLineEnd cs then [] else ['\n'])

def entry (key : String) (value : List Char) : List Char := key.toList ++ ':' :: ' ' :: write value

end FirewallAgent.Yaml.Writer

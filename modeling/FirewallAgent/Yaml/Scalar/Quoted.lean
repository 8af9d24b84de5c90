import FirewallAgent.Yaml.Gap
import FirewallAgent.Text.Numeral

/-!
Scalars in quotes. In single quotes a quote is written twice and nothing else is special; in double
quotes a backslash opens an escape. White space around line ends folds in both.
-/
namespace FirewallAgent.Yaml.Quoted
open FirewallAgent.Text

structure Read where
  text : List Char
  rest : List Glyph

def single (text : List Char) (gap : Gap) : List Glyph → Option Read
  | [] => none
  | g :: rest =>
    if isSpace g.char then single text (gap.blank g.char) rest
    else if isBreak g.char then single text (gap.lineEnd g.char) rest
    else if atBoundary (g :: rest) then none
    else if g.char = '\'' then
      match rest with
      | [] => some ⟨(gap.text ++ text).reverse, []⟩
      | h :: rest =>
        if h.char = '\'' then single ('\'' :: (gap.text ++ text)) .empty rest
        else some ⟨(gap.text ++ text).reverse, h :: rest⟩
    else single (g.char :: (gap.text ++ text)) .empty rest

def escape? (c : Char) : Option Char :=
  match c with
  | '0' => some '\x00'
  | 'a' => some '\x07'
  | 'b' => some '\x08'
  | 't' | '\t' => some '\t'
  | 'n' => some '\n'
  | 'v' => some '\x0b'
  | 'f' => some '\x0c'
  | 'r' => some '\r'
  | 'e' => some '\x1b'
  | ' ' => some ' '
  | '"' => some '"'
  | '/' => some '/'
  | '\\' => some '\\'
  | 'N' => some '\x85'
  | '_' => some '\xa0'
  | 'L' => some '\u2028'
  | 'P' => some '\u2029'
  | _ => none

def hexLength? (c : Char) : Option Nat :=
  match c with
  | 'x' => some 2
  | 'u' => some 4
  | 'U' => some 8
  | _ => none

def charOf? (n : Nat) : Option Char := if n.isValidChar then some (Char.ofNat n) else none

inductive Mode where
  | text
  | escape
  | hex (left value : Nat)
  deriving DecidableEq, Repr

def double (text : List Char) (gap : Gap) : Mode → List Glyph → Option Read
  | _, [] => none
  | .text, g :: rest =>
    if isSpace g.char then double text (gap.blank g.char) .text rest
    else if isBreak g.char then double text (gap.lineEnd g.char) .text rest
    else if atBoundary (g :: rest) then none
    else if g.char = '"' then some ⟨(gap.text ++ text).reverse, rest⟩
    else if g.char = '\\' then double (gap.text ++ text) .empty .escape rest
    else double (g.char :: (gap.text ++ text)) .empty .text rest
  | .escape, g :: rest =>
    if isBreak g.char then double text .escaped .text rest
    else match escape? g.char with
      | some c => double (c :: text) .empty .text rest
      | none => match hexLength? g.char with
        | some n => double text .empty (.hex n 0) rest
        | none => none
  | .hex 0 _, _ :: _ => none
  | .hex (left + 1) value, g :: rest =>
    match Numeral.digit? 16 g.char with
    | none => none
    | some d =>
      if left = 0 then
        match charOf? (value * 16 + d) with
        | none => none
        | some c => double (c :: text) .empty .text rest
      else double text .empty (.hex left (value * 16 + d)) rest

end FirewallAgent.Yaml.Quoted

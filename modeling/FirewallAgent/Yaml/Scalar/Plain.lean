import FirewallAgent.Yaml.Gap

/-!
Scalars without quotes. One ends before a colon or comment sign that white space sets off, before a
line that is indented too little, and inside brackets before any punctuation of brackets.
-/
namespace FirewallAgent.Yaml.Plain

structure Read where
  text : List Char
  newLine : Bool
  rest : List Glyph

def isPunctuation (c : Char) : Bool :=
  c == ',' || c == '[' || c == ']' || c == '\x7b' || c == '\x7d'

def stopsAt (flow : Bool) (c : Char) (rest : List Glyph) : Bool :=
  (c == ':' && endsWord rest) || (flow && isPunctuation c)

def isRefused (flow : Bool) (c : Char) (rest : List Glyph) : Bool :=
  flow && c == ':' && rest.head?.any fun g => isPunctuation g.char || g.char == '?'

/- `least` is the column that later lines must reach. The text so far is newest first. -/
def read (flow : Bool) (least : Int) (text : List Char) (gap : Gap) : List Glyph → Option Read
  | [] => some ⟨text.reverse, gap.hasBreak, []⟩
  | g :: rest =>
    if isSpace g.char then
      if gap.hasBreak ∧ g.column < least ∧ g.char = '\t' then none
      else read flow least text (gap.blank g.char) rest
    else if isBreak g.char then read flow least text (gap.lineEnd g.char) rest
    else if !gap.isEmpty &&
        ((!flow && decide (g.column < least)) || atBoundary (g :: rest) || g.char == '#') then
      some ⟨text.reverse, gap.hasBreak, g :: rest⟩
    else if isRefused flow g.char rest then none
    else if stopsAt flow g.char rest then some ⟨text.reverse, gap.hasBreak, g :: rest⟩
    else read flow least (g.char :: (gap.text ++ text)) .empty rest

def isStart (flow : Bool) (c : Char) (rest : List Glyph) : Bool :=
  !isWhite c &&
    (!(['-', '?', ':', ',', '[', ']', '\x7b', '\x7d', '#', '&', '*', '!', '|', '>', '\'', '"', '%',
        '@', '\x60'].contains c) ||
      (c == '-' && !rest.head?.any fun g => isSpace g.char) ||
      (!flow && (c == '?' || c == ':') && !endsWord rest))

end FirewallAgent.Yaml.Plain

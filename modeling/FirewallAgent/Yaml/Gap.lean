import FirewallAgent.Yaml.Glyph

/-!
White space inside a scalar that may run over several lines. Blanks within a line stay. One line
feed, with the blanks around it, becomes a space; of several the first is dropped. A separator is
never folded, and a line end behind a backslash leaves nothing.
-/
namespace FirewallAgent.Yaml

/- All lists here are newest first. -/
inductive Gap where
  | inLine (blanks : List Char)
  | acrossLines (first : List Char) (more : List Char)
  deriving DecidableEq, Repr

namespace Gap

def empty : Gap := .inLine []

def isEmpty : Gap → Bool
  | .inLine b => b.isEmpty
  | .acrossLines .. => false

def hasBreak : Gap → Bool
  | .inLine _ => false
  | .acrossLines .. => true

def blank (c : Char) : Gap → Gap
  | .inLine b => .inLine (c :: b)
  | g => g

def lineEnd (c : Char) : Gap → Gap
  | .inLine _ => .acrossLines [c] []
  | .acrossLines f m => .acrossLines f (c :: m)

def escaped : Gap := .acrossLines [] []

def text : Gap → List Char
  | .inLine b => b
  | .acrossLines ['\n'] [] => [' ']
  | .acrossLines ['\n'] m => m
  | .acrossLines f m => m ++ f

@[simp] theorem textEmpty : text empty = [] := rfl

end Gap
end FirewallAgent.Yaml

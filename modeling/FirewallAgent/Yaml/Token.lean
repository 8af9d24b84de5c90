/-!
The tokens of a YAML text. Block structure, which the text shows by indentation, has start and end
tokens of its own.
-/
namespace FirewallAgent.Yaml

inductive ScalarStyle where
  | plain | singleQuoted | doubleQuoted | literal | folded
  deriving DecidableEq, Repr

inductive Token where
  | version (major minor : Nat)
  | handle (name expansion : List Char)
  | documentStart | documentEnd
  | blockSequence | blockMapping | blockEnd
  | openSequence | closeSequence | openMapping | closeMapping
  | item | comma | key | value
  | alias (name : List Char)
  | anchor (name : List Char)
  | tag (handle suffix : List Char)
  | scalar (style : ScalarStyle) (text : List Char)
  deriving DecidableEq, Repr

end FirewallAgent.Yaml

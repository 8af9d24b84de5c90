import FirewallAgent.Span
import FirewallAgent.Span.Unit
import FirewallAgent.Text.Blank

/-!
Lengths of time as people write them: numbers, each followed by a unit, such as `1h 30m`. Blanks
may stand around and inside numbers. A number may have a fraction if the part is still a whole
number of nanoseconds.
-/
namespace FirewallAgent.Span
open FirewallAgent.Text

structure Part where
  whole : Nat
  fraction : Option (Nat × Nat) := none
  unit : TimeUnit
  deriving DecidableEq, Repr

def isUnitChar (c : Char) : Bool :=
  ('a' ≤ c && c ≤ 'z') || ('A' ≤ c && c ≤ 'Z') || c == 'µ'

def word : Nat := 18446744073709551616

def push? (n d : Nat) : Option Nat := if n * 10 + d < word then some (n * 10 + d) else none

inductive Reading where
  | between
  | whole (n : Nat)
  | fraction (n num den : Nat)
  | unit (n : Nat) (f : Option (Nat × Nat)) (name : List Char)
  deriving DecidableEq

def finish? (n : Nat) (f : Option (Nat × Nat)) (name : List Char) : Option Part :=
  (TimeUnit.ofName? (String.ofList name.reverse)).map fun u => ⟨n, f, u⟩

def parts : Reading → List Char → Option (List Part)
  | .between, [] => some []
  | .between, c :: rest =>
    match Numeral.digit? 10 c with
    | some d => parts (.whole d) rest
    | none => if isBlank c then parts .between rest else none
  | .whole _, [] => none
  | .whole n, c :: rest =>
    match Numeral.digit? 10 c with
    | some d => match push? n d with
      | some n => parts (.whole n) rest
      | none => none
    | none =>
      if isBlank c then parts (.whole n) rest
      else if isUnitChar c then parts (.unit n none [c]) rest
      else if c = '.' then parts (.fraction n 0 1) rest
      else none
  | .fraction .., [] => none
  | .fraction n num den, c :: rest =>
    match Numeral.digit? 10 c with
    | some d => match push? num d, push? den 0 with
      | some num, some den => parts (.fraction n num den) rest
      | _, _ => none
    | none =>
      if isBlank c then parts (.fraction n num den) rest
      else if isUnitChar c ∧ den ≠ 1 then parts (.unit n (some (num, den)) [c]) rest
      else none
  | .unit n f name, [] => (finish? n f name).map fun p => [p]
  | .unit n f name, c :: rest =>
    match Numeral.digit? 10 c with
    | some d => match finish? n f name, parts (.whole d) rest with
      | some p, some ps => some (p :: ps)
      | _, _ => none
    | none =>
      if isBlank c then
        match finish? n f name, parts .between rest with
        | some p, some ps => some (p :: ps)
        | _, _ => none
      else if isUnitChar c then parts (.unit n f (c :: name)) rest
      else none

def Part.amount? (p : Part) : Option (Nat × Nat) :=
  let whole? := match p.unit.seconds? with
    | some s => if p.whole * s < word then some (p.whole * s, 0) else none
    | none => if p.whole * p.unit.nanos < word then some (0, p.whole * p.unit.nanos) else none
  match whole?, p.fraction with
  | none, _ => none
  | some a, none => some a
  | some (s, n), some (num, den) =>
    if num * p.unit.nanos % den ≠ 0 then none
    else
      let extra := num * p.unit.nanos / den
      some (s + extra / 1000000000, n + extra % 1000000000)

def add? (s : Span) (a : Nat × Nat) : Option Span :=
  let nanos := s.nanos.val + a.2
  let seconds := s.seconds.toNat + a.1 + nanos / 1000000000
  if nanos < word ∧ seconds < word then
    some ⟨UInt64.ofNat seconds, nanos % 1000000000, Nat.mod_lt _ (by decide)⟩
  else none

def addAll? (s : Span) : List Part → Option Span
  | [] => some s
  | p :: ps => match p.amount?.bind (add? s) with
    | some s => addAll? s ps
    | none => none

def total? (ps : List Part) : Option Span := addAll? (ofSeconds 0) ps

def ofChars? (cs : List Char) : Option Span :=
  if cs = ['0'] then some (ofSeconds 0)
  else match parts .between cs with
    | none | some [] => none
    | some ps => total? ps

def ofText? (s : String) : Option Span := ofChars? s.toList

def counted (n : Nat) (name : String) : List (List Char) :=
  if n = 0 then [] else [Numeral.write 10 n ++ name.toList]

def plural (n : Nat) (name : String) : List (List Char) :=
  counted n (if n > 1 then name ++ "s" else name)

def items (s : Span) : List (List Char) :=
  let secs := s.seconds.toNat
  let inYear := secs % 31557600
  let inMonth := inYear % 2630016
  let inDay := inMonth % 86400
  let n := s.nanos.val
  plural (secs / 31557600) "year" ++ plural (inYear / 2630016) "month" ++
    plural (inMonth / 86400) "day" ++ counted (inDay / 3600) "h" ++
    counted (inDay % 3600 / 60) "m" ++ counted (inDay % 60) "s" ++
    counted (n / 1000000) "ms" ++ counted (n / 1000 % 1000) "us" ++ counted (n % 1000) "ns"

def toChars (s : Span) : List Char :=
  if s.isZero then ['0', 's'] else [' '].intercalate s.items

def text (s : Span) : String := String.ofList s.toChars

end FirewallAgent.Span

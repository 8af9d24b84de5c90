import FirewallAgent.Dictionary
import FirewallAgent.Error

/-!
The text form of stored records, one `key=value` line each. Line feeds, carriage returns, tabs,
backslashes and equals signs inside a key or value are written behind a backslash. Reading also
takes blank lines, comment lines and unknown escapes, so it accepts more than writing produces.
-/
namespace FirewallAgent.Store

def escapeChar (c : Char) : List Char :=
  if c = '\n' then ['\\', 'n']
  else if c = '\r' then ['\\', 'r']
  else if c = '\t' then ['\\', 't']
  else if c = '\\' then ['\\', '\\']
  else if c = '=' then ['\\', '=']
  else [c]

def escape (cs : List Char) : List Char := cs.flatMap escapeChar

def unescapePair (c : Char) : List Char :=
  if c = 'n' then ['\n']
  else if c = 'r' then ['\r']
  else if c = 't' then ['\t']
  else if c = '\\' then ['\\']
  else if c = '=' then ['=']
  else ['\\', c]

def unescape : List Char → List Char
  | [] => []
  | [c] => [c]
  | c :: d :: rest => if c = '\\' then unescapePair d ++ unescape rest else c :: unescape (d :: rest)

def cut : List Char → Option (List Char × List Char)
  | [] => none
  | c :: rest =>
    if c = '=' then some ([], rest)
    else if c = '\\' then
      match rest with
      | [] => none
      | d :: rest => (cut rest).map fun p => (c :: d :: p.1, p.2)
    else (cut rest).map fun p => (c :: p.1, p.2)

def lines : List Char → List (List Char)
  | [] => []
  | c :: rest =>
    if c = '\n' then [] :: lines rest
    else if c = '\r' ∧ rest.head? = some '\n' then lines rest
    else match lines rest with
      | [] => [[c]]
      | l :: ls => (c :: l) :: ls

def isSkipped (line : List Char) : Bool := line.isEmpty || line.head? == some '#'

def readLines (d : Dictionary) (n : Nat) : List (List Char) → Except StorageError Dictionary
  | [] => .ok d
  | line :: rest =>
    if isSkipped line then readLines d (n + 1) rest
    else match cut line with
      | none => .error (.malformedRecord n)
      | some (k, v) =>
        readLines (d.insert (String.ofList (unescape k)) (String.ofList (unescape v))) (n + 1) rest

def parse (text : String) : Except StorageError Dictionary :=
  readLines .empty 1 (lines text.toList)

def recordLine (e : String × String) : List Char :=
  escape e.1.toList ++ '=' :: escape e.2.toList ++ ['\n']

def serialize (d : Dictionary) : String := String.ofList (d.entries.flatMap recordLine)

theorem unescapeCons {c : Char} (h : c ≠ '\\') (rest : List Char) :
    unescape (c :: rest) = c :: unescape rest := by
  cases rest with
  | nil => rfl
  | cons d rest => rw [unescape, if_neg h]

theorem unescapeEscapeChar (c : Char) (rest : List Char) :
    unescape (escapeChar c ++ rest) = c :: unescape rest := by
  by_cases h1 : c = '\n'
  · subst h1; simp [escapeChar, unescape, unescapePair]
  by_cases h2 : c = '\r'
  · subst h2; simp [escapeChar, unescape, unescapePair]
  by_cases h3 : c = '\t'
  · subst h3; simp [escapeChar, unescape, unescapePair]
  by_cases h4 : c = '\\'
  · subst h4; simp [escapeChar, unescape, unescapePair]
  by_cases h5 : c = '='
  · subst h5; simp [escapeChar, unescape, unescapePair]
  simpa [escapeChar, h1, h2, h3, h4, h5] using unescapeCons h4 rest

@[simp] theorem unescapeEscape (cs : List Char) : unescape (escape cs) = cs := by
  induction cs with
  | nil => rfl
  | cons c rest ih =>
    rw [show escape (c :: rest) = escapeChar c ++ escape rest from rfl, unescapeEscapeChar, ih]

end FirewallAgent.Store

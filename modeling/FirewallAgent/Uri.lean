import FirewallAgent.Text.Numeral
import FirewallAgent.Text.Case
import FirewallAgent.Text.Utf8

/-!
Absolute URIs, as far as an agent needs them to reach a service: a scheme, an authority, a path and
a query. A fragment is dropped. A text that starts with a slash is a path alone, and one without a
scheme is an authority alone.
-/
namespace FirewallAgent

structure Uri where
  scheme : Option String
  authority : Option String
  path : String
  query : Option String
  deriving DecidableEq, Repr

namespace Uri
open Text

def longest : Nat := 65534

def longestScheme : Nat := 64

def isSchemeChar (c : Char) : Bool := c.isAlphanum || ['+', '-', '.', '~'].contains c

def isAuthorityChar (c : Char) : Bool :=
  c.isAlphanum || ['!', '$', '&', '\'', '(', ')', '*', '+', ',', '-', '.', ':', ';', '=', '@', '[',
    ']', '_', '~', '%'].contains c

def isPathChar (c : Char) : Bool :=
  let n := c.toNat
  (0x21 ≤ n && n ≤ 0x3B && n != 0x23) || n == 0x3D || (0x40 ≤ n && n != 0x60)

def isQueryChar (c : Char) : Bool :=
  let n := c.toNat
  n == 0x21 || (0x24 ≤ n && n ≤ 0x3B) || n == 0x3D || 0x3F ≤ n

def takeScheme : List Char → Option (List Char × List Char)
  | ':' :: '/' :: '/' :: rest => some ([], rest)
  | c :: rest => if isSchemeChar c then (takeScheme rest).map fun p => (c :: p.1, p.2) else none
  | [] => none

def normalScheme (s : List Char) : List Char :=
  let lower := s.map Char.toLower
  if lower = ['h', 't', 't', 'p'] ∨ lower = ['h', 't', 't', 'p', 's'] then lower else s

def scheme? (cs : List Char) : Option (Option (List Char) × List Char) :=
  match takeScheme cs with
  | none => some (none, cs)
  | some (s, rest) =>
    if cs.length ≤ 3 then some (none, cs)
    else if s.length > longestScheme then none
    else some (some (normalScheme s), rest)

def endsAuthority (c : Char) : Bool := c == '/' || c == '?' || c == '#'

/- What has been seen of an authority. An at sign or a closing bracket makes up for earlier colons
and percent signs. -/
structure Seen where
  colons : Nat := 0
  opened : Bool := false
  closed : Bool := false
  percent : Bool := false
  atEnd : Bool := false
  deriving DecidableEq, Repr

def Seen.next? (s : Seen) (c : Char) : Option Seen :=
  let s := { s with atEnd := c == '@' }
  if !isAuthorityChar c then none
  else if c = ':' then (if s.colons < 8 then some { s with colons := s.colons + 1 } else none)
  else if c = '[' then (if s.percent || s.opened then none else some { s with opened := true })
  else if c = ']' then
    if !s.opened || s.closed then none
    else some { s with closed := true, colons := 0, percent := false }
  else if c = '@' then some { s with colons := 0, percent := false }
  else if c = '%' then some { s with percent := true }
  else some s

def Seen.isComplete (s : Seen) : Bool :=
  s.opened == s.closed && decide (s.colons ≤ 1) && !s.atEnd && !s.percent

def isAuthority (cs : List Char) : Bool :=
  match cs.foldlM Seen.next? {} with
  | some s => s.isComplete
  | none => false

def tail? (cs : List Char) : Option (List Char × Option (List Char)) :=
  let (path, rest) := cs.span fun c => c != '?' && c != '#'
  if !path.all isPathChar then none
  else match rest with
    | '?' :: rest =>
      let query := rest.takeWhile (· != '#')
      if query.all isQueryChar then some (path, some query) else none
    | _ => some (path, none)

def ofChars? (cs : List Char) : Option Uri :=
  match cs with
  | [] => none
  | '/' :: _ => (tail? cs).map fun (p, q) => ⟨none, none, String.ofList p, q.map String.ofList⟩
  | ['*'] => some ⟨none, none, "*", none⟩
  | cs => do
    let (scheme, rest) ← scheme? cs
    let (authority, rest) := rest.span fun c => !endsAuthority c
    if !isAuthority authority then none
    else match scheme with
      | none =>
        if rest.isEmpty then some ⟨none, some (String.ofList authority), "", none⟩ else none
      | some s =>
        if authority.isEmpty then none
        else do
          let (p, q) ← tail? rest
          let path := if p.isEmpty then "/" else String.ofList p
          some ⟨some (String.ofList s), some (String.ofList authority), path, q.map String.ofList⟩

def ofText? (s : String) : Option Uri :=
  if s.utf8ByteSize > longest then none else ofChars? s.toList

def text (u : Uri) : String :=
  (match u.scheme with | some s => s ++ "://" | none => "") ++ u.authority.getD "" ++ u.path ++
    (match u.query with | some q => "?" ++ q | none => "")

def behindLast (c : Char) (cs : List Char) : List Char := (cs.reverse.takeWhile (· != c)).reverse

def hostChars (authority : List Char) : List Char :=
  let cs := behindLast '@' authority
  if cs.head? = some '[' then cs.takeWhile (· != ']') ++ [']'] else cs.takeWhile (· != ':')

def host? (u : Uri) : Option String := u.authority.map fun a => String.ofList (hostChars a.toList)

def port? (u : Uri) : Option Nat :=
  u.authority.bind fun a =>
    let cs := a.toList
    if cs.contains ':' then
      let ds := behindLast ':' cs
      let ds := if ds.head? = some '+' then ds.tail else ds
      (Numeral.all? 10 ds).bind fun n => if n < 65536 then some n else none
    else none

end Uri
end FirewallAgent

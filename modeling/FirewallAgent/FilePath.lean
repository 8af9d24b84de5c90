import FirewallAgent.Text.Utf8

/-!
Path texts. Slashes separate the parts of a path; empty parts, and dots other than a leading one,
say nothing. No part of this module looks at a file system.
-/
namespace FirewallAgent.FilePath

def splitAt (sep : Char) : List Char → List (List Char)
  | [] => [[]]
  | c :: rest =>
    if c = sep then [] :: splitAt sep rest
    else match splitAt sep rest with
      | [] => [[c]]
      | part :: parts => (c :: part) :: parts

def parts (path : String) : List String := (splitAt '/' path.toList).map String.ofList

def isAbsolute (path : String) : Bool := path.toList.head? == some '/'

def saysNothing (first : Bool) (part : String) : Bool := part = "" || (part = "." && !first)

def trimmed (ps : List String) : List String :=
  match ps with
  | [] => []
  | p :: rest =>
    let back := (rest.reverse.dropWhile (saysNothing false)).reverse
    if back.isEmpty then (if saysNothing true p then [] else [p]) else p :: back

def join (ps : List String) : String := String.intercalate "/" ps

def name? (path : String) : Option String :=
  match (trimmed (parts path)).getLast? with
  | some p => if p = "." ∨ p = ".." then none else some p
  | none => none

def parent? (path : String) : Option String :=
  match trimmed (parts path) with
  | [] => none
  | ps =>
    let up := trimmed ps.dropLast
    some (if up.isEmpty && isAbsolute path then "/" else join up)

def ancestors (path : String) : List String :=
  go (path.length + 1) path
where
  go : Nat → String → List String
    | 0, _ => []
    | n + 1, p => match parent? p with
      | none => [p]
      | some up => p :: go n up

def stem (name : String) : String :=
  match (splitAt '.' name.toList).dropLast with
  | [] => name
  | [[]] => name
  | ps => String.ofList (['.'].intercalate ps)

def withExtension (path ext : String) : String :=
  match name? path with
  | none => path
  | some name =>
    let front := (trimmed (parts path)).dropLast
    let front := if front.isEmpty then "" else join front ++ "/"
    front ++ stem name ++ "." ++ ext

end FirewallAgent.FilePath

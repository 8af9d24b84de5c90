import FirewallAgent.Dictionary
import FirewallAgent.FilePath

/-!
Query parameters of a URL: the text after its first question mark, cut at ampersands. Parameters
are taken as they are written, without decoding; of equal names the last one counts.
-/
namespace FirewallAgent.Query

def cutAt (sep : Char) : List Char → Option (List Char × List Char)
  | [] => none
  | c :: rest =>
    if c = sep then some ([], rest) else (cutAt sep rest).map fun p => (c :: p.1, p.2)

def pieces (url : String) : List (List Char) :=
  match cutAt '?' url.toList with
  | none => []
  | some (_, query) => (FilePath.splitAt '&' query).filter (· ≠ [])

def parameter (piece : List Char) : String × String :=
  match cutAt '=' piece with
  | some (k, v) => (String.ofList k, String.ofList v)
  | none => (String.ofList piece, "")

def parse (url : String) : Dictionary := .ofList ((pieces url).map parameter)

def serialize (d : Dictionary) : String :=
  String.intercalate "&" (d.entries.map fun e => e.1 ++ "=" ++ e.2)

end FirewallAgent.Query

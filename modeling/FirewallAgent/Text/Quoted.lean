import FirewallAgent.Text.Printable

/-!
Quoted display of a text: double quotes around it, short escapes for the usual controls, and
`\u{hex}` for every other character that cannot be shown.
-/
namespace FirewallAgent.Text.Quoted

def hex (n : Nat) : List Char := Nat.toDigits 16 n

def showChar (c : Char) : List Char :=
  if c = '"' then ['\\', '"']
  else if c = '\\' then ['\\', '\\']
  else if c = '\t' then ['\\', 't']
  else if c = '\n' then ['\\', 'n']
  else if c = '\r' then ['\\', 'r']
  else if c = '\x00' then ['\\', '0']
  else if isPrintable c then [c]
  else '\\' :: 'u' :: '\x7b' :: hex c.toNat ++ ['\x7d']

def quote (s : String) : String := String.ofList ('"' :: s.toList.flatMap showChar ++ ['"'])

def quotePath (s : String) : String :=
  String.ofList ('"' :: s.toList.flatMap (fun c =>
    if c = '\x27' then ['\\', c] else showChar c) ++ ['"'])

end FirewallAgent.Text.Quoted

import FirewallAgent.Address.Ip

/-!
An IP address with a port. A version 6 address stands in brackets and may carry the number of
the scope it is valid in.
-/
namespace FirewallAgent

structure SocketAddress where
  ip : IpAddress
  scope : UInt32 := 0
  port : UInt16
  deriving DecidableEq

namespace SocketAddress
open Text

def takeNumber (limit : Nat) (cs : List Char) : Option (Nat × List Char) :=
  match Numeral.span 10 cs with
  | ([], _) => none
  | (ds, rest) => if Numeral.value 10 ds > limit then none else some (Numeral.value 10 ds, rest)

def takePort : List Char → Option UInt16
  | ':' :: rest =>
    match takeNumber 65535 rest with
    | some (n, []) => some (UInt16.ofNat n)
    | _ => none
  | _ => none

def takeScope : List Char → Option (UInt32 × List Char)
  | '%' :: rest => do
    let (n, rest) ← takeNumber 4294967295 rest
    some (UInt32.ofNat n, rest)
  | rest => some (0, rest)

def ofText? (s : String) : Option SocketAddress :=
  match s.toList with
  | '[' :: rest => do
    let (ip, rest) ← IpAddress.takeV6 rest
    let (scope, rest) ← takeScope rest
    match rest with
    | ']' :: rest => some ⟨ip, scope, ← takePort rest⟩
    | _ => none
  | cs => do
    let ((a, b, c, d), rest) ← IpAddress.takeDotted cs
    some ⟨.v4 a b c d, 0, ← takePort rest⟩

/- The scope is dropped: it says where an address is valid, not which address it is. -/
def canonical (a : SocketAddress) : SocketAddress := ⟨a.ip.canonical, 0, a.port⟩

def text (a : SocketAddress) : String :=
  let port := ":" ++ Numeral.decimal a.port.toNat
  match a.ip with
  | .v4 .. => a.ip.text ++ port
  | .v6 .. =>
    let scope := if a.scope = 0 then "" else "%" ++ Numeral.decimal a.scope.toNat
    "[" ++ a.ip.text ++ scope ++ "]" ++ port

end SocketAddress
end FirewallAgent

import FirewallAgent.Address.Socket
import FirewallAgent.Message
import FirewallAgent.Text.Blank

/-!
The key of a connection: its two canonical end points. It can be derived from socket addresses or
from the description of the connection that is sent to the policy service.
-/
namespace FirewallAgent

structure ConnectionKey where
  source : SocketAddress
  destination : SocketAddress
  deriving DecidableEq

namespace ConnectionKey

def ofAddresses (source destination : SocketAddress) : ConnectionKey :=
  ⟨source.canonical, destination.canonical⟩

def endpoint? (ip : String) (port : UInt32) : Option SocketAddress := do
  let ip ← IpAddress.ofText? (Text.trim ip)
  if port.toNat ≤ 65535 then some ⟨ip, 0, UInt16.ofNat port.toNat⟩ else none

def ofConnection? (c : Connection) : Option ConnectionKey := do
  let source ← endpoint? (← c.sourceIp) (← c.sourcePort)
  let destination ← endpoint? (← c.destinationIp) (← c.destinationPort)
  some (ofAddresses source destination)

def text (k : ConnectionKey) : String := k.source.text ++ "->" ++ k.destination.text

end ConnectionKey
end FirewallAgent

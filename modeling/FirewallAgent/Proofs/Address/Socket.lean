import FirewallAgent.Address.Socket
import FirewallAgent.Proofs.Address.Ip

/-! Printed socket addresses read back, as long as they carry no scope. None of their characters is a
hyphen, so two of them can stand on either side of an arrow. -/
namespace FirewallAgent.SocketAddress
open Text.Numeral
open IpAddress (Closes Plain)

theorem numberRead {n limit : Nat} {rest : List Char} (small : n ≤ limit) (stops : Stops 10 rest) :
    takeNumber limit (write 10 n ++ rest) = some (n, rest) := by
  obtain ⟨ds, spells, whole⟩ := decimalSpells n
  obtain ⟨d, more, rfl⟩ := spells.filled
  rw [takeNumber, spanJoined spells stops]
  dsimp only
  rw [whole, if_neg (Nat.not_lt.mpr small)]

theorem portRead (port : UInt16) : takePort (':' :: write 10 port.toNat) = some port := by
  have small : port.toNat < 65536 := port.toNat_lt
  have read := numberRead (Nat.le_of_lt_succ small) (show Stops 10 [] from nofun)
  rw [List.append_nil] at read
  rw [takePort, read]
  exact congrArg some UInt16.ofNat_toNat

theorem textFour {a : SocketAddress} {w x y z : UInt8} (four : a.ip = .v4 w x y z) :
    a.text.toList = a.ip.toChars ++ ':' :: write 10 a.port.toNat := by
  simp [text, four, IpAddress.text, decimal]

theorem textSix {a : SocketAddress} {gs : List UInt16} {eight : gs.length = 8} (six : a.ip = .v6 gs eight)
    (bare : a.scope = 0) :
    a.text.toList = '[' :: (a.ip.toChars ++ ']' :: ':' :: write 10 a.port.toNat) := by
  simp [text, six, bare, IpAddress.text, decimal]

theorem textRead {a : SocketAddress} (bare : a.scope = 0) : ofText? a.text = some a := by
  obtain ⟨ip, scope, port⟩ := a
  cases ip with
  | v4 w x y z =>
    have dotted := IpAddress.dottedRead w x y z (Closes.colon (write 10 port.toNat)).decimal
    rw [ofText?, textFour rfl, IpAddress.toChars]
    split
    · rename_i rest parts
      have bracket : Closes ('[' :: rest) := .ofSign (by decide) (by decide) rest
      rw [parts, IpAddress.takeDottedNone bracket] at dotted
      contradiction
    · simp [dotted, portRead, ← bare]
  | v6 gs eight =>
    have six := (IpAddress.toCharsWritten gs eight).read eight (.bracket (':' :: write 10 port.toNat))
    simp [ofText?, textSix rfl bare, six, takeScope, portRead, ← bare]

theorem unhyphened {c : Char} (plain : Plain c) : c ≠ '-' := by
  rintro rfl
  rcases plain with ⟨d, digit⟩ | colon | dot
  · contradiction
  · contradiction
  · contradiction

theorem textUnhyphened {a : SocketAddress} (bare : a.scope = 0) : '-' ∉ a.text.toList := by
  have address : '-' ∉ a.ip.toChars := by
    intro member
    have plain := a.ip.plainText
    rw [IpAddress.text, String.toList_ofList] at plain
    exact unhyphened (plain _ member) rfl
  have port : '-' ∉ write 10 a.port.toNat := fun member => unhyphened (IpAddress.plainSpelled _ _ member) rfl
  cases ip : a.ip with
  | v4 w x y z => simp [textFour ip, address, port]
  | v6 gs eight => simp [textSix ip bare, address, port]

end FirewallAgent.SocketAddress

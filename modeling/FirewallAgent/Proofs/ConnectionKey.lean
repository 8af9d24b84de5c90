import FirewallAgent.ConnectionKey
import FirewallAgent.Proofs.Address.Socket
import Mathlib.Data.List.Basic

/-! The key of a connection is the same whether it comes from the socket addresses or from the texts that
describe them, and it is the four values that matter, no more and no less: addresses that stand for others
are replaced by these, and two keys that look alike are one. -/
namespace FirewallAgent.ConnectionKey
open Text (isBlank)

structure Describes (ip : Option String) (port : Option UInt32) (a : SocketAddress) : Prop where
  ip : ∃ before after : String, (∀ c ∈ before.toList, isBlank c = true) ∧
    (∀ c ∈ after.toList, isBlank c = true) ∧ ip = some (before ++ a.ip.text ++ after)
  port : port = some a.port.toUInt32

inductive Lacks (ip : Option String) (port : Option UInt32) : Prop where
  | noIp (absent : ip = none)
  | noPort (absent : port = none)
  | unread {s : String} (given : ip = some s) (failed : IpAddress.ofText? (Text.trim s) = none)
  | large {n : UInt32} (given : port = some n) (above : 65535 < n.toNat)

theorem plainSolid {c : Char} (plain : IpAddress.Plain c) : isBlank c = false := by
  rcases plain with ⟨d, digit⟩ | rfl | rfl
  · have codes : (48 ≤ c.toNat ∧ c.toNat ≤ 57) ∨ (97 ≤ c.toNat ∧ c.toNat ≤ 122) ∨
        (65 ≤ c.toNat ∧ c.toNat ≤ 90) := Text.Numeral.digitRange digit
    simp only [isBlank, Bool.or_eq_false_iff, Bool.and_eq_false_iff, decide_eq_false_iff_not,
      beq_eq_false_iff_ne]
    omega
  · decide
  · decide

theorem trimText {before after : String} (ip : IpAddress) (front : ∀ c ∈ before.toList, isBlank c = true)
    (back : ∀ c ∈ after.toList, isBlank c = true) : Text.trim (before ++ ip.text ++ after) = ip.text :=
  Text.trimPadded front (fun c member => plainSolid (ip.plainText c member)) back

theorem smallPort (port : UInt16) : port.toUInt32.toNat = port.toNat ∧ port.toNat ≤ 65535 := by
  have small : port.toNat < 65536 := port.toNat_lt
  exact ⟨UInt16.toNat_toUInt32 port, by omega⟩

theorem endpointDescribed {ip : String} {port : UInt32} {a : SocketAddress}
    (describes : Describes (some ip) (some port) a) : endpoint? ip port = some ⟨a.ip, 0, a.port⟩ := by
  obtain ⟨⟨before, after, front, back, given⟩, number⟩ := describes
  cases Option.some.inj given
  cases Option.some.inj number
  obtain ⟨same, small⟩ := smallPort a.port
  simp [endpoint?, trimText a.ip front back, IpAddress.textRead, same, small]

theorem endpointLacks {ip : String} {port : UInt32} :
    endpoint? ip port = none ↔ Lacks (some ip) (some port) := by
  constructor
  · intro failed
    cases read : IpAddress.ofText? (Text.trim ip) with
    | none => exact .unread rfl read
    | some address =>
      rcases Nat.lt_or_ge 65535 port.toNat with above | small
      · exact .large rfl above
      · simp [endpoint?, read, small] at failed
  · intro lacks
    cases lacks with
    | noIp absent => contradiction
    | noPort absent => contradiction
    | unread given failed =>
      cases Option.some.inj given
      simp [endpoint?, failed]
    | large given above =>
      cases Option.some.inj given
      simp [endpoint?, Nat.not_le.mpr above]

def half (ip : Option String) (port : Option UInt32) : Option SocketAddress :=
  ip.bind fun s => port.bind fun n => endpoint? s n

theorem ofConnectionHalves (c : Connection) : ofConnection? c =
    (half c.sourceIp c.sourcePort).bind fun s =>
      (half c.destinationIp c.destinationPort).bind fun d => some (ofAddresses s d) := by
  simp only [ofConnection?, half, bind, Option.bind_assoc]

theorem halfDescribed {ip : Option String} {port : Option UInt32} {a : SocketAddress}
    (describes : Describes ip port a) : half ip port = some ⟨a.ip, 0, a.port⟩ := by
  obtain ⟨before, after, _, _, given⟩ := describes.ip
  have number := describes.port
  subst given number
  rw [half, Option.bind_some, Option.bind_some]
  exact endpointDescribed describes

theorem halfLacks {ip : Option String} {port : Option UInt32} : half ip port = none ↔ Lacks ip port := by
  cases ip with
  | none => exact iff_of_true rfl (.noIp rfl)
  | some s =>
    cases port with
    | none => exact iff_of_true rfl (.noPort rfl)
    | some n =>
      rw [half, Option.bind_some, Option.bind_some]
      exact endpointLacks

theorem socketSame {a b : SocketAddress} :
    a.canonical = b.canonical ↔ IpAddress.Alike a.ip b.ip ∧ a.port = b.port := by
  rw [IpAddress.alikeIff, SocketAddress.canonical, SocketAddress.canonical]
  simp

theorem textParts {s d t e : SocketAddress}
    (same : (ofAddresses s d).text = (ofAddresses t e).text) :
    s.canonical.text = t.canonical.text ∧ d.canonical.text = e.canonical.text := by
  have chars := congrArg String.toList same
  simp only [text, ofAddresses, String.toList_append] at chars
  have front : '-' ∉ s.canonical.text.toList := SocketAddress.textUnhyphened rfl
  have back : '-' ∉ '>' :: d.canonical.text.toList := by
    simpa using SocketAddress.textUnhyphened (a := d.canonical) rfl
  have parts : s.canonical.text.toList ++ '-' :: ('>' :: d.canonical.text.toList) =
      t.canonical.text.toList ++ '-' :: ('>' :: e.canonical.text.toList) := by
    simpa using chars
  obtain ⟨source, _, destination⟩ := (List.append_cons_inj_of_notMem front back).mp parts
  exact ⟨String.toList_inj.mp source, String.toList_inj.mp (List.cons.inj destination).2⟩

theorem canonicalRead (a : SocketAddress) : SocketAddress.ofText? a.canonical.text = some a.canonical :=
  SocketAddress.textRead rfl

theorem canonicalShown {a b : SocketAddress} (same : a.canonical.text = b.canonical.text) :
    a.canonical = b.canonical := by
  have read := canonicalRead b
  rw [← same, canonicalRead a] at read
  exact Option.some.inj read

theorem textSame {s d t e : SocketAddress} (same : (ofAddresses s d).text = (ofAddresses t e).text) :
    ofAddresses s d = ofAddresses t e := by
  obtain ⟨source, destination⟩ := textParts same
  rw [ofAddresses, ofAddresses, canonicalShown source, canonicalShown destination]

theorem ofAddressesSame {s d t e : SocketAddress} : ofAddresses s d = ofAddresses t e ↔
    (IpAddress.Alike s.ip t.ip ∧ s.port = t.port) ∧ (IpAddress.Alike d.ip e.ip ∧ d.port = e.port) := by
  rw [← socketSame, ← socketSame, ofAddresses, ofAddresses, mk.injEq]

theorem ofConnectionDescribed {c : Connection} {s d : SocketAddress}
    (source : Describes c.sourceIp c.sourcePort s)
    (destination : Describes c.destinationIp c.destinationPort d) :
    ofConnection? c = some (ofAddresses s d) := by
  rw [ofConnectionHalves, halfDescribed source, halfDescribed destination]
  rfl

theorem ofConnectionNone {c : Connection} : ofConnection? c = none ↔
    Lacks c.sourceIp c.sourcePort ∨ Lacks c.destinationIp c.destinationPort := by
  rw [ofConnectionHalves, ← halfLacks, ← halfLacks]
  cases half c.sourceIp c.sourcePort with
  | none => simp
  | some s =>
    cases half c.destinationIp c.destinationPort with
    | none => simp
    | some d => simp

theorem keysAreCanonicalTuples :
    (∀ (c : Connection) (s d : SocketAddress), Describes c.sourceIp c.sourcePort s →
      Describes c.destinationIp c.destinationPort d → ofConnection? c = some (ofAddresses s d)) ∧
    (∀ s d t e : SocketAddress, ofAddresses s d = ofAddresses t e ↔
      (IpAddress.Alike s.ip t.ip ∧ s.port = t.port) ∧ (IpAddress.Alike d.ip e.ip ∧ d.port = e.port)) ∧
    (∀ s d t e : SocketAddress,
      ofAddresses s d ≠ ofAddresses t e → (ofAddresses s d).text ≠ (ofAddresses t e).text) ∧
    (∀ c : Connection, ofConnection? c = none ↔
      Lacks c.sourceIp c.sourcePort ∨ Lacks c.destinationIp c.destinationPort) := by
  refine ⟨?_, ?_, ?_, ?_⟩
  · intro c s d source destination
    exact ofConnectionDescribed source destination
  · intro s d t e
    exact ofAddressesSame
  · intro s d t e apart same
    exact apart (textSame same)
  · intro c
    exact ofConnectionNone

def mappedHost : SocketAddress := ⟨.mapped 192 0 2 5, 0, 1234⟩

def linkHost : SocketAddress := ⟨.v6 [0xFE80, 0, 0, 1, 0, 0, 0, 0x20] rfl, 3, 80⟩

/- The scope of the second address is not sent, and two runs of zeros compete for the shortening. -/
def paddedConnection : Connection :=
  { sourceIp := some " ::ffff:192.0.2.5\r\n", sourcePort := some 1234,
    destinationIp := some "fe80:0:0:1::20\u3000", destinationPort := some 80 }

theorem paddedHostsAreKnown :
    Describes paddedConnection.sourceIp paddedConnection.sourcePort mappedHost ∧
    Describes paddedConnection.destinationIp paddedConnection.destinationPort linkHost ∧
    ofConnection? paddedConnection = some (ofAddresses mappedHost linkHost) ∧
    ofAddresses mappedHost linkHost = ofAddresses ⟨.v4 192 0 2 5, 0, 1234⟩ linkHost ∧
    (ofAddresses mappedHost linkHost ≠ ofAddresses linkHost mappedHost ∧
      (ofAddresses mappedHost linkHost).text ≠ (ofAddresses linkHost mappedHost).text) := by
  obtain ⟨agree, same, shown, _⟩ := keysAreCanonicalTuples
  have source : Describes paddedConnection.sourceIp paddedConnection.sourcePort mappedHost :=
    ⟨⟨" ", "\r\n", List.all_eq_true.mp (by decide), List.all_eq_true.mp (by decide), by decide +kernel⟩, rfl⟩
  have destination : Describes paddedConnection.destinationIp paddedConnection.destinationPort linkHost :=
    ⟨⟨"", "\u3000", List.all_eq_true.mp (by decide), List.all_eq_true.mp (by decide), by decide +kernel⟩, rfl⟩
  have folded : IpAddress.Alike mappedHost.ip (.v4 192 0 2 5) :=
    ⟨_, .mapped 192 0 2 5, .plain nofun⟩
  have apart : ofAddresses mappedHost linkHost ≠ ofAddresses linkHost mappedHost := by decide
  exact ⟨source, destination, agree paddedConnection mappedHost linkHost source destination,
    (same _ _ _ _).mpr ⟨⟨folded, rfl⟩, IpAddress.alikeIff.mpr rfl, rfl⟩, apart, shown _ _ _ _ apart⟩

end FirewallAgent.ConnectionKey

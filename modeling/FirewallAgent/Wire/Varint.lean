import FirewallAgent.Text.Utf8

/-!
Base-128 integers: seven bits to a byte, low bits first, the top bit set on all bytes but the
last. A reader takes at most ten bytes and refuses what does not fit into 64 bits.
-/
namespace FirewallAgent.Wire.Varint

def encode (n : Nat) : Bytes :=
  if n < 128 then [UInt8.ofNat n] else UInt8.ofNat (n % 128 + 128) :: encode (n / 128)
termination_by n

def read : (room shift value : Nat) → Bytes → Option (Nat × Bytes)
  | 0, _, _, _ => none
  | _ + 1, _, _, [] => none
  | room + 1, shift, value, b :: rest =>
    let value := value + (b.toNat % 128) <<< shift
    if b.toNat < 128 then
      if room = 0 ∧ 2 ≤ b.toNat then none else some (value, rest)
    else read room (shift + 7) value rest

def decode (b : Bytes) : Option (Nat × Bytes) := read 10 0 0 b

theorem lengthEncodePos (n : Nat) : 0 < (encode n).length := by
  rw [encode]; split <;> simp

end FirewallAgent.Wire.Varint

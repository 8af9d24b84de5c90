import FirewallAgent.Wire.Field
import Mathlib.Algebra.Group.Nat.Defs

/-! Fields read back from their bytes. An integer of 64 bits fills at most ten bytes, and what follows it
is left alone; so a counted string is found again whatever stands behind it, and a list of fields is
the list that was written. -/
namespace FirewallAgent.Wire

/- A count of bytes travels as a 64-bit integer. No string of bytes in memory is longer. -/
def Fits (b : Bytes) : Prop := b.length < 2 ^ 64

instance (b : Bytes) : Decidable (Fits b) := inferInstanceAs (Decidable (_ < _))

theorem fitsAppend {a b : Bytes} (fits : Fits (a ++ b)) : Fits a ∧ Fits b := by
  rw [Fits, List.length_append] at fits
  exact ⟨by unfold Fits; omega, by unfold Fits; omega⟩

namespace Varint

theorem readShift (value n shift : Nat) :
    value + (n % 128) <<< shift + (n / 128) <<< (shift + 7) = value + n <<< shift := by
  have whole := Nat.div_add_mod n 128
  have high : (n / 128) <<< (shift + 7) = 128 * (n / 128) * 2 ^ shift := by
    rw [Nat.shiftLeft_eq, Nat.pow_add, Nat.mul_comm (2 ^ shift), ← Nat.mul_assoc, Nat.mul_comm (n / 128)]
  rw [high, Nat.shiftLeft_eq, Nat.shiftLeft_eq, Nat.add_assoc, ← Nat.add_mul, Nat.add_comm (n % 128),
    whole]

/- Induction on the bytes that may still come; the last of ten has room for one bit. -/
theorem readEncode {room shift value n : Nat} (ten : 7 * room + shift = 63) (small : n < 2 ^ (64 - shift))
    (rest : Bytes) : read (room + 1) shift value (encode n ++ rest) = some (value + n <<< shift, rest) := by
  induction room generalizing shift value n with
  | zero =>
    have bit : n < 2 := by simpa [show 64 - shift = 1 by omega] using small
    have byte : (UInt8.ofNat n).toNat = n := by rw [UInt8.toNat_ofNat']; omega
    rw [encode, if_pos (by omega), List.singleton_append, read]
    simp only [byte, Nat.mod_eq_of_lt (show n < 128 by omega)]
    rw [if_pos (by omega), if_neg (by omega)]
  | succ room ih =>
    rw [encode]
    split
    · rename_i last
      have byte : (UInt8.ofNat n).toNat = n := by rw [UInt8.toNat_ofNat']; omega
      rw [List.singleton_append, read]
      simp only [byte, Nat.mod_eq_of_lt last]
      rw [if_pos last, if_neg (by omega)]
    · have byte : (UInt8.ofNat (n % 128 + 128)).toNat = n % 128 + 128 := by
        rw [UInt8.toNat_ofNat']; omega
      have width : 64 - shift = 64 - (shift + 7) + 7 := by omega
      have high : n / 128 < 2 ^ (64 - (shift + 7)) := by
        rw [width, Nat.pow_add] at small
        exact Nat.div_lt_of_lt_mul (by omega)
      rw [List.cons_append, read]
      simp only [byte, show (n % 128 + 128) % 128 = n % 128 by omega]
      rw [if_neg (by omega), ih (by omega) high, readShift]

theorem decodeEncode {n : Nat} (small : n < 2 ^ 64) (rest : Bytes) :
    decode (encode n ++ rest) = some (n, rest) := by
  have ten : read 10 0 0 (encode n ++ rest) = some (0 + n <<< 0, rest) := readEncode rfl small rest
  simpa [decode] using ten

end Varint

namespace Field

def Payload.Plain : Payload → Prop
  | .varint n => n < 2 ^ 64
  | .bytes _ => True
  | _ => False

def isNumber (n : Nat) : Bool := 0 < n ∧ n < 2 ^ 29

structure Plain (f : Field) : Prop where
  numbered : isNumber f.number = true
  payload : Payload.Plain f.payload

theorem takeKeyEncode {number kind : Nat} (numbered : isNumber number = true) (known : kind ≤ 5)
    (rest : Bytes) : takeKey (Varint.encode (number * 8 + kind) ++ rest) = some (number, kind, rest) := by
  have room : 0 < number ∧ number < 2 ^ 29 := of_decide_eq_true numbered
  rw [takeKey, Varint.decodeEncode (by omega)]
  simp only [Option.bind_eq_bind, Option.bind_some]
  rw [if_neg (by omega), if_neg (by omega), if_neg (by omega)]
  simp only [Option.some.injEq, Prod.mk.injEq, and_true]
  omega

theorem takeBytesExact (b rest : Bytes) : takeBytes b.length (b ++ rest) = some (b, rest) := by
  simp [takeBytes]

theorem takePayloadEncode {p : Payload} (plain : Payload.Plain p) (fits : Fits (encodePayload p))
    (rest : Bytes) : takePayload (kind p) (encodePayload p ++ rest) = some (p, rest) := by
  cases p with
  | varint n => simp [kind, takePayload, encodePayload, Varint.decodeEncode plain]
  | bytes b =>
    have short : b.length < 2 ^ 64 := (fitsAppend fits).2
    simp [kind, takePayload, encodePayload, Varint.decodeEncode short, takeBytesExact]
  | fixed64 _ => exact plain.elim
  | fixed32 _ => exact plain.elim
  | group => exact plain.elim

theorem takeFieldEncode {f : Field} (plain : f.Plain) (fits : Fits f.encode) (depth : Nat) (rest : Bytes) :
    takeField depth (f.encode ++ rest) = some (f, rest) := by
  have noGroup : kind f.payload ≠ 3 := by
    have payload := plain.payload
    cases same : f.payload <;> simp_all [kind, Payload.Plain]
  have known : kind f.payload ≤ 5 := by cases f.payload <;> simp [kind]
  rw [takeField, encode, List.append_assoc, takeKeyEncode plain.numbered known]
  simp only [Option.bind_eq_bind, Option.bind_some]
  rw [if_neg noGroup, takePayloadEncode plain.payload (fitsAppend fits).2]
  rfl

theorem lengthEncodePos (f : Field) : 0 < f.encode.length := by
  have key := Varint.lengthEncodePos (f.number * 8 + kind f.payload)
  rw [encode, List.length_append]
  omega

theorem takeAllEncode {fs : List Field} (plain : ∀ f ∈ fs, f.Plain) (fits : Fits (encodeAll fs))
    (depth : Nat) {fuel : Nat} (enough : (encodeAll fs).length ≤ fuel) :
    takeAll depth fuel (encodeAll fs) = some fs := by
  induction fs generalizing fuel with
  | nil => cases fuel <;> rfl
  | cons f fs ih =>
    have joined : encodeAll (f :: fs) = f.encode ++ encodeAll fs := rfl
    have filled := lengthEncodePos f
    rw [joined, List.length_append] at enough
    rw [joined] at fits ⊢
    cases fuel with
    | zero => omega
    | succ fuel =>
      have left : (encodeAll fs).length ≤ fuel := by omega
      have rest := ih (fun g hg => plain g (List.mem_cons_of_mem f hg)) (fitsAppend fits).2 left
      have first := takeFieldEncode (plain f List.mem_cons_self) (fitsAppend fits).1 depth (encodeAll fs)
      rw [takeAll]
      · simp only [first, rest, Option.bind_eq_bind, Option.bind_some]
      · intro empty
        rw [List.append_eq_nil_iff] at empty
        simp [empty.1] at filled

theorem decodeAllEncode {fs : List Field} (plain : ∀ f ∈ fs, f.Plain) (fits : Fits (encodeAll fs))
    (depth : Nat) : decodeAll depth (encodeAll fs) = some fs :=
  takeAllEncode plain fits depth (Nat.le_refl _)

end Field
end FirewallAgent.Wire

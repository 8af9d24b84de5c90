import FirewallAgent.Wire.Varint

/-!
Numbered fields, the layer below messages. A field carries an integer, four or eight bytes, or a
counted string of bytes. Groups, which no message here uses, are read over as a whole.
-/
namespace FirewallAgent.Wire

inductive Payload where
  | varint (n : Nat)
  | fixed64 (b : Bytes)
  | bytes (b : Bytes)
  | fixed32 (b : Bytes)
  | group
  deriving DecidableEq, Repr

structure Field where
  number : Nat
  payload : Payload
  deriving DecidableEq, Repr

namespace Field

def kind : Payload → Nat
  | .varint _ => 0
  | .fixed64 _ => 1
  | .bytes _ => 2
  | .group => 3
  | .fixed32 _ => 5

def encodePayload : Payload → Bytes
  | .varint n => Varint.encode n
  | .fixed64 b => b
  | .bytes b => Varint.encode b.length ++ b
  | .fixed32 b => b
  | .group => []

def encode (f : Field) : Bytes :=
  Varint.encode (f.number * 8 + kind f.payload) ++ encodePayload f.payload

def encodeAll (fs : List Field) : Bytes := fs.flatMap encode

def takeKey (b : Bytes) : Option (Nat × Nat × Bytes) := do
  let (key, rest) ← Varint.decode b
  if key ≥ 4294967296 then none
  else if key % 8 > 5 then none
  else if key / 8 = 0 then none
  else some (key / 8, key % 8, rest)

def takeBytes (n : Nat) (b : Bytes) : Option (Bytes × Bytes) :=
  if n ≤ b.length then some (b.take n, b.drop n) else none

def takePayload (kind : Nat) (b : Bytes) : Option (Payload × Bytes) :=
  match kind with
  | 0 => do
    let (n, rest) ← Varint.decode b
    some (.varint n, rest)
  | 1 => do
    let (x, rest) ← takeBytes 8 b
    some (.fixed64 x, rest)
  | 2 => do
    let (n, rest) ← Varint.decode b
    let (x, rest) ← takeBytes n rest
    some (.bytes x, rest)
  | 5 => do
    let (x, rest) ← takeBytes 4 b
    some (.fixed32 x, rest)
  | _ => none

/- Reads over the groups that are open, innermost first, up to the end of the outermost. Every
field inside costs one level of `depth` for each group around it. -/
def skipGroups (depth : Nat) : (fuel : Nat) → List Nat → Bytes → Option Bytes
  | _, [], b => some b
  | 0, _ :: _, _ => none
  | fuel + 1, g :: gs, b => do
    let (number, kind, rest) ← takeKey b
    if kind = 4 then
      if number = g then skipGroups depth fuel gs rest else none
    else if depth ≤ gs.length + 1 then none
    else if kind = 3 then skipGroups depth fuel (number :: g :: gs) rest
    else do
      let (_, rest) ← takePayload kind rest
      skipGroups depth fuel (g :: gs) rest

def takeField (depth : Nat) (b : Bytes) : Option (Field × Bytes) := do
  let (number, kind, rest) ← takeKey b
  if kind = 3 then
    if depth = 0 then none else
    let rest ← skipGroups depth rest.length [number] rest
    some (⟨number, .group⟩, rest)
  else do
    let (payload, rest) ← takePayload kind rest
    some (⟨number, payload⟩, rest)

def takeAll (depth : Nat) : (fuel : Nat) → Bytes → Option (List Field)
  | _, [] => some []
  | 0, _ :: _ => none
  | fuel + 1, b => do
    let (f, rest) ← takeField depth b
    let fs ← takeAll depth fuel rest
    some (f :: fs)

def decodeAll (depth : Nat) (b : Bytes) : Option (List Field) := takeAll depth b.length b

end Field
end FirewallAgent.Wire

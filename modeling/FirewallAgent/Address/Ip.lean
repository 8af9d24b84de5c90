import FirewallAgent.Text.Numeral

/-!
IP addresses and their text. Version 6 texts may shorten one run of zero groups to `::` and may
end in a dotted version 4 address; the printed form shortens the longest run of at least two zero
groups, the first of equally long ones, and shows version 4 addresses inside `::ffff:0:0/96` with
dots.
-/
namespace FirewallAgent

inductive IpAddress where
  | v4 (a b c d : UInt8)
  | v6 (groups : List UInt16) (eight : groups.length = 8)
  deriving DecidableEq

namespace IpAddress
open Text

def takeOctet (cs : List Char) : Option (UInt8 × List Char) :=
  match Numeral.span 10 cs with
  | ([], _) => none
  | (ds, rest) =>
    if ds.length > 3 ∨ (ds.head? = some 0 ∧ ds.length > 1) ∨ Numeral.value 10 ds > 255 then none
    else some (UInt8.ofNat (Numeral.value 10 ds), rest)

def takeDot : List Char → Option (List Char)
  | '.' :: rest => some rest
  | _ => none

def takeDotted (cs : List Char) : Option ((UInt8 × UInt8 × UInt8 × UInt8) × List Char) := do
  let (a, cs) ← takeOctet cs
  let (b, cs) ← takeOctet (← takeDot cs)
  let (c, cs) ← takeOctet (← takeDot cs)
  let (d, cs) ← takeOctet (← takeDot cs)
  some ((a, b, c, d), cs)

def takeGroup (cs : List Char) : Option (UInt16 × List Char) :=
  match Numeral.span 16 cs with
  | ([], _) => none
  | (ds, rest) => if ds.length > 4 then none else some (UInt16.ofNat (Numeral.value 16 ds), rest)

def pair (a b : UInt8) : UInt16 := UInt16.ofNat (a.toNat * 256 + b.toNat)

def afterColon (first : Bool) : List Char → Option (List Char)
  | cs => if first then some cs else match cs with
    | ':' :: rest => some rest
    | _ => none

def takeGroups : (limit : Nat) → (first : Bool) → List Char → List UInt16 × Bool × List Char
  | 0, _, cs => ([], false, cs)
  | n + 1, first, cs =>
    match afterColon first cs with
    | none => ([], false, cs)
    | some inner =>
      match if n = 0 then none else takeDotted inner with
      | some ((a, b, c, d), rest) => ([pair a b, pair c d], true, rest)
      | none =>
        match takeGroup inner with
        | none => ([], false, cs)
        | some (g, rest) =>
          let (gs, dotted, rest) := takeGroups n false rest
          (g :: gs, dotted, rest)

def takeV6 (cs : List Char) : Option (IpAddress × List Char) :=
  let (head, dotted, rest) := takeGroups 8 true cs
  if h : head.length = 8 then some (v6 head h, rest)
  else if dotted then none
  else match rest with
    | ':' :: ':' :: rest =>
      let limit := 7 - head.length
      let r := takeGroups limit true rest
      let all := head ++ List.replicate (8 - head.length - r.1.length) 0 ++ r.1
      if ha : all.length = 8 then some (v6 all ha, r.2.2) else none
    | _ => none

def ofChars? (cs : List Char) : Option IpAddress :=
  match takeDotted cs with
  | some ((a, b, c, d), []) => some (v4 a b c d)
  | _ => match takeV6 cs with
    | some (ip, []) => some ip
    | _ => none

def ofText? (s : String) : Option IpAddress := ofChars? s.toList

def canonical : IpAddress → IpAddress
  | v6 [0, 0, 0, 0, 0, 0xFFFF, g, h] _ =>
    v4 (UInt8.ofNat (g.toNat / 256)) (UInt8.ofNat g.toNat) (UInt8.ofNat (h.toNat / 256))
      (UInt8.ofNat h.toNat)
  | ip => ip

def dottedText (a b c d : UInt8) : List Char :=
  Numeral.write 10 a.toNat ++ '.' :: Numeral.write 10 b.toNat ++ '.' :: Numeral.write 10 c.toNat ++
    '.' :: Numeral.write 10 d.toNat

def groupsText : List UInt16 → List Char
  | [] => []
  | [g] => Numeral.write 16 g.toNat
  | g :: gs => Numeral.write 16 g.toNat ++ ':' :: groupsText gs

def zerosAt (gs : List UInt16) (i : Nat) : Nat := ((gs.drop i).takeWhile (· == 0)).length

def longestZeros (gs : List UInt16) : Nat × Nat :=
  (List.range gs.length).foldl
    (fun best i => if zerosAt gs i > best.2 then (i, zerosAt gs i) else best) (0, 0)

def toChars : IpAddress → List Char
  | v4 a b c d => dottedText a b c d
  | v6 gs h =>
    match canonical (v6 gs h) with
    | v4 a b c d => "::ffff:".toList ++ dottedText a b c d
    | v6 gs _ =>
      let (start, len) := longestZeros gs
      if len > 1 then groupsText (gs.take start) ++ ':' :: ':' :: groupsText (gs.drop (start + len))
      else groupsText gs

def text (ip : IpAddress) : String := String.ofList ip.toChars

end IpAddress
end FirewallAgent

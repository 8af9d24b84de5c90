import FirewallAgent.Text.Numeral

/-!
Lengths of time in whole nanoseconds, up to 2^64 seconds, and the short display of one: a decimal
in the largest of s, ms, µs and ns that makes its whole part positive.
-/
namespace FirewallAgent

structure Span where
  seconds : UInt64
  nanos : Fin 1000000000
  deriving DecidableEq, Repr, Inhabited

namespace Span
open Text

def ofSeconds (s : UInt64) : Span := ⟨s, 0⟩

def ofMillis (n : Nat) : Span :=
  ⟨.ofNat (n / 1000), ⟨n % 1000 * 1000000, by omega⟩⟩

def isZero (s : Span) : Bool := s.seconds = 0 && s.nanos = 0

def millis (s : Span) : Nat := s.seconds.toNat * 1000 + (s.nanos.val + 999999) / 1000000

def fraction (width n : Nat) : List Char :=
  let digits := Numeral.write 10 n
  let padded := List.replicate (width - digits.length) '0' ++ digits
  let kept := (padded.reverse.dropWhile (· = '0')).reverse
  if kept.isEmpty then [] else '.' :: kept

def shortChars (s : Span) : List Char :=
  let n := s.nanos.val
  if s.seconds ≠ 0 then Numeral.write 10 s.seconds.toNat ++ fraction 9 n ++ ['s']
  else if n ≥ 1000000 then Numeral.write 10 (n / 1000000) ++ fraction 6 (n % 1000000) ++ ['m', 's']
  else if n ≥ 1000 then Numeral.write 10 (n / 1000) ++ fraction 3 (n % 1000) ++ ['µ', 's']
  else Numeral.write 10 n ++ ['n', 's']

def short (s : Span) : String := String.ofList s.shortChars

end Span
end FirewallAgent

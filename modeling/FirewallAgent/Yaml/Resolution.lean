import FirewallAgent.Text.Numeral

/-!
What a scalar without quotes stands for when it is not text: nothing, a truth value or a number.
Whole numbers may be written in base 16, 8 and 2, and no decimal one has leading zeros.
-/
namespace FirewallAgent.Yaml.Resolution
open FirewallAgent.Text

def isNull (cs : List Char) : Bool :=
  ["null", "Null", "NULL", "~"].any fun s => s.toList == cs

def bool? (cs : List Char) : Option Bool :=
  if ["true", "True", "TRUE"].any fun s => s.toList == cs then some true
  else if ["false", "False", "FALSE"].any fun s => s.toList == cs then some false
  else none

def dropSign (cs : List Char) : List Char :=
  match cs with
  | c :: rest => if c = '+' ∨ c = '-' then rest else cs
  | [] => []

def hasLeadingZero (cs : List Char) : Bool :=
  match dropSign cs with
  | '0' :: d :: rest => (d :: rest).all Char.isDigit
  | _ => false

def based? : List Char → Option Nat
  | '0' :: 'x' :: ds => Numeral.all? 16 ds
  | '0' :: 'o' :: ds => Numeral.all? 8 ds
  | '0' :: 'b' :: ds => Numeral.all? 2 ds
  | _ => none

def dropPlus (cs : List Char) : List Char := if cs.head? = some '+' then cs.tail else cs

def natural? (most : Nat) (cs : List Char) : Option Nat :=
  let n? := match based? (dropPlus cs) with
    | some n => some n
    | none => if hasLeadingZero cs then none else Numeral.all? 10 (dropPlus cs)
  n?.bind fun n => if n ≤ most then some n else none

def isNegativeBased (cs : List Char) : Bool :=
  match cs with
  | '-' :: rest => (based? rest).any fun n => decide (n ≤ Nat.pow 2 127)
  | _ => false

structure Decimal where
  digits : List Nat
  exponent : Int
  deriving DecidableEq, Repr

def exponent? : List Char → Option Int
  | [] => some 0
  | c :: rest =>
    if c = 'e' ∨ c = 'E' then
      match rest with
      | '-' :: ds => (Numeral.all? 10 ds).map fun n => -(n : Int)
      | ds => (Numeral.all? 10 (dropPlus ds)).map fun n => (n : Int)
    else none

def decimal? (cs : List Char) : Option Decimal :=
  let (whole, rest) := Numeral.span 10 (dropSign cs)
  let (part, rest) := match rest with
    | '.' :: rest => Numeral.span 10 rest
    | rest => ([], rest)
  if whole.isEmpty && part.isEmpty then none
  else (exponent? rest).map fun e => ⟨whole ++ part, e - part.length⟩

/- Half a unit in the last place above the largest double. Nothing from there on is finite. -/
def limit : Nat := Nat.pow 2 1024 - Nat.pow 2 970

def Decimal.isFinite (d : Decimal) : Bool :=
  let ds := d.digits.dropWhile (· == 0)
  let size := ds.length + d.exponent
  if ds.isEmpty || decide (size ≤ 308) then true
  else if size > 309 then false
  else if 0 ≤ d.exponent then decide (Numeral.value 10 ds * Nat.pow 10 d.exponent.toNat < limit)
  else decide (Numeral.value 10 ds < limit * Nat.pow 10 (-d.exponent).toNat)

def isSignedTwice (cs : List Char) : Bool :=
  match cs with
  | '+' :: c :: _ => c == '+' || c == '-'
  | _ => false

def isFloat (cs : List Char) : Bool :=
  [".inf", ".Inf", ".INF", "+.inf", "+.Inf", "+.INF", "-.inf", "-.Inf", "-.INF", ".nan", ".NaN",
    ".NAN"].any (fun s => s.toList == cs) ||
  (!isSignedTwice cs && (decimal? cs).any Decimal.isFinite)

def isAmbiguous (cs : List Char) : Bool :=
  cs.isEmpty || isNull cs || (bool? cs).isSome || (natural? (Nat.pow 2 128 - 1) cs).isSome ||
    isNegativeBased cs || isFloat cs || hasLeadingZero cs

end FirewallAgent.Yaml.Resolution

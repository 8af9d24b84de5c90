/-!
Unsigned numerals. Reading takes the longest run of digits at the front of a text; writing uses
no leading zeros and lower-case letters for digits above nine.
-/
namespace FirewallAgent.Text.Numeral

def digit? (base : Nat) (c : Char) : Option Nat :=
  let d :=
    if '0' ≤ c ∧ c ≤ '9' then c.toNat - '0'.toNat
    else if 'a' ≤ c ∧ c ≤ 'z' then c.toNat - 'a'.toNat + 10
    else if 'A' ≤ c ∧ c ≤ 'Z' then c.toNat - 'A'.toNat + 10
    else base
  if d < base then some d else none

def span (base : Nat) : List Char → List Nat × List Char
  | [] => ([], [])
  | c :: rest =>
    match digit? base c with
    | none => ([], c :: rest)
    | some d => let (ds, r) := span base rest; (d :: ds, r)

def value (base : Nat) (ds : List Nat) : Nat := ds.foldl (fun v d => v * base + d) 0

def all? (base : Nat) (cs : List Char) : Option Nat :=
  match span base cs with
  | (d :: ds, []) => some (value base (d :: ds))
  | _ => none

def write (base n : Nat) : List Char := Nat.toDigits base n

def decimal (n : Nat) : String := String.ofList (write 10 n)

end FirewallAgent.Text.Numeral

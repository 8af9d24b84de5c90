/-!
A bounded map that forgets what was used longest ago. Entries stand in the order of their last
use, the latest first.
-/
namespace FirewallAgent

structure RecencyCache (κ α : Type) where
  capacity : Nat
  entries : List (κ × α) := []
  deriving DecidableEq, Repr

namespace RecencyCache
variable {κ α : Type} [DecidableEq κ]

def ofCapacity (n : Nat) : RecencyCache κ α := { capacity := max n 1 }

def find? (c : RecencyCache κ α) (k : κ) : Option α :=
  (c.entries.find? fun e => e.1 = k).map Prod.snd

def without (c : RecencyCache κ α) (k : κ) : List (κ × α) := c.entries.filter fun e => e.1 ≠ k

def put (c : RecencyCache κ α) (k : κ) (v : α) : RecencyCache κ α :=
  { c with entries := ((k, v) :: c.without k).take c.capacity }

def get (c : RecencyCache κ α) (k : κ) : RecencyCache κ α × Option α :=
  match c.find? k with
  | none => (c, none)
  | some v => ({ c with entries := (k, v) :: c.without k }, some v)

def remove (c : RecencyCache κ α) (k : κ) : RecencyCache κ α × Option α :=
  ({ c with entries := c.without k }, c.find? k)

def size (c : RecencyCache κ α) : Nat := c.entries.length

omit [DecidableEq κ] in
theorem capacityPositive (n : Nat) : 0 < (ofCapacity n : RecencyCache κ α).capacity := by
  exact Nat.lt_of_lt_of_le Nat.zero_lt_one (Nat.le_max_right n 1)

end RecencyCache

end FirewallAgent

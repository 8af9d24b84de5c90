import FirewallAgent.Text.Numeral
import Mathlib.Algebra.Group.Nat.Defs

/-! Numerals read back. Every character that is written stands for one digit, the first of them is no zero
unless it is alone, and the digits together have the value. -/
namespace FirewallAgent.Text.Numeral

variable {base n : Nat} {cs rest : List Char} {ds : List Nat}

def Spells (base : Nat) (cs : List Char) (ds : List Nat) : Prop := cs.map (digit? base) = ds.map some

theorem Spells.append {cs' : List Char} {ds' : List Nat} (first : Spells base cs ds)
    (second : Spells base cs' ds') : Spells base (cs ++ cs') (ds ++ ds') := by
  unfold Spells at *
  rw [List.map_append, List.map_append, first, second]

theorem Spells.digit {c : Char} (spells : Spells base cs ds) (member : c ∈ cs) :
    ∃ d, digit? base c = some d := by
  have there : digit? base c ∈ ds.map some := spells ▸ List.mem_map_of_mem member
  obtain ⟨d, _, same⟩ := List.mem_map.mp there
  exact ⟨d, same.symm⟩

theorem valueSnoc (base : Nat) (ds : List Nat) (d : Nat) :
    value base (ds ++ [d]) = value base ds * base + d := by
  simp [value]

theorem writeSpells (turn : Char → Char) (large : 1 < base)
    (reads : ∀ d < base, digit? base (turn d.digitChar) = some d) (n : Nat) :
    ∃ ds, Spells base ((write base n).map turn) ds ∧ value base ds = n := by
  induction n using Nat.strongRecOn with
  | ind n ih =>
    rw [write, Nat.toDigits_eq_if large]
    split
    · rename_i small
      exact ⟨[n], by simp [Spells, reads n small], by simp [value]⟩
    · rename_i big
      have positive : 0 < n := by omega
      obtain ⟨ds, spells, whole⟩ := ih (n / base) (Nat.div_lt_self positive large)
      have last : n % base < base := Nat.mod_lt n (by omega)
      refine ⟨ds ++ [n % base], ?_, ?_⟩
      · rw [List.map_append]
        exact spells.append (by simp [Spells, reads _ last])
      · rw [valueSnoc, whole, Nat.mul_comm]
        exact Nat.div_add_mod n base

theorem Spells.sameLength (spells : Spells base cs ds) : ds.length = cs.length := by
  simpa using congrArg List.length spells.symm

theorem Spells.filled {b : Nat} (spells : Spells base (write b n) ds) : ∃ d more, ds = d :: more := by
  apply List.exists_cons_of_ne_nil
  rintro rfl
  exact Nat.toDigits_ne_nil (List.map_eq_nil_iff.mp spells)

theorem Spells.short {b k : Nat} (spells : Spells base (write b n) ds) (large : 1 < b) (any : 0 < k)
    (small : n < b ^ k) : ds.length ≤ k := by
  rw [spells.sameLength]
  exact (Nat.length_toDigits_le_iff large any).mpr small

theorem decimalDigits : ∀ d < 10, digit? 10 d.digitChar = some d := by decide

theorem hexDigits : ∀ d < 16, digit? 16 d.digitChar.toUpper = some d := by decide

theorem lowerHexDigits : ∀ d < 16, digit? 16 d.digitChar = some d := by decide

theorem decimalSpells (n : Nat) : ∃ ds, Spells 10 (write 10 n) ds ∧ value 10 ds = n := by
  simpa using writeSpells id (by decide) decimalDigits n

theorem lowerHexSpells (n : Nat) : ∃ ds, Spells 16 (write 16 n) ds ∧ value 16 ds = n := by
  simpa using writeSpells id (by decide) lowerHexDigits n

def Stops (base : Nat) (rest : List Char) : Prop := ∀ c, rest.head? = some c → digit? base c = none

theorem spanStops (stops : Stops base rest) : span base rest = ([], rest) := by
  cases rest with
  | nil => rfl
  | cons c rest => rw [span, stops c rfl]

theorem spanJoined (spells : Spells base cs ds) (stops : Stops base rest) :
    span base (cs ++ rest) = (ds, rest) := by
  induction cs generalizing ds with
  | nil =>
    cases List.map_eq_nil_iff.mp spells.symm
    exact spanStops stops
  | cons c cs ih =>
    obtain ⟨d, ds, rfl, first, more⟩ := List.map_eq_cons_iff.mp spells.symm
    rw [List.cons_append, span, ← first, ih more.symm]

theorem spanSpelled (spells : Spells base cs ds) : span base cs = (ds, []) := by
  simpa using spanJoined spells (show Stops base [] from nofun)

theorem allDecimal (n : Nat) : all? 10 (write 10 n) = some n := by
  obtain ⟨ds, spells, whole⟩ := decimalSpells n
  obtain ⟨d, more, rfl⟩ := spells.filled
  rw [all?, spanSpelled spells]
  exact congrArg some whole

theorem decimalChar {c : Char} (mem : c ∈ write 10 n) : c.isDigit = true :=
  Nat.isDigit_of_mem_toDigits (by decide) (by decide) mem

theorem leadingDigit (positive : 0 < n) : (write 10 n).head? ≠ some '0' := by
  induction n using Nat.strongRecOn with
  | ind n ih =>
    rw [write, Nat.toDigits_eq_if (by decide)]
    split
    · rename_i small
      have other : ∀ d < 10, 0 < d → some d.digitChar ≠ some '0' := by decide
      exact other n small positive
    · rename_i big
      have first := ih (n / 10) (Nat.div_lt_self positive (by decide)) (by omega)
      obtain ⟨c, cs, whole⟩ := List.exists_cons_of_ne_nil (Nat.toDigits_ne_nil (n := n / 10) (b := 10))
      rw [write, whole] at first
      rw [whole]
      exact first

theorem digitWider {base more d : Nat} {c : Char} (digit : digit? base c = some d) (wide : base ≤ more) :
    digit? more c = some d := by
  grind [digit?]

theorem digitRange {c : Char} {d : Nat} (digit : digit? base c = some d) :
    ('0' ≤ c ∧ c ≤ '9') ∨ ('a' ≤ c ∧ c ≤ 'z') ∨ ('A' ≤ c ∧ c ≤ 'Z') := by
  grind [digit?]

theorem zeroDigit {c : Char} (zero : digit? base c = some 0) : c = '0' := by
  unfold digit? at zero
  dsimp only at zero
  rw [Option.ite_none_right_eq_some, Option.some.injEq] at zero
  obtain ⟨small, zero⟩ := zero
  rw [zero] at small
  by_cases digit : '0' ≤ c ∧ c ≤ '9'
  · rw [if_pos digit] at zero
    have low : '0'.toNat ≤ c.toNat := digit.1
    exact Char.toNat_inj.mp (by omega)
  · rw [if_neg digit] at zero
    repeat' split at zero
    all_goals omega

end FirewallAgent.Text.Numeral

import FirewallAgent.Verdict

/-!
The decision cache: an unbounded map from keys to verdicts that the service switches on and off.
While it is off nothing enters, leaves or answers, except that a purge empties it.
-/
namespace FirewallAgent

structure DecisionCache (κ : Type) where
  enabled : Bool := false
  entries : List (κ × Verdict) := []
  deriving DecidableEq, Repr, Inhabited

namespace DecisionCache
variable {κ : Type} [DecidableEq κ]

def find? (c : DecisionCache κ) (k : κ) : Option Verdict :=
  (c.entries.find? fun e => e.1 = k).map Prod.snd

def without (c : DecisionCache κ) (k : κ) : List (κ × Verdict) := c.entries.filter fun e => e.1 ≠ k

def put (c : DecisionCache κ) (k : κ) (v : Verdict) : DecisionCache κ :=
  if v = .unknown ∨ c.enabled = false then c else { c with entries := (k, v) :: c.without k }

def get (c : DecisionCache κ) (k : κ) : Option Verdict := if c.enabled then c.find? k else none

def clear (c : DecisionCache κ) : DecisionCache κ := if c.enabled then { c with entries := [] } else c

def purge (c : DecisionCache κ) : DecisionCache κ := { c with entries := [] }

def setEnabled (c : DecisionCache κ) (on : Bool) : DecisionCache κ := { c with enabled := on }

def size (c : DecisionCache κ) : Nat := c.entries.length

theorem findPut (c : DecisionCache κ) (k j : κ) (v : Verdict) :
    (c.put k v).find? j =
      if v ≠ .unknown ∧ c.enabled = true ∧ j = k then some v else c.find? j := by
  unfold put
  split
  · rename_i h
    rw [if_neg]
    rintro ⟨hv, he, -⟩
    rcases h with h | h <;> simp_all
  · rename_i h
    simp only [not_or, Bool.not_eq_false] at h
    by_cases hj : j = k
    · simp [find?, hj, h.1, h.2]
    · have : ¬ k = j := fun e => hj e.symm
      simp only [find?, without, List.find?_cons, decide_eq_false this, List.find?_filter, hj,
        and_false, if_false]
      congr 2
      funext e
      by_cases he : e.1 = j <;> simp_all

theorem enabledPut (c : DecisionCache κ) (k : κ) (v : Verdict) : (c.put k v).enabled = c.enabled := by
  unfold put
  split <;> rfl

theorem memOfGet {c : DecisionCache κ} {k : κ} {v : Verdict} (hit : c.get k = some v) :
    (k, v) ∈ c.entries := by
  unfold get find? at hit
  split at hit
  · obtain ⟨e, found, same⟩ := Option.map_eq_some_iff.mp hit
    have key : e.1 = k := by simpa using List.find?_some found
    have entry : e = (k, v) := Prod.ext key same
    exact entry ▸ List.mem_of_find?_eq_some found
  · contradiction

theorem memPut {c : DecisionCache κ} {k : κ} {v : Verdict} {e : κ × Verdict}
    (there : e ∈ (c.put k v).entries) : (e = (k, v) ∧ c.enabled = true) ∨ e ∈ c.entries := by
  unfold put at there
  split at there
  · exact .inr there
  · rename_i taken
    rcases List.mem_cons.mp there with same | kept
    · simp only [not_or, Bool.not_eq_false] at taken
      exact .inl ⟨same, taken.2⟩
    · exact .inr (List.mem_filter.mp kept).1

end DecisionCache
end FirewallAgent

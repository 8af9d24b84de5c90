import FirewallAgent.Lock.Segment

/-! Who holds the mutex of a segment. Taking it needs a segment without an owner, and only the owner
gives it back. -/
namespace FirewallAgent.Lock.Host

def owner? (h : Host) (i : Nat) : Option Nat := (h.segment? i).bind Segment.owner

theorem updatedSegment (h : Host) (i : Nat) (f : Segment → Segment) :
    (h.update i f).segment? i = (h.segment? i).map f := by
  simp [update, segment?]

theorem acquiredOwner {h k : Host} {i holder : Nat} (ok : h.acquire? i holder = some k) :
    h.owner? i = none ∧ k.owner? i = some holder := by
  unfold acquire? at ok
  cases found : h.segment? i with
  | none => simp [found] at ok
  | some s =>
    simp only [found] at ok
    split at ok
    · contradiction
    · rename_i free
      cases Option.some.inj ok
      refine ⟨?_, ?_⟩
      · simpa [owner?, found] using free
      · rw [owner?, updatedSegment, found]
        rfl

theorem releasedOwner {h : Host} {i holder : Nat} (held : h.owner? i = some holder) :
    (h.release i holder).owner? i = none := by
  unfold owner? at held ⊢
  cases found : h.segment? i with
  | none => simp [found] at held
  | some s =>
    have owner : s.owner = some holder := by simpa [found] using held
    rw [release, updatedSegment, found]
    simp [owner]

end FirewallAgent.Lock.Host

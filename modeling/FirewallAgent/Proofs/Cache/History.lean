import FirewallAgent.Cache.Recency
import Mathlib.Data.Finset.Card
import Mathlib.Data.List.DropRight

/-! The history of a bounded cache, and what it says of a key without a look at the cache: whether it was
put and not removed again, with which value, and which other keys have been touched since it was touched
itself. A key is kept for as long as these others are fewer than the places. -/
namespace FirewallAgent.RecencyCache

inductive Use (κ α : Type) where
  | put (k : κ) (v : α)
  | get (k : κ)
  | remove (k : κ)
  | size
  deriving DecidableEq

inductive Event (κ α : Type) where
  | put (k : κ) (v : α)
  | got (k : κ) (answer : Option α)
  | removed (k : κ) (answer : Option α)
  | counted (n : Nat)
  deriving DecidableEq

variable {κ α : Type} [DecidableEq κ]

def step (c : RecencyCache κ α) : Use κ α → RecencyCache κ α × Event κ α
  | .put k v => (c.put k v, .put k v)
  | .get k => ((c.get k).1, .got k (c.get k).2)
  | .remove k => ((c.remove k).1, .removed k (c.remove k).2)
  | .size => (c, .counted c.size)

def run (c : RecencyCache κ α) : List (Use κ α) → RecencyCache κ α × List (Event κ α)
  | [] => (c, [])
  | u :: us => ((run (c.step u).1 us).1, (c.step u).2 :: (run (c.step u).1 us).2)

def Idle (c : RecencyCache κ α) : Use κ α → Prop
  | .put .. => False
  | .get k => (c.get k).2 = none
  | .remove k => (c.remove k).2 = none
  | .size => True

namespace Event

def touched? : Event κ α → Option κ
  | .put k _ => some k
  | .got k (some _) => some k
  | _ => none

def value? (k : κ) : Event κ α → Option α
  | .put j v => if j = k then some v else none
  | _ => none

def touches (k : κ) (e : Event κ α) : Bool := e.touched? = some k

def puts (k : κ) (e : Event κ α) : Bool := (e.value? k).isSome

def removes (k : κ) : Event κ α → Bool
  | .removed j _ => j = k
  | _ => false

theorem valueNothing {k : κ} {e : Event κ α} (other : e.touched? ≠ some k) : e.value? k = none := by
  cases e with
  | put j v => simpa [value?, touched?] using other
  | got j answer => rfl
  | removed j answer => rfl
  | counted n => rfl

theorem putsNothing {k : κ} {e : Event κ α} (other : e.touched? ≠ some k) : e.puts k = false := by
  rw [puts, valueNothing other]
  rfl

theorem removesNothing {j k : κ} {e : Event κ α} (touch : e.touched? = some j) : e.removes k = false := by
  cases e with
  | removed i answer => contradiction
  | _ => rfl

theorem removesOther {j k : κ} {answer : Option α} :
    (removed k answer).removes j = false ↔ j ≠ k := by
  simp [removes, eq_comm (a := j)]

end Event

def since (log : List (Event κ α)) (k : κ) : List (Event κ α) := log.rtakeWhile fun e => !e.touches k

def isGone (log : List (Event κ α)) (k : κ) : Bool :=
  (log.rtakeWhile fun e => !e.puts k).any fun e => e.removes k

def crowd (log : List (Event κ α)) (k : κ) : Finset κ :=
  ((since log k).filterMap Event.touched?).toFinset.filter fun j => isGone log j = false

def lastValue? (log : List (Event κ α)) (k : κ) : Option α := log.reverse.findSome? (Event.value? k)

/- The key was put, was not removed after its last put, and has not been crowded out at any time since its
last touch. Each such time is given by what had been logged until then. -/
structure Kept (limit : Nat) (log : List (Event κ α)) (k : κ) : Prop where
  was : ∃ e ∈ log, e.puts k = true
  stays : isGone log k = false
  roomy : ∀ earlier later, log = earlier ++ later → (∀ e ∈ later, e.touches k = false) →
    (crowd earlier k).card < limit

variable {log : List (Event κ α)} {e : Event κ α} {j k : κ} {v : α} {limit : Nat}

theorem sinceNext : since (log ++ [e]) k = if e.touches k then [] else since log k ++ [e] := by
  rw [since, List.rtakeWhile_concat]
  cases e.touches k <;> rfl

theorem goneNext : isGone (log ++ [e]) k = (!e.puts k && (isGone log k || e.removes k)) := by
  rw [isGone, List.rtakeWhile_concat]
  cases e.puts k with
  | true => rfl
  | false => simp [isGone]

theorem lastValueNext : lastValue? (log ++ [e]) k = (e.value? k).or (lastValue? log k) := by
  cases value : e.value? k with
  | none => simp [lastValue?, value]
  | some v => simp [lastValue?, value]

theorem memCrowd :
    j ∈ crowd log k ↔ (∃ e ∈ since log k, e.touched? = some j) ∧ isGone log j = false := by
  simp [crowd]

theorem crowdTouched (touch : e.touched? = some k) : crowd (log ++ [e]) k = ∅ := by
  simp [crowd, sinceNext, Event.touches, touch]

theorem memCrowdNext (other : e.touched? ≠ some k) : j ∈ crowd (log ++ [e]) k ↔
    ((∃ x ∈ since log k, x.touched? = some j) ∨ e.touched? = some j) ∧
      isGone (log ++ [e]) j = false := by
  have kept : e.touches k = false := decide_eq_false other
  rw [memCrowd, sinceNext, kept]
  simp [or_and_right, exists_or]

theorem goneOther (other : e.touched? ≠ some k) :
    isGone (log ++ [e]) k = (isGone log k || e.removes k) := by
  rw [goneNext, Event.putsNothing other]
  rfl

theorem crowdGrows (touch : e.touched? = some j) (stays : isGone (log ++ [e]) j = false) (other : j ≠ k) :
    crowd (log ++ [e]) k = insert j (crowd log k) := by
  have apart : e.touched? ≠ some k := by simpa [touch] using other
  ext i
  rw [memCrowdNext apart, Finset.mem_insert, memCrowd, touch]
  by_cases same : i = j
  · simp [same, stays]
  · have elsewhere : e.touched? ≠ some i := by simpa [touch] using Ne.symm same
    simp [goneOther elsewhere, Event.removesNothing touch, same, Ne.symm same]

theorem crowdShrinks (quiet : e.touched? = none) :
    crowd (log ++ [e]) k = (crowd log k).filter fun j => e.removes j = false := by
  ext i
  rw [memCrowdNext (by simp [quiet]), Finset.mem_filter, memCrowd, goneOther (by simp [quiet]), quiet]
  simp [and_assoc]

theorem keptTouched (positive : 0 < limit) (touch : e.touched? = some k)
    (stays : isGone (log ++ [e]) k = false) (was : ∃ x ∈ log ++ [e], x.puts k = true) :
    Kept limit (log ++ [e]) k := by
  refine ⟨was, stays, ?_⟩
  intro earlier later parts quiet
  rcases List.eq_nil_or_concat' later with rfl | ⟨rest, x, rfl⟩
  · rw [List.append_nil] at parts
    rwa [← parts, crowdTouched touch, Finset.card_empty]
  · rw [← List.append_assoc] at parts
    have same : e = x := (List.cons.inj (List.append_inj_right' parts rfl)).1
    have loud : e.touches k = true := decide_eq_true touch
    exact absurd (quiet x (by simp)) (by simp [← same, loud])

theorem keptNext (other : e.touched? ≠ some k) : Kept limit (log ++ [e]) k ↔
    Kept limit log k ∧ e.removes k = false ∧ (crowd (log ++ [e]) k).card < limit := by
  have quiet : e.touches k = false := decide_eq_false other
  constructor
  · rintro ⟨was, stays, roomy⟩
    rw [goneOther other, Bool.or_eq_false_iff] at stays
    refine ⟨⟨?_, stays.1, ?_⟩, stays.2, roomy _ [] (by simp) (by simp)⟩
    · simpa [or_and_right, exists_or, Event.putsNothing other] using was
    · intro earlier later parts calm
      refine roomy earlier (later ++ [e]) (by rw [parts, List.append_assoc]) ?_
      simpa [or_imp, forall_and, quiet] using calm
  · rintro ⟨⟨⟨x, there, puts⟩, stays, roomy⟩, unremoved, room⟩
    refine ⟨⟨x, List.mem_append_left _ there, puts⟩, by rw [goneOther other, stays, unremoved]; rfl, ?_⟩
    intro earlier later parts calm
    rcases List.eq_nil_or_concat' later with rfl | ⟨rest, x, rfl⟩
    · rw [List.append_nil] at parts
      rwa [← parts]
    · rw [← List.append_assoc] at parts
      have before : log = earlier ++ rest := List.append_inj_left' parts rfl
      exact roomy earlier rest before fun y hy => calm y (List.mem_append_left _ hy)

end FirewallAgent.RecencyCache

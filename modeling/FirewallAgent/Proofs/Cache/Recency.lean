import FirewallAgent.Proofs.Cache.History

/-! A bounded cache holds exactly the keys that its history keeps. The entries stand in the order of their
last touches, so the keys in front of one are those that crowd it, and the one that falls out at the end is
crowded by as many as there are places. -/
namespace FirewallAgent.RecencyCache

variable {κ α : Type} [DecidableEq κ]
variable {log : List (Event κ α)} {e : Event κ α} {j k : κ} {v : α} {limit : Nat}
variable {c : RecencyCache κ α} {u : Use κ α}

def keys (c : RecencyCache κ α) : List κ := c.entries.map Prod.fst

def ahead (l : List κ) (k : κ) : List κ := l.takeWhile fun j => j ≠ k

theorem memTake {l : List κ} {n : Nat} : k ∈ l.take n ↔ k ∈ l ∧ (ahead l k).length < n := by
  induction l generalizing n with
  | nil => simp
  | cons j l ih =>
    cases n with
    | zero => simp
    | succ n =>
      by_cases same : j = k
      · simp [ahead, same]
      · simp [ahead, same, Ne.symm same, ih]

theorem aheadTake {l : List κ} {n : Nat} (there : k ∈ l.take n) : ahead (l.take n) k = ahead l k := by
  induction l generalizing n with
  | nil => simp at there
  | cons j l ih =>
    cases n with
    | zero => simp at there
    | succ n =>
      by_cases same : j = k
      · simp [ahead, same]
      · have later : k ∈ l.take n := by simpa [Ne.symm same] using there
        simpa [ahead, same] using ih later

theorem aheadFilter {l : List κ} (other : j ≠ k) :
    ahead (l.filter fun i => i ≠ k) j = (ahead l j).filter fun i => i ≠ k := by
  induction l with
  | nil => rfl
  | cons i l ih =>
    by_cases here : i = j
    · simp [ahead, here, other]
    · by_cases dropped : i = k
      · simpa [ahead, dropped, Ne.symm other] using ih
      · simpa [ahead, here, dropped] using ih

def toFront (k : κ) (l : List κ) : List κ := k :: l.filter fun j => j ≠ k

theorem memToFront {l : List κ} : j ∈ toFront k l ↔ j = k ∨ j ∈ l := by
  by_cases same : j = k <;> simp [toFront, same]

theorem nodupToFront {l : List κ} (distinct : l.Nodup) : (toFront k l).Nodup :=
  List.nodup_cons.mpr ⟨by simp, distinct.filter _⟩

theorem aheadFront (l : List κ) : ahead (toFront k l) k = [] := by
  simp [ahead, toFront]

theorem aheadToFront {l : List κ} (other : j ≠ k) :
    (ahead (toFront k l) j).toFinset = insert k (ahead l j).toFinset := by
  have further : ahead (toFront k l) j = k :: ahead (l.filter fun i => i ≠ k) j := by
    simp [ahead, toFront, Ne.symm other]
  rw [further, aheadFilter other]
  ext i
  by_cases same : i = k <;> simp [same]

theorem aheadCard {l : List κ} (distinct : l.Nodup) (j : κ) :
    (ahead l j).length = (ahead l j).toFinset.card :=
  (List.toFinset_card_of_nodup (distinct.sublist (List.takeWhile_sublist _))).symm

theorem keysWithout : (c.without k).map Prod.fst = c.keys.filter fun j => j ≠ k := by
  rw [keys, List.filter_map]
  rfl

theorem findNone : c.find? k = none ↔ k ∉ c.keys := by
  simp only [find?, keys, Option.map_eq_none_iff, List.find?_eq_none, decide_eq_true_eq, List.mem_map,
    not_exists, not_and]

theorem findMember (found : c.find? k = some v) : (k, v) ∈ c.entries := by
  obtain ⟨x, there, same⟩ := Option.map_eq_some_iff.mp found
  have key : x.1 = k := by simpa using List.find?_some there
  have whole : x = (k, v) := Prod.ext key same
  exact whole ▸ List.mem_of_find?_eq_some there

theorem getAnswer : (c.get k).2 = c.find? k := by
  unfold get
  split <;> simp_all

structure Mirrors (limit : Nat) (log : List (Event κ α)) (c : RecencyCache κ α) : Prop where
  capacity : c.capacity = limit
  small : c.entries.length ≤ limit
  distinct : c.keys.Nodup
  crowds : ∀ k ∈ c.keys, (ahead c.keys k).toFinset = crowd log k
  kept : ∀ k, k ∈ c.keys ↔ Kept limit log k
  values : ∀ x ∈ c.entries, lastValue? log x.1 = some x.2

theorem Mirrors.ofCapacity (n : Nat) : Mirrors (max n 1) [] (ofCapacity n : RecencyCache κ α) where
  capacity := rfl
  small := Nat.zero_le _
  distinct := List.nodup_nil
  crowds := by simp [keys, RecencyCache.ofCapacity]
  kept k := by
    constructor
    · intro there
      simp [keys, RecencyCache.ofCapacity] at there
    · rintro ⟨⟨e, there, _⟩, _, _⟩
      simp at there
  values := by simp [RecencyCache.ofCapacity]

theorem Mirrors.touched (h : Mirrors limit log c) (positive : 0 < limit) (touch : e.touched? = some k)
    (value : lastValue? (log ++ [e]) k = some v) (stays : isGone (log ++ [e]) k = false)
    (was : ∃ x ∈ log ++ [e], x.puts k = true) :
    Mirrors limit (log ++ [e]) { c with entries := ((k, v) :: c.without k).take c.capacity } := by
  obtain rfl := h.capacity
  have elsewhere : ∀ {j}, j ≠ k → e.touched? ≠ some j := by
    intro j other
    simpa [touch] using other.symm
  have order : (((k, v) :: c.without k).take c.capacity).map Prod.fst =
      (toFront k c.keys).take c.capacity := by
    rw [List.map_take, List.map_cons, keysWithout, toFront]
  have distinct := nodupToFront (k := k) h.distinct
  -- whoever is in front of another key now was so before, or was touched just now
  have crowds : ∀ j ∈ toFront k c.keys, (ahead (toFront k c.keys) j).toFinset = crowd (log ++ [e]) j := by
    intro j there
    by_cases same : j = k
    · rw [same, aheadFront, crowdTouched touch]
      rfl
    · have old := (memToFront.mp there).resolve_left same
      rw [aheadToFront same, h.crowds j old, crowdGrows touch stays (Ne.symm same)]
  have places : ∀ j ∈ toFront k c.keys,
      (ahead (toFront k c.keys) j).length = (crowd (log ++ [e]) j).card := by
    intro j there
    rw [aheadCard distinct, crowds j there]
  refine ⟨rfl, List.length_take_le _ _, ?_, ?_, ?_, ?_⟩
  · rw [keys, order]
    exact distinct.sublist (List.take_sublist _ _)
  · intro j there
    rw [keys, order] at *
    rw [aheadTake there, crowds j (List.mem_of_mem_take there)]
  · intro j
    rw [keys, order, memTake]
    by_cases same : j = k
    · rw [same, aheadFront]
      exact iff_of_true ⟨memToFront.mpr (.inl rfl), positive⟩ (keptTouched positive touch stays was)
    · rw [keptNext (elsewhere same), ← h.kept, Event.removesNothing touch]
      constructor
      · rintro ⟨there, room⟩
        rw [places j there] at room
        exact ⟨(memToFront.mp there).resolve_left same, rfl, room⟩
      · rintro ⟨old, _, room⟩
        have there : j ∈ toFront k c.keys := memToFront.mpr (.inr old)
        exact ⟨there, by rwa [places j there]⟩
  · intro x there
    rcases List.mem_cons.mp (List.mem_of_mem_take there) with rfl | old
    · exact value
    · obtain ⟨member, other⟩ := List.mem_filter.mp old
      rw [lastValueNext, Event.valueNothing (elsewhere (by simpa using other))]
      exact h.values x member

theorem Mirrors.removed (h : Mirrors limit log c) (answer : Option α) :
    Mirrors limit (log ++ [.removed k answer]) { c with entries := c.without k } := by
  have quiet : (Event.removed k answer).touched? = none := rfl
  have crowds : ∀ j, crowd (log ++ [.removed k answer]) j = (crowd log j).filter fun i => i ≠ k := by
    intro j
    rw [crowdShrinks quiet]
    simp only [Event.removesOther]
  refine ⟨h.capacity, (List.length_filter_le _ _).trans h.small, ?_, ?_, ?_, ?_⟩
  · rw [keys, keysWithout]
    exact h.distinct.filter _
  · intro j there
    rw [keys, keysWithout] at *
    obtain ⟨old, other⟩ := List.mem_filter.mp there
    rw [aheadFilter (by simpa using other), List.toFinset_filter, h.crowds j old, crowds]
    simp
  · intro j
    rw [keys, keysWithout, List.mem_filter, keptNext (by simp [quiet]), crowds, h.kept]
    constructor
    · rintro ⟨old, other⟩
      have room := old.roomy log [] (by simp) (by simp)
      exact ⟨old, Event.removesOther.mpr (by simpa using other),
        (Finset.card_filter_le _ _).trans_lt room⟩
    · rintro ⟨old, other, _⟩
      exact ⟨old, by simpa using Event.removesOther.mp other⟩
  · intro x there
    rw [lastValueNext]
    exact h.values x (List.mem_filter.mp there).1

theorem Mirrors.idle (h : Mirrors limit log c) (quiet : e.touched? = none)
    (calm : ∀ k, e.removes k = false) : Mirrors limit (log ++ [e]) c := by
  have crowds : ∀ k, crowd (log ++ [e]) k = crowd log k := by
    intro k
    rw [crowdShrinks quiet]
    simp [calm]
  refine ⟨h.capacity, h.small, h.distinct, ?_, ?_, ?_⟩
  · intro k there
    rw [h.crowds k there, crowds]
  · intro k
    rw [h.kept, keptNext (by simp [quiet]), crowds]
    constructor
    · intro old
      exact ⟨old, calm k, old.roomy log [] (by simp) (by simp)⟩
    · exact And.left
  · intro x there
    rw [lastValueNext, Event.valueNothing (by simp [quiet])]
    exact h.values x there

theorem Mirrors.put (h : Mirrors limit log c) (positive : 0 < limit) (k : κ) (v : α) :
    Mirrors limit (log ++ [.put k v]) (c.put k v) := by
  have touch : (Event.put k v).touched? = some k := rfl
  have puts : (Event.put k v).puts k = true := by simp [Event.puts, Event.value?]
  have value : lastValue? (log ++ [.put k v]) k = some v := by simp [lastValueNext, Event.value?]
  have stays : isGone (log ++ [.put k v]) k = false := by simp [goneNext, puts]
  exact h.touched positive touch value stays ⟨_, by simp, puts⟩

theorem Mirrors.hit (h : Mirrors limit log c) (positive : 0 < limit) (found : c.find? k = some v) :
    Mirrors limit (log ++ [.got k (some v)]) { c with entries := (k, v) :: c.without k } := by
  have member := findMember found
  have there : k ∈ c.keys := List.mem_map_of_mem member
  obtain ⟨⟨x, old, puts⟩, stays, _⟩ := (h.kept k).mp there
  have touch : (Event.got k (some v)).touched? = some k := rfl
  have value : lastValue? (log ++ [.got k (some v)]) k = some v := by
    rw [lastValueNext, h.values _ member]
    rfl
  have still : isGone (log ++ [.got k (some v)]) k = false := by
    rw [goneNext, stays]
    simp [Event.removes]
  have room : ((k, v) :: c.without k).length ≤ c.capacity := by
    have shorter : (c.without k).length < c.entries.length :=
      List.length_filter_lt_length_iff_exists.mpr ⟨_, member, by simp⟩
    exact Nat.le_trans shorter (h.capacity ▸ h.small)
  have next := h.touched positive touch value still ⟨x, List.mem_append_left _ old, puts⟩
  rwa [List.take_of_length_le room] at next

theorem stepMirrors (positive : 0 < limit) (h : Mirrors limit log c) (u : Use κ α) :
    Mirrors limit (log ++ [(c.step u).2]) (c.step u).1 := by
  cases u with
  | put k v => exact h.put positive k v
  | get k =>
    cases found : c.find? k with
    | none => simpa [step, get, found] using h.idle (e := .got k none) rfl fun _ => rfl
    | some v => simpa [step, get, found] using h.hit positive found
  | remove k => exact h.removed _
  | size => exact h.idle rfl fun _ => rfl

theorem runMirrors (positive : 0 < limit) (h : Mirrors limit log c) (us : List (Use κ α)) :
    Mirrors limit (log ++ (c.run us).2) (c.run us).1 := by
  induction us generalizing log c with
  | nil => simpa [run] using h
  | cons u us ih => simpa [run] using ih (stepMirrors positive h u)

theorem idleStays (h : Idle c u) : (c.step u).1 = c := by
  cases u with
  | put k v => contradiction
  | get k =>
    have missing : c.find? k = none := getAnswer.symm.trans h
    simp [step, get, missing]
  | remove k =>
    have absent : ∀ x ∈ c.entries, x.1 ≠ k := by
      intro x there same
      exact findNone.mp h (same ▸ List.mem_map_of_mem there)
    have whole : c.without k = c.entries := List.filter_eq_self.mpr (by simpa using absent)
    simp [step, remove, whole]
  | size => rfl

structure Exact (limit : Nat) (log : List (Event κ α)) (c : RecencyCache κ α) : Prop where
  hits : ∀ k, (c.get k).2 ≠ none ↔ Kept limit log k
  values : ∀ k v, (c.get k).2 = some v → lastValue? log k = some v
  bounded : c.size ≤ limit
  counts : ∃ held : Finset κ, held.card = c.size ∧ ∀ k, k ∈ held ↔ Kept limit log k
  idles : ∀ u, Idle c u → ∀ later, (c.run (u :: later)).2 = (c.step u).2 :: (c.run later).2

theorem answersFollowHistory (capacity : Nat) (us : List (Use κ α)) :
    Exact (max capacity 1) (run (ofCapacity capacity) us).2 (run (ofCapacity capacity) us).1 := by
  have positive : 0 < max capacity 1 := capacityPositive (κ := κ) (α := α) capacity
  have mirrors := runMirrors positive (.ofCapacity capacity) us
  rw [List.nil_append] at mirrors
  refine ⟨?_, ?_, mirrors.small, ?_, ?_⟩
  · intro k
    rw [getAnswer, ne_eq, findNone, not_not, mirrors.kept]
  · intro k v found
    rw [getAnswer] at found
    exact mirrors.values _ (findMember found)
  · refine ⟨(keys (run (ofCapacity capacity) us).1).toFinset, ?_, ?_⟩
    · rw [List.toFinset_card_of_nodup mirrors.distinct, keys, List.length_map, size]
    · intro k
      rw [List.mem_toFinset, mirrors.kept]
  · intro u idle later
    rw [run, idleStays idle]

def visits : List (Use Nat Nat) :=
  [.put 1 10, .put 2 20, .get 1, .put 3 30, .remove 1, .put 4 40, .get 3]

theorem crowdedKeyIsForgotten :
    (∀ k, k = 3 ∨ k = 4 → Kept 2 (run (ofCapacity 2) visits).2 k) ∧
    (∀ k, k = 1 ∨ k = 2 → ¬ Kept 2 (run (ofCapacity 2) visits).2 k) ∧
    lastValue? (run (ofCapacity 2) visits).2 3 = some 30 ∧
    Idle (run (ofCapacity 2) visits).1 (.get 2) ∧
    ∀ later, ((run (ofCapacity 2) visits).1.run (.get 2 :: later)).2 =
      .got 2 none :: ((run (ofCapacity 2) visits).1.run later).2 := by
  have tells := answersFollowHistory 2 visits
  have missed : Idle (run (ofCapacity 2) visits).1 (.get 2) := rfl
  refine ⟨?_, ?_, tells.values 3 30 rfl, missed, tells.idles (.get 2) missed⟩
  · rintro k (rfl | rfl)
    · exact (tells.hits 3).mp (by decide)
    · exact (tells.hits 4).mp (by decide)
  · rintro k (rfl | rfl) kept
    · exact (tells.hits 1).mpr kept rfl
    · exact (tells.hits 2).mpr kept rfl

end FirewallAgent.RecencyCache

import FirewallAgent.Cache.Decision
import Mathlib.Data.Finset.Card
import Mathlib.Data.List.Basic

/-! What the decision cache answers, told by what was done with it. Some uses have no effect: while the cache
is off a put and a clear do nothing, and a put of an unknown verdict never does. The others alone decide
what is stored, and the last switch decides whether it is shown. -/
namespace FirewallAgent.DecisionCache

inductive Use (κ : Type) where
  | put (k : κ) (v : Verdict)
  | get (k : κ)
  | clear
  | purge
  | switch (on : Bool)
  deriving DecidableEq

variable {κ : Type}

namespace Use

def switched? : Use κ → Option Bool
  | .switch on => some on
  | _ => none

def effective (on : Bool) : Use κ → Bool
  | .put _ v => on && decide (v ≠ .unknown)
  | .clear => on
  | .purge => true
  | _ => false

def empties : Use κ → Bool
  | .clear | .purge => true
  | _ => false

def puts [DecidableEq κ] (k : κ) : Use κ → Bool
  | .put j _ => j = k
  | _ => false

end Use

def flag (on : Bool) (us : List (Use κ)) : Bool := us.foldl (fun on u => u.switched?.getD on) on

def effects (on : Bool) : List (Use κ) → List (Use κ)
  | [] => []
  | u :: us => (if u.effective on then [u] else []) ++ effects (u.switched?.getD on) us

def Followed (log : List (Use κ)) (u : Use κ) (test : Use κ → Bool) : Prop :=
  ∃ earlier later, log = earlier ++ u :: later ∧ ∀ x ∈ later, test x = true

def Stands (log : List (Use κ)) (k : κ) : Prop := ∃ v, Followed log (.put k v) fun x => !x.empties

def LastPut [DecidableEq κ] (log : List (Use κ)) (k : κ) (v : Verdict) : Prop :=
  Followed log (.put k v) fun x => !x.puts k

variable {on : Bool} {us log : List (Use κ)} {u x : Use κ} {j k : κ} {v w : Verdict}

theorem flagNext : flag on (us ++ [u]) = u.switched?.getD (flag on us) := by
  simp [flag]

theorem effectsNext :
    effects on (us ++ [u]) = effects on us ++ if u.effective (flag on us) then [u] else [] := by
  induction us generalizing on with
  | nil => exact List.append_nil _
  | cons x us ih =>
    have later : flag on (x :: us) = flag (x.switched?.getD on) us := rfl
    rw [List.cons_append, effects, effects, ih, later, List.append_assoc]

theorem followedNext {test : Use κ → Bool} :
    Followed (log ++ [u]) x test ↔ x = u ∨ (test u = true ∧ Followed log x test) := by
  constructor
  · rintro ⟨earlier, later, parts, fine⟩
    rcases List.eq_nil_or_concat' later with rfl | ⟨later, y, rfl⟩
    · exact .inl (List.cons.inj (List.append_inj_right' parts rfl)).1.symm
    · rw [← List.cons_append, ← List.append_assoc] at parts
      have same : u = y := (List.cons.inj (List.append_inj_right' parts rfl)).1
      have front : log = earlier ++ x :: later := List.append_inj_left' parts rfl
      exact .inr ⟨same ▸ fine y (by simp), earlier, later, front, fun z there => fine z (by simp [there])⟩
  · rintro (rfl | ⟨fine, earlier, later, rfl, rest⟩)
    · exact ⟨log, [], rfl, by simp⟩
    · refine ⟨earlier, later ++ [u], by simp, ?_⟩
      simpa [or_imp, forall_and, fine] using rest

theorem followedNothing {test : Use κ → Bool} : ¬ Followed [] x test := by
  rintro ⟨earlier, later, parts, _⟩
  simp at parts

variable [DecidableEq κ]

theorem putsIff : u.puts k = true ↔ ∃ v, .put k v = u := by
  cases u <;> simp [Use.puts, eq_comm]

theorem standsNext : Stands (log ++ [u]) k ↔ u.puts k = true ∨ (u.empties = false ∧ Stands log k) := by
  simp only [Stands, followedNext, exists_or, exists_and_left, Bool.not_eq_true', putsIff]

theorem lastPutNext : LastPut (log ++ [u]) k v ↔ .put k v = u ∨ (u.puts k = false ∧ LastPut log k v) := by
  simp only [LastPut, followedNext, Bool.not_eq_true']

theorem standsLast (stands : Stands log k) : ∃ v, LastPut log k v := by
  induction log using List.reverseRecOn with
  | nil =>
    obtain ⟨v, followed⟩ := stands
    exact absurd followed followedNothing
  | append_singleton log u ih =>
    cases own : u.puts k with
    | true =>
      obtain ⟨v, same⟩ := putsIff.mp own
      exact ⟨v, lastPutNext.mpr (.inl same)⟩
    | false =>
      -- what emptied the cache since would have taken the old put with it
      have old := ((standsNext.mp stands).resolve_left (by simp [own])).2
      obtain ⟨v, last⟩ := ih old
      exact ⟨v, lastPutNext.mpr (.inr ⟨own, last⟩)⟩

variable {c : DecisionCache κ}

def step (c : DecisionCache κ) : Use κ → DecisionCache κ
  | .put k v => c.put k v
  | .get _ => c
  | .clear => c.clear
  | .purge => c.purge
  | .switch on => c.setEnabled on

def after (on : Bool) (us : List (Use κ)) : DecisionCache κ := us.foldl step { enabled := on }

structure Mirrors (log : List (Use κ)) (c : DecisionCache κ) : Prop where
  answers : ∀ k v, c.find? k = some v ↔ Stands log k ∧ LastPut log k v
  distinct : (c.entries.map Prod.fst).Nodup

theorem findNone : c.find? k = none ↔ k ∉ c.entries.map Prod.fst := by
  simp only [find?, Option.map_eq_none_iff, List.find?_eq_none, decide_eq_true_eq, List.mem_map,
    not_exists, not_and]

theorem putTaken (known : v ≠ .unknown) (enabled : c.enabled = true) :
    c.put k v = { c with entries := (k, v) :: c.without k } := by
  simp [put, known, enabled]

theorem putIgnored (idle : c.enabled = false ∨ v = .unknown) : c.put k v = c := if_pos idle.symm

theorem Mirrors.put (h : Mirrors log c) (known : v ≠ .unknown) (enabled : c.enabled = true) :
    Mirrors (log ++ [.put k v]) (c.put k v) where
  answers j w := by
    rw [findPut, standsNext, lastPutNext]
    by_cases same : j = k
    · simpa [same, known, enabled, Use.puts] using eq_comm
    · simp [same, Ne.symm same, Use.puts, Use.empties, h.answers]
  distinct := by
    rw [putTaken known enabled]
    refine List.nodup_cons.mpr ⟨by simp [without], ?_⟩
    exact h.distinct.sublist (List.filter_sublist.map Prod.fst)

theorem Mirrors.emptied (enabled : Bool) (empties : u.empties = true) :
    Mirrors (log ++ [u]) { enabled } where
  answers k v := by
    have other : u.puts k = false := by cases u <;> simp_all [Use.empties, Use.puts]
    simp [find?, standsNext, empties, other]
  distinct := List.nodup_nil

theorem Mirrors.switched (h : Mirrors log c) (on : Bool) : Mirrors log (c.setEnabled on) :=
  ⟨h.answers, h.distinct⟩

theorem enabledStep : (c.step u).enabled = u.switched?.getD c.enabled := by
  cases u with
  | put k v => exact enabledPut c k v
  | get k => rfl
  | clear => cases on : c.enabled <;> simp [step, clear, on, Use.switched?]
  | purge => rfl
  | switch on => rfl

theorem stepMirrors (h : Mirrors log c) (u : Use κ) :
    Mirrors (log ++ if u.effective c.enabled then [u] else []) (c.step u) := by
  cases u with
  | put k v =>
    by_cases idle : c.enabled = false ∨ v = .unknown
    · have nothing : (Use.put k v).effective c.enabled = false := by
        rcases idle with off | rfl <;> simp [Use.effective, *]
      rw [nothing, step, putIgnored idle]
      simpa using h
    · simp only [not_or, Bool.not_eq_false] at idle
      have taken : (Use.put k v).effective c.enabled = true := by simp [Use.effective, idle]
      rw [taken]
      exact h.put idle.2 idle.1
  | get k => simpa [step, Use.effective] using h
  | clear =>
    cases enabled : c.enabled with
    | false => simpa [step, clear, enabled, Use.effective] using h
    | true =>
      have emptied : Mirrors (log ++ [.clear]) { enabled := true } := .emptied true rfl
      simpa [step, clear, enabled, Use.effective] using emptied
  | purge => exact .emptied c.enabled rfl
  | switch on => simpa [step, Use.effective] using h.switched on

theorem afterNext : after on (us ++ [u]) = (after on us).step u := by
  simp [after]

theorem afterEnabled (on : Bool) (us : List (Use κ)) : (after on us).enabled = flag on us := by
  induction us using List.reverseRecOn with
  | nil => rfl
  | append_singleton us u ih => rw [afterNext, enabledStep, ih, flagNext]

theorem afterMirrors (on : Bool) (us : List (Use κ)) : Mirrors (effects on us) (after on us) := by
  induction us using List.reverseRecOn with
  | nil => exact ⟨fun k v => by simp [after, find?, Stands, LastPut, effects, followedNothing], List.nodup_nil⟩
  | append_singleton us u ih =>
    -- the cache judges the last use by its own flag, which is the one that the uses before it give
    have next := stepMirrors ih u
    rwa [afterEnabled, ← effectsNext, ← afterNext] at next

theorem storedStands (h : Mirrors log c) : k ∈ c.entries.map Prod.fst ↔ Stands log k := by
  rw [← not_iff_not, ← findNone]
  constructor
  · intro missing stands
    obtain ⟨v, last⟩ := standsLast stands
    exact absurd (missing.symm.trans ((h.answers k v).mpr ⟨stands, last⟩)) nofun
  · intro gone
    refine Option.eq_none_iff_forall_ne_some.mpr fun v found => gone ((h.answers k v).mp found).1

theorem switches (c : DecisionCache κ) (bs : List Bool) (on : Bool) :
    (bs.map Use.switch ++ [Use.switch on]).foldl step c = c.setEnabled on := by
  induction bs generalizing c with
  | nil => rfl
  | cons b bs ih => exact ih (c.setEnabled b)

structure Exact (on : Bool) (us : List (Use κ)) (c : DecisionCache κ) : Prop where
  answers : ∀ k v, c.get k = some v ↔
    flag on us = true ∧ Stands (effects on us) k ∧ LastPut (effects on us) k v
  counts : ∃ held : Finset κ, held.card = c.size ∧ ∀ k, k ∈ held ↔ Stands (effects on us) k

theorem afterExact (on : Bool) (us : List (Use κ)) : Exact on us (after on us) where
  answers k v := by
    rw [get, afterEnabled, ← (afterMirrors on us).answers]
    cases flag on us <;> simp
  counts := by
    refine ⟨((after on us).entries.map Prod.fst).toFinset, ?_, ?_⟩
    · rw [List.toFinset_card_of_nodup (afterMirrors on us).distinct, List.length_map, size]
    · intro k
      rw [List.mem_toFinset, storedStands (afterMirrors on us)]

/- The answers follow the effective uses. A put without effect might as well not have been, whatever comes
after it, and neither might switches that end where they began. -/
theorem answersFollowEffects (on : Bool) :
    (∀ us : List (Use κ), Exact on us (after on us)) ∧
    (∀ (earlier later : List (Use κ)) (k : κ) (v : Verdict), flag on earlier = false ∨ v = .unknown →
      after on (earlier ++ .put k v :: later) = after on (earlier ++ later)) ∧
    ∀ (earlier later : List (Use κ)) (bs : List Bool),
      after on (earlier ++ (bs.map Use.switch ++ [Use.switch (flag on earlier)]) ++ later) =
        after on (earlier ++ later) := by
  refine ⟨afterExact on, ?_, ?_⟩
  · intro earlier later k v idle
    rw [← afterEnabled] at idle
    have same : (after on earlier).step (.put k v) = after on earlier := putIgnored idle
    simp only [after, List.foldl_append, List.foldl_cons] at same ⊢
    rw [same]
  · intro earlier later bs
    have same : (after on earlier).setEnabled (flag on earlier) = after on earlier := by
      rw [← afterEnabled]
      rfl
    rw [after, List.foldl_append, List.foldl_append, switches]
    rw [after] at same
    rw [same, after, List.foldl_append]

/- An entry that is switched off, outlives a clear, and is shown again; what is put meanwhile is not, and an
unknown verdict does not replace it. -/
def toggled : List (Use Nat) :=
  [.put 1 .allow, .switch false, .put 2 .deny, .clear, .switch true, .put 1 .unknown]

theorem toggledEntryIsKept :
    (flag true toggled = true ∧ Stands (effects true toggled) 1 ∧ LastPut (effects true toggled) 1 .allow) ∧
    ¬ Stands (effects true toggled) 2 ∧
    (flag true [.put 1 .allow, .switch false] = false ∧
      after true ([.put 1 .allow, .switch false] ++ .put 2 .deny :: [.clear, .switch true]) =
        after true [Use.put 1 .allow, .switch false, .clear, .switch true]) := by
  obtain ⟨tells, ignored, _⟩ := answersFollowEffects (κ := Nat) true
  have off : flag true [Use.put 1 .allow, .switch false] = false := rfl
  refine ⟨((tells toggled).answers 1 .allow).mp rfl, ?_, off, ignored _ _ 2 .deny (.inl off)⟩
  intro stands
  obtain ⟨held, one, there⟩ := (tells toggled).counts
  have first : 1 ∈ held := (there 1).mpr (((tells toggled).answers 1 .allow).mp rfl).2.1
  have second : 2 ∈ held := (there 2).mpr stands
  have same : 1 = 2 := Finset.card_le_one.mp (Nat.le_of_eq one) 1 first 2 second
  contradiction

end FirewallAgent.DecisionCache

import FirewallAgent.Proofs.Lock.Sharing

/-! What the log of a run tells about the segments: who made one and when it was published, which segment
a name stands for at each point, and how far every opening has come. Every event rests on earlier ones. -/
namespace FirewallAgent.Lock.Sharing

namespace Event

def made? : Event → Option Nat
  | created _ _ i => some i
  | _ => none

def initialises (i : Nat) : Event → Bool
  | initialised _ j => j == i
  | _ => false

def opener? : Event → Option Nat
  | asked n _ _ | created n _ _ | joined n _ _ | sized n _ | initialised n _ | published n _
  | opened n _ => some n
  | _ => none

def binds (key : String) (now : Option Nat) : Event → Option Nat
  | created _ k i => if k = key then some i else now
  | unlinked k => if k = key then none else now
  | _ => now

def quiet : Event → Bool
  | created _ _ _ | initialised _ _ | published _ _ | unlinked _ => false
  | _ => true

theorem quietMakes {e : Event} (q : e.quiet = true) : e.made? = none := by
  cases e <;> first | rfl | contradiction

theorem quietInitialises {e : Event} (q : e.quiet = true) (i : Nat) : e.initialises i = false := by
  cases e <;> first | rfl | contradiction

theorem quietBinds {e : Event} (q : e.quiet = true) (key : String) (now : Option Nat) :
    binds key now e = now := by
  cases e <;> first | rfl | contradiction

end Event

def current (key : String) (es : List Event) : Option Nat := es.foldl (Event.binds key) none

def course (n : Nat) (es : List Event) : List Event := es.filter fun e => e.opener? == some n

def Grounded (past : List Event) : Event → Prop
  | .created _ key i => current key past = none ∧ past.filterMap Event.made? = List.range i
  | .joined n key i =>
    current key past = some i ∧ (∀ key' j, Event.joined n key' j ∉ past) ∧
      ∃ process name, Event.asked n process name ∈ past ∧ openKey name = .ok key
  | .sized n i => ∃ key, Event.created n key i ∈ past
  | .initialised n i => (∃ key, Event.created n key i ∈ past) ∧ ∀ m, Event.initialised m i ∉ past
  | .published n i => Event.initialised n i ∈ past
  | .opened n i => (∃ key, Event.joined n key i ∈ past) ∧ ∃ m, Event.published m i ∈ past
  | .locked n i _ => Event.opened n i ∈ past
  | _ => True

inductive InTurn : List Event → Prop where
  | nil : InTurn []
  | snoc {past : List Event} {e : Event} (turn : InTurn past) (ground : Grounded past e) :
      InTurn (past ++ [e])

section
variable {es past later : List Event} {e f : Event} {i j m n : Nat} {key key' : String}

theorem InTurn.upTo (turn : InTurn es) (split : es = past ++ later) : InTurn past := by
  induction turn generalizing later with
  | nil =>
    cases (List.append_eq_nil_iff.mp split.symm).1
    exact .nil
  | snoc turn ground ih =>
    rcases List.eq_nil_or_concat later with rfl | ⟨start, last, rfl⟩
    · rw [List.append_nil] at split
      exact split ▸ .snoc turn ground
    · rw [List.concat_eq_append, ← List.append_assoc] at split
      exact ih (List.append_inj' split rfl).1

theorem InTurn.grounded (turn : InTurn es) (split : es = past ++ e :: later) : Grounded past e := by
  have last : InTurn (past ++ [e]) := turn.upTo (show es = (past ++ [e]) ++ later by simp [split])
  generalize whole : past ++ [e] = es' at last
  cases last with
  | nil => simp at whole
  | snoc turn ground =>
    obtain ⟨rfl, same⟩ := List.append_inj' whole rfl
    cases same
    exact ground

theorem InTurn.found (turn : InTurn es) (mem : e ∈ es) :
    ∃ past later, es = past ++ e :: later ∧ Grounded past e := by
  obtain ⟨past, later, split⟩ := List.append_of_mem mem
  exact ⟨past, later, split, turn.grounded split⟩

theorem oneBeforeOther (he : e ∈ es) (hf : f ∈ es) (different : e ≠ f) :
    (∃ past later, es = past ++ f :: later ∧ e ∈ past) ∨
      ∃ past later, es = past ++ e :: later ∧ f ∈ past := by
  obtain ⟨past, later, rfl⟩ := List.append_of_mem he
  rcases List.mem_append.mp hf with before | after
  · exact .inr ⟨past, later, rfl, before⟩
  · have after : f ∈ later := (List.mem_cons.mp after).resolve_left (Ne.symm different)
    obtain ⟨mid, rest, rfl⟩ := List.append_of_mem after
    exact .inl ⟨past ++ e :: mid, rest, by simp, by simp⟩

theorem bindsCreated {now : Option Nat} (ends : es.foldl (Event.binds key) now = some i) :
    (now = some i ∧ Event.unlinked key ∉ es) ∨
      ∃ m before after, es = before ++ Event.created m key i :: after ∧ Event.unlinked key ∉ after := by
  induction es generalizing now with
  | nil => exact .inl ⟨ends, List.not_mem_nil⟩
  | cons e es ih =>
    rcases ih ends with ⟨bound, never⟩ | ⟨m, before, after, rfl, never⟩
    · cases e with
      | created n k j =>
        simp only [Event.binds] at bound
        split at bound
        · rename_i same
          cases same
          cases bound
          exact .inr ⟨n, [], es, rfl, never⟩
        · exact .inl ⟨bound, by simpa using never⟩
      | unlinked k =>
        simp only [Event.binds] at bound
        split at bound
        · contradiction
        · rename_i other
          refine .inl ⟨bound, fun mem => ?_⟩
          rcases List.mem_cons.mp mem with same | later
          · cases same
            exact other rfl
          · exact never later
      | _ => exact .inl ⟨bound, by simpa using never⟩
    · exact .inr ⟨m, e :: before, after, rfl, never⟩

theorem currentCreated (now : current key past = some i) :
    ∃ m before after, past = before ++ Event.created m key i :: after ∧ Event.unlinked key ∉ after :=
  (bindsCreated now).resolve_left fun h => nomatch h.1

theorem madeBefore (made : past.filterMap Event.made? = List.range i)
    (mem : Event.created n key j ∈ past) : j < i :=
  List.mem_range.mp (made ▸ List.mem_filterMap.mpr ⟨_, mem, rfl⟩)

theorem InTurn.oneMaker (turn : InTurn es) (one : Event.created m key i ∈ es)
    (other : Event.created n key' i ∈ es) : Event.created m key i = Event.created n key' i := by
  refine Decidable.byContradiction fun different => ?_
  rcases oneBeforeOther one other different with
    ⟨past, later, split, before⟩ | ⟨past, later, split, before⟩
  · exact Nat.lt_irrefl i (madeBefore (turn.grounded split).2 before)
  · exact Nat.lt_irrefl i (madeBefore (turn.grounded split).2 before)

theorem InTurn.initialisedOnce (turn : InTurn es) (i : Nat) :
    es.countP (Event.initialises i) ≤ 1 := by
  induction turn with
  | nil => exact Nat.zero_le 1
  | @snoc past e turn ground ih =>
    rw [List.countP_append, List.countP_singleton]
    cases first : Event.initialises i e with
    | false => simpa using ih
    | true =>
      cases e <;> first | contradiction | skip
      rename_i n j
      have same : j = i := by simpa [Event.initialises] using first
      subst same
      have never : past.countP (Event.initialises j) = 0 := by
        refine List.countP_eq_zero.mpr fun e mem other => ?_
        cases e <;> first | contradiction | skip
        rename_i m j'
        have same : j' = j := by simpa [Event.initialises] using other
        exact ground.2 m (same ▸ mem)
      simp [never]

theorem InTurn.publishedInitialised (turn : InTurn es) (mem : Event.published n i ∈ es) :
    Event.initialised n i ∈ es := by
  obtain ⟨past, later, rfl, before⟩ := turn.found mem
  exact List.mem_append_left _ before

theorem InTurn.initialisedCreated (turn : InTurn es) (mem : Event.initialised n i ∈ es) :
    ∃ key, Event.created n key i ∈ es := by
  obtain ⟨past, later, rfl, ⟨key, before⟩, -⟩ := turn.found mem
  exact ⟨key, List.mem_append_left _ before⟩

theorem InTurn.openedJoined (turn : InTurn es) (mem : Event.opened n i ∈ es) :
    ∃ key, Event.joined n key i ∈ es := by
  obtain ⟨past, later, rfl, ⟨key, before⟩, -⟩ := turn.found mem
  exact ⟨key, List.mem_append_left _ before⟩

theorem InTurn.joinedCreated (turn : InTurn es) (mem : Event.joined n key i ∈ es) :
    ∃ m, Event.created m key i ∈ es := by
  obtain ⟨past, later, rfl, now, -⟩ := turn.found mem
  obtain ⟨m, before, after, rfl, -⟩ := currentCreated now
  exact ⟨m, by simp⟩

theorem InTurn.oneSegment (turn : InTurn es) (one : Event.joined n key i ∈ es)
    (other : Event.joined n key' j ∈ es) : i = j := by
  refine Decidable.byContradiction fun different => ?_
  have different : Event.joined n key i ≠ Event.joined n key' j := fun same => by
    cases same
    exact different rfl
  rcases oneBeforeOther one other different with
    ⟨past, later, split, before⟩ | ⟨past, later, split, before⟩
  · exact (turn.grounded split).2.1 _ _ before
  · exact (turn.grounded split).2.1 _ _ before

theorem staysBound {now : Option Nat} (bound : now.isSome) (never : Event.unlinked key ∉ es) :
    (es.foldl (Event.binds key) now).isSome := by
  induction es generalizing now with
  | nil => exact bound
  | cons e es ih =>
    refine ih ?_ fun mem => never (List.mem_cons_of_mem _ mem)
    cases e with
    | created n k j =>
      simp only [Event.binds]
      split
      · rfl
      · exact bound
    | unlinked k =>
      have other : k ≠ key := fun same => never (same ▸ List.mem_cons_self)
      simpa [Event.binds, other] using bound
    | _ => exact bound

theorem currentAfter (past mid : List Event) (e : Event) :
    current key (past ++ e :: mid) = mid.foldl (Event.binds key) (e.binds key (current key past)) := by
  simp [current]

theorem InTurn.stands {mid : List Event} (turn : InTurn (past ++ Event.created m key i :: mid))
    (never : Event.unlinked key ∉ mid) : current key (past ++ Event.created m key i :: mid) = some i := by
  have start : (Event.created m key i).binds key (current key past) = some i := if_pos rfl
  rw [currentAfter, start]
  have bound : (mid.foldl (Event.binds key) (some i)).isSome := staysBound rfl never
  obtain ⟨j, now⟩ := Option.isSome_iff_exists.mp bound
  rw [now]
  rcases bindsCreated now with ⟨same, -⟩ | ⟨m', before, after, rfl, -⟩
  · exact same.symm
  · have ground := turn.grounded (show _ = (past ++ .created m key i :: before) ++
      .created m' key j :: after by simp)
    have held : (before.foldl (Event.binds key) (some i)).isSome :=
      staysBound rfl fun mem => never (List.mem_append_left _ mem)
    rw [← start, ← currentAfter, ground.1] at held
    contradiction

theorem createdSince {mid : List Event} (now : current key (past ++ Event.unlinked key :: mid) = some i) :
    ∃ m, Event.created m key i ∈ mid := by
  have start : (Event.unlinked key).binds key (current key past) = none := if_pos rfl
  rw [currentAfter, start] at now
  obtain ⟨m, before, after, rfl, -⟩ := currentCreated now
  exact ⟨m, List.mem_append_right _ List.mem_cons_self⟩

end

end FirewallAgent.Lock.Sharing

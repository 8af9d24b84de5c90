import FirewallAgent.Gate.Sharing
import Mathlib.Data.List.Basic
import Mathlib.Data.List.Induction

/-! What the log of a run tells about the waits at a gate: what the gate holds, how late it is, when each wait
is due, and which look at the gate was the last of a wait. The answers follow from the log alone. -/
namespace FirewallAgent.Gate.Sharing

namespace Action

def set? : Action → Option String
  | set t => some t
  | _ => none

def span : Action → Nat
  | pass d => d
  | _ => 0

def timeout? : Action → Option Nat
  | wait d => some d
  | _ => none

def party? : Action → Option Nat
  | poll n | check n _ => some n
  | _ => none

end Action

def held (log : List Action) : String := (log.filterMap Action.set?).getLast?.getD ""

def elapsed : List Action → Nat
  | [] => 0
  | a :: rest => a.span + elapsed rest

def deadlines (now : Nat) : List Action → List Nat
  | [] => []
  | a :: rest => (a.timeout?.map (now + ·)).toList ++ deadlines (now + a.span) rest

def Overdue (log : List Action) (n : Nat) : Prop :=
  ∃ d, (deadlines 0 log)[n]? = some d ∧ d ≤ elapsed log

/- The wait looked at the gate for the last time when it held this, and no token is no answer before the wait
is overdue. -/
def LastLook (log : List Action) (n : Nat) (t : String) : Prop :=
  ∃ before after, log = before ++ .poll n :: after ∧ (∀ a ∈ after, a.party? ≠ some n) ∧
    held before = t ∧ (t = "" → Overdue before n)

inductive Turns (s : Sharing) (n deadline : Nat) : Stage → Action → Stage → Prop where
  | takes (filled : s.token ≠ "") :
      Turns s n deadline (.resting .polling) (.poll n) (.resting (.ended s.token))
  | misses (empty : s.token = "") : Turns s n deadline (.resting .polling) (.poll n) .missed
  | settles : Turns s n deadline (.resting .expired) (.poll n) (.resting (.ended s.token))
  | rests : Turns s n deadline .missed (.check n false) (.resting .polling)
  | expires (due : deadline ≤ s.now) :
      Turns s n deadline .missed (.check n true) (.resting .expired)

inductive Goes (s : Sharing) : Action → Sharing → Prop where
  | sets (t : String) : Goes s (.set t) { s with token := t }
  | passes (d : Nat) : Goes s (.pass d) { s with now := s.now + d }
  | waits (d : Nat) : Goes s (.wait d) { s with parties := s.parties ++ [{ deadline := s.now + d }] }
  | turns {n d : Nat} {a : Action} {x y : Stage} (there : s.parties[n]? = some ⟨d, x⟩)
      (turns : Turns s n d x a y) : Goes s a (s.setStage n d y)

variable {s t u : Sharing} {a x : Action} {log before after later : List Action} {n m d : Nat}
  {old new : Stage} {p : Party} {token : String}

theorem pollGoes (ok : s.poll n = some t) : Goes s (.poll n) t := by
  obtain ⟨⟨d, stage⟩, there, ok⟩ := Option.bind_eq_some_iff.mp ok
  obtain ⟨next, looked, same⟩ := Option.bind_eq_some_iff.mp ok
  cases same
  refine .turns there ?_
  cases stage with
  | missed => contradiction
  | resting w =>
    cases w with
    | polling =>
      cases looked
      by_cases empty : s.token = ""
      · simpa [Gate.step, empty] using Turns.misses empty
      · simpa [Gate.step, empty] using Turns.takes empty
    | expired =>
      cases looked
      exact .settles
    | ended => contradiction

theorem checkGoes {late : Bool} (ok : s.check n late = some t) : Goes s (.check n late) t := by
  obtain ⟨⟨d, stage⟩, there, ok⟩ := Option.bind_eq_some_iff.mp ok
  dsimp only at ok
  split at ok
  · contradiction
  · rename_i due
    obtain ⟨next, checked, same⟩ := Option.bind_eq_some_iff.mp ok
    cases same
    refine .turns there ?_
    cases stage with
    | resting => contradiction
    | missed =>
      cases late with
      | false =>
        cases checked
        exact .rests
      | true =>
        cases checked
        exact .expires (by simpa using due)

theorem stepGoes (ok : s.step a = some t) : Goes s a t := by
  cases a with
  | set v => cases ok; exact .sets v
  | pass d => cases ok; exact .passes d
  | wait d => cases ok; exact .waits d
  | poll n => exact pollGoes ok
  | check n late => exact checkGoes ok

theorem turnsStep (there : s.parties[n]? = some ⟨d, old⟩) (turns : Turns s n d old a new) :
    s.step a = some (s.setStage n d new) := by
  cases turns with
  | takes filled => simp [step, poll, there, Stage.look, Gate.step, filled]
  | misses empty => simp [step, poll, there, Stage.look, Gate.step, empty]
  | settles => simp [step, poll, there, Stage.look, Gate.step]
  | rests => simp [step, check, there, Stage.check]
  | expires due => simp [step, check, there, Stage.check, Gate.step, Nat.not_lt.mpr due]

theorem Run.next (next : s.step a = some t) : Run s [a] t := Run.start.step next

theorem Run.trans (one : Run s before t) (other : Run t later u) : Run s (before ++ later) u := by
  induction other with
  | start => rwa [List.append_nil]
  | step _ next ih =>
    rw [← List.append_assoc]
    exact ih.step next

theorem playRun (ok : s.play log = some t) : Run s log t := by
  induction log generalizing s with
  | nil =>
    cases ok
    exact .start
  | cons a rest ih =>
    obtain ⟨u, next, ok⟩ := Option.bind_eq_some_iff.mp ok
    exact (Run.next next).trans (ih ok)

theorem heldNext : held (log ++ [a]) = a.set?.getD (held log) := by
  cases own : a.set? <;> simp [held, own]

theorem elapsedAppend : elapsed (log ++ later) = elapsed log + elapsed later := by
  induction log with
  | nil => exact (Nat.zero_add _).symm
  | cons a rest ih => rw [List.cons_append, elapsed, elapsed, ih, Nat.add_assoc]

theorem elapsedNext : elapsed (log ++ [a]) = elapsed log + a.span := elapsedAppend

theorem elapsedGrows : elapsed log ≤ elapsed (log ++ later) :=
  elapsedAppend ▸ Nat.le_add_right _ _

theorem deadlinesAppend (now : Nat) :
    deadlines now (log ++ later) = deadlines now log ++ deadlines (now + elapsed log) later := by
  induction log generalizing now with
  | nil => rfl
  | cons a rest ih =>
    rw [List.cons_append, deadlines, deadlines, ih, elapsed, List.append_assoc, Nat.add_assoc]

theorem deadlinesNext :
    deadlines 0 (log ++ [a]) = deadlines 0 log ++ (a.timeout?.map (elapsed log + ·)).toList := by
  rw [deadlinesAppend, Nat.zero_add, deadlines, deadlines, List.append_nil]

theorem Overdue.stays (late : Overdue log n) : Overdue (log ++ later) n := by
  obtain ⟨d, due, passed⟩ := late
  have inside : n < (deadlines 0 log).length := (List.getElem?_eq_some_iff.mp due).1
  refine ⟨d, ?_, Nat.le_trans passed elapsedGrows⟩
  rw [deadlinesAppend]
  exact (List.getElem?_append_left inside).trans due

theorem LastLook.next (h : LastLook log n token) (other : a.party? ≠ some n) :
    LastLook (log ++ [a]) n token := by
  obtain ⟨before, after, rfl, quiet, rest⟩ := h
  refine ⟨before, after ++ [a], by simp, ?_, rest⟩
  intro x there
  rcases List.mem_append.mp there with old | new
  · exact quiet x old
  · exact List.mem_singleton.mp new ▸ other

theorem splitLast (split : log ++ [a] = before ++ x :: after) :
    (before = log ∧ x = a) ∨ ∃ rest, log = before ++ x :: rest := by
  rcases List.eq_nil_or_concat' after with rfl | ⟨rest, y, rfl⟩
  · obtain ⟨front, last⟩ := List.append_inj' split rfl
    exact .inl ⟨front.symm, (List.cons.inj last).1.symm⟩
  · rw [← List.cons_append, ← List.append_assoc] at split
    exact .inr ⟨rest, List.append_inj_left' split rfl⟩

def Backed (log : List Action) (n : Nat) : Stage → Prop
  | .resting .polling => True
  | .missed => .poll n ∈ log
  | .resting .expired => .poll n ∈ log ∧ Overdue log n
  | .resting (.ended t) => LastLook log n t

structure Told (log : List Action) (s : Sharing) : Prop where
  token : s.token = held log
  now : s.now = elapsed log
  due : s.parties.map Party.deadline = deadlines 0 log
  backed : ∀ n p, s.parties[n]? = some p → Backed log n p.stage
  served : ∀ before after n, log = before ++ .poll n :: after → held before ≠ "" →
    s.answer? n = some (held before)

theorem Backed.next (h : Backed log n old) (other : a.party? ≠ some n) : Backed (log ++ [a]) n old := by
  cases old with
  | missed => exact List.mem_append_left _ h
  | resting w =>
    cases w with
    | polling => trivial
    | expired => exact ⟨List.mem_append_left _ h.1, h.2.stays⟩
    | ended t => exact LastLook.next h other

theorem Backed.polled (h : Backed log n old) (begun : old ≠ .resting .polling) : .poll n ∈ log := by
  cases old with
  | missed => exact h
  | resting w =>
    cases w with
    | polling => contradiction
    | expired => exact h.1
    | ended t =>
      obtain ⟨before, after, rfl, _⟩ := h
      simp

theorem Turns.own (turns : Turns s n d old a new) : a.party? = some n := by
  cases turns <;> rfl

theorem Turns.silent (turns : Turns s n d old a new) :
    a.set? = none ∧ a.span = 0 ∧ a.timeout? = none := by
  cases turns <;> exact ⟨rfl, rfl, rfl⟩

theorem answerThere (there : s.parties[n]? = some p) : s.answer? n = p.answer? := by
  rw [answer?, there]
  rfl

theorem setThere (there : s.parties[n]? = some p) :
    (s.setStage n d new).parties[n]? = some ⟨d, new⟩ :=
  List.getElem?_set_self (List.getElem?_eq_some_iff.mp there).1

theorem answerSet (there : s.parties[n]? = some p) :
    (s.setStage n d new).answer? n = Party.answer? ⟨d, new⟩ := answerThere (setThere there)

theorem answerOther (other : m ≠ n) : (s.setStage n d new).answer? m = s.answer? m := by
  simp [answer?, setStage, List.getElem?_set_ne (Ne.symm other)]

theorem Goes.keeps (goes : Goes s a t) (ended : s.answer? n = some token) : t.answer? n = some token := by
  cases goes with
  | sets | passes => exact ended
  | waits d =>
    obtain ⟨p, there, own⟩ := Option.bind_eq_some_iff.mp ended
    have inside : n < s.parties.length := (List.getElem?_eq_some_iff.mp there).1
    rw [answerThere ((List.getElem?_append_left inside).trans there), own]
  | @turns m e _ x y there turns =>
    by_cases same : n = m
    · rw [same, answerThere there] at ended
      cases turns <;> contradiction
    · rwa [answerOther same]

theorem Told.overdue (told : Told log s) (there : s.parties[n]? = some ⟨d, old⟩) (late : d ≤ s.now) :
    Overdue log n := by
  refine ⟨d, ?_, told.now ▸ late⟩
  rw [← told.due, List.getElem?_map, there]
  rfl

theorem Told.turned (told : Told log s) (there : s.parties[n]? = some ⟨d, old⟩)
    (turns : Turns s n d old a new) : Backed (log ++ [a]) n new := by
  have backed := told.backed n _ there
  cases turns with
  | takes filled =>
    exact ⟨log, [], rfl, by simp, told.token.symm, fun empty => absurd empty filled⟩
  | misses => exact List.mem_append_right _ (List.mem_singleton_self _)
  | settles => exact ⟨log, [], rfl, by simp, told.token.symm, fun _ => backed.2⟩
  | rests => trivial
  | expires due => exact ⟨List.mem_append_left _ backed, (told.overdue there due).stays⟩

theorem partyAdded {q : Party} (there : (s.parties ++ [q])[n]? = some p) :
    s.parties[n]? = some p ∨ p = q := by
  by_cases inside : n < s.parties.length
  · exact .inl ((List.getElem?_append_left inside).symm.trans there)
  · rw [List.getElem?_append_right (Nat.le_of_not_lt inside)] at there
    exact .inr (List.mem_singleton.mp (List.mem_of_getElem? there))

theorem Told.backedNext (told : Told log s) (goes : Goes s a t) :
    ∀ n p, t.parties[n]? = some p → Backed (log ++ [a]) n p.stage := by
  intro n p there
  cases goes with
  | sets | passes => exact (told.backed n p there).next nofun
  | waits d =>
    rcases partyAdded there with old | rfl
    · exact (told.backed n p old).next nofun
    · trivial
  | @turns m e _ x y found turns =>
    by_cases same : m = n
    · subst same
      cases Option.some.inj ((setThere found).symm.trans there)
      exact told.turned found turns
    · have old : s.parties[n]? = some p := (List.getElem?_set_ne same).symm.trans there
      exact (told.backed n p old).next (turns.own ▸ fun own => same (Option.some.inj own))

theorem Goes.finds (goes : Goes s (.poll n) t) (filled : s.token ≠ "") : t.answer? n = some s.token := by
  cases goes with
  | turns there turns =>
    cases turns with
    | takes | settles => exact answerSet there
    | misses empty => exact absurd empty filled

theorem Told.servedNext (told : Told log s) (goes : Goes s a t) :
    ∀ before after n, log ++ [a] = before ++ .poll n :: after → held before ≠ "" →
      t.answer? n = some (held before) := by
  intro before after n split filled
  rcases splitLast split with ⟨rfl, rfl⟩ | ⟨rest, earlier⟩
  · rw [← told.token] at filled ⊢
    exact goes.finds filled
  · exact goes.keeps (told.served before rest n earlier filled)

theorem deadlinesKept (there : s.parties[n]? = some ⟨d, old⟩) :
    (s.setStage n d new).parties.map Party.deadline = s.parties.map Party.deadline := by
  have due : (s.parties.map Party.deadline)[n]? = some d := by rw [List.getElem?_map, there]; rfl
  obtain ⟨inside, own⟩ := List.getElem?_eq_some_iff.mp due
  have back := List.set_getElem_self inside
  rwa [own, ← List.map_set (a := (⟨d, new⟩ : Party))] at back

theorem Told.next (told : Told log s) (goes : Goes s a t) : Told (log ++ [a]) t where
  token := by
    rw [heldNext, ← told.token]
    cases goes with
    | sets | passes | waits => rfl
    | turns there turns =>
      rw [turns.silent.1]
      rfl
  now := by
    rw [elapsedNext, ← told.now]
    cases goes with
    | sets | passes | waits => rfl
    | turns there turns =>
      rw [turns.silent.2.1]
      rfl
  due := by
    rw [deadlinesNext, ← told.due, ← told.now]
    cases goes with
    | sets | passes => exact (List.append_nil _).symm
    | waits d => exact List.map_append
    | turns there turns =>
      rw [turns.silent.2.2, deadlinesKept there]
      exact (List.append_nil _).symm
  backed := told.backedNext goes
  served := told.servedNext goes

theorem Run.told (run : Run {} log s) : Told log s := by
  induction run with
  | start =>
    exact {
      token := rfl
      now := rfl
      due := rfl
      backed := fun n p there => by simp at there
      served := fun before after n split => by simp at split }
  | step _ next ih => exact ih.next (stepGoes next)

theorem pollAnswers {w : Wait} (there : s.parties[n]? = some ⟨d, .resting w⟩) (waits : ∀ t, w ≠ .ended t)
    (filled : s.token ≠ "") :
    ∃ t, s.step (.poll n) = some t ∧ t.answer? n = some s.token ∧ t.now = s.now := by
  cases w with
  | polling => exact ⟨_, turnsStep there (.takes filled), answerSet there, rfl⟩
  | expired => exact ⟨_, turnsStep there .settles, answerSet there, rfl⟩
  | ended t => exact absurd rfl (waits t)

def Polled (s : Sharing) (n : Nat) (t : Sharing) : Prop :=
  s.step (.poll n) = some t ∨ ∃ u, s.step (.check n false) = some u ∧ u.step (.poll n) = some t

theorem polledAnswers (there : s.parties[n]? = some ⟨d, old⟩) (unanswered : s.answer? n = none)
    (filled : s.token ≠ "") :
    ∃ t, Polled s n t ∧ t.answer? n = some s.token ∧ t.now = s.now := by
  cases old with
  | missed =>
    obtain ⟨t, polled, answer⟩ := pollAnswers (w := .polling) (setThere there) nofun filled
    exact ⟨t, .inr ⟨_, turnsStep there .rests, polled⟩, answer⟩
  | resting w =>
    have waits : ∀ t, w ≠ .ended t := fun t same => by
      rw [answerThere there, same] at unanswered
      contradiction
    obtain ⟨t, polled, answer⟩ := pollAnswers there waits filled
    exact ⟨t, .inl polled, answer⟩

def Ends (s : Sharing) (n : Nat) (token : String) : Prop :=
  ∃ own t, (∀ a ∈ own, a.party? = some n) ∧ Run s own t ∧ t.answer? n = some token

theorem Ends.first (next : s.step a = some t) (own : a.party? = some n) (ends : Ends t n token) :
    Ends s n token := by
  obtain ⟨rest, u, all, run, answer⟩ := ends
  exact ⟨a :: rest, u, List.forall_mem_cons.mpr ⟨own, all⟩, (Run.next next).trans run, answer⟩

theorem expiredEnds (there : s.parties[n]? = some ⟨d, .resting .expired⟩) : Ends s n s.token := by
  refine .first (turnsStep there .settles) rfl ⟨[], _, by simp, .start, ?_⟩
  exact answerSet there

theorem missedEnds (there : s.parties[n]? = some ⟨d, .missed⟩) (due : d ≤ s.now) : Ends s n s.token :=
  .first (turnsStep there (.expires due)) rfl (expiredEnds (setThere there))

theorem overdueEnds (there : s.parties[n]? = some ⟨d, old⟩) (due : d ≤ s.now) (empty : s.token = "")
    (unanswered : s.answer? n = none) : Ends s n s.token := by
  rw [answerThere there] at unanswered
  cases old with
  | missed => exact missedEnds there due
  | resting w =>
    cases w with
    | polling => exact .first (turnsStep there (.misses empty)) rfl (missedEnds (setThere there) due)
    | expired => exact expiredEnds there
    | ended t => contradiction

theorem heldCleared (quiet : ∀ u, .set u ∈ later → u = "") : held (log ++ .set "" :: later) = "" := by
  induction later using List.reverseRecOn with
  | nil => exact heldNext
  | append_singleton rest a ih =>
    rw [← List.cons_append, ← List.append_assoc, heldNext, ih fun u there => quiet u (by simp [there])]
    cases a with
    | set u => exact quiet u (by simp)
    | pass | wait | poll | check => rfl

theorem Told.party (told : Told log s) (begun : n < (deadlines 0 log).length) :
    ∃ d old, s.parties[n]? = some ⟨d, old⟩ ∧ (Overdue log n → d ≤ s.now) := by
  rw [← told.due, List.length_map] at begun
  have there : s.parties[n]? = some s.parties[n] := List.getElem?_eq_getElem begun
  refine ⟨_, _, there, ?_⟩
  rintro ⟨d, due, late⟩
  rw [← told.due, List.getElem?_map, there] at due
  cases due
  exact told.now ▸ late

structure Faithful (log : List Action) (s : Sharing) : Prop where
  answers : ∀ n t, s.answer? n = some t → LastLook log n t
  /- A poll that found the gate filled was the last of its wait. -/
  served : ∀ before after n, log = before ++ .poll n :: after → held before ≠ "" →
    s.answer? n = some (held before)
  atOnce : ∀ n < (deadlines 0 log).length, .poll n ∉ log → held log ≠ "" →
    ∃ t, s.step (.poll n) = some t ∧ t.answer? n = some (held log) ∧ t.now = s.now
  kept : ∀ n < (deadlines 0 log).length, s.answer? n = none → held log ≠ "" →
    ∃ t, Polled s n t ∧ t.answer? n = some (held log) ∧ t.now = s.now
  ends : ∀ n < (deadlines 0 log).length, s.answer? n = none → held log = "" → Overdue log n →
    Ends s n ""
  cleared : ∃ t, s.step (.set "") = some t ∧ ∀ n, t.answer? n = s.answer? n
  /- A poll that comes after a clearing ends no wait before its time or the next token. -/
  calm : ∀ later t n, Run s (.set "" :: later) t → (∀ u, .set u ∈ later → u = "") →
    s.answer? n = none → ¬ Overdue (log ++ .set "" :: later) n → t.answer? n = none

theorem Told.answers (told : Told log s) (ended : s.answer? n = some token) : LastLook log n token := by
  obtain ⟨⟨d, stage⟩, there, own⟩ := Option.bind_eq_some_iff.mp ended
  have backed := told.backed n _ there
  unfold Party.answer? at own
  split at own
  · rename_i t ended
    cases own
    rwa [ended] at backed
  · contradiction

theorem Told.calm (told : Told log s) (full : Told (log ++ .set "" :: later) t)
    (quiet : ∀ u, .set u ∈ later → u = "") (unanswered : s.answer? n = none)
    (early : ¬ Overdue (log ++ .set "" :: later) n) : t.answer? n = none := by
  refine Option.eq_none_iff_forall_ne_some.mpr fun token ended => ?_
  obtain ⟨before, after, split, -, found, late⟩ := full.answers ended
  by_cases empty : token = ""
  · exact early (split ▸ (late empty).stays)
  · -- the look that found a token would have been before the gate was cleared
    rcases List.append_eq_append_iff.mp split with ⟨mid, rfl, rest⟩ | ⟨mid, rfl, rest⟩
    · cases mid with
      | nil => cases rest
      | cons a mid =>
        cases rest
        exact empty (found ▸ heldCleared fun u there => quiet u (by simp [there]))
    · cases mid with
      | nil => cases rest
      | cons a mid =>
        cases rest
        have answered := told.served before mid n rfl (found ▸ empty)
        rw [unanswered] at answered
        contradiction

theorem Run.faithful (run : Run {} log s) : Faithful log s := by
  have told := run.told
  exact {
    answers := fun n t ended => told.answers ended
    served := told.served
    atOnce := fun n begun fresh filled => by
      obtain ⟨d, old, there, -⟩ := told.party begun
      have new : old = .resting .polling := by
        by_contra other
        exact fresh ((told.backed n _ there).polled other)
      rw [← told.token] at filled ⊢
      exact pollAnswers (w := .polling) (new ▸ there) nofun filled
    kept := fun n begun unanswered filled => by
      obtain ⟨d, old, there, -⟩ := told.party begun
      rw [← told.token] at filled ⊢
      exact polledAnswers there unanswered filled
    ends := fun n begun unanswered empty late => by
      obtain ⟨d, old, there, due⟩ := told.party begun
      rw [← told.token] at empty
      exact empty ▸ overdueEnds there (due late) empty unanswered
    cleared := ⟨_, rfl, fun _ => rfl⟩
    calm := fun later t n more quiet unanswered early =>
      told.calm (run.trans more).told quiet unanswered early }

end FirewallAgent.Gate.Sharing

import FirewallAgent.Decision
import FirewallAgent.Gate.Timeline
import FirewallAgent.Proofs.Gate.Sharing
import Mathlib.Algebra.Order.BigOperators.Group.List
import Mathlib.Algebra.Order.Group.Nat

/-! Waits at a gate are neither early nor stale nor lost, in whatever order things happen. A timeline is one such
order, in which every wait is polled when there is something to see, so there all of them end. -/
namespace FirewallAgent.Gate
open Sharing (Action Goes Run Turns)

variable {s t u : Sharing} {now n d : Nat} {old new : Stage} {a : Action} {token : String}
  {asked more : List Action} {w : Waiter}

def Sharing.Action.isAsked : Action → Bool
  | set _ | wait _ => true
  | _ => false

def Leads (s : Sharing) (asked : List Action) (t : Sharing) : Prop :=
  ∃ log, Run s log t ∧ log.filter Action.isAsked = asked

theorem Leads.refl (s : Sharing) : Leads s [] s := ⟨[], .start, rfl⟩

theorem Leads.next (next : s.step a = some t) : Leads s ([a].filter Action.isAsked) t :=
  ⟨[a], Run.next next, rfl⟩

theorem Leads.trans (one : Leads s asked t) (other : Leads t more u) : Leads s (asked ++ more) u := by
  obtain ⟨first, run, rfl⟩ := one
  obtain ⟨second, later, rfl⟩ := other
  exact ⟨first ++ second, run.trans later, List.filter_append ..⟩

theorem Leads.turn (there : s.parties[n]? = some ⟨d, old⟩) (turns : Turns s n d old a new) :
    Leads s [] (s.setStage n d new) := by
  have next := Leads.next (Sharing.turnsStep there turns)
  cases turns <;> exact next

theorem Leads.turnThen {mid : Stage} (there : s.parties[n]? = some ⟨d, old⟩) (turns : Turns s n d old a mid)
    (rest : Leads (s.setStage n d mid) [] ((s.setStage n d mid).setStage n d new)) :
    Leads s [] (s.setStage n d new) := by
  have again : (s.setStage n d mid).setStage n d new = s.setStage n d new := by simp [Sharing.setStage]
  exact again ▸ (Leads.turn there turns).trans rest

theorem Leads.missing (there : s.parties[n]? = some ⟨d, .resting .polling⟩) (empty : s.token = "") :
    Leads s [] (s.setStage n d (.resting .polling)) :=
  .turnThen there (.misses empty) (.turn (Sharing.setThere there) .rests)

theorem Leads.expiring (there : s.parties[n]? = some ⟨d, .resting .polling⟩) (empty : s.token = "")
    (due : d ≤ s.now) : Leads s [] (s.setStage n d (.resting (.ended s.token))) := by
  refine .turnThen there (.misses empty) (.turnThen (Sharing.setThere there) (.expires due) ?_)
  exact .turn (Sharing.setThere (Sharing.setThere there)) .settles

def Waiter.party (w : Waiter) : Party := ⟨w.deadline, .resting w.wait⟩

def Sharing.setParty (s : Sharing) (n : Nat) (p : Party) : Sharing := s.setStage n p.deadline p.stage

theorem Leads.still (there : s.parties[n]? = some w.party) : Leads s [] (s.setParty n w.party) := by
  obtain ⟨inside, own⟩ := List.getElem?_eq_some_iff.mp there
  have back := List.set_getElem_self inside
  rw [own] at back
  have same : s.setParty n w.party = s := congrArg (Sharing.mk s.now s.token) back
  exact same.symm ▸ .refl s

theorem pollLeads (there : s.parties[n]? = some w.party) :
    Leads s [] (s.setParty n (w.poll s.token now).party) := by
  obtain ⟨d, wait, time⟩ := w
  cases wait with
  | polling =>
    by_cases empty : s.token = ""
    · have same : Waiter.poll s.token now ⟨d, .polling, time⟩ = ⟨d, .polling, time⟩ := by
        simp [Waiter.poll, Gate.step, empty]
      exact same.symm ▸ .missing there empty
    · have same : Waiter.poll s.token now ⟨d, .polling, time⟩ = ⟨d, .ended s.token, now⟩ := by
        simp [Waiter.poll, pollEnds empty]
      exact same.symm ▸ .turn there (.takes empty)
  | expired => exact .turn there .settles
  | ended t => exact .still there

theorem expireLeads (there : s.parties[n]? = some w.party) (due : w.deadline ≤ s.now) :
    Leads s [] (s.setParty n (w.expire s.token).party) := by
  obtain ⟨d, wait, time⟩ := w
  cases wait with
  | polling =>
    by_cases empty : s.token = ""
    · have same : Waiter.expire s.token ⟨d, .polling, time⟩ = ⟨d, .ended s.token, d⟩ := by
        simp [Waiter.expire, Waiter.poll, Gate.step, empty]
      exact same.symm ▸ .expiring there empty due
    · have same : Waiter.expire s.token ⟨d, .polling, time⟩ = ⟨d, .polling, time⟩ := by
        simp [Waiter.expire, Gate.step, empty]
      exact same.symm ▸ .still there
  | expired | ended => exact .still there

theorem eachLeads {f : Waiter → Waiter} {ws : List Waiter}
    (one : ∀ (s : Sharing) (n : Nat), ∀ w ∈ ws, s.now = now → s.token = token →
      s.parties[n]? = some w.party → Leads s [] (s.setParty n (f w).party)) (done : List Party) :
    Leads ⟨now, token, done ++ ws.map Waiter.party⟩ []
      ⟨now, token, done ++ (ws.map f).map Waiter.party⟩ := by
  induction ws generalizing done with
  | nil => exact .refl _
  | cons w rest ih =>
    have first := one ⟨now, token, done ++ (w :: rest).map Waiter.party⟩ done.length w
      List.mem_cons_self rfl rfl (by simp)
    have others := ih (fun s n v there => one s n v (List.mem_cons_of_mem w there))
      (done ++ [(f w).party])
    rw [Sharing.setParty, Sharing.setStage] at first
    simpa using first.trans (by simpa using others)

def Waiter.Settled (token : String) (w : Waiter) : Prop :=
  (∃ t, w.wait = .ended t) ∨ (w.wait = .polling ∧ token = "")

theorem Waiter.Settled.live (h : w.Settled token) : w.wait ≠ .expired := by
  rcases h with ⟨t, ended⟩ | ⟨polling, -⟩
  · simp [ended]
  · simp [polling]

theorem pollSettles (live : w.wait ≠ .expired) : (w.poll token now).Settled token := by
  obtain ⟨d, wait, time⟩ := w
  cases wait with
  | polling =>
    by_cases empty : token = ""
    · exact .inr ⟨by simp [Waiter.poll, Gate.step, empty], empty⟩
    · exact .inl ⟨token, by simp [Waiter.poll, pollEnds empty]⟩
  | expired => contradiction
  | ended t => exact .inl ⟨t, rfl⟩

theorem expireEnds (h : w.Settled token) : ∃ t, (w.expire token).wait = .ended t := by
  obtain ⟨d, wait, time⟩ := w
  rcases h with ⟨t, rfl⟩ | ⟨rfl, rfl⟩
  · exact ⟨t, rfl⟩
  · exact ⟨"", rfl⟩

def Deed.asks : Deed → List Action
  | .set values => values.map .set
  | .wait timeout => [.wait timeout]
  | .look => []

namespace Timeline

def sharing (t : Timeline) : Sharing := ⟨t.now, t.token, t.waiters.map Waiter.party⟩

variable {t : Timeline} {deeds : List (Nat × Deed)}

theorem passLeads (t : Timeline) (d : Nat) : Leads t.sharing [] { t with now := t.now + d }.sharing :=
  .next (a := .pass d) rfl

theorem waitersLead {f : Waiter → Waiter} (t : Timeline)
    (one : ∀ (s : Sharing) (n : Nat), ∀ w ∈ t.waiters, s.now = t.now → s.token = t.token →
      s.parties[n]? = some w.party → Leads s [] (s.setParty n (f w).party)) :
    Leads t.sharing [] { t with waiters := t.waiters.map f }.sharing := eachLeads one []

theorem polledLeads (t : Timeline) : Leads t.sharing [] t.poll.sharing :=
  t.waitersLead fun _ _ _ _ _ same there => same ▸ pollLeads there

theorem advancedLeads (t : Timeline) (time : Nat) : Leads t.sharing [] (t.advance time).sharing := by
  have passed := t.passLeads (time - t.now)
  rw [Nat.add_comm, Nat.sub_add_eq_max, Nat.max_comm] at passed
  refine passed.trans (waitersLead { t with now := max t.now time } ?_)
  intro s n w _ now same there
  split
  · rename_i due
    exact same ▸ expireLeads there (now.symm ▸ due)
  · exact .still there

theorem setLeads (t : Timeline) (values : List String) :
    Leads t.sharing (values.map .set) { t with token := values.getLast?.getD t.token }.sharing := by
  induction values generalizing t with
  | nil => exact .refl _
  | cons v rest ih =>
    have first : Leads t.sharing [.set v] { t with token := v }.sharing := .next (a := .set v) rfl
    have all := first.trans (ih { t with token := v })
    simpa [List.getLast?_cons] using all

theorem actLeads (t : Timeline) (deed : Deed) : Leads t.sharing deed.asks (t.act deed).sharing := by
  cases deed with
  | set values =>
    have all := (t.setLeads values).trans (polledLeads _)
    rwa [List.append_nil] at all
  | wait timeout =>
    let begun : Timeline := { t with waiters := t.waiters ++ [{ deadline := t.now + timeout }] }
    have first : Leads t.sharing [.wait timeout] begun.sharing :=
      .next (a := .wait timeout) (by simp [Sharing.step, sharing, begun, Waiter.party])
    exact (first.trans begun.polledLeads).trans (advancedLeads _ t.now)
  | look => exact .refl _

def after (t : Timeline) (deeds : List (Nat × Deed)) : Timeline :=
  deeds.foldl (fun t d => (t.advance d.1).act d.2) t

theorem runAfter : (run deeds).2 = (after {} deeds).waiters.map (·.expire (after {} deeds).token) := by
  have both : ∀ (acc : Timeline × List String), (deeds.foldl (fun acc d =>
      ((acc.1.advance d.1).act d.2, acc.2 ++ [((acc.1.advance d.1).act d.2).token])) acc).1 =
        after acc.1 deeds := fun acc => (List.foldl_hom Prod.fst fun _ _ => rfl).symm
  rw [← both ({}, [])]
  rfl

theorem afterLeads (t : Timeline) (deeds : List (Nat × Deed)) :
    Leads t.sharing (deeds.flatMap fun d => d.2.asks) (t.after deeds).sharing := by
  induction deeds generalizing t with
  | nil => exact .refl _
  | cons d rest ih =>
    have first := (t.advancedLeads d.1).trans (actLeads _ d.2)
    have all := first.trans (ih _)
    rwa [List.nil_append] at all

theorem runLeads (deeds : List (Nat × Deed)) : ∃ s, Leads {} (deeds.flatMap fun d => d.2.asks) s ∧
    s.parties = (run deeds).2.map Waiter.party := by
  let t := after {} deeds
  let last := (t.waiters.map Waiter.deadline).sum
  have due : ∀ w ∈ t.waiters, w.deadline ≤ last := fun w there =>
    List.single_le_sum (by simp) _ (List.mem_map_of_mem there)
  have ended : Leads { t with now := t.now + last }.sharing []
      { t with now := t.now + last, waiters := t.waiters.map (Waiter.expire t.token) }.sharing :=
    waitersLead { t with now := t.now + last } fun s n w mem now same there =>
      same ▸ expireLeads there (now.symm ▸ Nat.le_add_left_of_le (due w mem))
  have all := ((afterLeads {} deeds).trans (t.passLeads last)).trans ended
  rw [List.append_nil, List.append_nil] at all
  exact ⟨_, all, by rw [runAfter]; rfl⟩

def Settled (t : Timeline) : Prop := ∀ w ∈ t.waiters, w.Settled t.token

theorem polledSettled (live : ∀ w ∈ t.waiters, w.wait ≠ .expired) : t.poll.Settled :=
  List.forall_mem_map.mpr fun w there => pollSettles (live w there)

theorem Settled.advance (h : t.Settled) (time : Nat) : (t.advance time).Settled := by
  refine List.forall_mem_map.mpr fun w there => ?_
  split
  · exact .inl (expireEnds (h w there))
  · exact h w there

theorem Settled.act (h : t.Settled) (deed : Deed) : (t.act deed).Settled := by
  have live := fun w there => (h w there).live
  cases deed with
  | set values => exact polledSettled live
  | wait timeout =>
    refine Settled.advance (polledSettled fun w there => ?_) t.now
    rcases List.mem_append.mp there with old | new
    · exact live w old
    · simp [List.mem_singleton.mp new]
  | look => exact h

theorem Settled.after (h : t.Settled) (deeds : List (Nat × Deed)) : (t.after deeds).Settled := by
  induction deeds generalizing t with
  | nil => exact h
  | cons d rest ih => exact ih ((h.advance d.1).act d.2)

theorem runEnds (deeds : List (Nat × Deed)) : ∀ w ∈ (run deeds).2, ∃ t, w.wait = .ended t := by
  have settled : ({} : Timeline).Settled := by simp [Settled]
  rw [runAfter]
  exact List.forall_mem_map.mpr fun w there => expireEnds (settled.after deeds w there)

end Timeline

inductive Waits (token : String) (w : Wait) : Decision.Input → Wait → Prop where
  | looks {x : Wait} (found : (Stage.resting w).look token = some (.resting x)) :
      Waits token w .proceed x
  | expires {x : Wait} (missed : (Stage.resting w).look token = some .missed)
      (late : Stage.missed.check true = some (.resting x)) : Waits token w .expire x

theorem polledLooks {w x : Wait} (polled : step token w .poll = some x) :
    (Stage.resting w).look token = some (.resting x) := by
  cases w <;> simp [Stage.look, polled]

theorem lateMisses {w x : Wait} (late : step token w .expire = some x) :
    (Stage.resting w).look token = some .missed ∧ Stage.missed.check true = some (.resting x) := by
  cases w with
  | polling =>
    rw [step] at late
    split at late
    · rename_i empty
      exact ⟨by simp [Stage.look, step, empty], congrArg (Option.map Stage.resting) late⟩
    · contradiction
  | expired | ended => contradiction

theorem callWaits {v : Decision.View} {subject : Decision.Subject} {w : Wait} {i : Decision.Input}
    {next : Decision.Next} (goes : Decision.step v subject (.waiting w) i = some next) :
    ∃ x, Waits v.token w i x ∧ next = Decision.wake v subject x := by
  cases i with
  | proceed =>
    obtain ⟨x, polled, same⟩ := Option.map_eq_some_iff.mp goes
    exact ⟨x, .looks (polledLooks polled), same.symm⟩
  | expire =>
    obtain ⟨x, late, same⟩ := Option.map_eq_some_iff.mp goes
    obtain ⟨missed, checked⟩ := lateMisses late
    exact ⟨x, .expires missed checked, same.symm⟩
  | replied r => contradiction

/- In every run the waits at a gate follow what it holds. Every timeline is such a run, one in which all waits
end, and a call waits by the same steps. -/
theorem waitsFollowGate :
    (∀ (log : List Action) (s : Sharing), Run {} log s → Sharing.Faithful log s) ∧
    (∀ deeds : List (Nat × Deed), ∃ (log : List Action) (s : Sharing), Run {} log s ∧
      log.filter Action.isAsked = (deeds.flatMap fun d => d.2.asks) ∧
      s.parties = (Timeline.run deeds).2.map Waiter.party ∧
      ∀ w ∈ (Timeline.run deeds).2, ∃ t, w.wait = .ended t) ∧
    ∀ (v : Decision.View) (subject : Decision.Subject) (w : Wait) (i : Decision.Input)
      (next : Decision.Next), Decision.step v subject (.waiting w) i = some next →
      ∃ x, Waits v.token w i x ∧ next = Decision.wake v subject x := by
  refine ⟨fun log s run => run.faithful, fun deeds => ?_, fun _ _ _ _ _ => callWaits⟩
  obtain ⟨s, ⟨log, run, asked⟩, same⟩ := Timeline.runLeads deeds
  exact ⟨log, s, run, asked, same, Timeline.runEnds deeds⟩

/- The first wait is polled when the token that woke it is gone again, and ends without one. The second is late,
but a token comes before its last look. The third is still in the middle of a poll. -/
def raced : List Action :=
  [.wait 5, .wait 0, .wait 9, .poll 0, .check 0 false, .set "a", .set "", .poll 0, .check 0 false,
    .poll 1, .check 1 true, .set "b", .poll 1, .set "", .pass 5, .poll 0, .check 0 true, .poll 0,
    .poll 2, .set "c"]

theorem goneTokenIsNotTaken :
    (∃ s, Run {} raced s ∧ (s.answer? 0 = some "" ∧ Sharing.LastLook raced 0 "") ∧
      (s.answer? 1 = some "b" ∧ Sharing.LastLook raced 1 "b") ∧
      (s.answer? 2 = none ∧ ∃ t, Sharing.Polled s 2 t ∧ t.answer? 2 = some "c" ∧ t.now = s.now)) ∧
    ∃ x, Waits "c" .polling .proceed x ∧
      Decision.step ⟨{}, "c", {}⟩ .token (.waiting .polling) .proceed =
        some (Decision.wake ⟨{}, "c", {}⟩ .token x) := by
  have run := Sharing.playRun (show Sharing.play {} raced = some _ from rfl)
  obtain ⟨follows, _, calls⟩ := waitsFollowGate
  have counts := follows raced _ run
  refine ⟨⟨_, run, ⟨rfl, counts.answers 0 "" rfl⟩, ⟨rfl, counts.answers 1 "b" rfl⟩,
    rfl, counts.kept 2 (by decide) rfl (by decide)⟩, ?_⟩
  obtain ⟨x, waits, same⟩ := calls ⟨{}, "c", {}⟩ .token .polling .proceed _ rfl
  exact ⟨x, waits, congrArg some same⟩

end FirewallAgent.Gate

import FirewallAgent.Proofs.Agent.Step
import FirewallAgent.Proofs.Channel.Moves
import FirewallAgent.Proofs.Store.Work
import Mathlib.Data.List.Forall2

/-! What has happened on a stream, by the phase of the task that serves it. On one stream the task says
who it is, waits to be authorized, keeps the credential that came with it, and only then reads back
what is stored and proves itself with it. -/
namespace FirewallAgent.Agent
open Channel (Moves Phase Settings authorizationRequest authentication)

def said? : Channel.Effect → Option ClientMessage
  | .sent x => some x
  | _ => none

def Moment.sends (m : Moment) (i : Nat) : List ClientMessage := (effectsOf i m.events).filterMap said?

def sent (i : Nat) (log : List Moment) : List ClientMessage := log.flatMap (·.sends i)

def Moment.opens (m : Moment) (i : Nat) : Prop := m.action = .channel i (.opened (.ok ()))

def Moment.hears (m : Moment) (i : Nat) (x : ServerMessage) : Prop :=
  m.action = .channel i (.received x)

def Moment.isOf (m : Moment) (i : Nat) : Prop := m.action.task? = some i

def Moment.works (m : Moment) (i : Nat) (p : Phase) (turns : List Store.Turn) : Prop :=
  m.action = .storage i turns ∧ ∃ c, m.before.clients[i]? = some c ∧ c.channel.phase = p

def Moment.saves (m : Moment) (i : Nat) (s : Settings) (x : Credential)
    (r : Except StorageError Unit) : Prop :=
  ∃ turns, m.works i (.persisting x) turns ∧
    Store.saveCredential m.before.tree m.before.store s.code x turns = (m.after.tree, m.after.store, r)

def Moment.reloads (m : Moment) (i : Nat) (r : Except StorageError Unit) : Prop :=
  ∃ turns, m.works i .reloading turns ∧
    Store.reload m.before.tree m.before.store turns = (m.after.tree, m.after.store, r)

def Moment.loads (m : Moment) (i : Nat) (s : Settings) (x : Option Credential) : Prop :=
  ∃ turns, m.works i .loading turns ∧ Store.loadCredential m.before.store s.code = x

def Moment.wipes (m : Moment) (i : Nat) (r : Except StorageError Unit) : Prop :=
  ∃ turns, m.works i .wiping turns ∧
    Store.clear m.before.tree m.before.store turns = (m.after.tree, m.after.store, r)

def Unheard (i : Nat) (log : List Moment) : Prop :=
  ∀ m ∈ log, ∀ p q, ¬ m.hears i (.authorized p q)

def Granted (i : Nat) (p q : Option String) (later log : List Moment) : Prop :=
  ∃ earlier m, log = earlier ++ m :: later ∧ m.hears i (.authorized p q) ∧ Unheard i earlier

def Revoked (i : Nat) (s : Settings) (log : List Moment) : Prop :=
  ∃ earlier m later x, log = earlier ++ m :: later ∧ m.hears i .deauthorized ∧
    sent i earlier = [authorizationRequest s, authentication x]

def InOrder (steps : List (Moment → Prop)) (log : List Moment) : Prop :=
  ∃ ms : List Moment, ms.Sublist log ∧ List.Forall₂ (fun step m => step m) steps ms

def saving (i : Nat) (s : Settings) : Option String → Option String → List (Moment → Prop)
  | some p, some q => [fun m => m.saves i s ⟨p, q⟩ (.ok ())]
  | _, _ => []

variable {i : Nat} {s : Settings} {log : List Moment} {m : Moment}

theorem sentNext : sent i (log ++ [m]) = sent i log ++ m.sends i := by simp [sent]

theorem sentQuiet (mute : m.sends i = []) : sent i (log ++ [m]) = sent i log := by
  rw [sentNext, mute, List.append_nil]

theorem Unheard.next (h : Unheard i log) (other : ∀ p q, ¬ m.hears i (.authorized p q)) :
    Unheard i (log ++ [m]) := by
  intro n there
  rcases List.mem_append.mp there with old | new
  · exact h n old
  · exact List.mem_singleton.mp new ▸ other

theorem Granted.next {p q : Option String} {later : List Moment} (h : Granted i p q later log)
    (m : Moment) : Granted i p q (later ++ [m]) (log ++ [m]) := by
  obtain ⟨earlier, n, rfl, heard, first⟩ := h
  exact ⟨earlier, n, by simp, heard, first⟩

theorem Unheard.granted {p q : Option String} (h : Unheard i log)
    (heard : m.hears i (.authorized p q)) : Granted i p q [] (log ++ [m]) := ⟨log, m, rfl, heard, h⟩

theorem Granted.heard {p q : Option String} {later : List Moment} (h : Granted i p q later log) :
    ¬ Unheard i log := by
  obtain ⟨earlier, n, rfl, heard, _⟩ := h
  intro unheard
  exact unheard n (by simp) p q heard

theorem InOrder.first {step : Moment → Prop} (now : step m) : InOrder [step] (log ++ [m]) :=
  ⟨[m], List.sublist_append_right log [m], .cons now .nil⟩

theorem InOrder.later {steps : List (Moment → Prop)} (h : InOrder steps log) (m : Moment) :
    InOrder steps (log ++ [m]) := by
  obtain ⟨ms, sub, like⟩ := h
  exact ⟨ms, sub.trans (List.sublist_append_left log [m]), like⟩

theorem InOrder.next {steps : List (Moment → Prop)} {step : Moment → Prop} (h : InOrder steps log)
    (now : step m) : InOrder (steps ++ [step]) (log ++ [m]) := by
  obtain ⟨ms, sub, like⟩ := h
  exact ⟨ms ++ [m], sub.append (List.Sublist.refl [m]),
    List.rel_append like (.cons now .nil)⟩

theorem InOrder.also {steps : List (Moment → Prop)} {log : List Moment} {P : Moment → Prop}
    (h : InOrder steps log) (all : ∀ step ∈ steps, ∀ m ∈ log, step m → P m) :
    InOrder (steps.map fun step m => step m ∧ P m) log := by
  obtain ⟨ms, sub, like⟩ := h
  refine ⟨ms, sub, ?_⟩
  have inside : ∀ m ∈ ms, m ∈ log := fun m there => sub.subset there
  clear sub
  induction like with
  | nil => exact .nil
  | cons now _ ih =>
    refine .cons ⟨now, all _ List.mem_cons_self _ (inside _ List.mem_cons_self) now⟩ ?_
    exact ih (fun step there => all step (List.mem_cons_of_mem _ there))
      fun m there => inside m (List.mem_cons_of_mem _ there)

def Progress (i : Nat) (s : Settings) (log : List Moment) : Phase → Prop
  | .greeting => sent i log = [] ∧ Unheard i log
  | .authorizing => sent i log = [authorizationRequest s] ∧ Unheard i log
  | .persisting x => sent i log = [authorizationRequest s] ∧
      ∃ later, Granted i (some x.appId) (some x.appSecret) later log
  | .reloading => sent i log = [authorizationRequest s] ∧
      ∃ p q later, Granted i p q later log ∧ InOrder (saving i s p q) later
  | .loading => sent i log = [authorizationRequest s] ∧ ∃ p q later, Granted i p q later log ∧
      InOrder (saving i s p q ++ [(Moment.reloads · i (.ok ()))]) later
  | .presenting x => sent i log = [authorizationRequest s] ∧
      ∃ p q later, Granted i p q later log ∧
        InOrder (saving i s p q ++ [(Moment.reloads · i (.ok ())), (Moment.loads · i s (some x))]) later
  | .streaming | .enabling _ => (∃ x, sent i log = [authorizationRequest s, authentication x]) ∧
      ∃ p q later, Granted i p q later log
  | .wiping => (∃ x, sent i log = [authorizationRequest s, authentication x]) ∧ Revoked i s log
  | _ => ∃ x, sent i log <+: [authorizationRequest s, authentication x]

theorem Progress.sent {p : Phase} (h : Progress i s log p) :
    ∃ x, sent i log <+: [authorizationRequest s, authentication x] := by
  cases p with
  | greeting => exact ⟨default, h.1 ▸ List.nil_prefix⟩
  | authorizing | persisting | reloading | loading | presenting =>
    exact ⟨default, h.1 ▸ ⟨[_], rfl⟩⟩
  | streaming | enabling | wiping =>
    obtain ⟨⟨x, all⟩, _⟩ := h
    exact ⟨x, all ▸ List.prefix_rfl⟩
  | deciding | announcing | dialing | opening | ending | retreating | backingOff | halting
  | releasing | concluding | closing | done => exact h

theorem Progress.leaves {p : Phase} (h : Progress i s log p) (mute : m.sends i = []) :
    ∃ x, Agent.sent i (log ++ [m]) <+: [authorizationRequest s, authentication x] := by
  obtain ⟨x, some⟩ := h.sent
  refine ⟨x, ?_⟩
  rw [sentQuiet mute]
  exact some

theorem Progress.idle {p : Phase} (h : Progress i s log p) (mute : m.sends i = [])
    (other : ¬ m.isOf i) : Progress i s (log ++ [m]) p := by
  have same : Agent.sent i (log ++ [m]) = Agent.sent i log := sentQuiet mute
  have deaf : ∀ p q, ¬ m.hears i (.authorized p q) := fun p q heard => other (congrArg Action.task? heard)
  cases p with
  | greeting => exact ⟨same.trans h.1, h.2.next deaf⟩
  | authorizing => exact ⟨same.trans h.1, h.2.next deaf⟩
  | persisting x =>
    obtain ⟨begun, later, granted⟩ := h
    exact ⟨same.trans begun, _, granted.next m⟩
  | reloading =>
    obtain ⟨begun, p, q, later, granted, done⟩ := h
    exact ⟨same.trans begun, p, q, _, granted.next m, done.later m⟩
  | loading =>
    obtain ⟨begun, p, q, later, granted, done⟩ := h
    exact ⟨same.trans begun, p, q, _, granted.next m, done.later m⟩
  | presenting x =>
    obtain ⟨begun, p, q, later, granted, done⟩ := h
    exact ⟨same.trans begun, p, q, _, granted.next m, done.later m⟩
  | streaming =>
    obtain ⟨⟨x, all⟩, p, q, later, granted⟩ := h
    exact ⟨⟨x, same.trans all⟩, p, q, _, granted.next m⟩
  | enabling on =>
    obtain ⟨⟨x, all⟩, p, q, later, granted⟩ := h
    exact ⟨⟨x, same.trans all⟩, p, q, _, granted.next m⟩
  | wiping =>
    obtain ⟨⟨x, all⟩, earlier, n, later, y, rfl, heard, proven⟩ := h
    exact ⟨⟨x, same.trans all⟩, earlier, n, later ++ [m], y, by simp, heard, proven⟩
  | deciding | announcing | dialing | opening | ending | retreating | backingOff | halting
  | releasing | concluding | closing | done => exact h.leaves mute

theorem deafTo {input : Channel.Input} (action : m.action = .channel i input)
    (other : ∀ p q, input ≠ .received (.authorized p q)) : ∀ p q, ¬ m.hears i (.authorized p q) := by
  intro p q heard
  have same := action.symm.trans heard
  injection same with _ same
  exact other p q same

theorem progressMoves {c d : Channel} {input : Channel.Input} {effects : List Channel.Effect}
    (h : Progress i s log c.phase) (moves : Moves s c input d effects)
    (does : m.sends i = effects.filterMap said?) (action : m.action = .channel i input)
    (outer : input.source ≠ .store) (inner : ¬ m.opens i) : Progress i s (log ++ [m]) d.phase := by
  cases moves with
  | begins | leaves | announces | dials | refused | unheard | rejected | abandoned | breaks
  | unpresented | closes | drops | cancelled | stopsFor | stopsAsked | reconnects | retreats | rests
  | wakes | roused | halts | releases | concludes | stops => exact h.leaves does
  | persisted | unpersisted | reloaded | unreloaded | loads | misses | wiped => exact absurd rfl outer
  | opens => exact absurd action inner
  | greets here =>
    rw [here] at h
    refine ⟨?_, h.2.next (deafTo action nofun)⟩
    rw [sentNext, does, h.1]
    rfl
  | issued here x =>
    rw [here] at h
    exact ⟨(sentQuiet does).trans h.1, [], h.2.granted action⟩
  | recognized here p q half =>
    rw [here] at h
    have nothing : saving i s p q = [] := by
      rcases half with rfl | rfl
      · rfl
      · cases p <;> rfl
    exact ⟨(sentQuiet does).trans h.1, p, q, [], h.2.granted action,
      nothing ▸ ⟨[], List.nil_sublist _, .nil⟩⟩
  | ignores here x plain bare =>
    rw [here] at h ⊢
    refine ⟨(sentQuiet does).trans h.1, h.2.next (deafTo action ?_)⟩
    intro p q same
    injection same with same
    exact bare p q same
  | presents x here =>
    rw [here] at h
    obtain ⟨begun, p, q, later, granted, _⟩ := h
    refine ⟨⟨x, ?_⟩, p, q, _, granted.next m⟩
    rw [sentNext, does, begun]
    rfl
  | rotates here | passes here =>
    rw [here] at h ⊢
    obtain ⟨⟨x, all⟩, p, q, later, granted⟩ := h
    exact ⟨⟨x, (sentQuiet does).trans all⟩, p, q, _, granted.next m⟩
  | deauthorized here =>
    rw [here] at h
    obtain ⟨⟨x, all⟩, _⟩ := h
    exact ⟨⟨x, (sentQuiet does).trans all⟩, log, m, [], x, rfl, action, all⟩
  | defaults here | enables _ here =>
    rw [here] at h
    obtain ⟨⟨x, all⟩, p, q, later, granted⟩ := h
    exact ⟨⟨x, (sentQuiet does).trans all⟩, p, q, _, granted.next m⟩

theorem progressStored {c : Client} {d : Channel} {effects : List Channel.Effect} {tree : FileTree}
    {store : Store.Handle} {news : Channel.Input} {turns : List Store.Turn}
    (found : m.before.clients[i]? = some c) (h : Progress i c.settings log c.channel.phase)
    (action : m.action = .storage i turns)
    (worked : storeWork m.before.tree m.before.store c.settings.code turns c.channel.phase =
      some (tree, store, news))
    (after : m.after.tree = tree ∧ m.after.store = store)
    (moves : Moves c.settings c.channel news d effects)
    (does : m.sends i = effects.filterMap said?) : Progress i c.settings (log ++ [m]) d.phase := by
  have outside := h.leaves (m := m)
  obtain ⟨rfl, rfl⟩ := after
  rcases storeWorks worked with ⟨x, r, here, rfl, saved⟩ | ⟨r, here, rfl, read⟩ |
    ⟨here, rfl, _, _⟩ | ⟨r, here, rfl, _⟩
  · have works : m.works i (.persisting x) turns := ⟨action, c, found, here⟩
    rw [here] at h
    obtain ⟨begun, later, granted⟩ := h
    cases moves with
    | unpersisted => exact outside does
    | persisted =>
      have done : InOrder (saving i c.settings (some x.appId) (some x.appSecret)) (later ++ [m]) :=
        .first ⟨turns, works, saved⟩
      exact ⟨(sentQuiet does).trans begun, _, _, _, granted.next m, done⟩
  · have works : m.works i .reloading turns := ⟨action, c, found, here⟩
    rw [here] at h
    obtain ⟨begun, p, q, later, granted, done⟩ := h
    cases moves with
    | unreloaded => exact outside does
    | reloaded =>
      exact ⟨(sentQuiet does).trans begun, p, q, _, granted.next m, done.next ⟨turns, works, read⟩⟩
  · have works : m.works i .loading turns := ⟨action, c, found, here⟩
    rw [here] at h
    obtain ⟨begun, p, q, later, granted, done⟩ := h
    generalize loaded : Store.loadCredential m.before.store c.settings.code = x at moves
    cases moves with
    | misses => exact outside does
    | loads _ x =>
      have loads : m.loads i c.settings (some x) := ⟨turns, works, loaded⟩
      have more : InOrder (saving i c.settings p q ++ [(Moment.reloads · i (.ok ()))] ++
          [(Moment.loads · i c.settings (some x))]) (later ++ [m]) := done.next loads
      rw [List.append_assoc] at more
      exact ⟨(sentQuiet does).trans begun, p, q, _, granted.next m, more⟩
  · cases moves with
    | wiped => exact outside does

def Standing (i : Nat) (s : Settings) (log : List Moment) (a : Agent) : Prop :=
  ∃ c, a.clients[i]? = some c ∧ c.settings = s ∧ Progress i s log c.channel.phase

variable {a b : Agent} {x : Action} {es : List Event}

theorem standingStep (standing : Standing i s log a) (next : a.step x = some (b, es))
    (inner : ¬ Moment.opens ⟨a, x, b, es⟩ i) : Standing i s (log ++ [⟨a, x, b, es⟩]) b := by
  obtain ⟨c, found, rfl, progress⟩ := standing
  by_cases own : x.task? = some i
  · rcases ownStep next own with ⟨input, rfl, outer, moved⟩ |
      ⟨turns, c', tree, store, news, rfl, found', worked, moved⟩
    · obtain ⟨c', d, effects, found', stepped, does, after, _⟩ := channelOwn moved
      cases Option.some.inj (found.symm.trans found')
      exact ⟨_, after, rfl,
        progressMoves progress (Channel.stepMoves stepped) (congrArg _ does) rfl outer inner⟩
    · cases Option.some.inj (found.symm.trans found')
      obtain ⟨c', d, effects, found', stepped, does, after, _⟩ := channelOwn moved
      cases Option.some.inj (found.symm.trans found')
      have driven := channelDriven moved
      exact ⟨_, after, rfl, progressStored (m := ⟨a, .storage i turns, b, es⟩) found progress rfl
        worked ⟨driven.tree, driven.store⟩ (Channel.stepMoves stepped) (congrArg _ does)⟩
  · obtain ⟨mute, alike⟩ := stepElsewhere next own
    obtain ⟨d, there, asked, _⟩ := alike c found
    exact ⟨d, there, asked.settings, asked.phase ▸ progress.idle (congrArg _ mute) own⟩

theorem runStanding {ms : List Moment} (standing : Standing i s log a) (run : Run a ms b)
    (inner : ∀ m ∈ ms, ¬ m.opens i) : Standing i s (log ++ ms) b := by
  induction run generalizing log with
  | rest => simpa using standing
  | step next run ih =>
    have here := standingStep standing next (inner _ List.mem_cons_self)
    simpa using ih here fun m there => inner m (List.mem_cons_of_mem _ there)

end FirewallAgent.Agent

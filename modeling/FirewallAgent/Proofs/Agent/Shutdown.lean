import FirewallAgent.Proofs.Agent.Stopping
import Mathlib.Data.List.Nodup

/-! What shutdowns stop. A shutdown takes all slots off the list and then goes through them in whatever
order they came; a slot that is not full when it comes to it is passed over, and the call that was
filling it fills it all the same. -/
namespace FirewallAgent.Agent
open Registry

variable {a b : Agent} {x : Action} {es : List Event} {n s : Nat} {log : List Moment}

def Moment.drains (m : Moment) (n : Nat) (slots : List Nat) : Prop :=
  m.action = .draining n slots ∧ m.before.shutdowns[n]? = some ⟨.draining⟩ ∧
    slots.Perm (m.before.identities.map Prod.snd)

def Moment.skips (m : Moment) (n s : Nat) : Prop :=
  m.action = .shutting n ∧
    (∃ rest stage, m.before.shutdowns[n]? = some ⟨.stopping (s :: rest) stage⟩) ∧
    ∀ i, m.before.slots[s]? ≠ some (.filled i)

def Drained (log : List Moment) (n s : Nat) : Prop := ∃ m ∈ log, ∃ slots, m.drains n slots ∧ s ∈ slots

def Skipped (log : List Moment) (n s : Nat) : Prop := ∃ m ∈ log, m.skips n s

def slotsLeft (a : Agent) (n : Nat) : List Nat :=
  match a.shutdowns[n]? with
  | some ⟨.stopping slots _⟩ => slots
  | _ => []

/- The slot's client has been asked to stop, and has stopped or is waited for by someone else. -/
def Quelled (a : Agent) (n s : Nat) : Prop :=
  ∃ i c, a.slots[s]? = some (.filled i) ∧ a.clients[i]? = some c ∧ c.Met .ended ∧
    (c.channel.phase = .done ∨ ∃ q : Party, q ≠ .shutdown n ∧ q.place? a = some (i, .joining))

theorem Quelled.next (h : Quelled a n s) (exclusive : Exclusive a) (next : a.step x = some (b, es)) :
    Quelled b n s := by
  obtain ⟨i, c, full, found, met, stands⟩ := h
  obtain ⟨d, after, _, change⟩ := changeStep next found
  have onward := change.onward
  refine ⟨i, d, filledStays exclusive next full, after, met.onward onward, ?_⟩
  rcases stands with done | ⟨q, other, waits⟩
  · exact .inl (onward.channel.done done)
  · by_cases acts : x = q.action
    · exact .inl (onward.channel.done (joiningDone next acts waits found))
    · exact .inr ⟨q, other, placeStays exclusive next acts waits⟩

/- What a shutdown has taken out is left to be done, was passed over, or is quelled. -/
def Swept (past : List Moment) (a : Agent) : Prop :=
  ∀ n s, Drained past n s → s ∈ a.slotsLeft n ∨ Skipped past n s ∨ Quelled a n s

theorem slotsLeftIff : s ∈ a.slotsLeft n ↔
    ∃ slots stage, a.shutdowns[n]? = some ⟨.stopping slots stage⟩ ∧ s ∈ slots := by
  unfold slotsLeft
  split <;> simp_all

theorem passesQuelled {i : Nat} {rest : List Nat} (h : Watched a)
    (there : a.shutdowns[n]? = some ⟨.stopping (s :: rest) .ended⟩)
    (full : a.slots[s]? = some (.filled i)) : Quelled a n s := by
  have place : (Party.shutdown n).place? a = some (i, .ended) := shutdownPlace.mpr ⟨s, rest, there, full⟩
  obtain ⟨c, found, met⟩ := h.met place nofun
  refine ⟨i, c, full, found, met, ?_⟩
  rcases h.awaited found met.2.2 with done | ⟨q, waits⟩
  · exact .inl done
  · refine .inr ⟨q, ?_, waits⟩
    rintro rfl
    exact absurd (place.symm.trans waits) nofun

theorem leftStep {past : List Moment} (h : Watched a) (exclusive : Exclusive a)
    (next : a.step x = some (b, es)) (left : s ∈ a.slotsLeft n) :
    s ∈ b.slotsLeft n ∨ Skipped (past ++ [⟨a, x, b, es⟩]) n s ∨ Quelled b n s := by
  obtain ⟨slots, stage, there, inside⟩ := slotsLeftIff.mp left
  by_cases own : x = .shutting n
  · subst own
    have step := next
    cases stepTurn next rfl with
    | finishes was =>
      cases there.symm.trans was
      contradiction
    | drives was =>
      cases there.symm.trans was
      exact .inl (slotsLeftIff.mpr ⟨_, _, setSelf was, inside⟩)
    | skips was empty =>
      cases there.symm.trans was
      rcases List.mem_cons.mp inside with rfl | later
      · exact .inr (.inl (seenNow ⟨rfl, ⟨_, _, was⟩, empty⟩))
      · exact .inl (slotsLeftIff.mpr ⟨_, _, setSelf was, later⟩)
    | passes was full =>
      cases there.symm.trans was
      rcases List.mem_cons.mp inside with rfl | later
      · exact .inr (.inr ((passesQuelled h was full).next exclusive step))
      · exact .inl (slotsLeftIff.mpr ⟨_, _, setSelf was, later⟩)
  · exact .inl (slotsLeftIff.mpr ⟨slots, stage, shutdownStays next own there, inside⟩)

theorem drainedNow {slots : List Nat} (next : a.step x = some (b, es))
    (drains : Moment.drains ⟨a, x, b, es⟩ n slots) (inside : s ∈ slots) : s ∈ b.slotsLeft n := by
  obtain ⟨rfl, _⟩ := drains
  cases stepTurn next rfl with
  | drains was => exact slotsLeftIff.mpr ⟨_, _, setSelf was, inside⟩

theorem sweptStep {past : List Moment} (h : Swept past a) (watched : Watched a)
    (exclusive : Exclusive a) (next : a.step x = some (b, es)) :
    Swept (past ++ [⟨a, x, b, es⟩]) b := by
  rintro n s ⟨m, there, slots, drains, inside⟩
  rcases List.mem_append.mp there with old | new
  · rcases h n s ⟨m, old, slots, drains, inside⟩ with left | skipped | quelled
    · exact leftStep watched exclusive next left
    · exact .inr (.inl (seenLater skipped))
    · exact .inr (.inr (quelled.next exclusive next))
  · cases List.mem_singleton.mp new
    exact .inl (drainedNow next drains inside)

def Accounted (past : List Moment) (a : Agent) : Prop :=
  ∀ s < a.slots.length, s ∈ a.identities.map Prod.snd ∨ ∃ n, Drained past n s

theorem accountedStep {past : List Moment} (h : Accounted past a) (next : a.step x = some (b, es)) :
    Accounted (past ++ [⟨a, x, b, es⟩]) b := by
  have same : b.slots.length = a.slots.length → b.identities = a.identities →
      Accounted (past ++ [⟨a, x, b, es⟩]) b := by
    intro size identities s inside
    rcases h s (size ▸ inside) with listed | ⟨n, drained⟩
    · exact .inl (identities ▸ listed)
    · exact .inr ⟨n, seenLater drained⟩
  cases manages : x.manages with
  | false =>
    have still := stillStep next manages
    exact same (congrArg List.length still.slots) still.identities
  | true =>
    cases stepTurn next manages with
    | enters =>
      intro s inside
      simp only [setConnect, List.length_append, List.length_singleton] at inside
      by_cases new : s = a.slots.length
      · exact .inl (by simp [setConnect, new])
      · rcases h s (by omega) with listed | ⟨n, drained⟩
        · exact .inl (by simpa [setConnect, new] using listed)
        · exact .inr ⟨n, seenLater drained⟩
    | @drains n slots there taken =>
      intro s inside
      rcases h s inside with listed | ⟨k, drained⟩
      · exact .inr ⟨n, seenNow ⟨slots, ⟨rfl, there, taken⟩, taken.mem_iff.mpr listed⟩⟩
      · exact .inr ⟨k, seenLater drained⟩
    | begins | succeeds | fails | quits => exact same (by simp [setConnect, setSlot]) rfl
    | calls | finds | shares | forgets | bids | presses | closes | skips | drives | passes
    | finishes | drops => exact same rfl rfl

structure Managed (past : List Moment) (owners : List Identity) (a : Agent) : Prop where
  orderly : Orderly owners a
  watched : Watched a
  swept : Swept past a
  accounted : Accounted past a

theorem runManaged (unused : Unused a) (run : Run a log b) : ∃ owners, Managed log owners b := by
  refine run.holds (P := fun past d => ∃ owners, Managed past owners d) ?_
    ⟨[], unused.orderly, unused.watched, ?_, ?_⟩
  · rintro past c x d es ⟨owners, h⟩ next
    obtain ⟨later, orderly⟩ := orderlyStep h.orderly next
    exact ⟨_, orderly, watchedStep h.watched h.orderly.exclusive next,
      sweptStep h.swept h.watched h.orderly.exclusive next, accountedStep h.accounted next⟩
  · rintro n s ⟨m, there, _⟩
    contradiction
  · intro s inside
    simp [unused.slots] at inside

variable {owners : List Identity} {i j : Nat} {c d : Client}

theorem Managed.doubled (h : Managed log owners a) (first : a.clients[i]? = some c)
    (second : a.clients[j]? = some d) (apart : i ≠ j) (same : c.identity = d.identity) :
    ∃ n s k, (k = i ∨ k = j) ∧ a.slots[s]? = some (.filled k) ∧ Drained log n s := by
  have home : ∀ {k : Nat} {e : Client}, a.clients[k]? = some e →
      ∃ s : Nat, a.slots[s]? = some (.filled k) ∧ owners[s]? = some e.identity := by
    intro k e found
    have known : a.whos[k]? = some e.who := by rw [Agent.whos, List.getElem?_map, found]; rfl
    obtain ⟨s, full⟩ := h.orderly.housed.housed (List.getElem?_eq_some_iff.mp known).1
    obtain ⟨w, also, owner⟩ := h.orderly.housed.filled full
    cases Option.some.inj (known.symm.trans also)
    exact ⟨s, full, owner⟩
  obtain ⟨s, full, owner⟩ := home first
  obtain ⟨t, filled, owns⟩ := home second
  have inside := (List.getElem?_eq_some_iff.mp full).1
  have within := (List.getElem?_eq_some_iff.mp filled).1
  rcases h.accounted s inside with listed | ⟨n, drained⟩
  · rcases h.accounted t within with also | ⟨n, drained⟩
    · obtain ⟨⟨x, _⟩, one, rfl⟩ := List.mem_map.mp listed
      obtain ⟨⟨y, _⟩, two, rfl⟩ := List.mem_map.mp also
      cases Option.some.inj ((h.orderly.placed.listed _ one).symm.trans owner)
      cases Option.some.inj ((h.orderly.placed.listed _ two).symm.trans owns)
      have twin := List.inj_on_of_nodup_map h.orderly.placed.distinct one two same
      cases congrArg Prod.snd twin
      cases full.symm.trans filled
      exact absurd rfl apart
    · exact ⟨n, t, j, .inr rfl, filled, drained⟩
  · exact ⟨n, s, i, .inl rfl, full, drained⟩

/- A slot that a shutdown is through with is quelled, unless it was passed over. A call that had its slot
when a shutdown took the slots out has one of those, or of an earlier shutdown. So two clients run
for one identity only where a shutdown has passed one over, or has yet to come to its end. -/
theorem shutdownsQuellWhatIsFull (unused : Unused a) (run : Run a log b) :
    (∀ n s, b.shutdowns[n]? = some ⟨.ended⟩ → Drained log n s → Skipped log n s ∨ Quelled b n s) ∧
    (∀ past m rest n slots, log = past ++ m :: rest → m.drains n slots → ∀ (k : Nat) (call : Connect) (s : Nat),
      m.before.connects[k]? = some call → call.slot? = some s →
      s ∈ slots ∨ ∃ earlier, Drained past earlier s) ∧
    (∀ i j c d, b.clients[i]? = some c → b.clients[j]? = some d → i ≠ j → c.identity = d.identity →
      c.channel.running = true → d.channel.running = true →
      ∃ n s k, (k = i ∨ k = j) ∧ b.slots[s]? = some (.filled k) ∧ Drained log n s ∧
        (s ∈ b.slotsLeft n ∨ Skipped log n s)) := by
  obtain ⟨_, managed⟩ := runManaged unused run
  refine ⟨?_, ?_, ?_⟩
  · intro n s ended drained
    rcases managed.swept n s drained with left | others
    · obtain ⟨_, _, there, _⟩ := slotsLeftIff.mp left
      exact absurd (ended.symm.trans there) nofun
    · exact others
  · rintro past m rest n slots rfl ⟨_, _, taken⟩ k call s found slot
    obtain ⟨owners, earlier⟩ := runManaged unused run.around.1
    have owner := earlier.orderly.placed.sought k s call found slot
    have inside := (List.getElem?_eq_some_iff.mp owner).1
    rw [taken.mem_iff]
    exact earlier.accounted s (earlier.orderly.placed.size ▸ inside)
  · intro i j c d first second apart same on also
    obtain ⟨n, s, k, either, full, drained⟩ := managed.doubled first second apart same
    refine ⟨n, s, k, either, full, drained, ?_⟩
    rcases managed.swept n s drained with left | skipped | ⟨l, e, filled, found, met, _⟩
    · exact .inl left
    · exact .inr skipped
    · cases full.symm.trans filled
      rcases either with rfl | rfl
      · cases Option.some.inj (first.symm.trans found)
        exact absurd (on.symm.trans met.1) nofun
      · cases Option.some.inj (second.symm.trans found)
        exact absurd (also.symm.trans met.1) nofun

/- A shutdown passes over the slot that a call is filling, and the next call for the identity gets a
slot of its own. -/
def lateClient : List Action :=
  let home : Identity := ⟨"home", "localhost:443", true⟩
  [.connect home, .connecting 0, .connecting 0, .shutdown, .draining 0 [0], .shutting 0,
    .shutting 0, .connected 0 (.ok ()), .connect home, .connecting 1, .connecting 1, .connected 1 (.ok ())]

theorem shutdownLeavesLateClientRunning : ∃ past m rest a c d, Run bare (past ++ m :: rest) a ∧
    m.drains 0 [0] ∧ m.before.connects.map Connect.slot? = [some 0] ∧
    a.shutdowns = [⟨.ended⟩] ∧ a.connects.map Connect.result? = [some (.ok 0), some (.ok 1)] ∧
    a.clients = [c, d] ∧ c.identity = d.identity ∧ c.channel.running = true ∧
    d.channel.running = true ∧ c.channel.state = .connecting := by
  obtain ⟨log, a, c, d, played, m, nth, rest⟩ : ∃ log a c d, bare.play lateClient = some (log, a) ∧
      ∃ m, log[4]? = some m ∧ m.drains 0 [0] ∧ m.before.connects.map Connect.slot? = [some 0] ∧
      a.shutdowns = [⟨.ended⟩] ∧ a.connects.map Connect.result? = [some (.ok 0), some (.ok 1)] ∧
      a.clients = [c, d] ∧ c.identity = d.identity ∧ c.channel.running = true ∧
      d.channel.running = true ∧ c.channel.state = .connecting :=
    ⟨_, _, _, _, rfl, _, rfl, ⟨rfl, rfl, .refl _⟩, rfl, rfl, rfl, rfl, rfl, rfl, rfl, rfl⟩
  exact ⟨_, m, _, a, c, d, partsAt nth ▸ playRun played, rest⟩

theorem lateClientWasPassedOver : Unused bare ∧ ∃ log a, Run bare log a ∧
    ∃ n s k, (k = 0 ∨ k = 1) ∧ a.slots[s]? = some (.filled k) ∧ Drained log n s ∧
      (s ∈ a.slotsLeft n ∨ Skipped log n s) := by
  have unused : Unused bare := ⟨rfl, rfl, rfl, rfl, rfl, rfl⟩
  obtain ⟨log, a, c, d, played, first, second, same, on, also⟩ : ∃ log a c d,
      bare.play lateClient = some (log, a) ∧ a.clients[0]? = some c ∧ a.clients[1]? = some d ∧
      c.identity = d.identity ∧ c.channel.running = true ∧ d.channel.running = true :=
    ⟨_, _, _, _, rfl, rfl, rfl, rfl, rfl, rfl⟩
  have run := playRun played
  exact ⟨unused, log, a, run,
    (shutdownsQuellWhatIsFull unused run).2.2 0 1 c d first second nofun same on also⟩

end FirewallAgent.Agent

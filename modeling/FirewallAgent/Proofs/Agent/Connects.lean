import FirewallAgent.Proofs.Agent.Turnstile
import FirewallAgent.Proofs.Agent.Token

/-! Calls for the client of an identity, while the registry is not shut down: of all that are made for
one identity at most one connects at a time and at most one succeeds, and its client is for all of them. -/
namespace FirewallAgent.Agent
open Registry

variable {a b : Agent} {x : Action} {es : List Event} {owners : List Identity}

def Connecting (a : Agent) (i : Identity) (n : Nat) : Prop :=
  ∃ c s, a.connects[n]? = some c ∧ c.stage = .connecting s ∧ c.identity = i

def Moment.connected? (m : Moment) : Option Identity :=
  match m.action with
  | .connected n (.ok ()) => (m.before.connects[n]?).map Connect.identity
  | _ => none

def connected (log : List Moment) : List Identity := log.filterMap Moment.connected?

theorem connectedNext (past : List Moment) (m : Moment) :
    connected (past ++ [m]) = connected past ++ m.connected?.toList := by
  cases some : m.connected? <;> simp [connected, some]

def Moment.spoils (m : Moment) (n : Nat) (i : Identity) : Prop :=
  m.before.Connecting i n ∧ ((∃ e, m.action = .connected n (.error e)) ∨ m.action = .abandon n)

structure Listed (a : Agent) : Prop where
  slots : a.identities.map Prod.snd = List.range a.slots.length
  lasting : a.shutdowns = []

theorem listedTurn (h : Listed a) (turn : Turn a x b es) (lasting : x ≠ .shutdown) : Listed b := by
  cases turn with
  | closes => contradiction
  | drains there | skips there | drives there | passes there | finishes there =>
    rw [h.lasting] at there
    contradiction
  | enters => exact ⟨by simp [setConnect, h.slots, List.range_succ], h.lasting⟩
  | begins | succeeds | fails | quits =>
    exact ⟨by simp [setConnect, setSlot, h.slots], h.lasting⟩
  | calls | finds | shares | forgets | bids | presses | drops => exact ⟨h.slots, h.lasting⟩

theorem listedStep (h : Listed a) (next : a.step x = some (b, es)) (lasting : x ≠ .shutdown) :
    Listed b := by
  cases manages : x.manages with
  | true => exact listedTurn h (stepTurn next manages) lasting
  | false =>
    have still := stillStep next manages
    exact ⟨by rw [still.identities, still.slots, h.slots], still.shutdowns.trans h.lasting⟩

theorem Orderly.distinct (h : Orderly owners a) (listed : Listed a) : owners.Nodup := by
  have all : owners = a.identities.map Prod.fst := by
    have size : a.identities.length = a.slots.length := by
      simpa using congrArg List.length listed.slots
    apply List.ext_getElem?
    intro s
    by_cases inside : s < a.identities.length
    · have place : (a.identities.map Prod.snd)[s]? = some s := by
        rw [listed.slots, List.getElem?_range (size ▸ inside)]
      rw [List.getElem?_map, List.getElem?_eq_getElem inside] at place ⊢
      have known := h.placed.listed _ (List.getElem_mem inside)
      rwa [Option.some.inj place] at known
    · have past : owners.length ≤ s := by have := h.placed.size; omega
      rw [List.getElem?_eq_none past, List.getElem?_eq_none (by simpa using inside)]
  rw [all]
  exact h.placed.distinct

theorem growsStep (next : a.step x = some (b, es)) :
    b.whos.map Prod.fst = a.whos.map Prod.fst ++ (Moment.connected? ⟨a, x, b, es⟩).toList := by
  have same : b.whos = a.whos → Moment.connected? ⟨a, x, b, es⟩ = none →
      b.whos.map Prod.fst = a.whos.map Prod.fst ++ (Moment.connected? ⟨a, x, b, es⟩).toList :=
    fun whos none => by simp [whos, none]
  cases manages : x.manages with
  | false =>
    refine same (stillStep next manages).whos ?_
    cases x <;> first | rfl | contradiction
  | true =>
    cases stepTurn next manages with
    | presses _ found | drives _ _ found | drops found => exact same (setMap found rfl) rfl
    | succeeds there =>
      simp [Agent.whos, setConnect, setSlot, Moment.connected?, there, newClient, Client.who]
    | calls | finds | enters | begins | shares | fails | quits | forgets | bids | closes | drains
    | skips | passes | finishes => exact same rfl rfl

def Told (past : List Moment) (a : Agent) : Prop :=
  ∀ n c, a.connects[n]? = some c → (∀ s, c.stage = .connecting s → c.tried = true) ∧
    ∀ e, c.stage = .ended (.error e) →
      c.tried = true ∧ ∃ m ∈ past, m.action = .connected n (.error e)

theorem Told.next {past : List Moment} (h : Told past a) (m : Moment)
    (connects : b.connects = a.connects) : Told (past ++ [m]) b := by
  intro n c there
  obtain ⟨busy, failed⟩ := h n c (connects ▸ there)
  refine ⟨busy, ?_⟩
  intro e stage
  obtain ⟨tried, own⟩ := failed e stage
  exact ⟨tried, seenLater own⟩

theorem Told.moves {past : List Moment} {n : Nat} {d : Connect} (h : Told past a) (m : Moment)
    (connects : b.connects = a.connects.set n d) (busy : ∀ s, d.stage = .connecting s → d.tried = true)
    (failed : ∀ e, d.stage = .ended (.error e) →
      d.tried = true ∧ m.action = .connected n (.error e)) : Told (past ++ [m]) b := by
  intro k c there
  rw [connects] at there
  rcases setCases there with ⟨rfl, rfl⟩ | ⟨_, old⟩
  · refine ⟨busy, ?_⟩
    intro e stage
    obtain ⟨tried, does⟩ := failed e stage
    exact ⟨tried, seenNow does⟩
  · exact h.next (b := a) m rfl k c old

theorem toldStep {past : List Moment} (h : Told past a) (next : a.step x = some (b, es)) :
    Told (past ++ [⟨a, x, b, es⟩]) b := by
  cases manages : x.manages with
  | false => exact h.next _ (stillStep next manages).connects
  | true =>
    cases stepTurn next manages with
    | calls i =>
      intro n c there
      rcases appendCases there with old | ⟨_, rfl⟩
      · exact h.next (b := a) _ rfl n c old
      · exact ⟨nofun, nofun⟩
    | finds | enters | shares | succeeds | quits | forgets => exact h.moves _ rfl nofun nofun
    | begins => exact h.moves _ rfl (fun _ _ => rfl) nofun
    | fails e there here =>
      refine h.moves _ rfl nofun ?_
      intro f stage
      cases stage
      exact ⟨(h _ _ there).1 _ here, rfl⟩
    | bids | presses | closes | drains | skips | drives | passes | finishes | drops =>
      exact h.next _ rfl

structure Serving (log : List Moment) (owners : List Identity) (a : Agent) : Prop where
  orderly : Orderly owners a
  listed : Listed a
  clients : a.whos.map Prod.fst = connected log
  told : Told log a

variable {log : List Moment}

theorem Serving.place {s t : Nat} {i : Identity} (h : Serving log owners a)
    (first : owners[s]? = some i) (second : owners[t]? = some i) : s = t :=
  (List.getElem?_inj (List.getElem?_eq_some_iff.mp first).1 (h.orderly.distinct h.listed)).mp
    (first.trans second.symm)

theorem servingStep {past : List Moment} (h : Serving past owners a)
    (next : a.step x = some (b, es)) (lasting : x ≠ .shutdown) :
    ∃ later, Serving (past ++ [⟨a, x, b, es⟩]) (owners ++ later) b := by
  obtain ⟨later, orderly⟩ := orderlyStep h.orderly next
  refine ⟨later, orderly, listedStep h.listed next lasting, ?_, toldStep h.told next⟩
  rw [growsStep next, h.clients, connectedNext]

theorem runServing (unused : Unused a) (run : Run a log b)
    (lasting : ∀ m ∈ log, m.action ≠ .shutdown) : ∃ owners, Serving log owners b := by
  refine run.holds (P := fun past d => (∀ m ∈ past, m.action ≠ .shutdown) →
    ∃ owners, Serving past owners d) ?_ ?_ lasting
  · intro past c x d es before next lasting
    obtain ⟨owners, serving⟩ := before fun m there => lasting m (List.mem_append_left _ there)
    obtain ⟨later, serving⟩ := servingStep serving next (lasting ⟨c, x, d, es⟩ (by simp))
    exact ⟨_, serving⟩
  · intro _
    refine ⟨[], unused.orderly, ⟨?_, unused.shutdowns⟩, ?_, ?_⟩
    · simp [unused.identities, unused.slots]
    · simp [Agent.whos, unused.clients, connected]
    · simp [Told, unused.connects]

theorem Serving.busy {i : Identity} {n : Nat} (h : Serving log owners a) (busy : a.Connecting i n) :
    ∃ s : Nat, owners[s]? = some i ∧ a.slots[s]? = some .filling ∧ a.Fills n s := by
  obtain ⟨c, s, there, here, rfl⟩ := busy
  have fills : a.Fills n s := ⟨c, there, here⟩
  exact ⟨s, h.orderly.placed.sought n s c there (by simp [Connect.slot?, here]),
    (h.orderly.exclusive.busy s).mpr ⟨n, fills⟩, fills⟩

theorem Serving.alone {i : Identity} {n m : Nat} (h : Serving log owners a)
    (first : a.Connecting i n) (second : a.Connecting i m) : n = m := by
  obtain ⟨s, one, _, fills⟩ := h.busy first
  obtain ⟨t, two, _, also⟩ := h.busy second
  obtain rfl := h.place one two
  exact h.orderly.exclusive.alone fills also

theorem Serving.home {i : Nat} {w : Identity × Channel.Settings} (h : Serving log owners a)
    (known : a.whos[i]? = some w) : ∃ s : Nat, owners[s]? = some w.1 ∧ a.slots[s]? = some (.filled i) := by
  obtain ⟨s, full⟩ := h.orderly.housed.housed (List.getElem?_eq_some_iff.mp known).1
  obtain ⟨v, same, owner⟩ := h.orderly.housed.filled full
  cases Option.some.inj (known.symm.trans same)
  exact ⟨s, owner, full⟩

theorem Serving.sameClient {i j : Nat} {w v : Identity × Channel.Settings} (h : Serving log owners a)
    (first : a.whos[i]? = some w) (second : a.whos[j]? = some v) (same : w.1 = v.1) : i = j := by
  obtain ⟨s, one, full⟩ := h.home first
  obtain ⟨t, two, also⟩ := h.home second
  obtain rfl := h.place (same ▸ one) two
  cases full.symm.trans also
  rfl

theorem Serving.clientless {i : Identity} {n j : Nat} {w : Identity × Channel.Settings}
    (h : Serving log owners a) (busy : a.Connecting i n) (known : a.whos[j]? = some w) : w.1 ≠ i := by
  rintro rfl
  obtain ⟨s, one, filling, _⟩ := h.busy busy
  obtain ⟨t, two, full⟩ := h.home known
  obtain rfl := h.place one two
  exact absurd (filling.symm.trans full) nofun

theorem Serving.queued {n s : Nat} {c : Connect} (h : Serving log owners a)
    (there : a.connects[n]? = some c) (here : c.stage = .queued s) :
    owners[s]? = some c.identity ∧ ∃ slot, a.slots[s]? = some slot := by
  have owner := h.orderly.placed.sought n s c there (by simp [Connect.slot?, here])
  have inside := (List.getElem?_eq_some_iff.mp owner).1
  rw [h.orderly.placed.size] at inside
  exact ⟨owner, _, List.getElem?_eq_getElem inside⟩

theorem beginsNext {n s : Nat} {c : Connect} (there : a.connects[n]? = some c)
    (here : c.stage = .queued s) (free : a.slots[s]? = some .vacant) :
    a.step (.connecting n) =
      some ((a.setSlot s .filling).setConnect n { c with stage := .connecting s, tried := true },
        [.connecting n]) := by
  simp [step, stepConnecting, there, here, free]

theorem sharesNext {n s i : Nat} {c : Connect} (there : a.connects[n]? = some c)
    (here : c.stage = .queued s) (full : a.slots[s]? = some (.filled i)) :
    a.step (.connecting n) = some (a.setConnect n { c with stage := .ended (.ok i) }, []) := by
  simp [step, stepConnecting, there, here, full]

theorem Serving.unfilled {n s : Nat} {c : Connect} (h : Serving log owners a)
    (there : a.connects[n]? = some c) (here : c.stage = .queued s)
    (free : ∀ m, ¬ a.Connecting c.identity m) : a.slots[s]? ≠ some .filling := by
  intro filling
  obtain ⟨owner, _⟩ := h.queued there here
  obtain ⟨m, d, found, stage⟩ := (h.orderly.exclusive.busy s).mp filling
  have own := h.orderly.placed.sought m s d found (by simp [Connect.slot?, stage])
  exact free m ⟨d, s, found, stage, Option.some.inj (own.symm.trans owner)⟩

theorem Serving.waits {n s : Nat} {c : Connect} (h : Serving log owners a)
    (there : a.connects[n]? = some c) (here : c.stage = .queued s) :
    a.Can (.connecting n) ↔ ∀ m, ¬ a.Connecting c.identity m := by
  obtain ⟨owner, slot, place⟩ := h.queued there here
  constructor
  · rintro ⟨b, es, next⟩ m busy
    obtain ⟨t, other, filling, _⟩ := h.busy busy
    obtain rfl := h.place owner other
    simp [step, stepConnecting, there, here, filling] at next
  · intro free
    cases slot with
    | vacant => exact ⟨_, _, beginsNext there here place⟩
    | filled i => exact ⟨_, _, sharesNext there here place⟩
    | filling => exact absurd place (h.unfilled there here free)

theorem Serving.begins {n s : Nat} {c : Connect} (h : Serving log owners a)
    (there : a.connects[n]? = some c) (here : c.stage = .queued s)
    (free : ∀ m, ¬ a.Connecting c.identity m) (new : ∀ k ∈ a.clients, k.identity ≠ c.identity) :
    ∃ b, a.step (.connecting n) = some (b, [.connecting n]) ∧ b.Connecting c.identity n := by
  obtain ⟨owner, slot, place⟩ := h.queued there here
  cases slot with
  | vacant => exact ⟨_, beginsNext there here place, _, s, setSelf there, rfl, rfl⟩
  | filling => exact absurd place (h.unfilled there here free)
  | filled i =>
    obtain ⟨w, known, own⟩ := h.orderly.housed.filled place
    rw [Agent.whos, List.getElem?_map] at known
    obtain ⟨k, listed, rfl⟩ := Option.map_eq_some_iff.mp known
    exact absurd (Option.some.inj (own.symm.trans owner)) (new k (List.mem_of_getElem? listed))

def held? (a : Agent) (s : Nat) : Option Nat :=
  match a.slots[s]? with
  | some (.filled i) => some i
  | _ => none

theorem heldIff (a : Agent) (s i : Nat) : a.held? s = some i ↔ a.slots[s]? = some (.filled i) := by
  unfold held?
  split <;> simp_all

theorem Serving.counted (h : Serving log owners a) : a.clientCount = (connected log).length := by
  have listed : a.connectedClients = (List.range a.slots.length).filterMap a.held? := by
    rw [← h.listed.slots, List.filterMap_map]
    rfl
  have all : ∀ i, i ∈ a.connectedClients ↔ i ∈ List.range a.whos.length := by
    intro i
    rw [listed, List.mem_filterMap, List.mem_range]
    constructor
    · rintro ⟨s, _, full⟩
      obtain ⟨w, known, _⟩ := h.orderly.housed.filled ((a.heldIff s i).mp full)
      exact (List.getElem?_eq_some_iff.mp known).1
    · intro inside
      obtain ⟨s, full⟩ := h.orderly.housed.housed inside
      exact ⟨s, List.mem_range.mpr (List.getElem?_eq_some_iff.mp full).1, (a.heldIff s i).mpr full⟩
  have once : a.connectedClients.Nodup := by
    rw [listed]
    refine List.Pairwise.filterMap a.held? ?_ List.nodup_range
    rintro s t other i first j second rfl
    exact other (h.orderly.housed.unshared ((a.heldIff s i).mp first) ((a.heldIff t i).mp second))
  have same := ((List.perm_ext_iff_of_nodup once List.nodup_range).mpr all).length_eq
  rw [clientCount, same, List.length_range, ← h.clients, List.length_map]

theorem Serving.spoilt {i : Identity} {n : Nat} (h : Serving log owners a)
    (next : a.step x = some (b, es)) (spoils : Moment.spoils ⟨a, x, b, es⟩ n i) :
    (∀ m, ¬ b.Connecting i m) ∧ ∀ k ∈ b.clients, k.identity ≠ i := by
  obtain ⟨busy, does⟩ := spoils
  have busy : a.Connecting i n := busy
  have ended : ∀ {d : Connect}, b.connects = a.connects.set n d → (∀ s, d.stage ≠ .connecting s) →
      ∀ m, ¬ b.Connecting i m := by
    rintro d connects rests m ⟨f, s, there, here, same⟩
    rw [connects] at there
    rcases setCases there with ⟨_, rfl⟩ | ⟨other, old⟩
    · exact rests s here
    · exact other (h.alone ⟨f, s, old, here, same⟩ busy)
  have new : b.clients = a.clients → ∀ k ∈ b.clients, k.identity ≠ i := by
    intro clients k listed
    obtain ⟨j, found⟩ := List.mem_iff_getElem?.mp (clients ▸ listed)
    have known : a.whos[j]? = some k.who := by rw [Agent.whos, List.getElem?_map, found]; rfl
    exact h.clientless busy known
  rcases does with ⟨e, rfl⟩ | rfl
  · cases stepTurn next rfl with
    | fails => exact ⟨ended rfl (by simp), new rfl⟩
  · cases stepTurn next rfl with
    | quits | forgets => exact ⟨ended rfl (by simp), new rfl⟩

theorem connectingCan {i : Identity} {n : Nat} (busy : a.Connecting i n) :
    (∀ r, a.Can (.connected n r)) ∧ a.Can (.abandon n) := by
  obtain ⟨c, s, there, here, _⟩ := busy
  refine ⟨?_, ?_⟩
  · rintro (e | ⟨⟩)
    · exact ⟨(a.setSlot s .vacant).setConnect n { c with stage := .ended (.error e) }, [],
        by simp [step, stepConnected, there, here]⟩
    · exact ⟨_, [.started n a.clients.length], by simp [step, stepConnected, there, here]; rfl⟩
  · exact ⟨(a.setSlot s .vacant).setConnect n { c with stage := .abandoned }, [],
      by simp [step, stepAbandon, there, here]⟩

structure OneEach (log : List Moment) (a : Agent) : Prop where
  alone : ∀ {i : Identity} {n m : Nat}, a.Connecting i n → a.Connecting i m → n = m
  once : (connected log).Nodup
  started : a.clients.map (fun c => (c.identity, c.settings.code)) =
    (connected log).map fun i => (i, i.installationCode)
  served : ∀ {n j : Nat} {c : Connect}, a.connects[n]? = some c → c.result? = some (.ok j) →
    ∃ k, a.clients[j]? = some k ∧ k.identity = c.identity
  shared : ∀ {n m j k : Nat} {c d : Connect}, a.connects[n]? = some c → c.result? = some (.ok j) →
    a.connects[m]? = some d → d.result? = some (.ok k) → (j = k ↔ c.identity = d.identity)
  told : ∀ {n : Nat} {c : Connect} {e : AgentError}, a.connects[n]? = some c →
    c.result? = some (.error e) → c.tried = true ∧ ∃ m ∈ log, m.action = .connected n (.error e)
  spoilt : ∀ m ∈ log, ∀ n i, m.spoils n i →
    (∀ k, ¬ m.after.Connecting i k) ∧ ∀ k ∈ m.after.clients, k.identity ≠ i
  finds : ∀ {n : Nat} {c : Connect}, a.connects[n]? = some c → c.stage = .locating →
    a.Can (.connecting n)
  waits : ∀ {n s : Nat} {c : Connect}, a.connects[n]? = some c → c.stage = .queued s →
    (a.Can (.connecting n) ↔ ∀ m, ¬ a.Connecting c.identity m)
  begins : ∀ {n s : Nat} {c : Connect}, a.connects[n]? = some c → c.stage = .queued s →
    (∀ m, ¬ a.Connecting c.identity m) → (∀ k ∈ a.clients, k.identity ≠ c.identity) →
    ∃ b, a.step (.connecting n) = some (b, [.connecting n]) ∧ b.Connecting c.identity n
  ends : ∀ {i : Identity} {n : Nat}, a.Connecting i n →
    (∀ r, a.Can (.connected n r)) ∧ a.Can (.abandon n)
  counted : a.clientCount = (connected log).length

theorem resultStage {c : Connect} {r : Except AgentError Nat} (result : c.result? = some r) :
    c.stage = .ended r := by
  unfold Connect.result? at result
  split at result
  · cases result
    assumption
  · contradiction

theorem Serving.oneEach (h : Serving log owners a)
    (spoilt : ∀ m ∈ log, ∀ n i, m.spoils n i →
      (∀ k, ¬ m.after.Connecting i k) ∧ ∀ k ∈ m.after.clients, k.identity ≠ i) : OneEach log a where
  alone := h.alone
  once := by
    rw [← h.clients]
    refine List.pairwise_map.mpr (List.pairwise_iff_getElem.mpr ?_)
    intro i j inside after before same
    have := h.sameClient (List.getElem?_eq_getElem inside) (List.getElem?_eq_getElem after) same
    omega
  started := by
    rw [← h.clients, Agent.whos, List.map_map, List.map_map]
    refine List.map_congr_left fun k listed => ?_
    exact Prod.ext rfl (h.orderly.housed.coded k.who (List.mem_map_of_mem listed))
  served there result := by
    obtain ⟨w, known, same⟩ := h.orderly.housed.served there (resultStage result)
    rw [Agent.whos, List.getElem?_map] at known
    obtain ⟨k, found, rfl⟩ := Option.map_eq_some_iff.mp known
    exact ⟨k, found, same⟩
  shared one first two second := by
    obtain ⟨w, known, own⟩ := h.orderly.housed.served one (resultStage first)
    obtain ⟨v, found, other⟩ := h.orderly.housed.served two (resultStage second)
    constructor
    · rintro rfl
      cases Option.some.inj (known.symm.trans found)
      exact own.symm.trans other
    · intro same
      exact h.sameClient known found (own.trans (same.trans other.symm))
  told there result := (h.told _ _ there).2 _ (resultStage result)
  spoilt := spoilt
  finds := locatingCan
  waits := h.waits
  begins := h.begins
  ends := connectingCan
  counted := h.counted

theorem identitiesGetOneClient {g : Turnstile} (unused : Unused a) (run : Turnstile.Run ⟨a, none⟩ log g)
    (lasting : ∀ m ∈ log, m.action ≠ .shutdown) :
    OneEach log g.agent ∧
    ∀ k, g.keeper = some k → (∀ n i, k = .call n → ¬ g.agent.Connecting i n) ∧
      ∃ ms b, g.Goes ms ⟨b, none⟩ := by
  have all := turnstileRuns run
  obtain ⟨owners, serving⟩ := runServing unused all lasting
  refine ⟨serving.oneEach ?_, ?_⟩
  · intro m there n i spoils
    obtain ⟨past, later, rfl⟩ := List.append_of_mem there
    obtain ⟨before, next, _⟩ := all.around
    obtain ⟨_, earlier⟩ := runServing unused before fun m there => lasting m (by simp [there])
    exact earlier.spoilt next spoils
  · intro k keeps
    have wants := keeperWants run nofun keeps
    refine ⟨?_, ?_⟩
    · rintro n i rfl ⟨c, s, there, here, _⟩
      obtain ⟨d, found, stage⟩ := wants
      cases Option.some.inj (there.symm.trans found)
      exact absurd (here.symm.trans stage) nofun
    · obtain ⟨a, keeper⟩ := g
      cases keeps
      exact keeperGoes wants

def crowd : List Action :=
  let home : Identity := ⟨"home", "localhost:443", true⟩
  let away : Identity := ⟨"away", "localhost:443", true⟩
  [.connect home, .connect home, .connect away, .connecting 0, .connecting 1, .connecting 2,
    .connecting 0, .connecting 2, .connected 0 (.error (.connectionTimeout "localhost:443")),
    .connecting 1, .connected 1 (.ok ()), .connected 2 (.ok ()), .connect home, .connecting 3,
    .connecting 3]

def crowdConfig : Config :=
  { serverAddr := "localhost:443", installationCode := "home", deviceUuid := some "uuid" }

def crowdStart : Agent :=
  .ofParts .fresh crowdConfig ⟨"uuid", "linux"⟩ ⟨crowdConfig.storePath, crowdConfig.lockName, .empty⟩

theorem crowdGotOneClientEach : ofConfig .fresh crowdConfig = .ok crowdStart ∧ Unused crowdStart ∧
    ∃ log a, Turnstile.Run ⟨crowdStart, none⟩ log ⟨a, none⟩ ∧ (∀ m ∈ log, m.action ≠ .shutdown) ∧
    a.connects.map Connect.result? = [some (.error (.connectionTimeout "localhost:443")),
      some (.ok 0), some (.ok 1), some (.ok 0)] ∧ OneEach log a ∧ a.clientCount = 2 := by
  have made : ofConfig .fresh crowdConfig = .ok crowdStart := rfl
  have unused := ofConfigUnused made
  obtain ⟨log, a, played, results, count⟩ : ∃ log a, crowdStart.play crowd = some (log, a) ∧
      a.connects.map Connect.result? = [some (.error (.connectionTimeout "localhost:443")),
        some (.ok 0), some (.ok 1), some (.ok 0)] ∧ a.clientCount = 2 := ⟨_, _, rfl, rfl, rfl⟩
  have lasting : ∀ m ∈ log, m.action ≠ .shutdown := by
    intro m there
    have listed : m.action ∈ crowd := playActions played ▸ List.mem_map_of_mem there
    generalize m.action = x at listed
    rintro rfl
    simp [crowd] at listed
  have run := runsThroughTurnstile (playRun played)
  exact ⟨made, unused, log, a, run, lasting, results, (identitiesGetOneClient unused run lasting).1, count⟩

end FirewallAgent.Agent

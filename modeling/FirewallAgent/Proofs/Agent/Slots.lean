import FirewallAgent.Agent.Start
import FirewallAgent.Proofs.Agent.Step

/-! The books of the registry: which identity a slot is for, which call fills it and which client it
holds. A slot is for one identity for good, one call at a time fills it, and once it is filled it stays
so. -/
namespace FirewallAgent

def Client.who (c : Client) : Identity × Channel.Settings := (c.identity, c.settings)

def Client.seat (c : Client) : (Identity × Channel.Settings) × Bool := (c.who, c.joinable)

namespace Agent
open Registry

variable {a b : Agent} {x : Action} {es : List Event}

section
variable {α : Type} {l : List α} {n m : Nat} {x y : α}

theorem setCases (there : (l.set n x)[m]? = some y) : (m = n ∧ y = x) ∨ (m ≠ n ∧ l[m]? = some y) := by
  by_cases same : n = m
  · subst same
    have inside := (List.getElem?_eq_some_iff.mp there).1
    rw [List.length_set] at inside
    simp only [List.getElem?_set_self inside, Option.some.injEq] at there
    exact .inl ⟨rfl, there.symm⟩
  · rw [List.getElem?_set_ne same] at there
    exact .inr ⟨fun other => same other.symm, there⟩

theorem setOther (there : l[m]? = some y) (other : m ≠ n) : (l.set n x)[m]? = some y :=
  (List.getElem?_set_ne fun same => other same.symm).trans there

theorem setSelf (there : l[n]? = some y) : (l.set n x)[n]? = some x :=
  List.getElem?_set_self (List.getElem?_eq_some_iff.mp there).1

theorem appendKeeps {later : List α} (there : l[m]? = some y) : (l ++ later)[m]? = some y :=
  (List.getElem?_append_left (List.getElem?_eq_some_iff.mp there).1).trans there

theorem appendElse (n : Nat) : (l ++ [x])[n]? = l[n]? ∨ (l[n]? = none ∧ (l ++ [x])[n]? = some x) := by
  rcases Nat.lt_trichotomy n l.length with before | rfl | after
  · exact .inl (List.getElem?_append_left before)
  · exact .inr ⟨by simp, List.getElem?_concat_length⟩
  · exact .inl (by rw [List.getElem?_eq_none (by simp; omega), List.getElem?_eq_none (by omega)])

theorem appendCases (there : (l ++ [x])[m]? = some y) : l[m]? = some y ∨ (l[m]? = none ∧ y = x) := by
  rcases appendElse (l := l) (x := x) m with same | ⟨none, new⟩
  · exact .inl (same.symm.trans there)
  · exact .inr ⟨none, Option.some.inj (there.symm.trans new)⟩

theorem setMap {β : Type} {f : α → β} (there : l[n]? = some y) (same : f x = f y) :
    (l.set n x).map f = l.map f := by
  obtain ⟨inside, rfl⟩ := List.getElem?_eq_some_iff.mp there
  rw [List.map_set, same, ← List.getElem_map f (h := by simpa using inside), List.set_getElem_self]

theorem modifyMap {β : Type} {f : α → β} {g : α → α} (same : ∀ y, f (g y) = f y) :
    (l.modify n g).map f = l.map f := by
  apply List.ext_getElem?
  intro m
  rw [List.getElem?_map, List.getElem?_map, List.getElem?_modify]
  split
  · simp [Function.comp_def, same]
  · simp

end

structure Still (a b : Agent) : Prop where
  slots : b.slots = a.slots
  identities : b.identities = a.identities
  connects : b.connects = a.connects
  stops : b.stops = a.stops
  shutdowns : b.shutdowns = a.shutdowns
  seats : b.clients.map Client.seat = a.clients.map Client.seat

theorem Still.trans {c : Agent} (first : Still a b) (second : Still b c) : Still a c :=
  ⟨second.slots.trans first.slots, second.identities.trans first.identities,
    second.connects.trans first.connects, second.stops.trans first.stops,
    second.shutdowns.trans first.shutdowns, second.seats.trans first.seats⟩

theorem modifyStill {f : Client → Client} (i : Nat) (same : ∀ c, (f c).seat = c.seat) :
    Still a { a with clients := a.clients.modify i f } :=
  ⟨rfl, rfl, rfl, rfl, rfl, modifyMap same⟩

theorem absorbStill (i : Nat) (e : Channel.Effect) : Still a (absorb i a e) := by
  cases e with
  | token t => exact modifyStill i fun _ => rfl
  | purged | enabled | state | dialed | sent | counted | rested =>
    exact ⟨rfl, rfl, rfl, rfl, rfl, rfl⟩

theorem absorbedStill {i : Nat} (effects : List Channel.Effect) :
    Still a (effects.foldl (absorb i) a) := by
  induction effects generalizing a with
  | nil => exact ⟨rfl, rfl, rfl, rfl, rfl, rfl⟩
  | cons e rest ih => exact (absorbStill i e).trans ih

theorem channelStill {i : Nat} {input : Channel.Input} (next : a.stepChannel i input = some (b, es)) :
    Still a b := by
  obtain ⟨c, ch, effects, found, _, _, rfl⟩ := channelStep next
  have set : Still a (a.setClient i { c with channel := ch }) :=
    ⟨rfl, rfl, rfl, rfl, rfl, setMap found rfl⟩
  exact set.trans (absorbedStill effects)

theorem stillStep (next : a.step x = some (b, es)) (other : x.manages = false) : Still a b := by
  cases x with
  | ask | outside =>
    cases Option.some.inj next
    exact ⟨rfl, rfl, rfl, rfl, rfl, rfl⟩
  | release i =>
    cases Option.some.inj next
    exact modifyStill i fun _ => rfl
  | channel i input => exact channelStill (channelAction next)
  | storage i turns =>
    obtain ⟨_, _, _, _, _, _, moved⟩ := storageStep next
    have still := channelStill moved
    exact ⟨still.slots, still.identities, still.connects, still.stops, still.shutdowns, still.seats⟩
  | call n input =>
    obtain ⟨_, _, _, _, _, _, rfl, _⟩ := callStep next
    exact ⟨rfl, rfl, rfl, rfl, rfl, rfl⟩
  | connect | connecting | connected | abandon | stop | stopping | shutdown | draining | shutting
  | drop => contradiction

structure Placed (owners : List Identity) (a : Agent) : Prop where
  size : owners.length = a.slots.length
  listed : ∀ e ∈ a.identities, owners[e.2]? = some e.1
  distinct : (a.identities.map Prod.fst).Nodup
  sought : ∀ (n s : Nat) (c : Connect), a.connects[n]? = some c → c.slot? = some s →
    owners[s]? = some c.identity

variable {owners : List Identity}

theorem Placed.moves {n : Nat} {c d : Connect} (h : Placed owners a) (there : a.connects[n]? = some c)
    (connects : b.connects = a.connects.set n d) (identity : d.identity = c.identity)
    (sought : ∀ s, d.slot? = some s → owners[s]? = some c.identity)
    (size : b.slots.length = a.slots.length) (identities : b.identities = a.identities) :
    Placed owners b where
  size := h.size.trans size.symm
  listed := identities ▸ h.listed
  distinct := identities ▸ h.distinct
  sought m s e found slot := by
    rw [connects] at found
    rcases setCases found with ⟨rfl, rfl⟩ | ⟨_, old⟩
    · exact identity ▸ sought s slot
    · exact h.sought m s e old slot

theorem Placed.same (h : Placed owners a) (slots : b.slots = a.slots)
    (identities : b.identities = a.identities) (connects : b.connects = a.connects) : Placed owners b :=
  ⟨slots ▸ h.size, identities ▸ h.listed, identities ▸ h.distinct, connects ▸ h.sought⟩

theorem Placed.enters {n : Nat} {c : Connect} (h : Placed owners a) (there : a.connects[n]? = some c)
    (new : a.identities.lookup c.identity = none) : Placed (owners ++ [c.identity])
      (Agent.setConnect
        { a with
          slots := a.slots ++ [.vacant]
          identities := a.identities ++ [(c.identity, a.slots.length)] }
        n { c with stage := .queued a.slots.length }) := by
  have fresh : (owners ++ [c.identity])[a.slots.length]? = some c.identity :=
    h.size ▸ List.getElem?_concat_length
  refine ⟨?_, ?_, ?_, ?_⟩
  · simp [setConnect, h.size]
  · intro e listed
    rcases List.mem_append.mp listed with old | last
    · exact appendKeeps (h.listed e old)
    · exact List.mem_singleton.mp last ▸ fresh
  · have unlisted : ∀ e ∈ a.identities, e.1 ≠ c.identity := by
      intro e listed same
      simpa [same] using List.lookup_eq_none_iff.mp new e listed
    simp only [setConnect, List.map_append, List.map_cons, List.map_nil]
    rw [List.nodup_append]
    refine ⟨h.distinct, by simp, ?_⟩
    intro i old j last
    obtain ⟨e, listed, rfl⟩ := List.mem_map.mp old
    exact List.mem_singleton.mp last ▸ unlisted e listed
  · intro m s d found slot
    rcases setCases found with ⟨rfl, rfl⟩ | ⟨_, old⟩
    · cases Option.some.inj slot
      exact fresh
    · exact appendKeeps (h.sought m s d old slot)

theorem placedTurn (h : Placed owners a) (turn : Turn a x b es) :
    ∃ later, Placed (owners ++ later) b := by
  have kept : ∀ {d : Agent}, Placed owners d → ∃ later, Placed (owners ++ later) d :=
    fun placed => ⟨[], (List.append_nil owners).symm ▸ placed⟩
  cases turn with
  | calls i =>
    refine kept ⟨h.size, h.listed, h.distinct, ?_⟩
    intro m s d found slot
    rcases appendCases found with old | ⟨_, rfl⟩
    · exact h.sought m s d old slot
    · contradiction
  | @finds n s c there here known =>
    refine kept (h.moves there rfl rfl ?_ rfl rfl)
    intro t slot
    cases Option.some.inj slot
    obtain ⟨before, after, parts, _⟩ := List.lookup_eq_some_iff.mp known
    exact h.listed (c.identity, s) (by simp [parts])
  | enters there here new => exact ⟨_, h.enters there new⟩
  | @begins n s c there here free =>
    refine kept (h.moves there rfl rfl ?_ (by simp [setConnect, setSlot]) rfl)
    intro t slot
    cases Option.some.inj slot
    exact h.sought n s c there (by simp [Connect.slot?, here])
  | shares there | forgets there => exact kept (h.moves there rfl rfl nofun rfl rfl)
  | succeeds there | fails _ there | quits there =>
    exact kept (h.moves there rfl rfl nofun (by simp [setConnect, setSlot]) rfl)
  | drains =>
    exact kept ⟨h.size, by simp [setShutdown], by simp [setShutdown], h.sought⟩
  | bids | presses | closes | skips | drives | passes | finishes | drops =>
    exact kept (h.same rfl rfl rfl)

def Fills (a : Agent) (n s : Nat) : Prop := ∃ c, a.connects[n]? = some c ∧ c.stage = .connecting s

structure Exclusive (a : Agent) : Prop where
  alone : ∀ {n m s : Nat}, a.Fills n s → a.Fills m s → n = m
  busy : ∀ s : Nat, a.slots[s]? = some .filling ↔ ∃ n, a.Fills n s

theorem Exclusive.same (h : Exclusive a) (fills : ∀ n s, b.Fills n s ↔ a.Fills n s)
    (slots : ∀ s : Nat, b.slots[s]? = some .filling ↔ a.slots[s]? = some .filling) : Exclusive b where
  alone first second := h.alone ((fills _ _).mp first) ((fills _ _).mp second)
  busy s := (slots s).trans ((h.busy s).trans (exists_congr fun n => (fills n s).symm))

theorem fillsSet {n : Nat} {c d : Connect} (there : a.connects[n]? = some c) (m s : Nat) :
    (a.setConnect n d).Fills m s ↔ (m = n ∧ d.stage = .connecting s) ∨ (m ≠ n ∧ a.Fills m s) := by
  constructor
  · rintro ⟨e, found, stage⟩
    rcases setCases found with ⟨rfl, rfl⟩ | ⟨other, old⟩
    · exact .inl ⟨rfl, stage⟩
    · exact .inr ⟨other, e, old, stage⟩
  · rintro (⟨rfl, stage⟩ | ⟨other, e, old, stage⟩)
    · exact ⟨d, setSelf there, stage⟩
    · exact ⟨e, setOther old other, stage⟩

theorem fillsIdle {n : Nat} {c d : Connect} (there : a.connects[n]? = some c)
    (before : ∀ s, c.stage ≠ .connecting s) (after : ∀ s, d.stage ≠ .connecting s) (m s : Nat) :
    (a.setConnect n d).Fills m s ↔ a.Fills m s := by
  rw [fillsSet there]
  constructor
  · rintro (⟨_, stage⟩ | ⟨_, fills⟩)
    · exact absurd stage (after s)
    · exact fills
  · rintro ⟨e, found, stage⟩
    refine .inr ⟨?_, e, found, stage⟩
    rintro rfl
    cases Option.some.inj (there.symm.trans found)
    exact before s stage

theorem Exclusive.turns {n s : Nat} {c d : Connect} {x y : Slot} (h : Exclusive a)
    (there : a.connects[n]? = some c) (place : a.slots[s]? = some x)
    (before : ∀ t, c.stage = .connecting t → t = s) (after : ∀ t, d.stage = .connecting t → t = s)
    (free : c.stage = .connecting s ∨ x ≠ .filling) (now : d.stage = .connecting s ↔ y = .filling) :
    Exclusive ((a.setSlot s y).setConnect n d) := by
  have fills : ∀ m t, ((a.setSlot s y).setConnect n d).Fills m t ↔
      (m = n ∧ d.stage = .connecting t) ∨ (m ≠ n ∧ a.Fills m t) := fillsSet (a := a.setSlot s y) there
  have here : ∀ m, ((a.setSlot s y).setConnect n d).Fills m s ↔ m = n ∧ d.stage = .connecting s := by
    intro m
    rw [fills m s]
    refine or_iff_left ?_
    rintro ⟨other, old⟩
    rcases free with own | vacant
    · exact other (h.alone old ⟨c, there, own⟩)
    · exact vacant (Option.some.inj (place.symm.trans ((h.busy s).mpr ⟨m, old⟩)))
  have elsewhere : ∀ m t, t ≠ s → (((a.setSlot s y).setConnect n d).Fills m t ↔ a.Fills m t) := by
    intro m t other
    rw [fills m t]
    constructor
    · rintro (⟨_, stage⟩ | ⟨_, old⟩)
      · exact absurd (after t stage) other
      · exact old
    · rintro ⟨e, found, stage⟩
      refine .inr ⟨?_, e, found, stage⟩
      rintro rfl
      cases Option.some.inj (there.symm.trans found)
      exact other (before t stage)
  refine ⟨?_, ?_⟩
  · intro m k t first second
    by_cases same : t = s
    · subst same
      exact ((here m).mp first).1.trans ((here k).mp second).1.symm
    · exact h.alone ((elsewhere m t same).mp first) ((elsewhere k t same).mp second)
  · intro t
    by_cases same : t = s
    · subst same
      have slot : ((a.setSlot t y).setConnect n d).slots[t]? = some y := setSelf place
      rw [slot, Option.some.injEq, ← now]
      exact ⟨fun stage => ⟨n, (here n).mpr ⟨rfl, stage⟩⟩, fun ⟨m, own⟩ => ((here m).mp own).2⟩
    · have slot : ((a.setSlot s y).setConnect n d).slots[t]? = a.slots[t]? :=
        List.getElem?_set_ne fun other => same other.symm
      rw [slot, h.busy t]
      exact exists_congr fun m => (elsewhere m t same).symm

theorem Exclusive.ends {n s : Nat} {c d : Connect} {y : Slot} (h : Exclusive a)
    (there : a.connects[n]? = some c) (here : c.stage = .connecting s)
    (done : ∀ t, d.stage ≠ .connecting t) (full : y ≠ .filling) :
    Exclusive ((a.setSlot s y).setConnect n d) := by
  have filling : a.slots[s]? = some .filling := (h.busy s).mpr ⟨n, c, there, here⟩
  refine h.turns there filling ?_ (fun t stage => absurd stage (done t)) (.inl here)
    (iff_of_false (done s) full)
  intro t stage
  exact (ConnectStage.connecting.inj (here.symm.trans stage)).symm

theorem exclusiveTurn (h : Exclusive a) (turn : Turn a x b es) : Exclusive b := by
  cases turn with
  | calls i =>
    refine h.same ?_ fun _ => .rfl
    intro n s
    constructor
    · rintro ⟨c, found, stage⟩
      rcases appendCases found with old | ⟨_, rfl⟩
      · exact ⟨c, old, stage⟩
      · contradiction
    · rintro ⟨c, found, stage⟩
      exact ⟨c, appendKeeps found, stage⟩
  | finds there here => exact h.same (fillsIdle there (by simp [here]) nofun) fun _ => .rfl
  | enters there here =>
    refine h.same (fillsIdle there (by simp [here]) nofun) fun s => ?_
    constructor
    · intro filling
      rcases appendCases filling with old | ⟨_, no⟩
      · exact old
      · contradiction
    · exact appendKeeps
  | begins there here free =>
    refine h.turns there free (by simp [here]) ?_ (.inr nofun) (iff_of_true rfl rfl)
    rintro t ⟨⟩
    rfl
  | shares there here => exact h.same (fillsIdle there (by simp [here]) nofun) fun _ => .rfl
  | forgets there here =>
    refine h.same (fillsIdle there ?_ nofun) fun _ => .rfl
    rcases here with here | ⟨s, here⟩ <;> simp [here]
  | @succeeds _ _ c there here =>
    have grown : Exclusive { a with clients := a.clients ++ [a.newClient c.identity] } := ⟨h.alone, h.busy⟩
    exact grown.ends there here nofun nofun
  | fails _ there here | quits there here => exact h.ends there here nofun nofun
  | bids | presses | closes | drains | skips | drives | passes | finishes | drops =>
    exact h.same (fun _ _ => .rfl) fun _ => .rfl

def whos (a : Agent) : List (Identity × Channel.Settings) := a.clients.map Client.who

structure Housed (owners : List Identity) (a : Agent) : Prop where
  filled : ∀ {s i : Nat}, a.slots[s]? = some (.filled i) →
    ∃ w, a.whos[i]? = some w ∧ owners[s]? = some w.1
  unshared : ∀ {s t i : Nat}, a.slots[s]? = some (.filled i) → a.slots[t]? = some (.filled i) → s = t
  housed : ∀ {i : Nat}, i < a.whos.length → ∃ s : Nat, a.slots[s]? = some (.filled i)
  served : ∀ {n i : Nat} {c : Connect}, a.connects[n]? = some c → c.stage = .ended (.ok i) →
    ∃ w, a.whos[i]? = some w ∧ w.1 = c.identity
  coded : ∀ w ∈ a.whos, w.2.code = w.1.installationCode

theorem Still.whos (h : Still a b) : b.whos = a.whos := by
  have seats := congrArg (List.map Prod.fst) h.seats
  simpa [Agent.whos, Function.comp_def, Client.seat] using seats

theorem Housed.goesOn {later : List Identity} (h : Housed owners a) (whos : b.whos = a.whos)
    (full : ∀ s i : Nat, b.slots[s]? = some (.filled i) ↔ a.slots[s]? = some (.filled i))
    (served : ∀ (n i : Nat) (c : Connect), b.connects[n]? = some c → c.stage = .ended (.ok i) →
      ∃ w, a.whos[i]? = some w ∧ w.1 = c.identity) : Housed (owners ++ later) b where
  filled there := by
    obtain ⟨w, known, owner⟩ := h.filled ((full _ _).mp there)
    exact ⟨w, whos ▸ known, appendKeeps owner⟩
  unshared first second := h.unshared ((full _ _).mp first) ((full _ _).mp second)
  housed inside := by
    obtain ⟨s, there⟩ := h.housed (whos ▸ inside)
    exact ⟨s, (full _ _).mpr there⟩
  served there stage := whos ▸ served _ _ _ there stage
  coded := whos ▸ h.coded

theorem Housed.setServed {n : Nat} {d : Connect} (h : Housed owners a)
    (own : ∀ i, d.stage = .ended (.ok i) → ∃ w, a.whos[i]? = some w ∧ w.1 = d.identity)
    (m i : Nat) (c : Connect) (there : (a.connects.set n d)[m]? = some c)
    (stage : c.stage = .ended (.ok i)) : ∃ w, a.whos[i]? = some w ∧ w.1 = c.identity := by
  rcases setCases there with ⟨_, rfl⟩ | ⟨_, old⟩
  · exact own i stage
  · exact h.served old stage

theorem refill {s t i : Nat} {x y : Slot} (there : a.slots[s]? = some x) (before : ∀ i, x ≠ .filled i)
    (after : ∀ i, y ≠ .filled i) :
    (a.slots.set s y)[t]? = some (.filled i) ↔ a.slots[t]? = some (.filled i) := by
  by_cases same : t = s
  · rw [same, setSelf there, there]
    simp [before, after]
  · rw [List.getElem?_set_ne fun other => same other.symm]

theorem fillingNot (i : Nat) : Slot.filling ≠ .filled i := nofun

theorem vacantNot (i : Nat) : Slot.vacant ≠ .filled i := nofun

theorem Housed.succeeds {n s : Nat} {c : Connect} (h : Housed owners a) (exclusive : Exclusive a)
    (placed : Placed owners a) (there : a.connects[n]? = some c) (here : c.stage = .connecting s) :
    Housed owners (Agent.setConnect
      (Agent.setSlot { a with clients := a.clients ++ [a.newClient c.identity] } s
        (.filled a.clients.length))
      n { c with stage := .ended (.ok a.clients.length) }) := by
  have filling : a.slots[s]? = some .filling := (exclusive.busy s).mpr ⟨n, c, there, here⟩
  have whos : Agent.whos (Agent.setConnect
      (Agent.setSlot { a with clients := a.clients ++ [a.newClient c.identity] } s
        (.filled a.clients.length))
      n { c with stage := .ended (.ok a.clients.length) }) =
      a.whos ++ [(a.newClient c.identity).who] := by simp [Agent.whos, setConnect, setSlot]
  have size : a.whos.length = a.clients.length := by simp [Agent.whos]
  have new : (a.whos ++ [(a.newClient c.identity).who])[a.clients.length]? =
      some (a.newClient c.identity).who := size ▸ List.getElem?_concat_length
  have apart : ∀ t : Nat, a.slots[t]? ≠ some (.filled a.clients.length) := by
    intro t full
    obtain ⟨w, known, _⟩ := h.filled full
    have inside := (List.getElem?_eq_some_iff.mp known).1
    omega
  refine ⟨?_, ?_, ?_, ?_, ?_⟩
  · intro t i full
    rw [whos]
    rcases setCases full with ⟨rfl, same⟩ | ⟨_, old⟩
    · cases same
      exact ⟨_, new, placed.sought n t c there (by simp [Connect.slot?, here])⟩
    · obtain ⟨w, known, owner⟩ := h.filled old
      exact ⟨w, appendKeeps known, owner⟩
  · intro t u i first second
    rcases setCases first with ⟨rfl, one⟩ | ⟨_, one⟩ <;>
      rcases setCases second with ⟨rfl, two⟩ | ⟨_, two⟩
    · rfl
    · cases one
      exact absurd two (apart u)
    · cases two
      exact absurd one (apart t)
    · exact h.unshared one two
  · intro i inside
    rw [whos, List.length_append, List.length_singleton] at inside
    by_cases last : i = a.clients.length
    · exact ⟨s, last ▸ setSelf filling⟩
    · obtain ⟨t, full⟩ := h.housed (i := i) (by omega)
      refine ⟨t, setOther full ?_⟩
      rintro rfl
      exact absurd (filling.symm.trans full) nofun
  · intro m i d found stage
    rw [whos]
    rcases setCases found with ⟨_, rfl⟩ | ⟨_, old⟩
    · cases stage
      exact ⟨_, new, rfl⟩
    · obtain ⟨w, known, owner⟩ := h.served old stage
      exact ⟨w, appendKeeps known, owner⟩
  · intro w listed
    rw [whos] at listed
    rcases List.mem_append.mp listed with old | last
    · exact h.coded w old
    · exact List.mem_singleton.mp last ▸ rfl

structure Orderly (owners : List Identity) (a : Agent) : Prop where
  placed : Placed owners a
  exclusive : Exclusive a
  housed : Housed owners a

theorem housedTurn (h : Orderly owners a) (turn : Turn a x b es) (later : List Identity) :
    Housed (owners ++ later) b := by
  have kept : ∀ {d : Agent}, Housed owners d → Housed (owners ++ later) d := fun housed =>
    housed.goesOn rfl (fun _ _ => .rfl) fun _ _ _ => housed.served
  have filling : ∀ {n s : Nat} {c : Connect}, a.connects[n]? = some c → c.stage = .connecting s →
      a.slots[s]? = some .filling :=
    fun there here => (h.exclusive.busy _).mpr ⟨_, _, there, here⟩
  cases turn with
  | calls i =>
    refine h.housed.goesOn rfl (fun _ _ => .rfl) ?_
    intro n i c found stage
    rcases appendCases found with old | ⟨_, rfl⟩
    · exact h.housed.served old stage
    · contradiction
  | finds | forgets => exact h.housed.goesOn rfl (fun _ _ => .rfl) (h.housed.setServed nofun)
  | enters =>
    refine h.housed.goesOn rfl ?_ (h.housed.setServed nofun)
    intro s i
    constructor
    · intro full
      rcases appendCases full with old | ⟨_, no⟩
      · exact old
      · contradiction
    · exact appendKeeps
  | begins _ _ free =>
    exact h.housed.goesOn rfl (fun _ _ => refill free vacantNot fillingNot) (h.housed.setServed nofun)
  | fails _ there here | quits there here =>
    exact h.housed.goesOn rfl (fun _ _ => refill (filling there here) fillingNot vacantNot)
      (h.housed.setServed nofun)
  | @shares n s i c there here full =>
    refine h.housed.goesOn rfl (fun _ _ => .rfl) (h.housed.setServed ?_)
    intro j stage
    cases stage
    obtain ⟨w, known, owner⟩ := h.housed.filled full
    have own := h.placed.sought n s c there (by simp [Connect.slot?, here])
    exact ⟨w, known, Option.some.inj (owner.symm.trans own)⟩
  | succeeds there here => exact kept (h.housed.succeeds h.exclusive h.placed there here)
  | presses _ found | drives _ _ found | drops found =>
    exact h.housed.goesOn (setMap found rfl) (fun _ _ => .rfl) fun _ _ _ => h.housed.served
  | bids | closes | drains | skips | passes | finishes =>
    exact h.housed.goesOn rfl (fun _ _ => .rfl) fun _ _ _ => h.housed.served

theorem orderlyStep (h : Orderly owners a) (next : a.step x = some (b, es)) :
    ∃ later, Orderly (owners ++ later) b := by
  cases manages : x.manages with
  | true =>
    have turn := stepTurn next manages
    obtain ⟨later, placed⟩ := placedTurn h.placed turn
    exact ⟨later, placed, exclusiveTurn h.exclusive turn, housedTurn h turn later⟩
  | false =>
    have still := stillStep next manages
    refine ⟨[], ?_, ?_, ?_⟩
    · rw [List.append_nil]
      exact h.placed.same still.slots still.identities still.connects
    · refine h.exclusive.same ?_ fun s => still.slots ▸ .rfl
      intro n s
      simp only [Fills, still.connects]
    · refine h.housed.goesOn still.whos (fun _ _ => still.slots ▸ .rfl) ?_
      intro n i c found
      exact h.housed.served (still.connects ▸ found)

theorem filledStays {s i : Nat} (h : Exclusive a) (next : a.step x = some (b, es))
    (full : a.slots[s]? = some (.filled i)) : b.slots[s]? = some (.filled i) := by
  have other : ∀ {t : Nat} {y : Slot}, a.slots[t]? = some y → (∀ j, y ≠ .filled j) → s ≠ t := by
    rintro t y there unfilled rfl
    exact unfilled i (Option.some.inj (there.symm.trans full))
  have filling : ∀ {n t : Nat} {c : Connect}, a.connects[n]? = some c → c.stage = .connecting t →
      s ≠ t := fun there here => other ((h.busy _).mpr ⟨_, _, there, here⟩) fillingNot
  cases manages : x.manages with
  | false => exact (stillStep next manages).slots ▸ full
  | true =>
    cases stepTurn next manages with
    | enters => exact appendKeeps full
    | begins _ _ free => exact setOther full (other free vacantNot)
    | succeeds there here | fails _ there here | quits there here =>
      exact setOther full (filling there here)
    | calls | finds | shares | forgets | bids | presses | closes | drains | skips | drives | passes
    | finishes | drops => exact full

structure Unused (a : Agent) : Prop where
  clients : a.clients = []
  slots : a.slots = []
  identities : a.identities = []
  connects : a.connects = []
  stops : a.stops = []
  shutdowns : a.shutdowns = []

theorem ofConfigUnused {t : FileTree} {c : Config} (made : ofConfig t c = .ok a) : Unused a := by
  unfold ofConfig at made
  split at made
  · contradiction
  · split at made
    · contradiction
    · split at made
      · contradiction
      · cases made
        exact ⟨rfl, rfl, rfl, rfl, rfl, rfl⟩

theorem Unused.orderly (h : Unused a) : Orderly [] a := by
  refine ⟨⟨?_, ?_, ?_, ?_⟩, ⟨?_, ?_⟩, ⟨?_, ?_, ?_, ?_, ?_⟩⟩
  all_goals simp [Fills, Agent.whos, h.clients, h.slots, h.identities, h.connects]

end Agent
end FirewallAgent

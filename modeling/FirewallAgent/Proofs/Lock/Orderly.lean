import FirewallAgent.Proofs.Lock.Exclusion
import FirewallAgent.Proofs.Lock.Protocol

/-! What every run of processes that share locks keeps, whatever the order of their steps and whoever dies:
one mutex for a segment, made by the creator before anybody can lock it, one segment for a name until the
name is unlinked, and one handle at a time that has the mutex, a dead one's successor included. -/
namespace FirewallAgent.Lock.Sharing

variable {s t u : Sharing} {h k : Host} {o o' : Opening} {x y : Handle} {es later : List Event}
  {key : String} {n m i j : Nat} {b : Bool}

def Bequeathed (h : Host) (i : Nat) : Prop :=
  ∃ g, h.segment? i = some g ∧ g.owner = none ∧ g.orphaned = true

theorem Bequeathed.updated {f : Segment → Segment} (bequeathed : Bequeathed h i)
    (keeps : ∀ g, g.owner = none → (f g).owner = none ∧ (f g).orphaned = g.orphaned) :
    Bequeathed (h.update j f) i := by
  obtain ⟨g, found, owner, orphaned⟩ := bequeathed
  refine ⟨if j = i then f g else g, ?_, ?_⟩
  · simp only [Host.segment?, Host.update, List.getElem?_modify] at found ⊢
    rw [found]
    by_cases here : j = i <;> simp [here]
  · split
    · exact ⟨(keeps g owner).1, (keeps g owner).2.trans orphaned⟩
    · exact ⟨owner, orphaned⟩

theorem Bequeathed.elsewhere {f : Segment → Segment} (bequeathed : Bequeathed h i) (other : j ≠ i) :
    Bequeathed (h.update j f) i := by
  obtain ⟨g, found, left⟩ := bequeathed
  refine ⟨g, ?_, left⟩
  simp only [Host.segment?, Host.update, List.getElem?_modify] at found ⊢
  simp [found, other]

theorem Bequeathed.goes (bequeathed : Bequeathed h i) (goes : Goes n key h o k o' es) :
    Bequeathed k i := by
  cases goes with
  | creates made =>
    obtain ⟨-, segments, -, -⟩ := createdHost made
    obtain ⟨g, found, left⟩ := bequeathed
    refine ⟨g, ?_, left⟩
    rw [Host.segment?, segments, List.getElem?_append_left (List.getElem?_eq_some_iff.mp found).1]
    exact found
  | sizes i => exact bequeathed.updated fun _ owner => ⟨owner, rfl⟩
  | initialises i => exact bequeathed.updated fun _ owner => ⟨owner, rfl⟩
  | publishes i => exact bequeathed.updated fun _ owner => ⟨owner, rfl⟩
  | _ => exact bequeathed

theorem Bequeathed.turns {u u' : Use} (bequeathed : Bequeathed h i) (turns : Turns n j h u k u' es)
    (held : ∀ b, u.mends? = some b → h.grip? j = some (n, b))
    (unlocked : ∀ m b, Event.locked m i b ∉ es) : Bequeathed k i := by
  have guarded {f : Segment → Segment} (g : Segment) (owner : g.owner = none) :
      (if g.owner = some n then f g else g).owner = none ∧
        (if g.owner = some n then f g else g).orphaned = g.orphaned := by
    simp [owner]
  cases turns with
  | locks free | inherits free =>
    obtain ⟨g, -, -, -, rfl⟩ := takenHost free
    refine bequeathed.elsewhere fun same => ?_
    subst same
    exact unlocked _ _ List.mem_cons_self
  | mends =>
    refine bequeathed.elsewhere fun same => ?_
    subst same
    obtain ⟨g, found, owner, -⟩ := bequeathed
    have has := held true rfl
    simp [Host.grip?, found, Segment.hold?, owner] at has
  | releases | abandons => exact bequeathed.updated guarded
  | closes => exact bequeathed

theorem Bequeathed.does (bequeathed : Bequeathed s.host i) (owned : Owned s) (does : Does s t es)
    (unlocked : ∀ m b, Event.locked m i b ∉ es) : Bequeathed t.host i := by
  cases does with
  | advances there live goes => exact bequeathed.goes goes
  | @uses n j x host use _ there opened turns =>
    refine bequeathed.turns turns (fun b mends => ?_) unlocked
    rw [owned.agree, ownGrip there opened, mends]
    rfl
  | dies process =>
    obtain ⟨g, found, owner, orphaned⟩ := bequeathed
    refine ⟨g, ?_, owner, orphaned⟩
    rw [Host.segment?] at found
    simp [die, Host.bury, Host.segment?, found, owner]
  | _ => exact bequeathed

theorem Bequeathed.run (bequeathed : Bequeathed s.host i) (owned : Owned s) (run : Run s es t)
    (unlocked : ∀ m b, Event.locked m i b ∉ es) : Bequeathed t.host i := by
  induction run with
  | start => exact bequeathed
  | step run next ih =>
    have before := ih fun m b mem => unlocked m b (List.mem_append_left _ mem)
    exact before.does (owned.run run) (Sharing.does next) fun m b mem =>
      unlocked m b (List.mem_append_right _ mem)

theorem Owned.holds (owned : Owned s) (has : s.grip? n = some (i, b)) :
    ∃ g, s.host.segment? i = some g ∧ g.owner = some n := by
  obtain ⟨g, found, held⟩ := Option.bind_eq_some_iff.mp ((owned.agree n i b).mpr has)
  obtain ⟨m, owner, same⟩ := Option.map_eq_some_iff.mp held
  cases same
  exact ⟨g, found, owner⟩

inductive Loses (s : Sharing) (n : Nat) : Action → Prop where
  | thread : Loses s n (.abandon n)
  | process {x : Handle} (there : s.handles[n]? = some x) : Loses s n (.die x.process)

theorem Owned.bequeaths {a : Action} (owned : Owned s) (has : s.grip? n = some (i, b))
    (loses : Loses s n a) (next : s.step a = some (t, es)) : Bequeathed t.host i := by
  obtain ⟨g, found, owner⟩ := owned.holds has
  rw [Host.segment?] at found
  cases loses with
  | thread =>
    obtain ⟨⟨x, j⟩, handle, next⟩ := Option.map_eq_some_iff.mp next
    obtain ⟨there, opened, -⟩ := handleThere handle
    rw [ownGrip there opened] at has
    obtain ⟨c, -, same⟩ := Option.map_eq_some_iff.mp has
    cases same
    cases next
    refine ⟨{ g with owner := none, orphaned := true }, ?_, rfl, rfl⟩
    simp [setUse, Host.die, Host.update, Host.segment?, found, owner]
  | @process x there =>
    cases next
    refine ⟨{ g with owner := none, orphaned := true }, ?_, rfl, rfl⟩
    simp [die, Host.bury, Host.segment?, found, owner, there]

theorem Bequeathed.recovers (bequeathed : Bequeathed s.host i) (there : s.handles[m]? = some y)
    (opened : y.opening = .opened i) (idle : y.use = .idle) :
    ∃ v w, s.step (.lock m) = some (v, [.locked m i true]) ∧
      v.step (.mend m) = some (w, [.mended m i]) ∧ w.host.grip? i = some (m, false) := by
  obtain ⟨g, found, owner, orphaned⟩ := bequeathed
  have below := (List.getElem?_eq_some_iff.mp there).1
  have handle : s.handle? m [.idle] = some (y, i) := by simp [handle?, there, opened, idle]
  have free : s.host.take? i m = some (s.host.update i fun g => { g with owner := some m }, true) := by
    simp [Host.take?, found, owner, orphaned]
  have taken : s.step (.lock m) =
      some (s.setUse (s.host.update i fun g => { g with owner := some m }) m y .mending,
        [.locked m i true]) := by
    simp [step, lock, handle, free]
  have mending : (s.setUse (s.host.update i fun g => { g with owner := some m }) m y .mending).handle?
      m [.mending] = some ({ y with use := .mending }, i) := by
    simp [setUse, handle?, below, opened]
  refine ⟨_, _, taken, congrArg (Option.map _) mending, ?_⟩
  rw [Host.segment?] at found
  simp [setUse, Host.mend, Host.update, Host.grip?, Host.segment?, found, Segment.hold?]

theorem Run.trans (first : Run s es t) (second : Run t later u) : Run s (es ++ later) u := by
  induction second with
  | start => simpa using first
  | step run next ih =>
    rw [← List.append_assoc]
    exact ih.step next

def Finishes (s : Sharing) (n i : Nat) : Prop :=
  ∃ later t y, Run s later t ∧ (∀ e ∈ later, e.opener? = some n) ∧ t.handles[n]? = some y ∧
    y.opening = .opened i

theorem finishesAfter {host : Host} {opening : Opening} (there : s.handles[n]? = some x)
    (live : x.use ≠ .closed) (steps : x.opening.step x.key true s.host = (host, opening))
    (rest : Finishes ⟨host, s.handles.set n { x with opening }⟩ n i) : Finishes s n i := by
  obtain ⟨later, t, y, run, own, found, opened⟩ := rest
  have next : s.step (.advance n true) =
      some (⟨host, s.handles.set n { x with opening }⟩, openingEvents n x.key x.opening opening) := by
    simp [step, advance, there, live, steps]
  refine ⟨_, t, y, (Run.start.step next).trans run, fun e mem => ?_, found, opened⟩
  rcases List.mem_append.mp mem with first | after
  · have goes := openingGoes n x.key true s.host x.opening
    rw [steps] at goes
    exact goes.by e (by simpa using first)
  · exact own e after

theorem nowThere (there : s.handles[n]? = some x) (y : Handle) : (s.handles.set n y)[n]? = some y := by
  simp [(List.getElem?_eq_some_iff.mp there).1]

theorem makersFinish (there : s.handles[n]? = some x) (live : x.use ≠ .closed)
    (making : x.opening = .sizing i ∨ x.opening = .initialising i ∨ x.opening = .publishing i) :
    Finishes s n i := by
  obtain ⟨process, key, opening, use⟩ := x
  have opened (host : Host) : Finishes ⟨host, s.handles.set n ⟨process, key, .opened i, use⟩⟩ n i :=
    ⟨[], _, _, .start, nofun, nowThere there _, rfl⟩
  have publishing (host : Host) :
      Finishes ⟨host, s.handles.set n ⟨process, key, .publishing i, use⟩⟩ n i :=
    finishesAfter (nowThere there _) live rfl (by simpa using opened _)
  have initialising (host : Host) :
      Finishes ⟨host, s.handles.set n ⟨process, key, .initialising i, use⟩⟩ n i :=
    finishesAfter (nowThere there _) live rfl (by simpa using publishing _)
  rcases making with rfl | rfl | rfl
  · exact finishesAfter there live rfl (initialising _)
  · exact finishesAfter there live rfl (publishing _)
  · exact finishesAfter there live rfl (opened _)

structure Orderly (es : List Event) (s : Sharing) : Prop where
  /- A segment is initialised once, unless its creator has not come to it. -/
  initialised : ∀ i g, s.host.segment? i = some g → g.initialised = 1 ∨
    g.initialised = 0 ∧ g.ready = false ∧ ∃ (n : Nat) (x : Handle), s.handles[n]? = some x ∧
      (x.opening = .sizing i ∨ x.opening = .initialising i)
  counted : ∀ i g, s.host.segment? i = some g → g.initialised = es.countP (Event.initialises i)
  byCreator : ∀ past later n i, es = past ++ .initialised n i :: later →
    ∃ key, Event.created n key i ∈ past
  oneCreator : ∀ m n key key' i, Event.created m key i ∈ es → Event.created n key' i ∈ es → m = n
  publishedAfter : ∀ past later n i, es = past ++ .published n i :: later → .initialised n i ∈ past
  finishes : ∀ (n : Nat) (x : Handle) i, s.handles[n]? = some x → x.use ≠ .closed →
    x.opening = .sizing i ∨ x.opening = .initialising i ∨ x.opening = .publishing i → Finishes s n i
  openedReady : ∀ past later n i, es = past ++ .opened n i :: later → ∃ m, .published m i ∈ past
  handlesReady : ∀ (n : Nat) (x : Handle) i, s.handles[n]? = some x → x.opening = .opened i →
    ∃ g, s.host.segment? i = some g ∧ g.ready = true ∧ g.initialised = 1
  lockedOpened : ∀ past later n i b, es = past ++ .locked n i b :: later → .opened n i ∈ past
  joins : ∀ past later n key i, es = past ++ .joined n key i :: later →
    (∃ m, Event.created m key i ∈ past) ∧
      ∃ process name, Event.asked n process name ∈ past ∧ openKey name = .ok key
  shares : ∀ past mid later m n key i j,
    es = past ++ .created m key i :: mid ++ .joined n key j :: later → .unlinked key ∉ mid → j = i
  keeps : ∀ (n : Nat) (x : Handle) key i j, Event.joined n key i ∈ es → s.handles[n]? = some x →
    x.opening = .opened j → j = i
  fresh : ∀ past mid later n key i, es = past ++ .unlinked key :: mid ++ .joined n key i :: later →
    (∃ m, Event.created m key i ∈ mid) ∧ ∀ m key', .joined m key' i ∉ past
  excludes : ∀ m n i b c, s.grip? m = some (i, b) → s.grip? n = some (i, c) → m = n
  recovers : ∀ n i b a t shown later u, s.grip? n = some (i, b) → Loses s n a →
    s.step a = some (t, shown) → Run t later u → (∀ m b, Event.locked m i b ∉ later) →
      ∀ (m : Nat) (y : Handle), u.handles[m]? = some y → y.opening = .opened i → y.use = .idle →
        ∃ v w, u.step (.lock m) = some (v, [.locked m i true]) ∧
          v.step (.mend m) = some (w, [.mended m i]) ∧ w.host.grip? i = some (m, false)

theorem Logged.creator {g : Segment} (logged : Logged es s) (found : s.host.segment? i = some g) :
    ∃ (n : Nat) (x : Handle) (key : String),
      s.handles[n]? = some x ∧ Event.created n key i ∈ es := by
  have below : i ∈ List.range s.host.segments.length :=
    List.mem_range.mpr (List.getElem?_eq_some_iff.mp found).1
  rw [← logged.recorded.numbered] at below
  obtain ⟨e, mem, made⟩ := List.mem_filterMap.mp below
  cases e <;> first | contradiction | skip
  rename_i n key j
  cases Option.some.inj made
  rcases Option.eq_none_or_eq_some s.handles[n]? with missing | ⟨x, there⟩
  · have own := inCourse mem rfl
    rw [logged.strangers n (List.getElem?_eq_none_iff.mp missing)] at own
    contradiction
  · exact ⟨n, x, key, there, mem⟩

theorem Logged.initialised {g : Segment} (logged : Logged es s)
    (found : s.host.segment? i = some g) : g.initialised = 1 ∨
      g.initialised = 0 ∧ g.ready = false ∧ ∃ (n : Nat) (x : Handle), s.handles[n]? = some x ∧
        (x.opening = .sizing i ∨ x.opening = .initialising i) := by
  have counted := logged.recorded.counted i g found
  have most := logged.turn.initialisedOnce i
  by_cases some : ∃ m, Event.initialised m i ∈ es
  · obtain ⟨m, mem⟩ := some
    have least : 0 < es.countP (Event.initialises i) :=
      List.countP_pos_iff.mpr ⟨_, mem, by simp [Event.initialises]⟩
    exact .inl (by omega)
  · have never : es.countP (Event.initialises i) = 0 := by
      refine List.countP_eq_zero.mpr fun e mem first => ?_
      cases e <;> first | contradiction | skip
      rename_i m j
      have same : j = i := by simpa [Event.initialises] using first
      exact some ⟨m, same ▸ mem⟩
    refine .inr ⟨counted.trans never, ?_, ?_⟩
    · refine Bool.eq_false_iff.mpr fun ready => ?_
      obtain ⟨m, mem⟩ := (logged.recorded.published i g found).mp ready
      exact some ⟨m, logged.turn.publishedInitialised mem⟩
    · obtain ⟨n, x, key, there, mem⟩ := logged.creator found
      refine ⟨n, x, there, ?_⟩
      obtain ⟨name, shown, all, tells, -⟩ := logged.told n x there
      have own := inCourse mem rfl
      have silent : Event.initialised n i ∉ course n es := fun mem => some ⟨n, ofCourse mem⟩
      rw [all] at own silent
      exact tells.makes ((List.mem_cons.mp own).resolve_left (by simp)) fun mem =>
        silent (List.mem_cons_of_mem _ mem)

theorem Logged.openedReady (logged : Logged es s) (there : s.handles[n]? = some x)
    (opened : x.opening = .opened i) :
    ∃ g, s.host.segment? i = some g ∧ g.ready = true ∧ g.initialised = 1 := by
  have told := logged.told n x there
  rw [opened] at told
  obtain ⟨past, later, split, -, m, before⟩ := logged.turn.found told.opened
  have published : Event.published m i ∈ es := split ▸ List.mem_append_left _ before
  have below := logged.recorded.born logged.turn (logged.turn.publishedInitialised published)
  have found : s.host.segment? i = some s.host.segments[i] := List.getElem?_eq_getElem below
  have ready := (logged.recorded.published i _ found).mpr ⟨m, published⟩
  refine ⟨_, found, ready, ?_⟩
  rcases logged.initialised found with once | ⟨-, unready, -⟩
  · exact once
  · rw [ready] at unready
    contradiction

theorem InTurn.fresh {past mid later : List Event}
    (turn : InTurn (past ++ .unlinked key :: mid ++ .joined n key i :: later)) :
    (∃ m, Event.created m key i ∈ mid) ∧ ∀ m key', Event.joined m key' i ∉ past := by
  obtain ⟨m, made⟩ := createdSince (turn.grounded rfl).1
  refine ⟨⟨m, made⟩, fun m' key' joined => ?_⟩
  have earlier : InTurn past := turn.upTo (List.append_assoc _ _ _)
  obtain ⟨maker, first⟩ := earlier.joinedCreated joined
  obtain ⟨before, after, rfl⟩ := List.append_of_mem made
  have ground := turn.grounded (show _ = (past ++ .unlinked key :: before) ++
    .created m key i :: (after ++ .joined n key i :: later) by simp)
  exact Nat.lt_irrefl i (madeBefore ground.2 (List.mem_append_left _ first))

theorem runsAreOrderly {blocked : List String} (run : Run (clean blocked) es s) : Orderly es s := by
  have logged := run.logged
  have owned : Owned s := (Owned.clean blocked).run run
  have turn := logged.turn
  exact {
    initialised := fun i g found => logged.initialised found
    counted := logged.recorded.counted
    byCreator := fun past later n i split => (turn.grounded split).1
    oneCreator := fun m n key key' i one other => by cases turn.oneMaker one other; rfl
    publishedAfter := fun past later n i split => turn.grounded split
    finishes := fun n x i there live making => makersFinish there live making
    openedReady := fun past later n i split => (turn.grounded split).2
    handlesReady := fun n x i there opened => logged.openedReady there opened
    lockedOpened := fun past later n i b split => turn.grounded split
    joins := fun past later n key i split => by
      obtain ⟨now, -, asked⟩ := turn.grounded split
      obtain ⟨m, before, after, rfl, -⟩ := currentCreated now
      exact ⟨⟨m, by simp⟩, asked⟩
    shares := fun past mid later m n key i j split never => by
      have now := (turn.grounded split).1
      have bound := (turn.upTo split).stands never
      exact (Option.some.inj (bound.symm.trans now)).symm
    keeps := fun n x key i j joined there opened => by
      have told := logged.told n x there
      rw [opened] at told
      obtain ⟨key', mine⟩ := turn.openedJoined told.opened
      exact turn.oneSegment mine joined
    fresh := fun past mid later n key i split => (split ▸ turn : InTurn _).fresh
    excludes := fun m n i b c one other => by
      have same := ((owned.agree m i b).mpr one).symm.trans ((owned.agree n i c).mpr other)
      cases same
      rfl
    recovers := fun n i b a t shown later u has loses next rest unlocked m y there opened idle =>
      ((owned.bequeaths has loses next).run (owned.does (Sharing.does next)) rest
        unlocked).recovers there opened idle }

def follow (s : Sharing) : List Action → Option (Sharing × List Event)
  | [] => some (s, [])
  | a :: as => do
    let (t, es) ← s.step a
    let (u, later) ← t.follow as
    some (u, es ++ later)

theorem followRuns (as : List Action) (ok : s.follow as = some (t, es)) : Run s es t := by
  induction as generalizing s es with
  | nil =>
    cases ok
    exact .start
  | cons a as ih =>
    obtain ⟨⟨u, first⟩, next, ok⟩ := Option.bind_eq_some_iff.mp ok
    obtain ⟨⟨v, later⟩, rest, ok⟩ := Option.bind_eq_some_iff.mp ok
    cases ok
    exact (Run.start.step next).trans (ih rest)

theorem heirsAreOrderly : ∃ es s, Run (clean []) es s ∧ Event.locked 1 0 true ∈ es ∧
    s.grip? 1 = some (0, false) ∧ Orderly es s := by
  have run := followRuns (s := clean []) [.start 1 "/a", .advance 0 true, .advance 0 true,
    .advance 0 true, .start 2 "/a", .advance 1 true, .advance 1 true, .advance 0 true, .advance 1 true,
    .advance 1 true, .lock 0, .die 1, .lock 1, .mend 1] rfl
  exact ⟨_, _, run, by decide, rfl, runsAreOrderly run⟩

end FirewallAgent.Lock.Sharing

import FirewallAgent.Proofs.Channel.Retry

/-! How a channel's task comes to an end when others may ask it to stop. The three parts of asking may
fall anywhere between its steps. -/
namespace FirewallAgent.Channel

def Phase.hasReleased : Phase → Bool
  | .concluding | .closing | .done => true
  | _ => false

def Phase.hasReason : Phase → Bool
  | .closing | .done => true
  | _ => false

def Phase.waits : Phase → Bool
  | .dialing | .opening | .authorizing | .streaming | .backingOff => true
  | _ => false

theorem Phase.underway {p : Phase} (h : p.isOver = false) :
    p.isLive = true ∧ p.hasReleased = false ∧ p.hasReason = false ∧ p ≠ .done := by
  cases p <;> first | contradiction | exact ⟨rfl, rfl, rfl, nofun⟩

/- Leaving without a reason of its own is for a task that was asked to. -/
structure Winding (asked : Prop) (c : Channel) : Prop where
  flagged : c.running = false → c.phase.isLive = true → asked
  left : c.phase.isOver = true → c.reason = none → asked
  requested : c.reason = some .requested → asked
  final : c.phase ≠ .ending (.final .requested)
  early : c.phase.isOver = false → c.reason = none
  halted : c.phase.isLive = false → c.running = false
  released : c.phase.hasReleased = true → c.attempt = none
  given : c.phase.hasReason = true → c.reason.isSome = true
  stopped : c.state = .stopped ↔ c.phase = .done

variable {s : Settings} {c d : Channel} {i : Input} {es : List Effect} {asked : Prop}

theorem startWinding : Winding asked {} := by
  refine ⟨nofun, nofun, nofun, nofun, fun _ => rfl, nofun, nofun, nofun, ?_⟩
  simp

theorem Winding.unstopped (h : Winding asked c) (before : c.phase ≠ .done) (after : d.phase ≠ .done)
    (state : d.state = c.state ∨ d.state ≠ .stopped) : d.state = .stopped ↔ d.phase = .done := by
  refine iff_of_false ?_ after
  intro stopped
  rcases state with same | other
  · exact before (h.stopped.mp (same ▸ stopped))
  · exact other stopped

theorem Winding.session (h : Winding asked c) (before : c.phase.isOver = false)
    (after : d.phase.isOver = false) (final : d.phase ≠ .ending (.final .requested))
    (running : d.running = c.running) (reason : d.reason = c.reason)
    (state : d.state = c.state ∨ d.state ≠ .stopped) : Winding asked d := by
  obtain ⟨live, _, _, undone⟩ := Phase.underway before
  obtain ⟨alive, released, given, ongoing⟩ := Phase.underway after
  have none : d.reason = none := reason.trans (h.early before)
  refine ⟨?_, ?_, ?_, final, fun _ => none, ?_, ?_, ?_, h.unstopped undone ongoing state⟩
  · intro off _
    exact h.flagged (running ▸ off) live
  · intro late
    exact absurd (after.symm.trans late) nofun
  · intro some
    exact absurd (none.symm.trans some) nofun
  · intro dead
    exact absurd (alive.symm.trans dead) nofun
  · intro late
    exact absurd (released.symm.trans late) nofun
  · intro late
    exact absurd (given.symm.trans late) nofun

theorem windingMoves (h : Winding asked c) (moves : Moves s c i d es) : Winding asked d := by
  cases moves with
  | begins here | dials here | refused here | greets here | unheard here | issued here
  | rejected here | abandoned here | breaks here | unpersisted _ here | reloaded here
  | unreloaded here | loads here | misses here | unpresented _ here | deauthorized here
  | defaults here | closes here | drops here | enables _ here | wiped here | reconnects here
  | retreats _ here | wakes here | roused here =>
    exact h.session (by rw [here]; rfl) rfl nofun rfl rfl (.inl rfl)
  | announces here | opens here | recognized here | persisted _ here | presents _ here | rests here =>
    exact h.session (by rw [here]; rfl) rfl nofun rfl rfl (.inr nofun)
  | cancelled _ waits =>
    have before : c.phase.isOver = false := by
      rcases waits with here | here | here | here <;> (rw [here]; rfl)
    exact h.session before rfl nofun rfl rfl (.inl rfl)
  | ignores | rotates | passes => exact h
  | leaves here off | stopsAsked _ here _ off =>
    have asked := h.flagged off (by rw [here]; rfl)
    exact ⟨fun _ _ => asked, fun _ _ => asked, fun _ => asked, nofun, nofun, nofun, nofun, nofun,
      h.unstopped (by simp [here]) nofun (.inl rfl)⟩
  | stopsFor r here =>
    refine ⟨fun off _ => h.flagged off (by rw [here]; rfl), nofun, ?_, nofun, nofun, nofun, nofun, nofun,
      h.unstopped (by simp [here]) nofun (.inl rfl)⟩
    rintro ⟨⟩
    exact absurd here h.final
  | halts here =>
    exact ⟨nofun, fun _ => h.left (by rw [here]; rfl), h.requested, nofun, nofun, fun _ => rfl, nofun,
      nofun, h.unstopped (by simp [here]) nofun (.inl rfl)⟩
  | releases here =>
    exact ⟨nofun, fun _ => h.left (by rw [here]; rfl), h.requested, nofun, nofun,
      fun _ => h.halted (by rw [here]; rfl), fun _ => rfl, nofun,
      h.unstopped (by simp [here]) nofun (.inl rfl)⟩
  | concludes here =>
    refine ⟨nofun, nofun, ?_, nofun, nofun, fun _ => h.halted (by rw [here]; rfl),
      fun _ => h.released (by rw [here]; rfl), fun _ => rfl,
      h.unstopped (by simp [here]) nofun (.inl rfl)⟩
    intro some
    cases reason : c.reason with
    | none => exact h.left (by rw [here]; rfl) reason
    | some r =>
      rw [reason] at some
      exact h.requested (reason.trans some)
  | stops here =>
    exact ⟨nofun, fun _ => h.left (by rw [here]; rfl), h.requested, nofun, nofun,
      fun _ => h.halted (by rw [here]; rfl), fun _ => h.released (by rw [here]; rfl),
      fun _ => h.given (by rw [here]; rfl), ⟨fun _ => rfl, fun _ => rfl⟩⟩

theorem Winding.mono {more : Prop} (h : Winding asked c) (later : asked → more) : Winding more c :=
  ⟨fun off live => later (h.flagged off live), fun late none => later (h.left late none),
    fun some => later (h.requested some), h.final, h.early, h.halted, h.released, h.given, h.stopped⟩

theorem Winding.clears (h : Winding asked c) (now : asked) : Winding asked c.clearRunning :=
  ⟨fun _ _ => now, h.left, h.requested, h.final, h.early, fun _ => rfl, h.released, h.given, h.stopped⟩

theorem Winding.signals (h : Winding asked c) : Winding asked c.signalShutdown :=
  ⟨h.flagged, h.left, h.requested, h.final, h.early, h.halted, h.released, h.given, h.stopped⟩

theorem Winding.cancels (h : Winding asked c) : Winding asked c.cancelAttempt := by
  refine ⟨h.flagged, h.left, h.requested, h.final, h.early, h.halted, ?_, h.given, h.stopped⟩
  intro late
  simp [cancelAttempt, h.released late]

structure Onward (c d : Channel) : Prop where
  running : c.running = false → d.running = false
  shutdown : c.shutdown = true → d.shutdown = true
  done : c.phase = .done → d.phase = .done

theorem Onward.refl (c : Channel) : Onward c c := ⟨id, id, id⟩

theorem Onward.trans {e : Channel} (first : Onward c d) (second : Onward d e) : Onward c e :=
  ⟨second.running ∘ first.running, second.shutdown ∘ first.shutdown, second.done ∘ first.done⟩

theorem clearsOnward (c : Channel) : Onward c c.clearRunning := ⟨fun _ => rfl, id, id⟩

theorem signalsOnward (c : Channel) : Onward c c.signalShutdown := ⟨id, fun _ => rfl, id⟩

theorem cancelsOnward (c : Channel) : Onward c c.cancelAttempt := ⟨id, id, id⟩

theorem requestsOnward (c : Channel) : Onward c c.requestStop := ⟨fun _ => rfl, fun _ => rfl, id⟩

theorem doneStays (moves : Moves s c i d es) : c.phase ≠ .done := by
  intro done
  cases moves with
  | cancelled _ waits =>
    rcases waits with here | here | here | here <;> exact absurd (done.symm.trans here) nofun
  | begins here | leaves here | announces here | dials here | opens here | refused here | greets here
  | unheard here | issued here | recognized here | rejected here | ignores here | abandoned here
  | breaks here | persisted _ here | unpersisted _ here | reloaded here | unreloaded here | loads here
  | misses here | presents _ here | unpresented _ here | rotates here | deauthorized here
  | defaults here | passes here | closes here | drops here | enables _ here | wiped here
  | stopsFor _ here | stopsAsked _ here | reconnects here | retreats _ here | rests here | wakes here
  | roused here | halts here | releases here | concludes here | stops here =>
    exact absurd (done.symm.trans here) nofun

theorem onwardMoves (moves : Moves s c i d es) : Onward c d := by
  have ended : c.phase = .done → d.phase = .done := fun done => absurd done (doneStays moves)
  cases moves with
  | halts => exact ⟨fun _ => rfl, id, ended⟩
  | _ => exact ⟨id, id, ended⟩

theorem reasonMoves {r : StopReason} (h : Winding asked c) (moves : Moves s c i d es)
    (given : c.reason = some r) : d.reason = some r := by
  cases moves with
  | stopsFor q here => exact absurd ((h.early (by rw [here]; rfl)).symm.trans given) nofun
  | concludes => simp [given]
  | _ => exact given

def dialsLeft (c : Channel) : Nat :=
  match c.phase with
  | .announcing | .dialing => 1
  | _ => 0

theorem dialsMoves (off : c.running = false) (moves : Moves s c i d es) :
    es.count .dialed + d.dialsLeft ≤ c.dialsLeft := by
  cases moves with
  | begins _ on | reconnects _ on | retreats _ _ on => exact absurd (off.symm.trans on) nofun
  | ignores | passes => simp
  | announces here | dials here => simp [dialsLeft, here]
  | rotates => simp
  | _ => simp [dialsLeft]

end FirewallAgent.Channel

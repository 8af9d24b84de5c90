import FirewallAgent.Proofs.Lock.Sharing

/-! Who has the mutex of a segment, as the segment and as the handles have it. The two agree in every run,
so at most one handle has it. What a dead owner leaves behind is for the next locker, and for it alone. -/
namespace FirewallAgent.Lock

def Segment.hold? (g : Segment) : Option (Nat × Bool) := g.owner.map (·, g.orphaned)

def Host.grip? (h : Host) (i : Nat) : Option (Nat × Bool) := (h.segment? i).bind Segment.hold?

def Use.mends? : Use → Option Bool
  | .mending => some true
  | .holding => some false
  | _ => none

def Handle.grip? (x : Handle) : Option (Nat × Bool) :=
  match x.opening with
  | .opened i => x.use.mends?.map (i, ·)
  | _ => none

namespace Sharing

def grip? (s : Sharing) (n : Nat) : Option (Nat × Bool) := (s.handles[n]?).bind Handle.grip?

structure Owned (s : Sharing) : Prop where
  agree : ∀ n i b, s.host.grip? i = some (n, b) ↔ s.grip? n = some (i, b)
  busy : ∀ (n : Nat) (x : Handle), s.handles[n]? = some x → x.use.mends? ≠ none →
    ∃ i, x.opening = .opened i

variable {s t : Sharing} {h k : Host} {o o' : Opening} {u u' : Use} {x y : Handle} {es : List Event}
  {key : String} {n m i j : Nat}

theorem updatedGrip (h : Host) (i j : Nat) (f : Segment → Segment) :
    (h.update i f).grip? j = (h.segment? j).bind fun g => (if i = j then f g else g).hold? := by
  simp only [Host.grip?, Host.segment?, Host.update, List.getElem?_modify]
  cases h.segments[j]? with
  | none => rfl
  | some g => by_cases same : i = j <;> simp [same]

theorem gripKept {f : Segment → Segment} (same : ∀ g, (f g).hold? = g.hold?) :
    (h.update i f).grip? j = h.grip? j := by
  rw [updatedGrip, Host.grip?]
  congr
  funext g
  split
  · exact same g
  · rfl

theorem Goes.grips (goes : Goes n key h o k o' es) (j : Nat) : k.grip? j = h.grip? j := by
  cases goes with
  | creates made =>
    obtain ⟨-, segments, -, -⟩ := createdHost made
    simp only [Host.grip?, Host.segment?, segments, List.getElem?_append]
    split
    · rfl
    · rename_i beyond
      rw [List.getElem?_eq_none (Nat.le_of_not_lt beyond)]
      cases found : [({} : Segment)][j - h.segments.length]? with
      | none => rfl
      | some g =>
        cases List.mem_singleton.mp (List.mem_of_getElem? found)
        rfl
  | sizes i => exact gripKept fun _ => rfl
  | initialises i => exact gripKept fun _ => rfl
  | publishes i => exact gripKept fun _ => rfl
  | _ => rfl

theorem Turns.elsewhere (turns : Turns n i h u k u' es) (other : i ≠ j) : k.grip? j = h.grip? j := by
  have kept (f : Segment → Segment) : (h.update i f).grip? j = h.grip? j := by
    simp only [updatedGrip, other, if_false]
    rfl
  cases turns with
  | locks free | inherits free =>
    obtain ⟨g, -, -, -, rfl⟩ := takenHost free
    exact kept _
  | closes => rfl
  | _ => exact kept _

theorem Turns.hands (turns : Turns n i h u k u' es)
    (held : ∀ b, u.mends? = some b → h.grip? i = some (n, b)) :
    (k = h ∧ u.mends? = none ∧ u'.mends? = none) ∨
      h.grip? i = u.mends?.map (n, ·) ∧ k.grip? i = u'.mends?.map (n, ·) := by
  have owned {b : Bool} (h' : h.grip? i = some (n, b)) :
      ∃ g, h.segment? i = some g ∧ g.owner = some n ∧ g.orphaned = b := by
    obtain ⟨g, found, has⟩ := Option.bind_eq_some_iff.mp h'
    obtain ⟨m, owner, same⟩ := Option.map_eq_some_iff.mp has
    cases same
    exact ⟨g, found, owner, rfl⟩
  cases turns with
  | locks free | inherits free =>
    obtain ⟨g, found, unowned, orphaned, rfl⟩ := takenHost free
    refine .inr ⟨?_, ?_⟩
    · simp [Host.grip?, found, Segment.hold?, unowned, Use.mends?]
    · simp [updatedGrip, found, Segment.hold?, orphaned, Use.mends?]
  | mends =>
    have has := held true rfl
    obtain ⟨g, found, owner, -⟩ := owned has
    refine .inr ⟨has, ?_⟩
    simp [Host.mend, updatedGrip, found, Segment.hold?, owner, Use.mends?]
  | releases =>
    have has := held false rfl
    obtain ⟨g, found, owner, -⟩ := owned has
    refine .inr ⟨has, ?_⟩
    simp [Host.release, updatedGrip, found, Segment.hold?, owner, Use.mends?]
  | abandons use =>
    obtain ⟨b, mends⟩ : ∃ b, u.mends? = some b := by
      rcases use with rfl | rfl
      · exact ⟨true, rfl⟩
      · exact ⟨false, rfl⟩
    have has := held b mends
    obtain ⟨g, found, owner, -⟩ := owned has
    refine .inr ⟨by simpa [mends] using has, ?_⟩
    simp [Host.die, updatedGrip, found, Segment.hold?, owner, Use.mends?]
  | closes => exact .inl ⟨rfl, rfl, rfl⟩

theorem setGrip (there : s.handles[n]? = some x) (host : Host) (y : Handle) (m : Nat) :
    (⟨host, s.handles.set n y⟩ : Sharing).grip? m = if n = m then y.grip? else s.grip? m := by
  simp only [grip?, List.getElem?_set]
  split
  · rename_i same
    subst same
    simp [(List.getElem?_eq_some_iff.mp there).1]
  · rfl

theorem ownGrip (there : s.handles[n]? = some x) (opened : x.opening = .opened i) :
    s.grip? n = x.use.mends?.map (i, ·) := by
  simp [grip?, there, Handle.grip?, opened]

theorem Owned.clean (blocked : List String) : Owned ⟨⟨[], [], blocked⟩, []⟩ where
  agree _ _ _ := ⟨nofun, nofun⟩
  busy := nofun

theorem Owned.alike (owned : Owned s) (host : ∀ i, t.host.grip? i = s.host.grip? i)
    (handles : ∀ n, t.grip? n = s.grip? n)
    (busy : ∀ (n : Nat) (x : Handle), t.handles[n]? = some x → x.use.mends? ≠ none →
      ∃ i, x.opening = .opened i) :
    Owned t where
  agree n i b := by rw [host, handles, owned.agree]
  busy := busy

theorem Owned.starts (owned : Owned s) (process : Nat) (name : String) :
    Owned { s with handles := s.handles ++ [opener process name] } := by
  have idle : (opener process name).use.mends? = none := by unfold opener; split <;> rfl
  have shut : (opener process name).grip? = none := by unfold opener; split <;> rfl
  refine owned.alike (fun _ => rfl) (fun n => ?_) fun n x there uses => ?_
  · simp only [grip?, List.getElem?_append]
    split
    · rfl
    · rename_i beyond
      rw [List.getElem?_eq_none (Nat.le_of_not_lt beyond)]
      cases found : [opener process name][n - s.handles.length]? with
      | none => rfl
      | some x =>
        cases List.mem_singleton.mp (List.mem_of_getElem? found)
        exact shut
  · rw [List.getElem?_append] at there
    split at there
    · exact owned.busy n x there uses
    · cases List.mem_singleton.mp (List.mem_of_getElem? there)
      exact absurd idle uses

theorem Owned.advances {host : Host} {opening : Opening} (owned : Owned s)
    (there : s.handles[n]? = some x) (goes : Goes n x.key s.host x.opening host opening es) :
    Owned ⟨host, s.handles.set n { x with opening }⟩ := by
  have stays : x.use.mends? ≠ none → opening = x.opening := by
    intro uses
    obtain ⟨i, opened⟩ := owned.busy n x there uses
    rw [opened] at goes
    cases goes with
    | leaves waits => rcases waits with waits | waits <;> contradiction
    | rests => exact opened.symm
  refine owned.alike goes.grips (fun m => ?_) fun m y found uses => ?_
  · rw [setGrip there]
    split
    · rename_i same
      subst same
      by_cases uses : x.use.mends? = none
      · simp only [grip?, there, Option.bind_some, Handle.grip?, uses]
        split <;> split <;> rfl
      · rw [stays uses]
        simp [grip?, there]
    · rfl
  · rw [List.getElem?_set] at found
    split at found
    · rename_i same
      subst same
      split at found
      · cases found
        obtain ⟨i, opened⟩ := owned.busy n x there uses
        exact ⟨i, (stays uses).trans opened⟩
      · contradiction
    · exact owned.busy m y found uses

theorem Owned.uses {host : Host} {use : Use} (owned : Owned s) (there : s.handles[n]? = some x)
    (opened : x.opening = .opened i) (turns : Turns n i s.host x.use host use es) :
    Owned (s.setUse host n x use) := by
  have own := ownGrip there opened
  have now : (s.setUse host n x use).grip? n = use.mends?.map (i, ·) := by
    rw [setUse, setGrip there, if_pos rfl]
    simp [Handle.grip?, opened]
  have others (m : Nat) (other : n ≠ m) : (s.setUse host n x use).grip? m = s.grip? m := by
    rw [setUse, setGrip there, if_neg other]
  have held : ∀ b, x.use.mends? = some b → s.host.grip? i = some (n, b) := by
    intro b mends
    rw [owned.agree, own, mends]
    rfl
  refine ⟨fun m j b => ?_, fun m y found busy => ?_⟩
  · show host.grip? j = some (m, b) ↔ _
    rcases turns.hands held with ⟨rfl, before, after⟩ | ⟨before, after⟩
    · by_cases same : n = m
      · subst same
        rw [now, after, owned.agree, own, before]
      · rw [others m same, owned.agree]
    · by_cases here : i = j
      · subst here
        by_cases same : n = m
        · subst same
          rw [now, after]
          simp
        · rw [others m same, after, ← owned.agree, before]
          simp [same]
      · rw [turns.elsewhere here, owned.agree]
        by_cases same : n = m
        · subst same
          rw [now, own]
          simp [here]
        · rw [others m same]
  · simp only [setUse, List.getElem?_set] at found
    split at found
    · split at found
      · cases found
        exact ⟨i, opened⟩
      · contradiction
    · exact owned.busy m y found busy

theorem buriedGrip (h : Host) (dead : Nat → Bool) (i : Nat) :
    (h.bury dead).grip? i = (h.grip? i).filter fun o => !dead o.1 := by
  simp only [Host.grip?, Host.segment?, Host.bury, List.getElem?_map]
  cases h.segments[i]? with
  | none => rfl
  | some g =>
    cases owner : g.owner with
    | none => simp [owner, Segment.hold?]
    | some n => cases gone : dead n <;> simp [owner, Segment.hold?, gone, Option.filter_some]

def ofProcess (s : Sharing) (process n : Nat) : Bool :=
  (s.handles[n]?).any fun x => x.process == process

theorem diedGrip (s : Sharing) (process n : Nat) :
    (s.die process).grip? n = if s.ofProcess process n then none else s.grip? n := by
  simp only [grip?, ofProcess, die, List.getElem?_map]
  rcases Option.eq_none_or_eq_some s.handles[n]? with missing | ⟨x, there⟩
  · simp [missing]
  · by_cases gone : x.process = process
    · cases opening : x.opening <;> simp [there, gone, Handle.grip?, opening, Use.mends?]
    · simp [there, gone]

theorem Owned.dies (owned : Owned s) (process : Nat) : Owned (s.die process) := by
  refine ⟨fun n i b => ?_, fun n x there uses => ?_⟩
  · show (s.host.bury (s.ofProcess process)).grip? i = some (n, b) ↔ _
    rw [diedGrip, buriedGrip, Option.filter_eq_some_iff, owned.agree]
    cases s.ofProcess process n <;> simp
  · simp only [die, List.getElem?_map] at there
    obtain ⟨y, before, rfl⟩ := Option.map_eq_some_iff.mp there
    split at uses
    · exact absurd rfl uses
    · rename_i lives
      simpa [lives] using owned.busy n y before uses

theorem Owned.does (owned : Owned s) (does : Does s t es) : Owned t := by
  cases does with
  | starts process name => exact owned.starts process name
  | advances there live goes => exact owned.advances there goes
  | uses there opened turns => exact owned.uses there opened turns
  | unlinks key => exact owned.alike (fun _ => rfl) (fun _ => rfl) owned.busy
  | stays => exact owned
  | dies process => exact owned.dies process

theorem Owned.run (owned : Owned s) (run : Run s es t) : Owned t := by
  induction run with
  | start => exact owned
  | step run next ih => exact ih.does (Sharing.does next)

end Sharing
end FirewallAgent.Lock

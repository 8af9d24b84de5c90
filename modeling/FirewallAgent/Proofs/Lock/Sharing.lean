import FirewallAgent.Lock.Sharing
import FirewallAgent.Proofs.Lock.Segment

/-! What one step of the processes that share locks can do: everything an opening, an open handle, a
removal or a death may change, with what it shows. -/
namespace FirewallAgent.Lock.Sharing

inductive Goes (n : Nat) (key : String) (h : Host) :
    Opening → Host → Opening → List Event → Prop where
  | creates {a i : Nat} {k : Host} (made : h.create? key = some (k, i)) :
      Goes n key h (.creating a) k (.sizing i) [.created n key i, .joined n key i]
  | turns (a : Nat) : Goes n key h (.creating a) h (.attaching a) []
  | joins {a i : Nat} (found : h.attach key = .ok i) :
      Goes n key h (.attaching a) h (.awaitingSize i) [.joined n key i]
  | retries (a b : Nat) : Goes n key h (.attaching a) h (.creating b) []
  | sizes (i : Nat) :
      Goes n key h (.sizing i) (h.update i fun s => { s with sized := true }) (.initialising i) [.sized n i]
  | initialises (i : Nat) :
      Goes n key h (.initialising i) (h.update i fun s => { s with initialised := s.initialised + 1 })
        (.publishing i) [.initialised n i]
  | publishes (i : Nat) :
      Goes n key h (.publishing i) (h.update i fun s => { s with ready := true }) (.opened i)
        [.published n i, .opened n i]
  | measures (i : Nat) : Goes n key h (.awaitingSize i) h (.awaitingReady i) []
  | enters {i : Nat} {s : Segment} (found : h.segment? i = some s) (ready : s.ready = true) :
      Goes n key h (.awaitingReady i) h (.opened i) [.opened n i]
  | misses (a : Nat) (f : LockFault) : Goes n key h (.attaching a) h (.failed f) []
  | leaves {o : Opening} {i : Nat} (waits : o = .awaitingSize i ∨ o = .awaitingReady i) (f : LockFault) :
      Goes n key h o h (.failed f) []
  | rests {o : Opening} (still : openingEvents n key o o = []) : Goes n key h o h o []

theorem openingGoes (n : Nat) (key : String) (patient : Bool) (h : Host) (o : Opening) :
    Goes n key h o (o.step key patient h).1 (o.step key patient h).2
      (openingEvents n key o (o.step key patient h).2) := by
  cases o with
  | creating a =>
    cases made : h.create? key with
    | some p => simpa [Opening.step, made, openingEvents] using Goes.creates made
    | none => simpa [Opening.step, made, openingEvents] using Goes.turns a
  | attaching a =>
    cases found : h.attach key with
    | ok i => simpa [Opening.step, found, openingEvents] using Goes.joins found
    | error f =>
      simp only [Opening.step, found]
      split
      · contradiction
      · split
        · exact .retries a (a + 1)
        · exact .misses a _
      · exact .misses a _
  | sizing i => exact .sizes i
  | initialising i => exact .initialises i
  | publishing i => exact .publishes i
  | awaitingSize i =>
    simp only [Opening.step]
    split
    · split
      · exact .measures i
      · split
        · exact .rests rfl
        · exact .leaves (.inl rfl) _
    · exact .leaves (.inl rfl) _
  | awaitingReady i =>
    simp only [Opening.step]
    split
    · rename_i s found
      split
      · rename_i ready
        exact .enters found ready
      · split
        · exact .rests rfl
        · exact .leaves (.inr rfl) _
    · exact .leaves (.inr rfl) _
  | opened i => exact .rests rfl
  | failed f => exact .rests rfl

inductive Turns (n i : Nat) (h : Host) : Use → Host → Use → List Event → Prop where
  | locks {k : Host} (free : h.take? i n = some (k, false)) :
      Turns n i h .idle k .holding [.locked n i false]
  | inherits {k : Host} (free : h.take? i n = some (k, true)) :
      Turns n i h .idle k .mending [.locked n i true]
  | mends : Turns n i h .mending (h.mend i) .holding [.mended n i]
  | releases : Turns n i h .holding (h.release i n) .idle [.released n i]
  | abandons {u : Use} (held : u = .mending ∨ u = .holding) :
      Turns n i h u (h.die i n) .idle [.abandoned n i]
  | closes : Turns n i h .idle h .closed []

def unbound (h : Host) (key : String) : Host := { h with bound := h.bound.filter fun b => b.1 != key }

inductive Does (s : Sharing) : Sharing → List Event → Prop where
  | starts (process : Nat) (name : String) :
      Does s { s with handles := s.handles ++ [opener process name] }
        [.asked s.handles.length process name]
  | advances {n : Nat} {x : Handle} {host : Host} {opening : Opening} {es : List Event}
      (there : s.handles[n]? = some x) (live : x.use ≠ .closed)
      (goes : Goes n x.key s.host x.opening host opening es) :
      Does s ⟨host, s.handles.set n { x with opening }⟩ es
  | uses {n i : Nat} {x : Handle} {host : Host} {use : Use} {es : List Event}
      (there : s.handles[n]? = some x) (opened : x.opening = .opened i)
      (turns : Turns n i s.host x.use host use es) : Does s (s.setUse host n x use) es
  | unlinks (key : String) : Does s { s with host := unbound s.host key } [.unlinked key]
  | stays : Does s s []
  | dies (process : Nat) : Does s (s.die process) [.died process]

variable {s t : Sharing} {a : Action} {es : List Event} {n i : Nat} {x : Handle} {uses : List Use}
  {h k : Host} {key : String}

theorem createdHost (made : h.create? key = some (k, i)) :
    i = h.segments.length ∧ k.segments = h.segments ++ [({} : Segment)] ∧
      k.bound = (key, i) :: h.bound ∧ h.find? key = none := by
  unfold Host.create? at made
  split at made
  · contradiction
  · rename_i free
    cases Option.some.inj made
    exact ⟨rfl, rfl, rfl, (by simpa using free : _ ∧ _).2⟩

theorem attachedFound (found : h.attach key = .ok i) : h.find? key = some i := by
  unfold Host.attach at found
  split at found
  · contradiction
  · split at found
    · rename_i j bound
      cases found
      exact bound
    · contradiction

theorem createdSegment {j : Nat} {g : Segment} (segments : k.segments = h.segments ++ [({} : Segment)])
    (found : k.segment? j = some g) :
    h.segment? j = some g ∨ j = h.segments.length ∧ g.initialised = 0 ∧ g.ready = false := by
  rw [Host.segment?, segments, List.getElem?_append] at found
  split at found
  · exact .inl found
  · obtain ⟨below, rfl⟩ := List.getElem?_eq_some_iff.mp found
    have first : j - h.segments.length = 0 := by simpa using below
    exact .inr ⟨by omega, by simp [first], by simp [first]⟩

theorem updatedFound {f : Segment → Segment} {j : Nat} {g : Segment}
    (found : (h.update i f).segment? j = some g) :
    ∃ g', h.segment? j = some g' ∧ g = if i = j then f g' else g' := by
  simp only [Host.segment?, Host.update, List.getElem?_modify] at found ⊢
  obtain ⟨g', found', rfl⟩ := Option.map_eq_some_iff.mp found
  exact ⟨g', found', by split <;> rfl⟩

theorem takenHost {bequeathed : Bool} (free : h.take? i n = some (k, bequeathed)) :
    ∃ g, h.segment? i = some g ∧ g.owner = none ∧ g.orphaned = bequeathed ∧
      k = h.update i fun g => { g with owner := some n } := by
  unfold Host.take? at free
  split at free
  · rename_i g found
    split at free
    · contradiction
    · rename_i unowned
      cases free
      exact ⟨g, found, by simpa using unowned, rfl, rfl⟩
  · contradiction

theorem handleThere (found : s.handle? n uses = some (x, i)) :
    s.handles[n]? = some x ∧ x.opening = .opened i ∧ x.use ∈ uses := by
  unfold handle? at found
  obtain ⟨y, there, found⟩ := Option.bind_eq_some_iff.mp found
  split at found
  · rename_i opened
    split at found
    · rename_i used
      cases found
      exact ⟨there, opened, used⟩
    · contradiction
  · contradiction

theorem does (next : s.step a = some (t, es)) : Does s t es := by
  cases a with
  | start process name => cases next; exact .starts process name
  | advance n patient =>
    obtain ⟨x, there, next⟩ := Option.bind_eq_some_iff.mp next
    split at next
    · contradiction
    · rename_i live
      cases next
      exact .advances there live (openingGoes n x.key patient s.host x.opening)
  | lock n =>
    obtain ⟨⟨x, i⟩, found, next⟩ := Option.bind_eq_some_iff.mp next
    obtain ⟨⟨host, bequeathed⟩, free, next⟩ := Option.bind_eq_some_iff.mp next
    obtain ⟨there, opened, used⟩ := handleThere found
    have idle : x.use = .idle := List.mem_singleton.mp used
    cases next
    refine .uses there opened ?_
    rw [idle]
    cases bequeathed with
    | true => exact .inherits free
    | false => exact .locks free
  | mend n =>
    obtain ⟨⟨x, i⟩, found, next⟩ := Option.map_eq_some_iff.mp next
    obtain ⟨there, opened, used⟩ := handleThere found
    have mending : x.use = .mending := List.mem_singleton.mp used
    cases next
    exact .uses there opened (mending ▸ .mends)
  | release n =>
    obtain ⟨⟨x, i⟩, found, next⟩ := Option.map_eq_some_iff.mp next
    obtain ⟨there, opened, used⟩ := handleThere found
    have holding : x.use = .holding := List.mem_singleton.mp used
    cases next
    exact .uses there opened (holding ▸ .releases)
  | abandon n =>
    obtain ⟨⟨x, i⟩, found, next⟩ := Option.map_eq_some_iff.mp next
    obtain ⟨there, opened, used⟩ := handleThere found
    cases next
    exact .uses there opened (.abandons (by simpa using used))
  | close n =>
    obtain ⟨⟨x, i⟩, found, next⟩ := Option.map_eq_some_iff.mp next
    obtain ⟨there, opened, used⟩ := handleThere found
    have idle : x.use = .idle := List.mem_singleton.mp used
    cases next
    exact .uses there opened (idle ▸ .closes)
  | unlink name =>
    have gone := Option.some.inj next
    unfold unlink at gone
    split at gone
    · rename_i key _
      split at gone
      · rename_i host removed
        cases gone
        unfold Host.unlink at removed
        split at removed
        · contradiction
        · cases removed
          exact .unlinks key
      · cases gone; exact .stays
    · cases gone; exact .stays
  | die process => cases next; exact .dies process

end FirewallAgent.Lock.Sharing

import FirewallAgent.Proofs.Lock.Log

/-! The log of a run against its state. The segments and names of the host are those the log tells of, and
every handle has shown exactly what its opening took, so that each further event has what it rests on. -/
namespace FirewallAgent.Lock.Sharing

def progress (g : Segment) : Nat × Bool := (g.initialised, g.ready)

structure Recorded (es : List Event) (h : Host) : Prop where
  numbered : es.filterMap Event.made? = List.range h.segments.length
  counted : ∀ i g, h.segment? i = some g → g.initialised = es.countP (Event.initialises i)
  published : ∀ i g, h.segment? i = some g → (g.ready = true ↔ ∃ n, Event.published n i ∈ es)
  named : ∀ key, h.find? key = current key es

variable {es new : List Event} {h k : Host} {o o' : Opening} {n m i : Nat} {key : String} {x : Handle}

theorem bindsNothing (quiet : ∀ e ∈ new, e.quiet = true) (now : Option Nat) :
    new.foldl (Event.binds key) now = now := by
  induction new with
  | nil => rfl
  | cons e new ih =>
    rw [List.foldl_cons, Event.quietBinds (quiet e List.mem_cons_self)]
    exact ih fun e mem => quiet e (List.mem_cons_of_mem _ mem)

theorem updatedProgress {f : Segment → Segment} (same : ∀ g, progress (f g) = progress g) :
    (h.update i f).segments.map progress = h.segments.map progress := by
  refine List.ext_getElem? fun j => ?_
  simp only [Host.update, List.getElem?_map, List.getElem?_modify]
  split
  · cases h.segments[j]? <;> simp [same]
  · simp

theorem Recorded.alike (told : Recorded es h) (quiet : ∀ e ∈ new, e.quiet = true)
    (segments : k.segments.map progress = h.segments.map progress)
    (bound : k.bound = h.bound) : Recorded (es ++ new) k := by
  have makes : new.filterMap Event.made? = [] :=
    List.filterMap_eq_nil_iff.mpr fun e mem => Event.quietMakes (quiet e mem)
  have initialises : ∀ i, new.countP (Event.initialises i) = 0 := fun i =>
    List.countP_eq_zero.mpr fun e mem => by simp [Event.quietInitialises (quiet e mem)]
  have before : ∀ i g, k.segment? i = some g →
      ∃ g', h.segment? i = some g' ∧ g'.initialised = g.initialised ∧ g'.ready = g.ready := by
    intro i g found
    have same := congrArg (·[i]?) segments
    simp only [List.getElem?_map] at same
    simp only [Host.segment?] at found
    rw [found] at same
    obtain ⟨g', found', same⟩ := Option.map_eq_some_iff.mp same.symm
    exact ⟨g', found', congrArg Prod.fst same, congrArg Prod.snd same⟩
  refine ⟨?_, ?_, ?_, ?_⟩
  · have size : k.segments.length = h.segments.length := by simpa using congrArg List.length segments
    rw [List.filterMap_append, makes, List.append_nil, told.numbered, size]
  · intro i g found
    obtain ⟨g', found', same, -⟩ := before i g found
    rw [List.countP_append, initialises, ← same, told.counted i g' found']
    rfl
  · intro i g found
    obtain ⟨g', found', -, same⟩ := before i g found
    have silent (n : Nat) : Event.published n i ∉ new := fun mem => Bool.false_ne_true (quiet _ mem)
    simpa [same, silent] using told.published i g' found'
  · intro key
    rw [current, List.foldl_append, bindsNothing quiet, Host.find?, bound]
    exact told.named key

theorem Recorded.born (told : Recorded es h) (turn : InTurn es) (mem : Event.initialised m i ∈ es) :
    i < h.segments.length := by
  obtain ⟨key, created⟩ := turn.initialisedCreated mem
  exact madeBefore told.numbered created

theorem Recorded.unborn (told : Recorded es h) (turn : InTurn es) :
    es.countP (Event.initialises h.segments.length) = 0 := by
  refine List.countP_eq_zero.mpr fun e mem first => ?_
  cases e <;> first | contradiction | skip
  rename_i m j
  have same : j = h.segments.length := by simpa [Event.initialises] using first
  exact Nat.lt_irrefl _ (same ▸ told.born turn mem)

theorem Recorded.created (told : Recorded es h) (turn : InTurn es)
    (made : h.create? key = some (k, i)) : Recorded (es ++ [.created n key i]) k := by
  obtain ⟨rfl, segments, bound, -⟩ := createdHost made
  refine ⟨?_, ?_, ?_, ?_⟩
  · simp [List.filterMap_append, told.numbered, segments, Event.made?, List.range_succ]
  · intro j g found
    have shown : (es ++ [Event.created n key h.segments.length]).countP (Event.initialises j) =
        es.countP (Event.initialises j) := by
      simp [Event.initialises]
    rw [shown]
    rcases createdSegment segments found with there | ⟨rfl, fresh, -⟩
    · exact told.counted j g there
    · rw [fresh, told.unborn turn]
  · intro j g found
    rcases createdSegment segments found with there | ⟨rfl, -, fresh⟩
    · simpa using told.published j g there
    · have unpublished (m : Nat) : Event.published m h.segments.length ∉ es := fun mem =>
        Nat.lt_irrefl _ (told.born turn (turn.publishedInitialised mem))
      simp [fresh, unpublished]
  · intro key'
    have before := told.named key'
    simp only [Host.find?, bound, List.lookup_cons, current, List.foldl_append, List.foldl_cons,
      List.foldl_nil, Event.binds] at before ⊢
    by_cases same : key = key'
    · simp [same]
    · simpa [same, beq_eq_false_iff_ne.mpr (Ne.symm same)] using before

theorem Recorded.updated {e : Event} {f : Segment → Segment} (told : Recorded es h)
    (makes : e.made? = none) (binds : ∀ key now, Event.binds key now e = now)
    (counts : ∀ j g, (if i = j then f g else g).initialised =
      g.initialised + if e.initialises j then 1 else 0)
    (shows : ∀ j g, (if i = j then f g else g).ready = true ↔
      g.ready = true ∨ ∃ n, e = .published n j) :
    Recorded (es ++ [e]) (h.update i f) := by
  refine ⟨?_, ?_, ?_, fun key => ?_⟩
  · simpa [List.filterMap_cons, makes, Host.update] using told.numbered
  · intro j g found
    obtain ⟨g', found', rfl⟩ := updatedFound found
    rw [List.countP_append, List.countP_singleton, counts, told.counted j g' found']
  · intro j g found
    obtain ⟨g', found', rfl⟩ := updatedFound found
    rw [shows, told.published j g' found', ← exists_or]
    simp [eq_comm]
  · simpa [current, binds, Host.find?, Host.update] using told.named key

theorem Goes.recorded (told : Recorded es h) (turn : InTurn es) (goes : Goes n key h o k o' new) :
    Recorded (es ++ new) k := by
  cases goes with
  | @creates a i _ made =>
    have joined : Recorded ((es ++ [.created n key i]) ++ [.joined n key i]) k :=
      (told.created turn made).alike (by simp [Event.quiet]) rfl rfl
    simpa using joined
  | sizes i => exact told.alike (by simp [Event.quiet]) (updatedProgress fun _ => rfl) rfl
  | initialises i =>
    refine told.updated rfl (fun _ _ => rfl) (fun j g => ?_) fun j g => ?_
    · by_cases same : i = j <;> simp [same, Event.initialises]
    · by_cases same : i = j <;> simp [same]
  | publishes i =>
    have published : Recorded (es ++ [.published n i])
        (h.update i fun s => { s with ready := true }) := by
      refine told.updated rfl (fun _ _ => rfl) (fun j g => ?_) fun j g => ?_
      · by_cases same : i = j <;> simp [same, Event.initialises]
      · by_cases same : i = j <;> simp [same]
    have opened : Recorded ((es ++ [.published n i]) ++ [.opened n i])
        (h.update i fun s => { s with ready := true }) :=
      published.alike (by simp [Event.quiet]) rfl rfl
    simpa using opened
  | joins found => exact told.alike (by simp [Event.quiet]) rfl rfl
  | enters found ready => exact told.alike (by simp [Event.quiet]) rfl rfl
  | _ => exact told.alike (by simp) rfl rfl

inductive Tells (n : Nat) (key : String) : Opening → List Event → Prop where
  | creating (a : Nat) : Tells n key (.creating a) []
  | attaching (a : Nat) : Tells n key (.attaching a) []
  | sizing (i : Nat) : Tells n key (.sizing i) [.created n key i, .joined n key i]
  | initialising (i : Nat) :
      Tells n key (.initialising i) [.created n key i, .joined n key i, .sized n i]
  | publishing (i : Nat) :
      Tells n key (.publishing i) [.created n key i, .joined n key i, .sized n i, .initialised n i]
  | made (i : Nat) :
      Tells n key (.opened i)
        [.created n key i, .joined n key i, .sized n i, .initialised n i, .published n i, .opened n i]
  | awaitsSize (i : Nat) : Tells n key (.awaitingSize i) [.joined n key i]
  | awaitsReady (i : Nat) : Tells n key (.awaitingReady i) [.joined n key i]
  | found (i : Nat) : Tells n key (.opened i) [.joined n key i, .opened n i]
  | refused (f : LockFault) : Tells n key (.failed f) []
  | left (i : Nat) (f : LockFault) : Tells n key (.failed f) [.joined n key i]

theorem Goes.tells {shown : List Event} (tells : Tells n key o shown) (goes : Goes n key h o k o' new) :
    Tells n key o' (shown ++ new) := by
  cases goes with
  | creates made => cases tells; exact .sizing _
  | turns a => cases tells; exact .attaching a
  | joins found => cases tells; exact .awaitsSize _
  | retries a b => cases tells; exact .creating b
  | sizes i => cases tells; exact .initialising i
  | initialises i => cases tells; exact .publishing i
  | publishes i => cases tells; exact .made i
  | measures i => cases tells; exact .awaitsReady i
  | enters found ready => cases tells; exact .found _
  | misses a f => cases tells; exact .refused f
  | leaves waits f =>
    rcases waits with rfl | rfl
    all_goals cases tells; exact .left _ f
  | rests still => simpa using tells

theorem Tells.makes {shown : List Event} {key' : String} (tells : Tells n key o shown)
    (created : Event.created n key' i ∈ shown) (silent : Event.initialised n i ∉ shown) :
    o = .sizing i ∨ o = .initialising i := by
  cases tells <;> simp_all

theorem Goes.by (goes : Goes n key h o k o' new) : ∀ e ∈ new, e.opener? = some n := by
  cases goes <;> simp [Event.opener?]

theorem Turns.apart {u u' : Use} (turns : Turns n i h u k u' new) : ∀ e ∈ new, e.opener? = none := by
  cases turns <;> simp [Event.opener?]

theorem courseApart (apart : ∀ e ∈ new, e.opener? ≠ some n) : course n (es ++ new) = course n es := by
  have none : course n new = [] :=
    List.filter_eq_nil_iff.mpr fun e mem same => apart e mem (by simpa using same)
  rw [course, List.filter_append]
  exact (congrArg (course n es ++ ·) none).trans (List.append_nil _)

theorem courseOwn (own : ∀ e ∈ new, e.opener? = some n) : course n (es ++ new) = course n es ++ new := by
  rw [course, List.filter_append]
  exact congrArg (course n es ++ ·) (List.filter_eq_self.mpr fun e mem => by simp [own e mem])

theorem ofCourse {e : Event} (mem : e ∈ course n es) : e ∈ es := (List.mem_filter.mp mem).1

theorem inCourse {e : Event} (mem : e ∈ es) (own : e.opener? = some n) : e ∈ course n es :=
  List.mem_filter.mpr ⟨mem, by simp [own]⟩

def Told (es : List Event) (n process : Nat) (key : String) (o : Opening) : Prop :=
  ∃ name shown, course n es = .asked n process name :: shown ∧ Tells n key o shown ∧
    (openKey name = .ok key ∨ ∃ f, o = .failed f)

theorem Told.later {process : Nat} (told : Told es n process key o)
    (apart : ∀ e ∈ new, e.opener? ≠ some n) : Told (es ++ new) n process key o := by
  obtain ⟨name, shown, all, rest⟩ := told
  exact ⟨name, shown, (courseApart apart).trans all, rest⟩

theorem Goes.told {process : Nat} (told : Told es n process key o) (goes : Goes n key h o k o' new) :
    Told (es ++ new) n process key o' := by
  obtain ⟨name, shown, all, tells, entitled⟩ := told
  refine ⟨name, shown ++ new, ?_, goes.tells tells, ?_⟩
  · rw [courseOwn goes.by, all, List.cons_append]
  · rcases entitled with named | ⟨f, rfl⟩
    · exact .inl named
    · cases goes with
      | leaves waits => exact .inr ⟨_, rfl⟩
      | rests => exact .inr ⟨f, rfl⟩

theorem Goes.inTurn {process : Nat} (recorded : Recorded es h) (turn : InTurn es)
    (told : Told es n process key o) (goes : Goes n key h o k o' new) : InTurn (es ++ new) := by
  obtain ⟨name, shown, all, tells, entitled⟩ := told
  have shownIn : ∀ e ∈ shown, e ∈ es := fun e mem => ofCourse (all ▸ List.mem_cons_of_mem _ mem)
  have asked : Event.asked n process name ∈ es := ofCourse (all ▸ List.mem_cons_self)
  have unjoined : shown = [] → ∀ key' j, Event.joined n key' j ∉ es := by
    intro none key' j mem
    have own := inCourse mem rfl
    simp [all, none] at own
  cases goes with
  | @creates a i _ made =>
    obtain ⟨rfl, segments, bound, free⟩ := createdHost made
    cases tells
    have named : openKey name = .ok key := by simpa using entitled
    have one : InTurn (es ++ [.created n key h.segments.length]) :=
      .snoc turn ⟨(recorded.named key).symm.trans free, recorded.numbered⟩
    have two : InTurn ((es ++ [.created n key h.segments.length]) ++ [.joined n key h.segments.length]) := by
      refine .snoc one ⟨?_, ?_, process, name, ?_, named⟩
      · simp [current, Event.binds]
      · simpa using unjoined rfl
      · simp [asked]
    simpa using two
  | @joins a i found =>
    cases tells
    have named : openKey name = .ok key := by simpa using entitled
    have current : current key es = some i := (recorded.named key).symm.trans (attachedFound found)
    exact .snoc turn ⟨current, unjoined rfl, process, name, asked, named⟩
  | sizes i =>
    cases tells
    exact .snoc turn ⟨key, shownIn _ (by simp)⟩
  | initialises i =>
    cases tells
    have created : Event.created n key i ∈ es := shownIn _ (by simp)
    refine .snoc turn ⟨⟨key, created⟩, fun m other => ?_⟩
    obtain ⟨key', maker⟩ := turn.initialisedCreated other
    cases turn.oneMaker created maker
    simpa [all] using inCourse other rfl
  | publishes i =>
    cases tells
    have one : InTurn (es ++ [.published n i]) := .snoc turn (shownIn _ (by simp))
    have two : InTurn ((es ++ [.published n i]) ++ [.opened n i]) := by
      refine .snoc one ⟨⟨key, ?_⟩, n, by simp⟩
      exact List.mem_append_left _ (shownIn _ (by simp))
    simpa using two
  | @enters i s found ready =>
    cases tells
    exact .snoc turn ⟨⟨key, shownIn _ (by simp)⟩, (recorded.published i s found).mp ready⟩
  | _ => simpa using turn

structure Logged (es : List Event) (s : Sharing) : Prop where
  recorded : Recorded es s.host
  told : ∀ n x, s.handles[n]? = some x → Told es n x.process x.key x.opening
  strangers : ∀ n, s.handles.length ≤ n → course n es = []
  turn : InTurn es

def clean (blocked : List String) : Sharing := ⟨⟨[], [], blocked⟩, []⟩

variable {s t : Sharing}

theorem Logged.clean (blocked : List String) : Logged [] (clean blocked) where
  recorded := ⟨rfl, nofun, nofun, fun _ => rfl⟩
  told := nofun
  strangers _ _ := rfl
  turn := .nil

theorem Turns.recorded {u u' : Use} (recorded : Recorded es h) (turns : Turns n i h u k u' new) :
    Recorded (es ++ new) k := by
  have guarded {f : Segment → Segment} (same : ∀ g, progress (f g) = progress g) (g : Segment) :
      progress (if g.owner = some n then f g else g) = progress g := by
    split
    · exact same g
    · rfl
  cases turns with
  | locks free | inherits free =>
    obtain ⟨g, -, -, -, rfl⟩ := takenHost free
    exact recorded.alike (by simp [Event.quiet]) (updatedProgress fun _ => rfl) rfl
  | mends => exact recorded.alike (by simp [Event.quiet]) (updatedProgress fun _ => rfl) rfl
  | releases | abandons =>
    exact recorded.alike (by simp [Event.quiet]) (updatedProgress (guarded fun _ => rfl)) rfl
  | closes => exact recorded.alike nofun rfl rfl

theorem Turns.inTurn {u u' : Use} (turn : InTurn es) (opened : Event.opened n i ∈ es)
    (turns : Turns n i h u k u' new) : InTurn (es ++ new) := by
  cases turns with
  | locks free => exact .snoc turn opened
  | inherits free => exact .snoc turn opened
  | closes => simpa using turn
  | _ => exact .snoc turn trivial

theorem Told.opened {process : Nat} (told : Told es n process key (.opened i)) :
    Event.opened n i ∈ es := by
  obtain ⟨name, shown, all, tells, -⟩ := told
  refine ofCourse (n := n) (all ▸ List.mem_cons_of_mem _ ?_)
  cases tells <;> simp

def standing (x : Handle) : Nat × String × Opening := (x.process, x.key, x.opening)

theorem Logged.besides (logged : Logged es s) (apart : ∀ e ∈ new, e.opener? = none)
    (handles : t.handles.map standing = s.handles.map standing) (recorded : Recorded (es ++ new) t.host)
    (turn : InTurn (es ++ new)) : Logged (es ++ new) t where
  recorded := recorded
  turn := turn
  told n x there := by
    have same := congrArg (·[n]?) handles
    simp only [List.getElem?_map, there, Option.map_some] at same
    obtain ⟨y, before, same⟩ := Option.map_eq_some_iff.mp same.symm
    obtain ⟨process, key, opening⟩ :
        y.process = x.process ∧ y.key = x.key ∧ y.opening = x.opening := by
      simpa [standing] using same
    have told := logged.told n y before
    rw [process, key, opening] at told
    exact told.later fun e mem => by simp [apart e mem]
  strangers n beyond := by
    have size : t.handles.length = s.handles.length := by simpa using congrArg List.length handles
    rw [courseApart fun e mem => by simp [apart e mem]]
    exact logged.strangers n (size ▸ beyond)

theorem setStanding {n : Nat} {x : Handle} (there : s.handles[n]? = some x) (use : Use) :
    (s.handles.set n { x with use }).map standing = s.handles.map standing := by
  refine List.ext_getElem? fun m => ?_
  rw [List.map_set, List.getElem?_set, List.getElem?_map]
  split
  · rename_i same
    obtain ⟨below, rfl⟩ := List.getElem?_eq_some_iff.mp there
    simp [← same, standing, below]
  · rfl

theorem Logged.starts (logged : Logged es s) (process : Nat) (name : String) :
    Logged (es ++ [.asked s.handles.length process name])
      { s with handles := s.handles ++ [opener process name] } where
  recorded := logged.recorded.alike (by simp [Event.quiet]) rfl rfl
  turn := .snoc logged.turn trivial
  told n x there := by
    rw [List.getElem?_append] at there
    split at there
    · rename_i old
      refine (logged.told n x there).later fun e mem => ?_
      have other : s.handles.length ≠ n := by omega
      cases List.mem_singleton.mp mem
      simpa [Event.opener?] using other
    · obtain ⟨below, rfl⟩ := List.getElem?_eq_some_iff.mp there
      have new : n = s.handles.length := by
        simp at below
        omega
      subst new
      have first : course s.handles.length (es ++ [.asked s.handles.length process name]) =
          [.asked s.handles.length process name] := by
        rw [courseOwn (by simp [Event.opener?]), logged.strangers _ (Nat.le_refl _), List.nil_append]
      simp only [Nat.sub_self, List.getElem_cons_zero]
      unfold opener
      split
      · rename_i key named
        exact ⟨name, [], first, .creating 0, .inl named⟩
      · rename_i f refused
        exact ⟨name, [], first, .refused f, .inr ⟨f, rfl⟩⟩
  strangers n beyond := by
    rw [List.length_append] at beyond
    have beyond : s.handles.length < n := beyond
    rw [courseApart fun e mem => ?_]
    · exact logged.strangers n (Nat.le_of_lt beyond)
    · cases List.mem_singleton.mp mem
      simpa [Event.opener?] using Nat.ne_of_lt beyond

theorem Logged.advances {host : Host} {opening : Opening} (logged : Logged es s)
    (there : s.handles[n]? = some x) (goes : Goes n x.key s.host x.opening host opening new) :
    Logged (es ++ new) ⟨host, s.handles.set n { x with opening }⟩ where
  recorded := goes.recorded logged.recorded logged.turn
  turn := goes.inTurn logged.recorded logged.turn (logged.told n x there)
  told m y found := by
    rw [List.getElem?_set] at found
    split at found
    · rename_i same
      subst same
      split at found
      · cases found
        exact goes.told (logged.told n x there)
      · contradiction
    · rename_i other
      exact (logged.told m y found).later fun e mem => by simpa [goes.by e mem] using other
  strangers m beyond := by
    rw [List.length_set] at beyond
    have below := (List.getElem?_eq_some_iff.mp there).1
    have other : n ≠ m := by omega
    rw [courseApart fun e mem => by simpa [goes.by e mem] using other]
    exact logged.strangers m beyond

theorem lookupKept (bound : List (String × Nat)) (key key' : String) :
    (bound.filter fun b => b.1 != key).lookup key' =
      if key = key' then none else bound.lookup key' := by
  induction bound with
  | nil => simp
  | cons b bound ih =>
    obtain ⟨k, i⟩ := b
    by_cases gone : k = key
    · subst gone
      by_cases same : k = key'
      · simpa [same] using ih
      · simpa [same, List.lookup_cons, beq_eq_false_iff_ne.mpr (Ne.symm same)] using ih
    · by_cases same : key' = k
      · subst same
        simp [gone, Ne.symm gone]
      · simpa [gone, List.lookup_cons, beq_eq_false_iff_ne.mpr same] using ih

theorem Recorded.unlinks (recorded : Recorded es h) (key : String) :
    Recorded (es ++ [.unlinked key]) (unbound h key) := by
  refine ⟨?_, ?_, ?_, fun key' => ?_⟩
  · simpa [List.filterMap_cons, Event.made?, unbound] using recorded.numbered
  · intro i g found
    simpa [Event.initialises] using recorded.counted i g found
  · intro i g found
    simpa using recorded.published i g found
  · have before := recorded.named key'
    simp only [Host.find?] at before
    simp only [Host.find?, unbound, lookupKept, before]
    simp [current, Event.binds]

theorem buriedProgress (h : Host) (dead : Nat → Bool) :
    (h.bury dead).segments.map progress = h.segments.map progress := by
  rw [Host.bury, List.map_map]
  refine List.map_congr_left fun g _ => ?_
  simp only [Function.comp_apply]
  split <;> rfl

theorem Logged.does (logged : Logged es s) (does : Does s t new) : Logged (es ++ new) t := by
  cases does with
  | starts process name => exact logged.starts process name
  | advances there live goes => exact logged.advances there goes
  | @uses n i x host use _ there opened turns =>
    have told := logged.told n x there
    rw [opened] at told
    exact logged.besides turns.apart (setStanding there use) (turns.recorded logged.recorded)
      (turns.inTurn logged.turn told.opened)
  | unlinks key =>
    exact logged.besides (by simp [Event.opener?]) rfl (logged.recorded.unlinks key)
      (.snoc logged.turn trivial)
  | stays => simpa using logged
  | dies process =>
    refine logged.besides (by simp [Event.opener?]) ?_ ?_ (.snoc logged.turn trivial)
    · rw [die, List.map_map]
      refine List.map_congr_left fun x _ => ?_
      simp only [Function.comp_apply]
      split <;> rfl
    · exact logged.recorded.alike (by simp [Event.quiet]) (buriedProgress _ _) rfl

theorem Run.logged {blocked : List String} (run : Run (clean blocked) es s) : Logged es s := by
  induction run with
  | start => exact .clean blocked
  | step run next ih => exact ih.does (does next)

end FirewallAgent.Lock.Sharing

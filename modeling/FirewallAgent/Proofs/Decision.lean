import FirewallAgent.Decision

/-! How a call goes on, step by step. It sees its client only at the gate and when it looks into the
cache; between the two, and after them, nothing but the reply of the service matters to it. -/
namespace FirewallAgent.Decision

theorem messageToken {s : Subject} {t : String} {m : Message} (about : s.message? t = some m) :
    m.token = t := by
  cases s with
  | token => contradiction
  | connection | request | response =>
    cases Option.some.inj about
    rfl

inductive Goes (v : View) (s : Subject) : Stage → Input → Next → Prop where
  | enters (live : v.channel.isStreaming = true) :
      Goes v s .entering .proceed ⟨.waiting .polling, v.cache, [.waited]⟩
  | barred (dead : v.channel.isStreaming = false) :
      Goes v s .entering .proceed
        ⟨.ended (.error (v.channel.terminalError?.getD .streamNotRunning)), v.cache, []⟩
  | takes {w : Gate.Wait} (waits : ∀ t, w ≠ .ended t) (filled : v.token ≠ "") (more : s ≠ .token) :
      Goes v s (.waiting w) .proceed ⟨.holding v.token, v.cache, []⟩
  | hands {w : Gate.Wait} (waits : ∀ t, w ≠ .ended t) (filled : v.token ≠ "") (all : s = .token) :
      Goes v s (.waiting w) .proceed ⟨.ended (.ok (.token v.token)), v.cache, []⟩
  | expires (empty : v.token = "") :
      Goes v s (.waiting .polling) .expire ⟨.waiting .expired, v.cache, []⟩
  | misses (empty : v.token = "") :
      Goes v s (.waiting .expired) .proceed
        ⟨.ended (.error .tokenUnavailable), v.cache, [.counted .tokenTimeout]⟩
  | recalls (t : String) {x : Verdict} (hit : cached? v s = some x) :
      Goes v s (.holding t) .proceed ⟨.ended (.ok (.verdict x)), v.cache,
        [.counted (.cacheHit s.operation), .counted (.decision s.operation (some x))]⟩
  | prepares {t : String} {m : Message} (new : cached? v s = none)
      (about : s.message? t = some m) : Goes v s (.holding t) .proceed ⟨.asking m, v.cache, []⟩
  | asks (m : Message) : Goes v s (.asking m) .proceed ⟨.awaiting m, v.cache, [.asked m]⟩
  | refused (m : Message) (e : Status) :
      Goes v s (.awaiting m) (.replied (.error e)) ⟨.ended (.error (.transport e)), v.cache, []⟩
  | informed (m : Message) (r : ConnectionReply) (plain : s.fingerprint? = none) :
      Goes v s (.awaiting m) (.replied (.ok (.connection r)))
        ⟨.ended (.ok (.info r.info)), v.cache, [.counted (.decision s.operation none)]⟩
  | told (m : Message) (r : VerdictReply) {f : Fingerprint} (about : s.fingerprint? = some f) :
      Goes v s (.awaiting m) (.replied (.ok (.verdict r)))
        ⟨.recording (.ofNumber r.number), v.cache,
          [.counted (.decision s.operation (some (.ofNumber r.number)))]⟩
  | records (x : Verdict) {f : Fingerprint} (about : s.fingerprint? = some f) :
      Goes v s (.recording x) .proceed ⟨.ended (.ok (.verdict x)), v.cache.put f x, []⟩
  | passes (x : Verdict) (plain : s.fingerprint? = none) :
      Goes v s (.recording x) .proceed ⟨.ended (.ok (.verdict x)), v.cache, []⟩

variable {v : View} {s : Subject} {next : Next}

theorem wakeGoes {w : Gate.Wait} (waits : ∀ t, w ≠ .ended t) (filled : v.token ≠ "") :
    Goes v s (.waiting w) .proceed (wake v s (.ended v.token)) := by
  unfold wake
  split
  · rename_i empty
    exact absurd (Gate.Wait.ended.inj empty) filled
  · rename_i t same
    cases Gate.Wait.ended.inj same
    cases s with
    | token => exact .hands waits filled rfl
    | connection | request | response => exact .takes waits filled nofun
  · rename_i other
    exact absurd rfl (other v.token)

theorem waitGoes {w x : Gate.Wait} (polled : Gate.step v.token w .poll = some x) :
    Goes v s (.waiting w) .proceed (wake v s x) := by
  cases w with
  | polling =>
    rw [Gate.step] at polled
    split at polled
    · contradiction
    · cases Option.some.inj polled
      exact wakeGoes (by simp) ‹_›
  | expired =>
    cases Option.some.inj polled
    by_cases empty : v.token = ""
    · rw [empty]
      exact .misses empty
    · exact wakeGoes (by simp) empty
  | ended => contradiction

theorem expireGoes {w x : Gate.Wait} (late : Gate.step v.token w .expire = some x) :
    Goes v s (.waiting w) .expire (wake v s x) := by
  cases w with
  | polling =>
    rw [Gate.step] at late
    split at late
    · cases Option.some.inj late
      exact .expires ‹_›
    · contradiction
  | expired | ended => contradiction

theorem lookUpGoes {t : String} (ok : lookUp v s t = some next) :
    Goes v s (.holding t) .proceed next := by
  unfold lookUp at ok
  split at ok
  · rename_i hit
    cases Option.some.inj ok
    exact .recalls t hit
  · rename_i new
    obtain ⟨m, about, same⟩ := Option.map_eq_some_iff.mp ok
    cases same
    exact .prepares new about

theorem receiveGoes {m : Message} {r : Except Status Reply} (ok : receive v s r = some next) :
    Goes v s (.awaiting m) (.replied r) next := by
  unfold receive at ok
  split at ok
  · cases Option.some.inj ok
    exact .refused m _
  · split at ok
    · contradiction
    · rename_i plain
      cases Option.some.inj ok
      exact .informed m _ (Option.not_isSome_iff_eq_none.mp plain)
  · split at ok
    · contradiction
    · rename_i about
      cases Option.some.inj ok
      obtain ⟨f, about⟩ := Option.ne_none_iff_exists'.mp (by simpa using about)
      exact .told m _ about

theorem recordGoes (x : Verdict) : Goes v s (.recording x) .proceed (record v s x) := by
  unfold record
  cases about : s.fingerprint? with
  | some f => exact .records x about
  | none => exact .passes x about

theorem stepGoes {stage : Stage} {i : Input} (ok : step v s stage i = some next) :
    Goes v s stage i next := by
  unfold step at ok
  split at ok
  · cases Option.some.inj ok
    unfold enter
    split
    · exact .enters ‹_›
    · exact .barred (Bool.eq_false_iff.mpr ‹_›)
  · obtain ⟨w, polled, same⟩ := Option.map_eq_some_iff.mp ok
    exact same ▸ waitGoes polled
  · obtain ⟨w, late, same⟩ := Option.map_eq_some_iff.mp ok
    exact same ▸ expireGoes late
  · exact lookUpGoes ok
  · cases Option.some.inj ok
    exact .asks _
  · exact receiveGoes ok
  · cases Option.some.inj ok
    exact recordGoes _
  · contradiction

theorem polledGoes {w : Gate.Wait} (waits : ∀ t, w ≠ .ended t) (filled : v.token ≠ "") :
    step v s (.waiting w) .proceed = some (wake v s (.ended v.token)) := by
  cases w with
  | polling => simp [step, Gate.step, filled]
  | expired => rfl
  | ended t => exact absurd rfl (waits t)

theorem wakeFilled (filled : v.token ≠ "") : wake v s (.ended v.token) =
    if s = .token then ⟨.ended (.ok (.token v.token)), v.cache, []⟩
    else ⟨.holding v.token, v.cache, []⟩ := by
  cases s with
  | token => simp [wake]
  | connection | request | response => simp [wake]

theorem goesStep {stage : Stage} {i : Input} (goes : Goes v s stage i next) :
    step v s stage i = some next := by
  cases goes with
  | enters live => simp [step, enter, live]
  | barred dead => simp [step, enter, dead]
  | takes waits filled more => rw [polledGoes waits filled, wakeFilled filled, if_neg more]
  | hands waits filled all => rw [polledGoes waits filled, wakeFilled filled, if_pos all]
  | expires empty => simp [step, Gate.step, empty, wake]
  | misses empty => simp [step, Gate.step, empty, wake]
  | recalls t hit => simp [step, lookUp, hit]
  | prepares new about => simp [step, lookUp, new, about]
  | asks m => rfl
  | refused m e => rfl
  | informed m r plain => simp [step, receive, plain]
  | told m r about => simp [step, receive, about]
  | records x about => simp [step, record, about]
  | passes x plain => simp [step, record, plain]

theorem goesCache {stage : Stage} {i : Input} (goes : Goes v s stage i next) :
    next.cache = v.cache ∨ ∃ x f, stage = .recording x ∧ i = .proceed ∧ s.fingerprint? = some f ∧
      next.cache = v.cache.put f x := by
  cases goes with
  | records x about => exact .inr ⟨x, _, rfl, rfl, about, rfl⟩
  | _ => exact .inl rfl

end FirewallAgent.Decision

import FirewallAgent.Proofs.Agent.Stream

/-! The order of a session. Before the service has authorized the device nothing that it sends changes
anything; the authorization changes the records by its own credential alone; and the proof that the
task sends after it is what was read back. -/
namespace FirewallAgent.Agent
open Channel (Moves Phase Settings authorizationRequest authentication)

def afterGrant : Option String → Option String → Phase
  | some p, some q => .persisting ⟨p, q⟩
  | _, _ => .reloading

structure Obeys (i : Nat) (s : Settings) (log : List Moment) (m : Moment) : Prop where
  presented : ∀ x, authentication x ∈ m.sends i → ∃ p q later, Granted i p q later log ∧
    InOrder (saving i s p q ++ [(Moment.reloads · i (.ok ())), (Moment.loads · i s (some x))]) later
  ignored : ∀ x, m.hears i x → Unheard i log → (∀ p q, x ≠ .authorized p q) →
    m.Untouched ∧ (x ≠ .rejected → m.after = m.before)
  granted : ∀ p q, m.hears i (.authorized p q) → Unheard i log →
    m.Untouched ∧ (m.after.clients[i]?).map (·.channel.phase) = some (afterGrant p q)
  repeated : ∀ x, m.hears i x → ¬ Unheard i log →
    (x = .rejected ∨ x = .empty ∨ ∃ p q, x = .authorized p q) → m.after = m.before
  written : m.isOf i → m.after.tree ≠ m.before.tree →
    (∃ x r later, m.saves i s x r ∧ Granted i (some x.appId) (some x.appSecret) later log) ∨
      ((∃ r, m.wipes i r) ∧ Revoked i s log)
  saved : ∀ x, m.saves i s x (.ok ()) → ∃ found now,
    Store.readRecords m.before.tree m.before.store.path = .ok found ∧
      Store.readRecords m.after.tree m.after.store.path = .ok now ∧
      (∀ key, key ≠ Credential.idKey s.code → key ≠ Credential.secretKey s.code →
        now.get? key = found.get? key) ∧
      (Store.isComment s.code = false → Credential.find? now s.code = some x)

variable {i : Nat} {s : Settings} {log : List Moment} {a b : Agent} {x : Action} {es : List Event}

theorem authenticationInjective {x y : Credential} (same : authentication x = authentication y) :
    x = y := by
  cases x
  cases y
  injection same with same
  injection same with id secret
  cases id
  cases secret
  rfl

theorem authenticationMoves {c d : Channel} {input : Channel.Input} {effects : List Channel.Effect}
    {x : Credential} (moves : Moves s c input d effects)
    (there : authentication x ∈ effects.filterMap said?) : c.phase = .presenting x := by
  cases moves with
  | presents y here =>
    have same : authentication x = authentication y := by simpa [said?] using there
    exact authenticationInjective same ▸ here
  | greets =>
    have same : authentication x = authorizationRequest s := by simpa [said?] using there
    contradiction
  | _ => simp [said?] at there

theorem presentedStep (standing : Standing i s log a) (next : a.step x = some (b, es))
    {y : Credential} (there : authentication y ∈ Moment.sends ⟨a, x, b, es⟩ i) :
    ∃ p q later, Granted i p q later log ∧ InOrder
      (saving i s p q ++ [(Moment.reloads · i (.ok ())), (Moment.loads · i s (some y))]) later := by
  obtain ⟨c, found, rfl, progress⟩ := standing
  have own : x.task? = some i := by
    by_contra other
    have mute := (stepElsewhere next other).1
    simp [Moment.sends, mute] at there
  have presenting : ∀ {t k input}, { a with tree := t, store := k }.stepChannel i input = some (b, es) →
      c.channel.phase = .presenting y := by
    intro t k input moved
    obtain ⟨c', d, effects, found', stepped, does, _⟩ := channelOwn moved
    cases Option.some.inj (found.symm.trans found')
    simp only [Moment.sends, does] at there
    exact authenticationMoves (Channel.stepMoves stepped) there
  have here : c.channel.phase = .presenting y := by
    rcases ownStep next own with ⟨_, _, _, moved⟩ | ⟨_, _, _, _, _, _, _, _, moved⟩
    · exact presenting moved
    · exact presenting moved
  rw [here] at progress
  exact progress.2

theorem heardMoves {y : ServerMessage} (next : a.step (.channel i (.received y)) = some (b, es)) :
    ∃ c d effects, a.clients[i]? = some c ∧ Moves c.settings c.channel (.received y) d effects ∧
      (b.clients[i]?).map (·.channel.phase) = some d.phase ∧
      ((∀ e ∈ effects, touches e = false) → b = a.setClient i { c with channel := d }) := by
  obtain ⟨c, d, effects, found, stepped, _, after, plain⟩ := channelOwn (channelAction next)
  exact ⟨c, d, effects, found, Channel.stepMoves stepped, by rw [after]; rfl, plain⟩

theorem ignoredStep {y : ServerMessage} (standing : Standing i s log a)
    (next : a.step (.channel i (.received y)) = some (b, es)) (unheard : Unheard i log)
    (other : ∀ p q, y ≠ .authorized p q) :
    Moment.Untouched ⟨a, .channel i (.received y), b, es⟩ ∧ (y ≠ .rejected → b = a) := by
  obtain ⟨c, found, rfl, progress⟩ := standing
  obtain ⟨c', d, effects, found', moves, _, plain⟩ := heardMoves next
  cases Option.some.inj (found.symm.trans found')
  have waits : c.channel.phase ≠ .streaming := by
    intro here
    rw [here] at progress
    obtain ⟨_, p, q, later, granted⟩ := progress
    exact granted.heard unheard
  cases moves with
  | issued | recognized => exact absurd rfl (other _ _)
  | rejected =>
    cases plain (by simp)
    exact ⟨untouchedSet _ found, fun no => absurd rfl no⟩
  | ignores =>
    cases plain (by simp)
    exact ⟨untouchedSet _ found, fun _ => setClientSame found⟩
  | rotates here | deauthorized here | defaults here | passes here => exact absurd here waits

theorem grantedStep {p q : Option String} (standing : Standing i s log a)
    (next : a.step (.channel i (.received (.authorized p q))) = some (b, es))
    (unheard : Unheard i log) :
    Moment.Untouched ⟨a, .channel i (.received (.authorized p q)), b, es⟩ ∧
      (b.clients[i]?).map (·.channel.phase) = some (afterGrant p q) := by
  obtain ⟨c, found, rfl, progress⟩ := standing
  obtain ⟨c', d, effects, found', moves, phase, plain⟩ := heardMoves next
  cases Option.some.inj (found.symm.trans found')
  cases moves with
  | issued =>
    cases plain (by simp)
    exact ⟨untouchedSet _ found, phase⟩
  | recognized _ _ _ half =>
    cases plain (by simp [touches])
    refine ⟨untouchedSet _ found, phase.trans ?_⟩
    rcases half with rfl | rfl
    · rfl
    · cases p <;> rfl
  | ignores _ _ _ bare => exact absurd rfl (bare p q)
  | passes here =>
    rw [here] at progress
    obtain ⟨_, _, _, _, granted⟩ := progress
    exact absurd unheard granted.heard

theorem repeatedStep {y : ServerMessage} (standing : Standing i s log a)
    (next : a.step (.channel i (.received y)) = some (b, es)) (heard : ¬ Unheard i log)
    (late : y = .rejected ∨ y = .empty ∨ ∃ p q, y = .authorized p q) : b = a := by
  obtain ⟨c, found, rfl, progress⟩ := standing
  obtain ⟨c', d, effects, found', moves, _, plain⟩ := heardMoves next
  cases Option.some.inj (found.symm.trans found')
  have past : c.channel.phase ≠ .authorizing := by
    intro here
    rw [here] at progress
    exact heard progress.2
  cases moves with
  | issued here | recognized here | rejected here | ignores here => exact absurd here past
  | passes =>
    cases plain (by simp)
    exact setClientSame found
  | rotates | deauthorized | defaults =>
    rcases late with no | no | ⟨_, _, no⟩ <;> contradiction

theorem writtenStep (standing : Standing i s log a) (next : a.step x = some (b, es))
    (own : x.task? = some i) (changed : b.tree ≠ a.tree) :
    (∃ y r later, Moment.saves ⟨a, x, b, es⟩ i s y r ∧
      Granted i (some y.appId) (some y.appSecret) later log) ∨
    ((∃ r, Moment.wipes ⟨a, x, b, es⟩ i r) ∧ Revoked i s log) := by
  obtain ⟨c, found, rfl, progress⟩ := standing
  rcases ownStep next own with ⟨input, _, _, moved⟩ |
    ⟨turns, c', tree, store, news, rfl, found', worked, moved⟩
  · exact absurd (channelDriven moved).tree changed
  · cases Option.some.inj (found.symm.trans found')
    have driven := channelDriven moved
    obtain ⟨rfl, rfl⟩ : tree = b.tree ∧ store = b.store := ⟨driven.tree.symm, driven.store.symm⟩
    rcases storeWorks worked with ⟨y, r, here, _, saved⟩ | ⟨r, _, _, read⟩ | ⟨_, _, same, _⟩ |
      ⟨r, here, _, wiped⟩
    · rw [here] at progress
      obtain ⟨_, later, granted⟩ := progress
      exact .inl ⟨y, r, later, ⟨turns, ⟨rfl, c, found, here⟩, saved⟩, granted⟩
    · exact absurd (Store.reloadTree read) changed
    · exact absurd same changed
    · rw [here] at progress
      exact .inr ⟨⟨r, turns, ⟨rfl, c, found, here⟩, wiped⟩, progress.2⟩

theorem obeysStep (standing : Standing i s log a) (next : a.step x = some (b, es)) :
    Obeys i s log ⟨a, x, b, es⟩ where
  presented y there := presentedStep standing next there
  ignored y heard unheard other := by
    cases heard
    exact ignoredStep standing next unheard other
  granted p q heard unheard := by
    cases heard
    exact grantedStep standing next unheard
  repeated y heard before late := by
    cases heard
    exact repeatedStep standing next before late
  written own changed := writtenStep standing next own changed
  saved y saves := by
    obtain ⟨turns, _, saved⟩ := saves
    exact Store.saveRecords saved

theorem openedStanding (next : a.step (.channel i (.opened (.ok ()))) = some (b, es)) :
    ∃ c, a.clients[i]? = some c ∧ Standing i c.settings [] b := by
  obtain ⟨c, d, effects, found, stepped, _, there, _⟩ := channelOwn (channelAction next)
  refine ⟨c, found, _, there, rfl, ?_⟩
  cases Channel.stepMoves stepped with
  | opens =>
    have unheard : Unheard i [] := by simp [Unheard]
    exact ⟨rfl, unheard⟩

theorem sessionsObeyHandshake {start a : Agent} {i : Nat} {pre log post : List Moment} {m : Moment}
    (run : Run start (pre ++ m :: (log ++ post)) a) (opened : m.opens i)
    (one : ∀ n ∈ log, ¬ n.opens i) :
    ∃ c, m.before.clients[i]? = some c ∧
      (∃ x, sent i log <+: [authorizationRequest c.settings, authentication x]) ∧
      ∀ earlier n later, log = earlier ++ n :: later → Obeys i c.settings earlier n := by
  obtain ⟨_, next, rest⟩ := run.around
  rw [opened] at next
  obtain ⟨c, found, standing⟩ := openedStanding next
  obtain ⟨_, stream, _⟩ := rest.split
  refine ⟨c, found, ?_, ?_⟩
  · obtain ⟨_, _, _, progress⟩ := runStanding standing stream one
    exact progress.sent
  · rintro earlier n later rfl
    obtain ⟨before, next, _⟩ := stream.around
    have quiet : ∀ k ∈ earlier, ¬ k.opens i := fun k there => one k (List.mem_append_left _ there)
    exact obeysStep (runStanding standing before quiet) next

/- A new device is given its credential, keeps it and proves itself with it. A revocation that comes
too early is not heeded. -/
def dialing : Agent :=
  { device := ⟨"uuid", "linux"⟩, tree := .fresh, store := ⟨"store", "/lock", .empty⟩
    clients := [{
      identity := ⟨"code", "localhost:443", true⟩, settings := ⟨"code", ⟨"uuid", "linux"⟩, .ofSeconds 5⟩
      channel := { phase := .opening } }] }

def enrolment : List Action :=
  [.channel 0 (.sent true), .channel 0 (.received .deauthorized),
    .channel 0 (.received (.authorized (some "id") (some "secret"))), .storage 0 [], .storage 0 [],
    .storage 0 [], .channel 0 (.sent true), .channel 0 (.received (.token "token"))]

theorem enrolmentObeysHandshake : ∃ m log a c, Run dialing (m :: log) a ∧ m.opens 0 ∧
    (∀ n ∈ log, ¬ n.opens 0) ∧ sent 0 log = [authorizationRequest c.settings,
      authentication ⟨"id", "secret"⟩] ∧ m.before.clients[0]? = some c ∧
    ∀ earlier n later, log = earlier ++ n :: later → Obeys 0 c.settings earlier n := by
  have smooth : (dialing.play (.channel 0 (.opened (.ok ())) :: enrolment)).any
      (fun r => sent 0 (r.1.drop 1) == [authorizationRequest ⟨"code", ⟨"uuid", "linux"⟩, .ofSeconds 5⟩,
        authentication ⟨"id", "secret"⟩]) = true := by decide +kernel
  obtain ⟨⟨ms, a⟩, played, said⟩ := (Option.any_eq_true _ _).mp smooth
  have run := playRun played
  obtain ⟨m, log, rfl, opened, rest⟩ := List.map_eq_cons_iff.mp (playActions played)
  have one : ∀ n ∈ log, ¬ n.opens 0 := by
    intro n there again
    have listed : n.action ∈ enrolment := rest ▸ List.mem_map_of_mem there
    rw [again] at listed
    simp [enrolment] at listed
  have whole : Run dialing ([] ++ m :: (log ++ [])) a := by simpa using run
  obtain ⟨c, found, _, obeys⟩ := sessionsObeyHandshake whole opened one
  have same : m.before = dialing := by
    cases run with
    | step => rfl
  have found' := found
  rw [same] at found'
  cases Option.some.inj found'
  exact ⟨m, log, a, _, run, opened, one, by simpa using said, found, obeys⟩

end FirewallAgent.Agent

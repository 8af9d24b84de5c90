import FirewallAgent.Proofs.Agent.Slots

/-! The lock of the list of identities. In the agent looking up a slot is one step, and so is taking all
slots out. Here the lock is taken first and then given back: what goes on is the same, and whoever
keeps the lock waits for nobody. -/
namespace FirewallAgent.Agent
open Registry

inductive Keeper where
  | call (n : Nat)
  | shutdown (n : Nat)
  | count

def Keeper.Does : Keeper → Action → Prop
  | .call n, x => x = .connecting n
  | .shutdown n, x => ∃ slots, x = .draining n slots
  | .count, _ => False

def Keeper.Wants (a : Agent) : Keeper → Prop
  | .call n => ∃ c, a.connects[n]? = some c ∧ c.stage = .locating
  | .shutdown n => a.shutdowns[n]? = some ⟨.draining⟩
  | .count => True

structure Turnstile where
  agent : Agent
  keeper : Option Keeper := none

inductive Turnstile.Goes : Turnstile → List Moment → Turnstile → Prop where
  | takes {a : Agent} {k : Keeper} (wants : k.Wants a) : Goes ⟨a, none⟩ [] ⟨a, some k⟩
  | uses {a b : Agent} {k : Keeper} {x : Action} {es : List Event} (own : k.Does x)
      (next : a.step x = some (b, es)) : Goes ⟨a, some k⟩ [⟨a, x, b, es⟩] ⟨b, none⟩
  | counts {a : Agent} : Goes ⟨a, some .count⟩ [] ⟨a, none⟩
  /- What needs no lock. A call is not given up while it keeps the lock, since it does not wait. -/
  | passes {a b : Agent} {keeper : Option Keeper} {x : Action} {es : List Event}
      (free : ∀ k : Keeper, k.Wants a → ¬ k.Does x)
      (held : ∀ n, keeper = some (.call n) → x ≠ .abandon n) (next : a.step x = some (b, es)) :
      Goes ⟨a, keeper⟩ [⟨a, x, b, es⟩] ⟨b, keeper⟩

inductive Turnstile.Run : Turnstile → List Moment → Turnstile → Prop where
  | rest {g : Turnstile} : Run g [] g
  | step {g h k : Turnstile} {ms later : List Moment} (goes : g.Goes ms h) (run : Run h later k) :
      Run g (ms ++ later) k

variable {a b : Agent} {x : Action} {es : List Event} {g h : Turnstile} {log : List Moment}

theorem turnstileRuns (run : g.Run log h) : Run g.agent log h.agent := by
  induction run with
  | rest => exact .rest
  | step goes _ ih =>
    cases goes with
    | takes | counts => exact ih
    | uses _ next | passes _ _ next => exact .step next ih

theorem runsThroughTurnstile (run : Run a log b) : Turnstile.Run ⟨a, none⟩ log ⟨b, none⟩ := by
  induction run with
  | rest => exact .rest
  | @step a b c x es later next _ ih =>
    by_cases locked : ∃ k : Keeper, k.Wants a ∧ k.Does x
    · obtain ⟨k, wants, own⟩ := locked
      exact .step (.takes wants) (.step (.uses own next) ih)
    · refine .step (.passes ?_ ?_ next) ih
      · intro k wants own
        exact locked ⟨k, wants, own⟩
      · intro n keeps
        contradiction

theorem wantsStep {k : Keeper} (wants : k.Wants a) (next : a.step x = some (b, es))
    (free : ¬ k.Does x) (held : ∀ n, k = .call n → x ≠ .abandon n) : k.Wants b := by
  cases manages : x.manages with
  | false =>
    have still := stillStep next manages
    cases k with
    | call n => simpa only [Keeper.Wants, still.connects] using wants
    | shutdown n => simpa only [Keeper.Wants, still.shutdowns] using wants
    | count => trivial
  | true =>
    have turn := stepTurn next manages
    cases k with
    | count => trivial
    | call n =>
      obtain ⟨c, there, here⟩ := wants
      have other : ∀ {m : Nat} {d : Connect}, n ≠ m →
          ∃ e, (a.connects.set m d)[n]? = some e ∧ e.stage = .locating :=
        fun apart => ⟨c, setOther there apart, here⟩
      cases turn with
      | calls => exact ⟨c, appendKeeps there, here⟩
      | finds | enters | begins | shares => exact other fun same => free (same ▸ rfl)
      | succeeds found stage | fails _ found stage =>
        refine other ?_
        rintro rfl
        cases Option.some.inj (there.symm.trans found)
        exact absurd (here.symm.trans stage) nofun
      | quits | forgets => exact other fun same => held n rfl (same ▸ rfl)
      | bids | presses | closes | drains | skips | drives | passes | finishes | drops =>
        exact ⟨c, there, here⟩
    | shutdown n =>
      have other : ∀ {m : Nat} {s : Shutdown}, n ≠ m →
          (a.shutdowns.set m s)[n]? = some ⟨.draining⟩ := fun apart => setOther wants apart
      cases turn with
      | closes => exact appendKeeps wants
      | @drains m slots => exact other fun same => free ⟨slots, same ▸ rfl⟩
      | skips there | drives there | passes there | finishes there =>
        refine other ?_
        rintro rfl
        exact absurd (wants.symm.trans there) nofun
      | calls | finds | enters | begins | shares | succeeds | fails | quits | forgets | bids
      | presses | drops => exact wants

theorem keeperWants {k : Keeper} (run : g.Run log h) (start : ∀ k, g.keeper = some k → k.Wants g.agent)
    (keeps : h.keeper = some k) : k.Wants h.agent := by
  induction run with
  | rest => exact start k keeps
  | step goes _ ih =>
    refine ih ?_ keeps
    intro k keeps
    cases goes with
    | takes wants =>
      cases keeps
      exact wants
    | uses | counts => contradiction
    | passes free held next =>
      refine wantsStep (start k keeps) next (free k (start k keeps)) ?_
      rintro n rfl
      exact held n keeps

theorem locatingCan {n : Nat} {c : Connect} (there : a.connects[n]? = some c)
    (here : c.stage = .locating) : a.Can (.connecting n) := by
  refine ⟨a.locate n c, [], ?_⟩
  simp [step, stepConnecting, there, here]

theorem drainingCan {n : Nat} {slots : List Nat} (there : a.shutdowns[n]? = some ⟨.draining⟩)
    (taken : slots.Perm (a.identities.map Prod.snd)) : a.Can (.draining n slots) := by
  refine ⟨Agent.setShutdown { a with identities := [] } n (.stopping slots .asking), [], ?_⟩
  simp [step, stepDraining, there, taken]

theorem keeperGoes {k : Keeper} (wants : k.Wants a) :
    ∃ ms b, Turnstile.Goes ⟨a, some k⟩ ms ⟨b, none⟩ := by
  cases k with
  | count => exact ⟨_, _, .counts⟩
  | call n =>
    obtain ⟨c, there, here⟩ := wants
    obtain ⟨b, es, next⟩ := locatingCan there here
    exact ⟨_, _, .uses rfl next⟩
  | shutdown n =>
    obtain ⟨b, es, next⟩ := drainingCan wants (.refl _)
    exact ⟨_, _, .uses ⟨_, rfl⟩ next⟩

end FirewallAgent.Agent

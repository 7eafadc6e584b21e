import Refute.Proofs.Endless
import Refute.Proofs.StepReplay
import Refute.Proofs.Turns

namespace Refute

open Sampler

namespace Sampler

/-- Leads from worlds that `I` holds of to such worlds, also where it ends in a fault. -/
def Stays (I : τ → Prop) (body : Sampler τ α) : Prop :=
  ∀ s, I s.world → I (body.outcome s).2.world

section Stays

variable {I : τ → Prop}

theorem Stays.bind {body : Sampler τ α} {next : α → Sampler τ β} (h : Stays I body)
    (h' : ∀ a, Stays I (next a)) : Stays I (body >>= next) :=
  Act.Preserves.bind h h'

theorem stays_ofExcept (e : Except Fault α) : Stays I (Act.ofExcept e) :=
  Act.preserves_ofExcept e

theorem stays_onSource (act : Act Source α) : Stays I (onSource act) := by
  intro s hs
  rwa [outcome_onSource]

theorem Stays.retry {body : Sampler τ α} (h : Stays I body) (accept : α → Except Fault Bool)
    (fuel : Nat) : Stays I (Sampler.retry body accept fuel) := by
  induction fuel with
  | zero => exact fun _ hs => hs
  | succ fuel ih =>
    have hmark : Stays I (mark (σ := τ)) := fun _ hs => hs
    refine hmark.bind fun start => h.bind fun a => (stays_ofExcept _).bind fun accepted => ?_
    cases accepted with
    | true => exact stays_ofExcept (.ok a)
    | false => exact (stays_onSource _).bind fun _ => (stays_onSource _).bind fun _ => ih

theorem Stays.assuming {body : Sampler τ α} (h : Stays I body) (accept : α → Except Fault Bool) :
    Stays I (body.assuming accept) := fun s =>
  h.retry accept (s.source.patience + 1) s

end Stays

/-- What a filter comes to is what its body came to in the last attempt. -/
theorem retry_last {body : Sampler τ α} (h : retry body accept fuel s = .ok a s') :
    accept a = .ok true ∧ ∃ t, body t = .ok a s' := by
  induction fuel generalizing s with
  | zero => cases h
  | succ fuel ih =>
    rw [retry_succ] at h
    obtain ⟨⟨b, accepted⟩, s₁, ha, h⟩ := Act.bind_eq_ok.mp h
    obtain ⟨hbody, haccept⟩ := attempt_ok ha
    cases accepted with
    | true =>
      cases h
      exact ⟨haccept, s, hbody⟩
    | false =>
      obtain ⟨_, _, -, h⟩ := Act.bind_eq_ok.mp h
      obtain ⟨_, _, -, h⟩ := Act.bind_eq_ok.mp h
      exact ih h

end Sampler

namespace Act

theorem sequence_keeps {acts : List (Act σ α)} {view : σ → β}
    (h : ∀ act ∈ acts, ∀ s a s', act s = .ok a s' → view s' = view s)
    (hs : Act.sequence acts s = .ok as s') : view s' = view s := by
  induction acts generalizing s as with
  | nil =>
    cases hs
    rfl
  | cons act acts ih =>
    obtain ⟨a, s₁, ha, hs⟩ := bind_eq_ok.mp hs
    obtain ⟨rest, s₂, hrest, hs⟩ := bind_eq_ok.mp hs
    cases hs
    exact (ih (fun other ho => h other (List.mem_cons_of_mem _ ho)) hrest).trans
      (h act List.mem_cons_self s a s₁ ha)

end Act

namespace StepBuilder

/-- None for want of the precondition, or a step whose precondition held when it was asked for. -/
theorem sample_ok [Display α] {b : StepBuilder ω α} (h : b.sample v = .ok step? v') :
    (step? = none ∧ ∃ w, Step.holds b.precondition? v.world = .ok false w) ∨
      ∃ step, step? = some step ∧ step.precondition? = b.precondition? ∧
        ∃ w, Step.holds b.precondition? v.world = .ok true w := by
  obtain ⟨allowed, v₁, hasked, h⟩ := Act.bind_eq_ok.mp h
  cases allowed with
  | false =>
    cases h
    exact .inl ⟨rfl, _, (onWorld_ok hasked).1⟩
  | true =>
    obtain ⟨gens, v₂, -, h⟩ := Act.bind_eq_ok.mp h
    obtain ⟨values, v₃, -, h⟩ := Act.bind_eq_ok.mp h
    obtain ⟨argText, v₄, -, h⟩ := Act.bind_eq_ok.mp h
    cases h
    exact .inr ⟨_, rfl, rfl, _, (onWorld_ok hasked).1⟩

/-- To make a step of it leaves the system as it is. -/
structure Quiet (b : StepBuilder ω α) : Prop where
  precondition : (Step.holds b.precondition?).ReadOnly
  args : ∀ arg ∈ b.args, arg.ReadOnly ∧ ∀ w g w', arg w = .ok g w' →
    ∀ s a s', g.sample s = .ok a s' → s'.world = s.world

theorem Observant.quiet {b : StepBuilder ω α} (h : b.Observant) : b.Quiet where
  precondition := h.precondition
  args arg ha := ⟨(h.args arg ha).1, fun w g w' hw s _ _ hr =>
    (((h.args arg ha).2 w g w' hw).observes s.world).world rfl hr⟩

theorem Quiet.sample_world [Display α] {b : StepBuilder ω α} (hb : b.Quiet)
    (h : b.sample v = .ok step? v') : v'.world = v.world := by
  obtain ⟨allowed, v₁, hasked, h⟩ := Act.bind_eq_ok.mp h
  have hv₁ := hb.precondition.eq_of_ok (onWorld_ok hasked).1
  cases allowed with
  | false =>
    cases h
    exact hv₁
  | true =>
    obtain ⟨gens, v₂, hgens, h⟩ := Act.bind_eq_ok.mp h
    obtain ⟨values, v₃, hvalues, h⟩ := Act.bind_eq_ok.mp h
    obtain ⟨argText, v₄, htext, h⟩ := Act.bind_eq_ok.mp h
    cases h
    have hargs : (Act.sequence b.args).ReadOnly := .sequence fun arg ha => (hb.args arg ha).1
    have hv₂ := hargs.eq_of_ok (onWorld_ok hgens).1
    have hsamples : ∀ body ∈ gens.map Gen.sample, ∀ s a s', body s = .ok a s' →
        s'.world = s.world := by
      intro body hbody
      obtain ⟨g, hg, rfl⟩ := List.mem_map.mp hbody
      obtain ⟨arg, ha, w, w', hw⟩ := Act.sequence_mem (onWorld_ok hgens).1 hg
      exact (hb.args arg ha).2 w g w' hw
    have hv₃ := Act.sequence_keeps hsamples hvalues
    obtain ⟨-, rfl⟩ := Act.ofExcept_eq_ok.mp htext
    exact hv₃.trans (hv₂.trans hv₁)

end StepBuilder

/-- Generators that builders make, with their preconditions. -/
inductive Built {ω : Type} : Option (Act ω Bool) → Gen ω (Option (Step ω)) → Prop where
  | build {α : Type} [Display α] (b : StepBuilder ω α) : Built b.precondition? b.build

/-- Generators that quiet builders make. -/
inductive QuietlyBuilt {ω : Type} : Gen ω (Option (Step ω)) → Prop where
  | build {α : Type} [Display α] {b : StepBuilder ω α} : b.Quiet → QuietlyBuilt b.build

/-- A step that was made quietly is allowed in the state it was made in. -/
theorem QuietlyBuilt.holds {g : Gen ω (Option (Step ω))} (hg : QuietlyBuilt g)
    (h : g.sample v = .ok (some step) v') :
    Step.holds step.precondition? v'.world = .ok true v'.world := by
  cases hg with
  | @build α _ b hb =>
    have hworld := hb.sample_world h
    rcases StepBuilder.sample_ok h with ⟨hnone, -⟩ | ⟨made, hmade, hpre, w, hheld⟩
    · cases hnone
    · cases hmade
      have hw := hb.precondition.eq_of_ok hheld
      rw [hpre, hworld, hheld, hw]

namespace Roster

/-- The generators of the steps of the setup, as a machine asks for them. -/
def setupFinds (r : Roster ω) : List (Act (Roster ω) (Gen (Roster ω) (Option (Step ω)))) :=
  r.setup.map fun g => pure (liftGen g)

/-- `r'` is `r` after these steps: beside the history, only the system may have changed. -/
def After (r : Roster ω) (played : List (Option (Step ω))) (r' : Roster ω) : Prop :=
  ∃ system, r' = { r with system, history := r.history ++ played }

section After

theorem After.refl (r : Roster ω) : r.After [] r :=
  ⟨r.system, by rw [List.append_nil]⟩

variable {r : Roster ω} {system : ω} {initSteps teardown : Act (Roster ω) Unit}

theorem stays_liftGen (g : Gen ω α) : Stays (r.After played) (liftGen g).sample := by
  rintro s ⟨system, hs⟩
  rw [outcome_liftGen]
  exact ⟨(g.sample.outcome ⟨s.source, s.world.system⟩).2.world, by rw [hs]⟩

theorem stays_choice {r' : Roster ω} (hg : r'.choice = .ok g) :
    Stays (r.After played) g.sample := by
  obtain ⟨b, chosen, hchosen, hsample⟩ := choice_ok hg
  rw [hsample]
  refine Stays.assuming ((stays_onSource _).bind fun slot => ?_) _
  obtain ⟨c, -, hc⟩ := hchosen slot
  rw [← hc]
  exact stays_liftGen c.2

theorem After.execute {r' : Roster ω} (h : r.After played r') (step : Option (Step ω)) :
    r.After (played ++ [step]) ((execute step).outcome r').2 := by
  obtain ⟨system, rfl⟩ := h
  obtain ⟨system', hs⟩ := perform_system step
    { r with system, history := r.history ++ played ++ [step] }
  have hx : ((Roster.execute step).outcome
      { r with system, history := r.history ++ played }).2 = _ := hs
  rw [hx]
  exact ⟨system', by rw [List.append_assoc]⟩

theorem generateStep_steps (s : Scene (Roster ω)) :
    Machine.generateStep (machine system initSteps teardown).steps s =
      (Act.ofExcept s.world.choice >>= Gen.sample) s := by
  have hfind : onWorld (machine system initSteps teardown).steps s =
      (Act.ofExcept s.world.choice : Sampler (Roster ω) _) s := by
    have hsteps : (machine system initSteps teardown).steps s.world =
        (Act.ofExcept s.world.choice : Act (Roster ω) _) s.world := rfl
    unfold onWorld Act.within
    rw [hsteps]
    cases s.world.choice <;> rfl
  unfold Machine.generateStep
  rw [Act.bind_apply, Act.bind_apply, hfind]

theorem follows_setup (r' : Roster ω) :
    (machine system initSteps teardown).Follows r'.setupFinds r.After where
  generated := by
    intro find hf played s hs
    obtain ⟨g, -, rfl⟩ := List.mem_map.mp hf
    exact stays_liftGen g s hs
  executed step _ _ h := h.execute step

theorem follows_steps :
    (machine system initSteps teardown).Follows
      [(machine system initSteps teardown).steps] r.After where
  generated := by
    intro find hf played s hs
    obtain rfl := List.mem_singleton.mp hf
    rw [Act.outcome_congr (generateStep_steps s)]
    cases hg : s.world.choice with
    | error fault => exact hs
    | ok g => exact stays_choice hg s hs
  executed step _ _ h := h.execute step

end After

/-- `g`, asked from `v` on, came to the step of the turn. -/
def Gave (g : Gen ω (Option (Step ω))) (v : Scene ω)
    (t : Machine.Turn (Roster ω) (Option (Step ω))) : Prop :=
  g.sample v = .ok t.step ⟨t.made.source, t.made.world.system⟩

section Gave

variable {t : Machine.Turn (Roster ω) (Option (Step ω))}
  {m : Machine (Roster ω) (Option (Step ω))}

theorem liftGen_ok {g : Gen ω α} {s s' : Scene (Roster ω)} (h : (liftGen g).sample s = .ok a s') :
    g.sample ⟨s.source, s.world.system⟩ = .ok a ⟨s'.source, s'.world.system⟩ := by
  have ho := outcome_liftGen g s
  rw [Act.outcome_of_ok h] at ho
  obtain ⟨ha, rfl⟩ := Prod.mk.inj ho
  exact Act.of_outcome_ok (Prod.ext ha.symm rfl)

theorem gave_setup {g : Gen ω (Option (Step ω))} (h : t.Taken m (pure (liftGen g))) :
    Gave g ⟨t.before.source, t.before.world.system⟩ t :=
  liftGen_ok h.generated

/-- The choice is made again until there is a step, so there is one. -/
theorem gave_steps {system : ω} {initSteps teardown : Act (Roster ω) Unit}
    (h : t.Taken m (machine system initSteps teardown).steps) :
    t.step.isSome ∧ ∃ c ∈ t.before.world.steps, ∃ v, Gave c.2 v t := by
  have hg := h.generated
  rw [generateStep_steps] at hg
  obtain ⟨g, s, hfound, hsample⟩ := Act.bind_eq_ok.mp hg
  obtain ⟨hchoice, rfl⟩ := Act.ofExcept_eq_ok.mp hfound
  obtain ⟨b, chosen, hchosen, hg'⟩ := choice_ok hchoice
  rw [hg'] at hsample
  obtain ⟨haccepted, u, hlast⟩ := retry_last hsample
  obtain ⟨slot, u', -, hlast⟩ := Act.bind_eq_ok.mp hlast
  obtain ⟨c, hc, hc'⟩ := hchosen slot
  rw [← hc'] at hlast
  exact ⟨Except.ok.inj haccepted, c, hc, _, liftGen_ok hlast⟩

end Gave

section Runs

variable {r : Roster ω} {system : ω} {initSteps teardown : Act (Roster ω) Unit}
  {minSteps maxSteps : Int} {source : Source} {c : Machine.Course (Roster ω) (Option (Step ω))}

theorem runs_after
    (h : (machine system initSteps teardown).Runs minSteps maxSteps r.setupFinds ⟨source, r⟩ c) :
    r.After (c.turns.map Machine.Turn.step) c.last.world ∧
      ∀ t ∈ c.turns, ∃ earlier, r.After earlier t.before.world :=
  h.follow (follows_setup r) follows_steps (After.refl r)

theorem runs_gave_setup
    (h : (machine system initSteps teardown).Runs minSteps maxSteps r.setupFinds ⟨source, r⟩ c)
    (ht : t ∈ c.setup) : ∃ g ∈ r.setup, Gave g ⟨t.before.source, t.before.world.system⟩ t := by
  obtain ⟨find, hfind, htaken⟩ := Machine.Turn.exists_taken h.setup_taken ht
  obtain ⟨g, hg, rfl⟩ := List.mem_map.mp (List.mem_of_mem_take hfind)
  exact ⟨g, hg, gave_setup htaken⟩

theorem runs_gave_steps
    (h : (machine system initSteps teardown).Runs minSteps maxSteps r.setupFinds ⟨source, r⟩ c)
    (ht : t ∈ c.steps) :
    ∃ choice ∈ r.steps, ∃ v step, Gave choice.2 v t ∧ t.step = some step := by
  obtain ⟨hsome, choice, hchoice, v, hgave⟩ := gave_steps (h.steps_taken t ht)
  obtain ⟨step, hstep⟩ := Option.isSome_iff_exists.mp hsome
  obtain ⟨earlier, _, hbefore⟩ := (runs_after h).2 t (List.mem_append_right _ ht)
  rw [hbefore] at hchoice
  exact ⟨choice, hchoice, v, step, hgave, hstep⟩

/-- Once it is initialised, a machine takes its course, and then the teardown acts once; by then
the history has grown by the steps of all turns. -/
theorem exists_runs {s : Scene (Roster ω)} (hinit : initSteps s.world = .ok () r)
    (minSteps maxSteps : Int) :
    ∃ c, (machine system initSteps teardown).Runs minSteps maxSteps r.setupFinds ⟨s.source, r⟩ c ∧
      ((machine system initSteps teardown).run minSteps maxSteps).outcome s = c.ended teardown ∧
      c.last.world.history = r.history ++ c.turns.map Machine.Turn.step := by
  have hinit : (machine system initSteps teardown).init s.world = .ok () r := hinit
  have hsetup : (machine system initSteps teardown).setup r = .ok r.setupFinds r := rfl
  obtain ⟨c, hruns, hrun⟩ := Machine.run_runs hinit hsetup minSteps maxSteps
  obtain ⟨_, hlast⟩ := (runs_after hruns).1
  exact ⟨c, hruns, hrun, by rw [hlast]⟩

end Runs

/-- Every run of a machine that was initialised goes through the steps of its setup in order, draws
a number of steps and takes as many, but stops with a step that does not succeed; the history grows
by the steps executed, in order. The teardown acts once, at the end, whatever that is; a run that
goes on for ever does not come to it. Where the setup gives steps, every turn executes one; where
the steps are made quietly, the precondition of each holds in the state that it is executed in. -/
theorem run_shape (system : ω) (initSteps teardown : Act (Roster ω) Unit) {minSteps maxSteps : Nat}
    (hle : minSteps ≤ maxSteps) (hmax : (maxSteps : Int) ≤ Word.greatest) {s : Scene (Roster ω)}
    {r : Roster ω} (hinit : initSteps s.world = .ok () r) :
    ∃ c : Machine.Course (Roster ω) (Option (Step ω)),
      (machine system initSteps teardown).Runs minSteps maxSteps r.setupFinds ⟨s.source, r⟩ c ∧
      c.Shape (machine system initSteps teardown) minSteps maxSteps r.setupFinds ∧
      ((machine system initSteps teardown).run minSteps maxSteps).outcome s = c.ended teardown ∧
      c.last.world.history = r.history ++ c.turns.map Machine.Turn.step ∧
      ((∀ g ∈ r.setup, ∀ v v', g.sample v ≠ .ok none v') → ∀ t ∈ c.turns, t.step.isSome) ∧
      ((∀ choice ∈ r.steps, QuietlyBuilt choice.2) → ∀ t ∈ c.steps, ∃ step, t.step = some step ∧
        Step.holds step.precondition? t.made.world.system = .ok true t.made.world.system) := by
  obtain ⟨c, hruns, hrun, hhistory⟩ := exists_runs hinit minSteps maxSteps
  refine ⟨c, hruns, hruns.shape hle hmax, hrun, hhistory, ?_, ?_⟩
  · intro hyields t ht
    rcases List.mem_append.mp ht with ht | ht
    · obtain ⟨g, hg, hgave⟩ := runs_gave_setup hruns ht
      cases hstep : t.step with
      | none =>
        rw [Gave, hstep] at hgave
        exact absurd hgave (hyields g hg _ _)
      | some step => rfl
    · obtain ⟨_, _, _, step, -, hstep⟩ := runs_gave_steps hruns ht
      rw [hstep]
      rfl
  · intro hquiet t ht
    obtain ⟨choice, hchoice, v, step, hgave, hstep⟩ := runs_gave_steps hruns ht
    rw [Gave, hstep] at hgave
    exact ⟨step, hstep, (hquiet choice hchoice).holds hgave⟩

end Roster

namespace Stock

/-- A stock that is filled once before it is used. -/
def registerFilled : Act (Roster Int) Unit := do
  Roster.addSetup fill.build
  register

def filled : Machine (Roster Int) (Option (Step Int)) :=
  Roster.machine 0 registerFilled (pure ())

def registeredFilled : Roster Int :=
  ⟨0, [fill.build], [(1, fill.build), (1, take.build)], []⟩

/-- The second step is first to be a filling, though the stock is not low. -/
def filledStart : Scene (Roster Int) :=
  ⟨Source.start (.ofSeed 1) [60, 2, 0, 1, 25, 0, 10] 5, .ofSystem 0⟩

theorem quietlyBuilt_filled : ∀ choice ∈ registeredFilled.steps, QuietlyBuilt choice.2 := by
  intro choice hc
  rcases List.mem_cons.mp hc with rfl | hc
  · exact .build observant_fill.quiet
  · cases List.mem_singleton.mp hc
    exact .build observant_take.quiet

/-- What was refused is taken back and leaves no turn. -/
theorem run_shape_filled :
    ∃ c : Machine.Course (Roster Int) (Option (Step Int)),
      c.Shape filled 1 3 [pure (Roster.liftGen fill.build)] ∧
      c.out = .ok true ∧ c.last.source.rejected = 1 ∧ c.count = some 2 ∧
      c.turns.map (Roster.describe ∘ Machine.Turn.step) = ["fill(60)", "take(25)", "fill(10)"] ∧
      ∀ t ∈ c.steps, ∃ step, t.step = some step ∧
        Step.holds step.precondition? t.made.world.system = .ok true t.made.world.system := by
  obtain ⟨c, -, hshape, hrun, hhistory, -, hquiet⟩ :=
    Roster.run_shape 0 registerFilled (pure ()) (show 1 ≤ 3 by decide) (by decide)
      (s := filledStart) (r := registeredFilled) rfl
  have hended : (filled.run 1 3).outcome filledStart = (c.out, c.last) :=
    hrun.trans c.ended_pure
  have hend : ((filled.run 1 3).outcome filledStart).1 = .ok true ∧
      ((filled.run 1 3).outcome filledStart).2.source.rejected = 1 ∧
      ((filled.run 1 3).outcome filledStart).2.world.history.map Roster.describe =
        ["fill(60)", "take(25)", "fill(10)"] := by
    decide +kernel
  rw [hended] at hend
  obtain ⟨hout, hrejected, hturns⟩ := hend
  have hsteps : c.turns.map (Roster.describe ∘ Machine.Turn.step) =
      ["fill(60)", "take(25)", "fill(10)"] := by
    rw [hhistory, List.map_append, List.map_map] at hturns
    exact hturns
  obtain ⟨hsetup, n, hcount, hn⟩ := hshape.length hout
  have hlength := congrArg List.length hsteps
  rw [List.length_map, Machine.Course.turns, List.length_append, hsetup, hn] at hlength
  obtain rfl : n = 2 := Nat.add_left_cancel hlength
  exact ⟨c, hshape, hout, hrejected, hcount, hsteps, hquiet quietlyBuilt_filled⟩

end Stock

end Refute

import Mathlib.Control.Monad.Basic
import Refute.Proofs.MachineReplay
import Refute.Stateful.Step

namespace Refute

open Sampler

namespace Act

theorem ReadOnly.bind {act : Act σ α} {next : α → Act σ β} (h : act.ReadOnly)
    (h' : ∀ a, (next a).ReadOnly) : (act >>= next).ReadOnly := by
  intro s
  refine bind_ends (P := fun _ s' => s' = s) (fun fault s' hr => ?_) (fun a s' hr => ?_)
  · have hs := h s
    rwa [outcome_of_error hr] at hs
  · rw [h' a s']
    exact h.eq_of_ok hr

theorem ReadOnly.sequence {acts : List (Act σ α)} (h : ∀ act ∈ acts, act.ReadOnly) :
    (Act.sequence acts).ReadOnly := by
  induction acts with
  | nil => exact fun _ => rfl
  | cons act acts ih =>
    refine (h act List.mem_cons_self).bind fun a => ?_
    exact (ih fun other ho => h other (List.mem_cons_of_mem _ ho)).bind fun _ _ => rfl

/-- Every result is that of one of the actions. -/
theorem sequence_mem {acts : List (Act σ α)} (h : Act.sequence acts s = .ok as s') (ha : a ∈ as) :
    ∃ act ∈ acts, ∃ t t', act t = .ok a t' := by
  induction acts generalizing s as with
  | nil =>
    cases h
    cases ha
  | cons act acts ih =>
    obtain ⟨b, s₁, hb, h⟩ := bind_eq_ok.mp h
    obtain ⟨bs, s₂, hbs, h⟩ := bind_eq_ok.mp h
    cases h
    cases ha with
    | head => exact ⟨act, List.mem_cons_self, s, s₁, hb⟩
    | tail _ ha =>
      obtain ⟨other, ho, t, t', ht⟩ := ih hbs ha
      exact ⟨other, List.mem_cons_of_mem _ ho, t, t', ht⟩

end Act

namespace StepBuilder

/-- Before its action, the step does nothing but ask the system. -/
structure Observant (b : StepBuilder ω α) : Prop where
  precondition : (Step.holds b.precondition?).ReadOnly
  args : ∀ arg ∈ b.args, arg.ReadOnly ∧ ∀ w g w', arg w = .ok g w' → g.sample.Observing

theorem Observant.build [Display α] {b : StepBuilder ω α} (h : b.Observant) :
    b.build.sample.Observing := by
  refine .bind (.ask h.precondition) fun allowed _ _ _ => ?_
  cases allowed with
  | false => exact .pure none
  | true =>
    have hargs : (Act.sequence b.args).ReadOnly := .sequence fun arg ha => (h.args arg ha).1
    refine .bind (.ask hargs) fun gens s s' hr => ?_
    have hgens : ∀ body ∈ gens.map Gen.sample, body.Observing := by
      intro body hb
      obtain ⟨g, hg, rfl⟩ := List.mem_map.mp hb
      obtain ⟨arg, ha, w, w', hw⟩ := Act.sequence_mem (onWorld_ok hr).1 hg
      exact (h.args arg ha).2 w g w' hw
    refine .bind (.sequence hgens) fun values _ _ _ => ?_
    exact .bind (.ofExcept _) fun _ _ _ _ => .pure _

end StepBuilder

namespace Roster

/-- All registered steps do nothing but ask the system until they are executed. -/
structure Observant (r : Roster ω) : Prop where
  setup : ∀ g ∈ r.setup, g.sample.Observing
  steps : ∀ c ∈ r.steps, c.2.sample.Observing

theorem observes_liftGen {g : Gen ω α} (h : g.sample.Observing) : (liftGen g).sample.Observes := by
  show (g.sample.within Roster.system fun system r => { r with system }).Observes
  exact h.observes.within fun _ => rfl

theorem outcome_onSystem (act : Act ω α) (r : Roster ω) :
    (onSystem act).outcome r =
      ((act.outcome r.system).1, { r with system := (act.outcome r.system).2 }) :=
  Act.outcome_within ..

theorem outcome_liftGen (g : Gen ω α) (s : Scene (Roster ω)) :
    (liftGen g).sample.outcome s =
      ((g.sample.outcome ⟨s.source, s.world.system⟩).1,
        ⟨(g.sample.outcome ⟨s.source, s.world.system⟩).2.source,
          { s.world with system := (g.sample.outcome ⟨s.source, s.world.system⟩).2.world }⟩) :=
  outcome_lens Roster.system (fun system r => { r with system }) g.sample s

theorem perform_ok {step : Step ω} {r : Roster ω} (h : step.action r.system = .ok () w) :
    perform (some step) r = onSystem step.postconditionHolds { r with system := w } := by
  simp only [perform, onSystem, Act.within, h]

theorem perform_error {step : Step ω} {r : Roster ω}
    (h : step.action r.system = .error fault w) :
    perform (some step) r =
      if fault.isEndless then .error fault { r with system := w }
      else .ok false { r with system := w } := by
  simp only [perform, onSystem, Act.within, h]

/-- Performing a step may change the system, but nothing beside it. -/
theorem perform_system (step : Option (Step ω)) (r : Roster ω) :
    ∃ system, ((perform step).outcome r).2 = { r with system } := by
  cases step with
  | none => exact ⟨r.system, rfl⟩
  | some step =>
    cases ha : step.action r.system with
    | ok _ w =>
      rw [Act.outcome_congr (perform_ok ha), outcome_onSystem]
      exact ⟨_, rfl⟩
    | error fault w =>
      refine ⟨w, ?_⟩
      rw [Act.outcome, perform_error ha]
      cases fault.isEndless <;> rfl

/-- A machine's steps act on the system, not on what is registered. -/
theorem execute_system (step : Option (Step ω)) (r : Roster ω) :
    ∃ system history, ((execute step).outcome r).2 = { r with system, history } := by
  obtain ⟨system, hs⟩ := perform_system step { r with history := r.history ++ [step] }
  exact ⟨system, r.history ++ [step], hs⟩

theorem Observant.execute {r : Roster ω} (h : r.Observant) (step : Option (Step ω)) :
    ((execute step).outcome r).2.Observant := by
  obtain ⟨system, history, hs⟩ := execute_system step r
  have hx : ((Roster.execute step).outcome r).2 = { r with system, history } := hs
  rw [hx]
  exact ⟨h.setup, h.steps⟩

/-- The step is chosen among those registered, again and again while that gives none. -/
theorem choice_ok {r : Roster ω} (hg : r.choice = .ok g) :
    ∃ (b : Bounds) (chosen : Int → Sampler (Roster ω) (Option (Step ω))),
      (∀ slot, ∃ c ∈ r.steps, (liftGen c.2).sample = chosen slot) ∧
      g.sample = (Sampler.draw b >>= chosen).assuming fun step => .ok step.isSome := by
  obtain ⟨picked, hp, hg⟩ := Except.bind_eq_ok.mp hg
  obtain ⟨w, hw, hp⟩ := Except.bind_eq_ok.mp hp
  obtain ⟨b, hb, hp⟩ := Except.bind_eq_ok.mp hp
  cases hp
  cases hg
  refine ⟨b.targetless, fun slot => (w.choose slot).sample, fun slot => ?_, rfl⟩
  obtain ⟨share, hm⟩ := w.choose_mem slot
  obtain ⟨weight, hm⟩ := Weighted.ofList_mem hw hm
  obtain ⟨c, hc, he⟩ := List.mem_map.mp hm
  have hchosen : liftGen c.2 = w.choose slot := congrArg Prod.snd he
  exact ⟨c, hc, congrArg Gen.sample hchosen⟩

theorem Observant.choice {r : Roster ω} (h : r.Observant) (hg : r.choice = .ok g) :
    g.sample.Observes := by
  obtain ⟨b, chosen, hchosen, hsample⟩ := choice_ok hg
  rw [hsample]
  refine Observes.assuming (fun _ => ?_) _
  refine (keeps_draw b).bind fun slot _ _ _ _ => ?_
  obtain ⟨c, hc, hc'⟩ := hchosen slot
  rw [← hc']
  exact (observes_liftGen (h.steps c hc)).keeps

/-- What `initSteps` registers for the system observes. -/
def Registers (system : ω) (initSteps : Act (Roster ω) Unit) : Prop :=
  ∀ r, initSteps (ofSystem system) = .ok () r → r.Observant

theorem Registers.keeps {system : ω} {initSteps : Act (Roster ω) Unit}
    (h : Registers system initSteps) (teardown : Act (Roster ω) Unit) :
    (machine system initSteps teardown).Keeps Observant where
  init := h
  setup := by
    intro r finds r' hr hs
    cases hs
    refine ⟨hr, fun find hf => ?_⟩
    obtain ⟨g, hg, rfl⟩ := List.mem_map.mp hf
    intro s _ _ hs hfound
    cases hfound
    exact ⟨hs, observes_liftGen (hr.setup g hg)⟩
  steps := by
    intro r g r' hr hs
    obtain ⟨hg, rfl⟩ := Act.ofExcept_eq_ok.mp hs
    exact ⟨hr, hr.choice hg⟩
  execute := by
    intro step r ok r' hr he
    have hx := hr.execute step
    have he : Roster.execute step r = .ok ok r' := he
    rwa [Act.outcome_of_ok he] at hx

/-- A run of a machine that did not end for want of attempts is replayed from the values of its
trace, whatever the generator, the attempts and the values behind them: it ends the same way in
the same state, with the same steps executed, from the same draws and with nothing rejected. -/
theorem runAnew_replay {system : ω} {initSteps : Act (Roster ω) Unit}
    (h : Registers system initSteps)
    (hrun : ((machine system initSteps teardown).runAnew minSteps maxSteps).outcome
      ⟨Source.start random forced attempts, world⟩ = (out, scene))
    (hout : Settled out) (suffix : List Int) (random' : Xorshift) (attempts' : Int)
    (world' : Roster ω) :
    ∃ source, ((machine system initSteps teardown).runAnew minSteps maxSteps).outcome
        ⟨Source.start random' (scene.source.trace.values ++ suffix) attempts', world'⟩ =
        (out, ⟨source, scene.world⟩) ∧
      source.trace = scene.source.trace ∧ source.rejected = 0 := by
  refine ⟨_, (h.keeps teardown).runAnew_again rfl hrun hout _ suffix rfl, ?_, rfl⟩
  rw [Source.trace_serve]
  rfl

end Roster

namespace Stock

def fill : StepBuilder Int Int where
  desc := "fill"
  action values := modify (· + values.headD 0)
  args := [pure (Gen.draw .percent)]
  precondition? := some do return (← get) < 50
  postcondition? := none

/-- No more is taken than there is. -/
def take : StepBuilder Int Int where
  desc := "take"
  action values := modify (· - values.headD 0)
  args := [do Act.ofExcept (Gen.range 0 (← get) 0)]
  precondition? := some do return 50 ≤ (← get)
  postcondition? := some do return 0 ≤ (← get)

def register : Act (Roster Int) Unit := do
  Roster.addStep fill.build 1
  Roster.addStep take.build 1

def machine : Machine (Roster Int) (Option (Step Int)) :=
  Roster.machine 0 register (pure ())

theorem observant_fill : fill.Observant where
  precondition _ := rfl
  args := by
    intro arg ha
    cases List.mem_singleton.mp ha
    refine ⟨fun _ => rfl, fun n g n' h => ?_⟩
    cases h
    exact .draw .percent

theorem observant_take : take.Observant where
  precondition _ := rfl
  args := by
    intro arg ha
    cases List.mem_singleton.mp ha
    refine ⟨fun n => ?_, fun n g n' h => ?_⟩
    · show (Act.outcome (Act.ofExcept (Gen.range 0 n 0)) n).2 = n
      cases Gen.range 0 n 0 <;> rfl
    · exact (Gen.plain_range (Act.ofExcept_eq_ok.mp h).1).observing

theorem registers_register (n : Int) : Roster.Registers n register := by
  intro r h
  cases h
  refine ⟨fun g hg => (by cases hg), fun c hc => ?_⟩
  rcases List.mem_cons.mp hc with rfl | hc
  · exact observant_fill.build
  · cases List.mem_singleton.mp hc
    exact observant_take.build

/-- The run rejects each step once, its replay none, though it draws from another generator and has
no attempts. -/
theorem runAnew_replay_stock :
    ∃ scene source,
      (machine.runAnew 2 2).outcome
        ⟨Source.start (.ofSeed 1) [7, 2, 1, 0, 60, 0, 1, 25] 5, .ofSystem 0⟩ =
        (.ok true, scene) ∧
      scene.source.rejected = 2 ∧
      scene.world.history.map Roster.describe = ["fill(60)", "take(25)"] ∧
      (machine.runAnew 2 2).outcome
        ⟨Source.start (.ofSeed 2) ([7, 2, 0, 60, 1, 25] ++ [9]) 0, .ofSystem 10⟩ =
        (.ok true, ⟨source, scene.world⟩) ∧
      source.trace.values = [7, 2, 0, 60, 1, 25] ∧ source.rejected = 0 := by
  have hout : ((machine.runAnew 2 2).outcome
      ⟨Source.start (.ofSeed 1) [7, 2, 1, 0, 60, 0, 1, 25] 5, .ofSystem 0⟩).1 = .ok true := by
    decide +kernel
  have htrace : ((machine.runAnew 2 2).outcome
      ⟨Source.start (.ofSeed 1) [7, 2, 1, 0, 60, 0, 1, 25] 5, .ofSystem 0⟩).2.source.trace.values =
        [7, 2, 0, 60, 1, 25] := by
    decide +kernel
  have hrun := Act.outcome_eq hout
  obtain ⟨source, hagain, ht, hr⟩ := Roster.runAnew_replay (registers_register 0) hrun
    (settled_ok true) [9] (.ofSeed 2) 0 (.ofSystem 10)
  rw [htrace] at hagain
  refine ⟨_, source, hrun, by decide +kernel, by decide +kernel, hagain, ?_, hr⟩
  rw [ht, htrace]

end Stock

namespace Restless

/-- Never allowed. -/
def idle : StepBuilder Unit Int where
  desc := "idle"
  action _ := pure ()
  args := []
  precondition? := some (pure false)
  postcondition? := none

/-- Runs out of attempts, in place of which the fault of its teardown is seen. -/
def stuck : Machine (Roster Unit) (Option (Step Unit)) :=
  Roster.machine () (Roster.addStep idle.build 1) (Act.fail (.raised "ValueError" none))

/-- A machine of one step with two arguments, after the first of which `act` is done. -/
def acting (act : Sampler Unit Unit) : Machine (Roster Unit) (Option (Step Unit)) :=
  let step : StepBuilder Unit Int := {
    desc := "step"
    action := fun _ => pure ()
    args := [pure ((Gen.draw .percent).mutate fun n => do act; return n), pure (Gen.draw .percent)]
    precondition? := none
    postcondition? := none }
  Roster.machine () (Roster.addStep step.build 1) (pure ())

/-- A draw that leaves no trace, though nothing was filtered. -/
def drawInVain : Sampler Unit Unit := do
  let mark ← Sampler.mark
  let _ ← Sampler.draw .percent
  Sampler.rollback mark

/-- Three runs, each beside its replay. The first ends with the fault of a teardown. In the others
an argument handles the source itself: it rejects without a filter, or draws in vain. -/
theorem replay_differs :
    (∃ fault s t, fault.kind = "ValueError" ∧
      (stuck.runAnew 1 1).outcome ⟨Source.start (.ofSeed 1) [7, 1, 0] 1, .ofSystem ()⟩ =
        (.error fault, s) ∧
      (stuck.runAnew 1 1).outcome ⟨Source.start (.ofSeed 2) s.source.trace.values 1, .ofSystem ()⟩ =
        (.error fault, t) ∧
      t.source.rejected = 1) ∧
    (∃ s t, ((acting Sampler.reject).runAnew 1 1).outcome
        ⟨Source.start (.ofSeed 1) [7, 1, 0, 5, 20] 5, .ofSystem ()⟩ = (.ok true, s) ∧
      ((acting Sampler.reject).runAnew 1 1).outcome
        ⟨Source.start (.ofSeed 2) s.source.trace.values 5, .ofSystem ()⟩ = (.ok true, t) ∧
      t.source.rejected = 1) ∧
    ∃ s t, ((acting drawInVain).runAnew 1 1).outcome
        ⟨Source.start (.ofSeed 1) [7, 1, 0, 5, 9, 20] 5, .ofSystem ()⟩ = (.ok true, s) ∧
      ((acting drawInVain).runAnew 1 1).outcome
        ⟨Source.start (.ofSeed 2) s.source.trace.values 5, .ofSystem ()⟩ = (.ok true, t) ∧
      t.world.history.map Roster.describe ≠ s.world.history.map Roster.describe := by
  refine ⟨⟨.during (.exhausted 1) (.raised "ValueError" none), _, _, rfl, Act.outcome_eq ?_,
    Act.outcome_eq ?_, ?_⟩, ⟨_, _, Act.outcome_eq ?_, Act.outcome_eq ?_, ?_⟩,
    ⟨_, _, Act.outcome_eq ?_, Act.outcome_eq ?_, ?_⟩⟩
  all_goals decide +kernel

end Restless

end Refute

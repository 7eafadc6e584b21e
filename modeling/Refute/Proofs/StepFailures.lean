import Mathlib.Control.Monad.Basic
import Refute.Proofs.StepRuns

namespace Refute

namespace Step

/-- The action of the step faults, or its postcondition is then answered with no. -/
def Fails (step : Step ω) (w : ω) : Prop :=
  (∃ fault w', step.action w = .error fault w') ∨
    ∃ w' w'', step.action w = .ok () w' ∧ step.postconditionHolds w' = .ok false w''

end Step

theorem Built.gave {condition? : Option (Act ω Bool)} {g : Gen ω (Option (Step ω))}
    (hg : Built condition? g) (h : g.sample v = .ok step? v') :
    (step? = none ∧ ∃ w, Step.holds condition? v.world = .ok false w) ∨
      ∃ step, step? = some step ∧ ∃ w, Step.holds step.precondition? v.world = .ok true w := by
  cases hg with
  | build b =>
    rcases StepBuilder.sample_ok h with hrefused | ⟨step, hstep, hpre, hheld⟩
    · exact .inl hrefused
    · exact .inr ⟨step, hstep, hpre ▸ hheld⟩

namespace Roster

/-- The step of the turn is one of these generators', and its precondition held where the generator
was asked. -/
def Allowed (gens : List (Gen ω (Option (Step ω))))
    (t : Machine.Turn (Roster ω) (Option (Step ω))) : Prop :=
  ∃ g ∈ gens, ∃ v step, Gave g v t ∧ t.step = some step ∧
    ∃ w, Step.holds step.precondition? v.world = .ok true w

/-- There was no step for the turn, since the precondition did not hold. -/
def Refused (gens : List (Gen ω (Option (Step ω))))
    (t : Machine.Turn (Roster ω) (Option (Step ω))) : Prop :=
  t.step = none ∧ ∃ g ∈ gens, ∃ condition?, Built condition? g ∧
    ∃ w, Step.holds condition? t.before.world.system = .ok false w

theorem fails_of_perform {step : Step ω} {r : Roster ω}
    (h : ((perform (some step)).outcome r).1 = .ok false) : step.Fails r.system := by
  cases ha : step.action r.system with
  | error fault w => exact .inl ⟨fault, w, ha⟩
  | ok _ w =>
    rw [Act.outcome_congr (perform_ok ha), outcome_onSystem] at h
    exact .inr ⟨w, _, ha, Act.of_outcome_ok (Act.outcome_eq h)⟩

/-- That the step is listed first does not matter to what it does. -/
theorem fails_of_execute {step : Step ω} {r : Roster ω}
    (h : ((execute (some step)).outcome r).1 = .ok false) : step.Fails r.system :=
  fails_of_perform (r := { r with history := r.history ++ [some step] }) h

section Failures

variable {r : Roster ω} {system : ω} {initSteps teardown : Act (Roster ω) Unit}
  {minSteps maxSteps : Int} {source : Source} {c : Machine.Course (Roster ω) (Option (Step ω))}
  {t : Machine.Turn (Roster ω) (Option (Step ω))}

theorem result_of_none {find : Act (Roster ω) (Gen (Roster ω) (Option (Step ω)))}
    (h : t.Taken (machine system initSteps teardown) find) (hstep : t.step = none) :
    t.result = .ok false := by
  have hx := h.executed
  rw [hstep] at hx
  exact (Prod.mk.inj hx).1.symm

theorem fails_of_result {find : Act (Roster ω) (Gen (Roster ω) (Option (Step ω)))}
    {step : Step ω} (h : t.Taken (machine system initSteps teardown) find)
    (hstep : t.step = some step) (hresult : t.result = .ok false) :
    step.Fails t.made.world.system := by
  have hx := h.executed
  rw [hstep, hresult, Sampler.outcome_onWorld] at hx
  exact fails_of_execute (Prod.mk.inj hx).1

theorem allowed_or_refused (hbuilt : ∀ g ∈ r.setup, ∃ condition?, Built condition? g)
    (h : (machine system initSteps teardown).Runs minSteps maxSteps r.setupFinds ⟨source, r⟩ c)
    (ht : t ∈ c.setup) : Allowed r.setup t ∨ Refused r.setup t := by
  obtain ⟨g, hg, hgave⟩ := runs_gave_setup h ht
  obtain ⟨condition?, hb⟩ := hbuilt g hg
  rcases hb.gave hgave with ⟨hnone, hrefused⟩ | ⟨step, hstep, hheld⟩
  · exact .inr ⟨hnone, g, hg, condition?, hb, hrefused⟩
  · exact .inl ⟨g, hg, _, step, hgave, hstep, hheld⟩

theorem allowed_steps (hbuilt : ∀ choice ∈ r.steps, ∃ condition?, Built condition? choice.2)
    (h : (machine system initSteps teardown).Runs minSteps maxSteps r.setupFinds ⟨source, r⟩ c)
    (ht : t ∈ c.steps) : Allowed (r.steps.map Prod.snd) t := by
  obtain ⟨choice, hchoice, v, step, hgave, hstep⟩ := runs_gave_steps h ht
  obtain ⟨condition?, hb⟩ := hbuilt choice hchoice
  rcases hb.gave hgave with ⟨hnone, -⟩ | ⟨step', hstep', hheld⟩
  · rw [hstep] at hnone
    cases hnone
  · exact ⟨choice.2, List.mem_map_of_mem hchoice, v, step', hgave, hstep', hheld⟩

end Failures

/-- Where builders made all registered steps, a run that answers false ends with a turn whose step
fails by what it does, or with a step of the setup that there is none of, as its precondition does
not hold. No other turn is without a step, and each step was allowed when it was generated. -/
theorem run_failure (system : ω) (initSteps teardown : Act (Roster ω) Unit) {s : Scene (Roster ω)}
    {r : Roster ω} (hinit : initSteps s.world = .ok () r)
    (hsetup : ∀ g ∈ r.setup, ∃ condition?, Built condition? g)
    (hsteps : ∀ choice ∈ r.steps, ∃ condition?, Built condition? choice.2)
    (minSteps maxSteps : Int) :
    ∃ c : Machine.Course (Roster ω) (Option (Step ω)),
      (machine system initSteps teardown).Runs minSteps maxSteps r.setupFinds ⟨s.source, r⟩ c ∧
      ((machine system initSteps teardown).run minSteps maxSteps).outcome s = c.ended teardown ∧
      c.last.world.history = r.history ++ c.turns.map Machine.Turn.step ∧
      (∀ t ∈ c.steps, Allowed (r.steps.map Prod.snd) t) ∧
      (∀ t ∈ c.setup, Allowed r.setup t ∨
        Refused r.setup t ∧ c.turns.getLast? = some t ∧ c.out = .ok false) ∧
      (c.out = .ok false → ∃ t, c.turns.getLast? = some t ∧
        (Refused r.setup t ∨ ∃ step, t.step = some step ∧ step.Fails t.made.world.system)) := by
  obtain ⟨c, hruns, hrun, hhistory⟩ := exists_runs hinit minSteps maxSteps
  refine ⟨c, hruns, hrun, hhistory, fun t ht => allowed_steps hsteps hruns ht, ?_, ?_⟩
  · intro t ht
    refine (allowed_or_refused hsetup hruns ht).imp_right fun hrefused => ?_
    obtain ⟨find, -, htaken⟩ := Machine.Turn.exists_taken hruns.setup_taken ht
    have hresult := result_of_none htaken hrefused.1
    obtain ⟨hend, hout, -⟩ := hruns.unsuccessful (List.mem_append_left _ ht)
      (by rw [hresult]; nofun)
    exact ⟨hrefused, hend, hout.trans hresult⟩
  · intro hout
    obtain ⟨t, hend, hresult⟩ := hruns.last_failed hout
    refine ⟨t, hend, ?_⟩
    rcases List.mem_append.mp (List.mem_of_getLast? hend) with ht | ht
    · refine (allowed_or_refused hsetup hruns ht).symm.imp_right ?_
      rintro ⟨_, _, _, step, -, hstep, -⟩
      obtain ⟨find, -, htaken⟩ := Machine.Turn.exists_taken hruns.setup_taken ht
      exact ⟨step, hstep, fails_of_result htaken hstep hresult⟩
    · obtain ⟨_, _, _, step, -, hstep⟩ := runs_gave_steps hruns ht
      exact .inr ⟨step, hstep, fails_of_result (hruns.steps_taken t ht) hstep hresult⟩

end Roster

namespace Barred

def enter : StepBuilder Unit Int where
  desc := "enter"
  action _ := pure ()
  args := []
  precondition? := some (pure false)
  postcondition? := none

def wait : StepBuilder Unit Int :=
  { enter with desc := "wait", precondition? := none }

def register : Act (Roster Unit) Unit := do
  Roster.addSetup enter.build
  Roster.addStep wait.build 1

def machine : Machine (Roster Unit) (Option (Step Unit)) :=
  Roster.machine () register (pure ())

def registered : Roster Unit :=
  ⟨(), [enter.build], [(1, wait.build)], []⟩

def start : Scene (Roster Unit) :=
  ⟨Source.start (.ofSeed 1) [] 100, .ofSystem ()⟩

theorem built_setup : ∀ g ∈ registered.setup, ∃ condition?, Built condition? g := by
  intro g hg
  cases List.mem_singleton.mp hg
  exact ⟨_, .build enter⟩

theorem built_steps : ∀ choice ∈ registered.steps, ∃ condition?, Built condition? choice.2 := by
  intro choice hc
  cases List.mem_singleton.mp hc
  exact ⟨_, .build wait⟩

theorem run_unentered :
    ((machine.run 0 0).outcome start).1 = .ok false ∧
      ((machine.run 0 0).outcome start).2.world.history.map Option.isSome = [false] := by
  decide +kernel

theorem run_failure_barred :
    ∃ (c : Machine.Course (Roster Unit) (Option (Step Unit)))
      (t : Machine.Turn (Roster Unit) (Option (Step Unit))),
      (machine.run 0 0).outcome start = (.ok false, c.last) ∧
      c.turns = [t] ∧ Roster.Refused [enter.build] t := by
  obtain ⟨c, hruns, hrun, hhistory, -, hsetup, hfailed⟩ :=
    Roster.run_failure () register (pure ()) (s := start) (r := registered) rfl built_setup
      built_steps 0 0
  have hended : (machine.run 0 0).outcome start = (c.out, c.last) :=
    hrun.trans c.ended_pure
  obtain ⟨hout, hnone⟩ := run_unentered
  rw [hended] at hout hnone
  obtain ⟨t, hlast, hcause⟩ := hfailed hout
  rw [hhistory, List.map_append, List.map_map] at hnone
  have hnone : c.turns.map (Option.isSome ∘ Machine.Turn.step) = [false] := hnone
  obtain ⟨t', hturns, hstep⟩ := List.map_eq_singleton_iff.mp hnone
  rw [hturns] at hlast
  obtain rfl : t' = t := Option.some.inj hlast
  refine ⟨c, t', hended.trans (congrArg (·, c.last) hout), hturns, ?_⟩
  rcases hcause with hrefused | ⟨step, hsome, -⟩
  · exact hrefused
  · rw [Function.comp_apply, hsome] at hstep
    cases hstep

/-- So a run may answer false without any step that was generated, let alone failed. -/
theorem run_failed_without_step :
    register start.world = .ok () registered ∧
      (∀ g ∈ registered.setup, ∃ condition?, Built condition? g) ∧
      (∀ choice ∈ registered.steps, ∃ condition?, Built condition? choice.2) ∧
      ((machine.run 0 0).outcome start).1 = .ok false ∧
      ((machine.run 0 0).outcome start).2.world.history.map Option.isSome = [false] :=
  ⟨rfl, built_setup, built_steps, run_unentered⟩

end Barred

end Refute

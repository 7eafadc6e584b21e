import Refute.Proofs.StepReplay
import Refute.Theory

namespace Refute

namespace Theory

/-- All these adjustments, one after the other. -/
def adjustAll (t : Theory μ) (adjustments : List (Adjustment μ)) : Theory μ :=
  ⟨fun env => do (← t.settings env).adjustAll adjustments⟩

theorem adjustAll_nil (t : Theory μ) : t.adjustAll [] = t := by
  have same (env : Environment) : (do (← t.settings env).adjustAll []) = t.settings env :=
    bind_pure (t.settings env)
  rw [adjustAll, funext same]

theorem adjustAll_cons (t : Theory μ) (a : Adjustment μ) (adjustments : List (Adjustment μ)) :
    t.adjustAll (a :: adjustments) = (t.adjust a).adjustAll adjustments := by
  have same (env : Environment) : (do (← t.settings env).adjustAll (a :: adjustments)) =
      (do (← (t.adjust a).settings env).adjustAll adjustments) := by
    simp only [Settings.adjustAll, List.foldlM_cons, adjust, bind_assoc]
  rw [adjustAll, adjustAll, funext same]

theorem withProfile_adjustAll (profile : Profile μ) (adjustments : List (Adjustment μ)) :
    (withProfile profile).adjustAll adjustments =
      ⟨fun env => do (← profile (← env.settings none)).adjustAll adjustments⟩ := by
  simp only [adjustAll, withProfile, bind_assoc]

namespace Change

/-- What a change applies to the settings of the environment, if it starts over from them. -/
def restart? : Change μ → Option (Profile μ)
  | .adjust _ => none
  | .profile profiles scope name => some (profiles.apply scope name)
  | .defaultProfile profiles scope => some (profiles.applyDefault scope)

/-- Either all changes are adjustments, or those from some profile on are. -/
theorem adjustments_or_restart (changes : List (Change μ)) :
    (∃ adjustments : List (Adjustment μ), changes = adjustments.map .adjust) ∨
    ∃ before c profile, ∃ after : List (Adjustment μ), changes = before ++ c :: after.map .adjust ∧
      c.restart? = some profile := by
  induction changes with
  | nil => exact .inl ⟨[], rfl⟩
  | cons c changes ih =>
    rcases ih with ⟨adjustments, rfl⟩ | ⟨before, d, profile, after, rfl, hd⟩
    · cases c with
      | adjust a => exact .inl ⟨a :: adjustments, rfl⟩
      | profile profiles scope name => exact .inr ⟨[], _, _, adjustments, rfl, rfl⟩
      | defaultProfile profiles scope => exact .inr ⟨[], _, _, adjustments, rfl, rfl⟩
    · exact .inr ⟨c :: before, d, profile, after, rfl, hd⟩

end Change

end Theory

namespace MachineTheory

/-- The same machine, or none as before, under another theory. -/
def withTheory : MachineTheory μ τ κ → Theory μ → MachineTheory μ τ κ
  | unbound _, theory => .unbound theory
  | bound _ machine, theory => .bound theory machine

theorem withTheory_theory (t : MachineTheory μ τ κ) : t.withTheory t.theory = t := by
  cases t <;> rfl

theorem change_adjust (t : MachineTheory μ τ κ) (a : Adjustment μ) :
    t.change (.adjust a) = t.withTheory (t.theory.adjust a) := by
  cases t <;> rfl

theorem changeAll_adjust (t : MachineTheory μ τ κ) (adjustments : List (Adjustment μ)) :
    t.changeAll (adjustments.map .adjust) = t.withTheory (t.theory.adjustAll adjustments) := by
  induction adjustments generalizing t with
  | nil => rw [Theory.adjustAll_nil, withTheory_theory]; rfl
  | cons a adjustments ih =>
    calc t.changeAll ((a :: adjustments).map .adjust)
        = (t.change (.adjust a)).changeAll (adjustments.map .adjust) := rfl
      _ = t.withTheory ((t.theory.adjust a).adjustAll adjustments) := by
        rw [ih, change_adjust]
        cases t <;> rfl
      _ = _ := by rw [Theory.adjustAll_cons]

theorem change_restart {c : Theory.Change μ} (h : c.restart? = some profile)
    (t : MachineTheory μ τ κ) : t.change c = .unbound (.withProfile profile) := by
  cases c with
  | adjust a => cases h
  | profile profiles scope name => cases h; cases t <;> rfl
  | defaultProfile profiles scope => cases h; cases t <;> rfl

theorem changeAll_restart {c : Theory.Change μ} (h : c.restart? = some profile)
    (t : MachineTheory μ τ κ) (before : List (Theory.Change μ))
    (after : List (Adjustment μ)) :
    t.changeAll (before ++ c :: after.map .adjust) =
      .unbound ((Theory.withProfile profile).adjustAll after) := by
  calc t.changeAll (before ++ c :: after.map .adjust)
      = ((t.changeAll before).change c).changeAll (after.map .adjust) := List.foldl_append
    _ = .unbound ((Theory.withProfile profile).adjustAll after) := by
      rw [change_restart h, changeAll_adjust]
      rfl

theorem changeAll_bound_iff (theory : Theory μ) (machine : Machine τ κ)
    (changes : List (Theory.Change μ)) :
    (∃ theory', (bound theory machine).changeAll changes = bound theory' machine) ↔
      ∀ c ∈ changes, c.restart? = none := by
  rcases Theory.Change.adjustments_or_restart changes with
    ⟨adjustments, rfl⟩ | ⟨before, c, profile, after, rfl, hc⟩
  · refine iff_of_true ⟨_, changeAll_adjust ..⟩ fun c hmem => ?_
    obtain ⟨a, -, rfl⟩ := List.mem_map.mp hmem
    rfl
  · refine iff_of_false ?_ fun h => ?_
    · rintro ⟨theory', h⟩
      cases (changeAll_restart hc _ before after).symm.trans h
    · have none := h c (List.mem_append_right _ List.mem_cons_self)
      cases hc.symm.trans none

/-- The theory keeps its machine as long as no profile is among the changes. It is then checked
under all the adjustments, in order. Otherwise there is nothing to check, and its settings are
those of the environment under the last profile and the adjustments after it. -/
theorem check_changed (theory : Theory μ) (machine : Machine τ κ)
    (changes : List (Theory.Change μ)) :
    ((∃ theory', (bound theory machine).changeAll changes = bound theory' machine) ↔
      ∀ c ∈ changes, c.restart? = none) ∧
    ((∃ adjustments : List (Adjustment μ), changes = adjustments.map .adjust ∧ ∀ env clock,
        ((bound theory machine).changeAll changes).check env clock =
          match theory.settings env >>= (Settings.adjustAll · adjustments) with
          | .error fault => .prevented fault
          | .ok settings => ⟨machine.check settings clock, settings.reporter,
              fun s => .ok (machine.historyText s)⟩) ∨
    ∃ before c profile, ∃ after : List (Adjustment μ), changes = before ++ c :: after.map .adjust ∧
      c.restart? = some profile ∧
      (bound theory machine).changeAll changes =
        unbound ⟨fun env => do (← profile (← env.settings none)).adjustAll after⟩ ∧
      ∀ env clock, ((bound theory machine).changeAll changes).check env clock =
        .prevented .noMachine) := by
  refine ⟨changeAll_bound_iff theory machine changes, ?_⟩
  rcases Theory.Change.adjustments_or_restart changes with
    ⟨adjustments, rfl⟩ | ⟨before, c, profile, after, rfl, hc⟩
  · refine .inl ⟨adjustments, rfl, fun env clock => ?_⟩
    rw [changeAll_adjust]
    rfl
  · have lost := changeAll_restart hc (bound theory machine) before after
    rw [Theory.withProfile_adjustAll] at lost
    refine .inr ⟨before, c, profile, after, rfl, hc, lost, fun env clock => ?_⟩
    rw [lost]
    rfl

end MachineTheory

namespace Profileless

def step : StepBuilder Unit Int where
  desc := "go"
  action _ := pure ()
  args := []
  precondition? := none
  postcondition? := none

def machine : Machine (Roster Unit) (Option (Step Unit)) :=
  Roster.machine () (Roster.addStep step.build 1) (pure ())

def profiled : MachineTheory Unit (Roster Unit) (Option (Step Unit)) :=
  (MachineTheory.bound .ofEnvironment machine).changeAll
    [.defaultProfile .empty (.text "suite")]

/-- The settings stay as they are, and yet there is no machine to check under them. -/
theorem default_profile_unbinds :
    (∀ env, profiled.theory.settings env = Theory.ofEnvironment.settings env) ∧
    (∀ theory, profiled ≠ .bound theory machine) ∧
    ∀ env clock, profiled.check env clock = .prevented .noMachine := by
  refine ⟨fun env => ?_, fun theory => nofun, fun env clock => rfl⟩
  exact bind_pure (env.settings none)

end Profileless

end Refute

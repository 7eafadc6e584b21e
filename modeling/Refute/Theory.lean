import Refute.Check
import Refute.Gen.Choice
import Refute.Settings.Profiles
import Refute.Settings.Environment
import Refute.Stateful.Machine

namespace Refute

/-- Where a theory gets its settings when it is checked. -/
structure Theory (μ : Type) where
  settings : Environment → Except Fault (Settings μ)

namespace Theory

def ofEnvironment : Theory μ :=
  ⟨fun env => env.settings none⟩

def ofSettings (settings : Except Fault (Settings μ)) : Theory μ :=
  ⟨fun _ => settings⟩

/-- One change in how a theory is checked. A profile starts over from the settings of the
environment. -/
inductive Change (μ : Type) where
  | adjust (a : Adjustment μ)
  | profile (profiles : Profiles μ) (scope : Scope) (name : String)
  | defaultProfile (profiles : Profiles μ) (scope : Scope)

def adjust (t : Theory μ) (a : Adjustment μ) : Theory μ :=
  ⟨fun env => do (← t.settings env).adjust a⟩

def withProfile (profile : Profile μ) : Theory μ :=
  ⟨fun env => do profile (← env.settings none)⟩

def change (t : Theory μ) : Change μ → Theory μ
  | .adjust a => t.adjust a
  | .profile profiles scope name => withProfile (profiles.apply scope name)
  | .defaultProfile profiles scope => withProfile (profiles.applyDefault scope)

end Theory

/-- A theory that may have been given a machine. -/
inductive MachineTheory (μ τ κ : Type) where
  | unbound (theory : Theory μ)
  | bound (theory : Theory μ) (machine : Machine τ κ)

namespace MachineTheory

def theory : MachineTheory μ τ κ → Theory μ
  | unbound theory => theory
  | bound theory _ => theory

/-- Profiles begin a new theory, which has no machine. -/
def change : MachineTheory μ τ κ → Theory.Change μ → MachineTheory μ τ κ
  | bound theory machine, .adjust a => .bound (theory.adjust a) machine
  | t, c => .unbound (t.theory.change c)

def changeAll (t : MachineTheory μ τ κ) (changes : List (Theory.Change μ)) :
    MachineTheory μ τ κ :=
  changes.foldl change t

end MachineTheory

/-- Runs of a machine may reject more than other examples. -/
def Machine.attempts : Nat := 100

/-- The settings under which a machine is checked. -/
def Settings.forMachine (s : Settings μ) : Settings μ :=
  { s with attempts := Machine.attempts }

def Machine.check (m : Machine τ κ) (settings : Settings μ) (clock : Clock) :
    Checked τ μ τ :=
  (m.property settings.minSteps settings.maxSteps).check settings.forMachine clock m.fresh

/-- A check and who is to be told of it. -/
structure Told (σ μ β : Type) where
  checked : Checked σ μ β
  reporter : Reporter
  describe : β → Except Fault Value

namespace Told

/-- Faults before the check reach the caller, whoever the reporter is. -/
def prevented (fault : Fault) : Told σ μ β :=
  ⟨.prevented fault, .raising, fun _ => .error fault⟩

def delivery (t : Told σ μ β) : Delivery β :=
  t.checked.deliver t.reporter t.describe

end Told

/-- Only a theory with a machine can be checked. -/
def MachineTheory.check (env : Environment) (clock : Clock) :
    MachineTheory μ τ κ → Told τ μ τ
  | .unbound _ => .prevented .noMachine
  | .bound theory machine =>
    match theory.settings env with
    | .error fault => .prevented fault
    | .ok settings =>
      ⟨machine.check settings clock, settings.reporter,
        fun s => .ok (machine.historyText s)⟩

/-- Generators bound to a theory, with assumptions on their values. -/
structure ForAll (μ σ α : Type) where
  theory : Theory μ
  gens : List (Gen σ α)
  assumptions : List (List α → Except Fault Bool)
  gens_ne_nil : gens ≠ []

/-- There must be a generator, whatever the settings will be. -/
def Theory.forAll (t : Theory μ) : List (Gen σ α) → Except Fault (ForAll μ σ α)
  | [] => .error .noArguments
  | g :: gens => .ok ⟨t, g :: gens, [], List.cons_ne_nil g gens⟩

namespace ForAll

def assuming (f : ForAll μ σ α) (assumption : List α → Except Fault Bool) : ForAll μ σ α :=
  { f with assumptions := f.assumptions ++ [assumption] }

/-- Asks no further after the first that does not hold. -/
def allHold : List (List α → Except Fault Bool) → List α → Except Fault Bool
  | [], _ => .ok true
  | assumption :: assumptions, values =>
    match assumption values with
    | .ok true => allHold assumptions values
    | other => other

def gen [Display α] (f : ForAll μ σ α) : Gen σ (List α) :=
  let tuples := Gen.tuplesOf f.gens
  if f.assumptions.isEmpty then tuples else tuples.assuming (allHold f.assumptions)

def property [Display α] (f : ForAll μ σ α) (holds : List α → Except Fault Bool) :
    Property σ (List α) (List α) :=
  .ofPredicate f.gen holds

/-- The settings are put together only here. Assumptions do not change how the values are
written. -/
def check [Display α] (f : ForAll μ σ α) (holds : List α → Except Fault Bool) (env : Environment)
    (clock : Clock) (world : σ) : Told σ μ (List α) :=
  match f.theory.settings env with
  | .error fault => .prevented fault
  | .ok settings =>
    ⟨(f.property holds).check settings clock world, settings.reporter,
      fun values => Value.text <$> Gen.describeAll f.gens values⟩

/-- A property that is left by faults only. -/
def asserted (consume : List α → Except Fault β) : List α → Except Fault Bool := fun values =>
  (consume values).map fun _ => true

end ForAll

end Refute

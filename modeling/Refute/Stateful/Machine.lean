import Refute.Gen.Choice
import Refute.Property
import Refute.Report.Basic

namespace Refute

/-- `τ` is the whole state of a machine and `κ` its steps. `steps`, and each of `setup`, gives a
generator as the state then asks for it; `execute` tells whether the system behaved. -/
structure Machine (τ κ : Type) where
  fresh : τ
  init : Act τ Unit
  setup : Act τ (List (Act τ (Gen τ κ)))
  steps : Act τ (Gen τ κ)
  execute : κ → Act τ Bool
  teardown : Act τ Unit
  history : τ → List κ
  describe : κ → String

namespace Machine

variable (m : Machine τ κ)

def historyText (state : τ) : String :=
  Refute.historyText ((m.history state).map m.describe)

/-- Generates a step and executes it. -/
def performStep (find : Act τ (Gen τ κ)) : Sampler τ Bool := do
  let g ← Sampler.onWorld find
  let step ← g.sample
  Sampler.onWorld (m.execute step)

/-- One step after another, up to the first that fails. -/
def perform : List (Act τ (Gen τ κ)) → Sampler τ Bool
  | [] => pure true
  | find :: finds => do
    if ← m.performStep find then perform finds else return false

def performSteps : Nat → Sampler τ Bool
  | 0 => pure true
  | n + 1 => do
    if ← m.performStep m.steps then performSteps n else return false

/-- A number of steps, shrinking towards the minimum. -/
def stepCount (minSteps maxSteps : Int) : Sampler τ Int := do
  let g ← Act.ofExcept (Gen.range minSteps maxSteps minSteps)
  g.sample

def body (minSteps maxSteps : Int) : Sampler τ Bool := do
  if ← m.perform (← Sampler.onWorld m.setup) then
    let count ← stepCount minSteps maxSteps
    m.performSteps count.toNat
  else return false

/-- False as soon as a step fails. Teardown follows however the steps end, but not a failed
initialisation. -/
def run (minSteps maxSteps : Int) : Sampler τ Bool := do
  Sampler.onWorld m.init
  Act.andFinally (m.body minSteps maxSteps) (Sampler.onWorld m.teardown)

/-- A draw without a target tells apart the traces of runs that are otherwise alike. -/
def begin : Sampler τ Unit := do
  let _ ← Sampler.draw Bounds.any.targetless
  modify fun s => { s with world := m.fresh }

/-- A machine made anew and run. -/
def runAnew (minSteps maxSteps : Int) : Sampler τ Bool := do
  m.begin
  m.run minSteps maxSteps

/-- An example of a machine is shown as the state it was left in. -/
def property (minSteps maxSteps : Int) : Property τ Unit τ where
  gen := .of m.begin
  test _ := m.run minSteps maxSteps
  outcome _ state := state

end Machine

end Refute

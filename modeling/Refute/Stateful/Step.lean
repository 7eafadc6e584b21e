import Refute.Stateful.Machine

namespace Refute

/-- A system of type `ω` is acted on and asked; its conditions may be absent. -/
structure Step (ω : Type) where
  desc : String
  argText : String
  action : Act ω Unit
  precondition? : Option (Act ω Bool)
  postcondition? : Option (Act ω Bool)

namespace Step

def render (s : Step ω) : String :=
  s.desc ++ "(" ++ s.argText ++ ")"

def holds : Option (Act ω Bool) → Act ω Bool
  | none => pure true
  | some condition => condition

def postconditionHolds (s : Step ω) : Act ω Bool :=
  holds s.postcondition?

end Step

/-- `args` are asked for their generators when a step is made. -/
structure StepBuilder (ω α : Type) where
  desc : String
  action : List α → Act ω Unit
  args : List (Act ω (Gen ω α))
  precondition? : Option (Act ω Bool)
  postcondition? : Option (Act ω Bool)

namespace StepBuilder

/-- Nothing is drawn and no argument asked for where the precondition fails. -/
def sample [Display α] (b : StepBuilder ω α) : Sampler ω (Option (Step ω)) := do
  if !(← Sampler.onWorld (Step.holds b.precondition?)) then return none
  let gens ← Sampler.onWorld (Act.sequence b.args)
  let values ← Act.sequence (gens.map Gen.sample)
  let argText ← Act.ofExcept (Gen.describeAll gens values)
  return some {
    desc := b.desc
    argText
    action := b.action values
    precondition? := b.precondition?
    postcondition? := b.postcondition? }

def build [Display α] (b : StepBuilder ω α) : Gen ω (Option (Step ω)) :=
  .of b.sample

end StepBuilder

/-- A system with the steps registered for it and those executed, in order. -/
structure Roster (ω : Type) where
  system : ω
  setup : List (Gen ω (Option (Step ω)))
  steps : List (Int × Gen ω (Option (Step ω)))
  history : List (Option (Step ω))

namespace Roster

def ofSystem (system : ω) : Roster ω :=
  ⟨system, [], [], []⟩

def onSystem (act : Act ω α) : Act (Roster ω) α :=
  Act.within system (fun system r => { r with system }) act

def liftGen (g : Gen ω α) : Gen (Roster ω) α :=
  g.within system fun system r => { r with system }

def addSetup (g : Gen ω (Option (Step ω))) : Act (Roster ω) Unit :=
  modify fun r => { r with setup := r.setup ++ [g] }

def addStep (g : Gen ω (Option (Step ω))) (weight : Int) : Act (Roster ω) Unit :=
  modify fun r => { r with steps := r.steps ++ [(weight, g)] }

/-- Whatever the action raises fails the step, and its postcondition is not asked; faults of the
postcondition go through. A missing step fails. -/
def perform : Option (Step ω) → Act (Roster ω) Bool
  | none => pure false
  | some step => fun r =>
    match onSystem step.action r with
    | .ok _ r => onSystem step.postconditionHolds r
    | .error fault r => if fault.isEndless then .error fault r else .ok false r

def execute (step : Option (Step ω)) : Act (Roster ω) Bool := do
  modify fun r => { r with history := r.history ++ [step] }
  perform step

/-- The registered steps by weight, drawn again while there is no step. -/
def choice (r : Roster ω) : Except Fault (Gen (Roster ω) (Option (Step ω))) := do
  let g ← Gen.frequencyTargetless (r.steps.map fun (weight, g) => (weight, liftGen g))
  return g.assuming fun step => .ok step.isSome

def describe : Option (Step ω) → String
  | none => "None"
  | some step => step.render

/-- `initSteps` is to register steps; it and the teardown may act on the system. -/
def machine (system : ω) (initSteps teardown : Act (Roster ω) Unit) :
    Machine (Roster ω) (Option (Step ω)) where
  fresh := ofSystem system
  init := initSteps
  setup := do return (← get).setup.map fun g => pure (liftGen g)
  steps := do Act.ofExcept (← get).choice
  execute
  teardown
  history
  describe

end Roster

end Refute

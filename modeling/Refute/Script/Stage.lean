import Refute.Script.Machine

namespace Refute.Script

/-- A machine whose system is a scripted world. `absent` is at hand before any step; `builders`
make single steps anew; `execute` tells what came of a step; `act` and `check` run its action and
ask its postcondition. -/
structure Staged (τ κ : Type) where
  machine : Machine τ κ
  absent : κ
  world : τ → World
  builders : List (Act τ (Gen τ κ))
  execute : κ → Act τ Value
  act : κ → Act τ Unit
  check : κ → Act τ Bool

namespace Staged

def ofSteps (s : StepsScript) : Staged (Roster World) (Option (Step World)) where
  machine := s.machine
  absent := none
  world := Roster.system
  builders := s.steps.map fun step => Roster.liftGen <$> step.gen
  execute step := Value.bool <$> Roster.execute step
  act
    | none => Act.fail .noStep
    | some step => Roster.onSystem step.action
  check
    | none => Act.fail .noStep
    | some step => Roster.onSystem step.postconditionHolds

/-- Plain values have neither actions nor postconditions. -/
def ofValues (s : ValuesScript) : Staged Played Value where
  machine := s.machine
  absent := .none
  world := Played.world
  builders := []
  execute := s.execute
  act _ := Act.fail .noStep
  check _ := Act.fail .noStep

end Staged

structure Stage (τ κ : Type) where
  scene : Scene τ
  step : κ

inductive StageCall where
  | init
  | teardown
  | setupCount
  | history
  | draw
  | setup (place : Int)
  | step (place : Int)
  | act
  | check
  | execute
deriving DecidableEq

/-- A call as it is written: its name, and the place of a generator where it asks for one. -/
def StageCall.ofWritten? : List Value → Option StageCall
  | [.text "init"] => some init
  | [.text "teardown"] => some teardown
  | [.text "setups"] => some setupCount
  | [.text "formatted"] => some history
  | [.text "draw"] => some draw
  | [.text "setup", .int place] => some (setup place)
  | [.text "step", .int place] => some (step place)
  | [.text "run"] => some act
  | [.text "post"] => some check
  | [.text "execute"] => some execute
  | _ => none

inductive StageAnswer (κ : Type) where
  | done
  | count (n : Nat)
  | text (s : String)
  | step (k : κ)
  | value (v : Value)

namespace Stage

def start (m : Staged τ κ) (source : Source) : Stage τ κ :=
  ⟨⟨source, m.machine.fresh⟩, m.absent⟩

variable (m : Staged τ κ)

def onState (act : Act τ α) : Act (Stage τ κ) α :=
  Act.within scene (fun scene s => { s with scene }) (Sampler.onWorld act)

/-- Draws a step, which becomes the one at hand. -/
def produce (find : Act τ (Gen τ κ)) : Act (Stage τ κ) (StageAnswer κ) := do
  let g ← onState find
  let k ← Act.within scene (fun scene s => { s with scene }) g.sample
  modify fun s => { s with step := k }
  return .step k

def onStep (act : κ → Act τ α) : Act (Stage τ κ) α := do
  onState (act (← get).step)

def pick (items : List α) (place : Int) : Act τ α :=
  match itemAt? items place with
  | some item => pure item
  | none => Act.fail (.outOfRange "list")

def call : StageCall → Act (Stage τ κ) (StageAnswer κ)
  | .init => do onState m.machine.init; return .done
  | .teardown => do onState m.machine.teardown; return .done
  | .setupCount => do return .count (← onState m.machine.setup).length
  | .history => do return .text (m.machine.historyText (← get).scene.world)
  | .draw => produce m.machine.steps
  | .setup place => produce do (← pick (← m.machine.setup) place)
  | .step place => produce do (← pick m.builders place)
  | .act => do onStep m.act; return .done
  | .check => do return .value (.bool (← onStep m.check))
  | .execute => do return .value (← onStep m.execute)

end Stage

end Refute.Script

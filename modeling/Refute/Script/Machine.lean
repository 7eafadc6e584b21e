import Refute.Model.Parallel
import Refute.Script.Generator
import Refute.Stateful.Step

namespace Refute.Script

abbrev Assignments := List (String × Term)

namespace World

/-- Each assignment sees those before it; arguments hide variables of the same name. -/
def assign (values : List Value) : Assignments → Act World Unit
  | [] => pure ()
  | (name, t) :: rest => do
    let v ← Act.ofExcept (t.call (← get).vars values)
    modify fun w => { w with vars := w.vars.set name v }
    assign values rest

def answer (values : List Value) (t : Term) : Act World Value := do
  Act.ofExcept (t.call (← get).vars values)

def holds (t : Term) : Act World Bool :=
  Value.isTrue <$> answer [] t

def init (assignments : Assignments) : Act World Unit := do
  modify fun w => { w with inits := w.inits + 1 }
  assign [] assignments

def teardown (assignments : Assignments) : Act World Unit := do
  modify fun w => { w with teardowns := w.teardowns + 1 }
  assign [] assignments

end World

inductive StepArgument where
  | gen (g : Generator)
  | supplier (g : Generator)

namespace StepArgument

/-- A generator given at once is made at once, a supplied one each time it is asked for. -/
def build : StepArgument → Act World (Act World ValueGen)
  | gen g => Built.now <$> g.make
  | supplier g => pure g.gen

end StepArgument

structure StepScript where
  desc : String
  args : List StepArgument
  precondition? : Option Term
  action : Assignments
  postcondition? : Option Term
  weight : Int

namespace StepScript

def builder (s : StepScript) : Act World (StepBuilder World Value) := do
  return {
    desc := s.desc
    action := fun values => World.assign values s.action
    args := ← Act.sequence (s.args.map StepArgument.build)
    precondition? := s.precondition?.map (World.holds)
    postcondition? := s.postcondition?.map (World.holds) }

def gen (s : StepScript) : Act (Roster World) (Gen World (Option (Step World))) := do
  return (← Roster.onSystem s.builder).build

def registerSetup : List StepScript → Act (Roster World) Unit
  | [] => pure ()
  | s :: rest => do
    Roster.addSetup (← s.gen)
    registerSetup rest

def registerSteps : List StepScript → Act (Roster World) Unit
  | [] => pure ()
  | s :: rest => do
    Roster.addStep (← s.gen) s.weight
    registerSteps rest

end StepScript

structure StepsScript where
  vars : Env
  init : Assignments
  teardown : Assignments
  setup : List StepScript
  steps : List StepScript

namespace StepsScript

def initSteps (s : StepsScript) : Act (Roster World) Unit := do
  Roster.onSystem (World.init s.init)
  StepScript.registerSetup s.setup
  StepScript.registerSteps s.steps

def machine (s : StepsScript) : Machine (Roster World) (Option (Step World)) :=
  Roster.machine (.ofVars s.vars) s.initSteps (Roster.onSystem (World.teardown s.teardown))

end StepsScript

/-- A system whose steps are plain values, kept or not. -/
structure Played where
  world : World
  history : List Value

structure ValuesScript where
  recorded : Bool
  vars : Env
  init : Assignments
  teardown : Assignments
  setup : List Generator
  steps : Generator
  update : Assignments
  ok : Term

namespace ValuesScript

def onWorld (act : Act World α) : Act Played α :=
  Act.within Played.world (fun world p => { p with world }) act

def liftGen (g : ValueGen) : Gen Played Value :=
  g.within Played.world fun world p => { p with world }

def build (g : Generator) : Act Played (Act Played (Gen Played Value)) := do
  let built ← onWorld g.make
  return liftGen <$> onWorld built.now

/-- Whatever the last term gives; what counts as true tells that the system behaved. -/
def execute (s : ValuesScript) (v : Value) : Act Played Value := do
  if s.recorded then modify fun p => { p with history := p.history ++ [v] }
  onWorld (World.assign [v] s.update)
  onWorld (World.answer [v] s.ok)

/-- The setup is built as a whole before any of it runs. -/
def machine (s : ValuesScript) : Machine Played Value where
  fresh := ⟨.ofVars s.vars, []⟩
  init := onWorld (World.init s.init)
  setup := Act.sequence (s.setup.map build)
  steps := do (← build s.steps)
  execute v := Value.isTrue <$> s.execute v
  teardown := onWorld (World.teardown s.teardown)
  history := Played.history
  describe := display

end ValuesScript

/-- A command on a cell; workers may do something else than the command says. -/
structure CommandScript where
  name : String
  run : Term
  next : Term
  worker? : Option Term
  failure? : Option Fault
  blocks : Bool

namespace CommandScript

def ofState (t : Term) (state : Value) : Except Fault Value :=
  t.get [("s", state)]

def runCell (s : CommandScript) : Act Value Unit := do
  set (← Act.ofExcept (ofState s.run (← get)))

def work (s : CommandScript) (cell : Value) : WorkerResult × Value :=
  if s.blocks then (.blocked, cell)
  else
    match s.failure? with
    | some fault => (.raised fault, cell)
    | none =>
      match ofState (s.worker?.getD s.run) cell with
      | .ok v => (.done, v)
      | .error fault => (.raised fault, cell)

def command (s : CommandScript) : WorkerCommand Value Value where
  name := s.name
  run := s.runCell
  next := ofState s.next
  work := s.work

/-- A system that is a cell, built from and observed through terms. -/
def cell (build observe : Term) : Modelled Value Value where
  build := ofState build
  observe := ofState observe

end CommandScript

end Refute.Script

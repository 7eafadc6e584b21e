import Refute.Gen.Choice
import Refute.Script.Term

namespace Refute.Script

/-- The variables of a system under test, the next values of the counters made so far, and how
often the system was set up and torn down. -/
structure World where
  vars : Env
  counters : List Int
  inits : Nat
  teardowns : Nat

namespace World

def ofVars (vars : Env) : World :=
  ⟨vars, [], 0, 0⟩

def newCounter (n : Int) : Act World Nat := fun w =>
  .ok w.counters.length { w with counters := w.counters ++ [n] }

def count (counter : Nat) : Act World Int := fun w =>
  let n := w.counters.getD counter 0
  .ok n { w with counters := w.counters.set counter (n + 1) }

end World

inductive BoundsTerm where
  | make (lo hi : Term) (target? : Option Term)
  | between (lo hi : Term)
  | any
  | bit

namespace BoundsTerm

def get (env : Env) : BoundsTerm → Except Fault Bounds
  | make lo hi target? => do
    let lo ← lo.getInt env
    let hi ← hi.getInt env
    match target? with
    | none => Bounds.make lo hi (some 0)
    | some target =>
      match ← target.get env with
      | .none => Bounds.make lo hi none
      | v => do Bounds.make lo hi (some (← Effects.none.number v))
  | between lo hi => do
    let lo ← lo.getInt env
    let hi ← hi.getInt env
    Bounds.between lo hi
  | any => .ok .any
  | bit => .ok .bit

end BoundsTerm

/-- `targetless` choices do not shrink towards their first value. -/
inductive Generator where
  | const (e : Term)
  | counter (first : Term)
  | range (lo hi : Term) (target? : Option Term)
  | rangeTargetless (lo hi : Term)
  | pick (targetless : Bool) (values : List Term)
  | bool
  | oneOf (gens : List Generator)
  | frequency (targetless : Bool) (weights : List Term) (gens : List Generator)
  | lists (items sizes : Generator)
  | tuples (gens : List Generator)
  | map (g : Generator) (f : Term)
  | map2 (g : Generator) (f : Term)
  | map3 (g : Generator) (f : Term)
  | mutate (g : Generator) (f : Term)
  | flatMap (g : Generator) (name : String) (body : Generator)
  | zip (g h : Generator) (f : Term)
  | zip3 (g h i : Generator) (f : Term)
  | assuming (g : Generator) (accept : Term)
  | mix (g h : Generator) (weight? : Option Term)
  | optional (g : Generator) (percentEmpty : Term)
  | described (g : Generator) (f : Term)
  | draw (b : BoundsTerm)
deriving Inhabited

abbrev ValueGen := Gen World Value

namespace ValueGen

/-- Lists of values as a value. `absent` is what is written for none; anything else that holds no
items cannot be written. -/
def ofLists (wrap : List Value → Value) (absent : Except Fault Value)
    (g : Gen World (List Value)) : ValueGen where
  sample := wrap <$> g.sample
  describe? := g.describe?.map fun describe v =>
    match v, v.items? with
    | .none, _ => absent
    | _, some items => describe items
    | _, none => .error .illTyped

def ofInts (g : Gen World Int) : ValueGen :=
  .of (Value.int <$> g.sample)

def ofOption (g : Gen World (Option Value)) : ValueGen :=
  .of ((fun v => v.getD .none) <$> g.sample)

end ValueGen

/-- What terms see of the variables there are. -/
abbrev Visible := Env → Env

/-- A generator once built, as it is with given variables. -/
abbrev Built := Env → ValueGen

/-- As it is now. -/
def Built.now (b : Built) : Act World ValueGen := do
  return b (← get).vars

namespace Generator

def pickOf (targetless : Bool) (values : List Value) : Except Fault ValueGen :=
  if targetless then Gen.pickTargetless values else Gen.pick values

def evaluate (visible : Visible) (f : Env → Except Fault α) : Act World α := do
  Act.ofExcept (f (visible (← get).vars))

def integer (visible : Visible) (t : Term) : Act World Int :=
  evaluate visible t.getInt

mutual

def build (visible : Visible) : Generator → Act World Built
  | const e => do
    let v ← evaluate visible e.get
    return fun _ => Gen.constant v
  | counter first => do
    let place ← World.newCounter (← integer visible first)
    return fun _ => .of (Value.int <$> Sampler.onWorld (World.count place))
  | range lo hi target? => do
    let lo ← integer visible lo
    let hi ← integer visible hi
    let target ← match target? with
      | some t => integer visible t
      | none => pure 0
    let g ← Act.ofExcept (Gen.range lo hi target)
    return fun _ => .ofInts g
  | rangeTargetless lo hi => do
    let lo ← integer visible lo
    let hi ← integer visible hi
    let g ← Act.ofExcept (Gen.rangeTargetless lo hi)
    return fun _ => .ofInts g
  | pick targetless values => do
    let values ← evaluate visible fun env => Term.getAll env values
    let g ← Act.ofExcept (pickOf targetless values)
    return fun _ => g
  | bool => return fun _ => .of (Value.bool <$> Gen.bool.sample)
  | oneOf gens => do
    match ← buildAll visible gens with
    | [] => Act.fail .illTyped
    | first :: others =>
      let b ← Act.ofExcept (Gen.positions (others.length + 1))
      return fun vars => Gen.among (first vars) (others.map (· vars)) b
  | frequency targetless weights gens => do
    let w ← Act.ofExcept (Weighted.ofList (← buildWeighted visible weights gens))
    let b ← Act.ofExcept w.bounds
    let b := if targetless then b.targetless else b
    return fun vars => Gen.ofWeighted (w.map (· vars)) b
  | lists items sizes => do
    let items ← build visible items
    let sizes ← build visible sizes
    return fun vars => .ofLists .list (.ok Value.none.render)
      (Gen.listsOf (items vars) ((sizes vars).map Effects.none.number))
  | tuples gens => do
    let gens ← buildAll visible gens
    return fun vars => .ofLists .tuple (.error .illTyped) (Gen.tuplesOf (gens.map (· vars)))
  | map g f => do
    let g ← build visible g
    return fun vars => (g vars).map fun a => f.call (visible vars) [a]
  | map2 g f => do
    let g ← build visible g
    return fun vars => (g vars).map2 fun a b => f.call (visible vars) [a, b]
  | map3 g f => do
    let g ← build visible g
    return fun vars => (g vars).map3 fun a b c => f.call (visible vars) [a, b, c]
  | mutate g f => do
    let g ← build visible g
    return fun vars => (g vars).mutate fun v =>
      f.eval .ofSampler ((visible vars).withArguments [v])
  | flatMap g name body => do
    let g ← build visible g
    return fun vars => (g vars).mutate fun v => do
      let inner ← Sampler.onWorld (build (fun vars => (name, v) :: visible vars) body)
      (inner vars).sample
  | zip g h f => do
    let g ← build visible g
    let h ← build visible h
    return fun vars => (g vars).zip (h vars) fun a b => f.call (visible vars) [a, b]
  | zip3 g h i f => do
    let g ← build visible g
    let h ← build visible h
    let i ← build visible i
    return fun vars => (g vars).zip3 (h vars) (i vars) fun a b c =>
      f.call (visible vars) [a, b, c]
  | assuming g accept => do
    let g ← build visible g
    return fun vars => (g vars).assuming fun v => accept.holds (visible vars) [v]
  | mix g h weight? => do
    let g ← build visible g
    let h ← build visible h
    let weight ← match weight? with
      | some weight => evaluate visible weight.get
      | none => pure .none
    match weight with
    | .none => return fun vars => (g vars).mix (h vars)
    | weight =>
      let weight ← Act.ofExcept (Effects.none.number weight)
      return fun vars => (g vars).mixWeighted (h vars) weight
  | optional g percentEmpty => do
    let g ← build visible g
    let percentEmpty ← integer visible percentEmpty
    return fun vars => .ofOption ((g vars).optional percentEmpty)
  | described g f => do
    let g ← build visible g
    return fun vars => (g vars).describedAs fun v => f.call (visible vars) [v]
  | draw b => do
    let b ← evaluate visible b.get
    return fun _ => .ofInts (Gen.draw b)

def buildAll (visible : Visible) : List Generator → Act World (List Built)
  | [] => pure []
  | g :: gs => do
    let g ← build visible g
    let gs ← buildAll visible gs
    return g :: gs

/-- Each weight is evaluated before its generator is built. -/
def buildWeighted (visible : Visible) : List Term → List Generator → Act World (List (Int × Built))
  | weight :: weights, g :: gs => do
    let weight ← integer visible weight
    let g ← build visible g
    let rest ← buildWeighted visible weights gs
    return (weight, g) :: rest
  | _, _ => pure []

end

/-- Built by itself, with what it sees settled: all variables, or none where there is none yet. -/
def make (g : Generator) : Act World Built := do
  g.build (if (← get).vars.isEmpty then fun _ => [] else id)

/-- Made and used at once. -/
def gen (g : Generator) : Act World ValueGen := do
  (← g.make).now

def genAll (gens : List Generator) : Act World (List ValueGen) :=
  Act.sequence (gens.map gen)

end Generator

end Refute.Script

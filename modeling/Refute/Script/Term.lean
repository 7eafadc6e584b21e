import Refute.Gen.Basic
import Refute.Script.Env

namespace Refute.Script

inductive Operator where
  | add | sub | mul | div | mod | neg | abs | min | max
  | eq | ne | lt | le | gt | ge
  | not | list | tuple | len | at | sum | sorted | rev | cat | str
deriving DecidableEq

inductive Quantifier where
  | all | any | each | filter
deriving DecidableEq

inductive Term where
  | value (v : Value)
  | var (name : String)
  | ite (condition yes no : Term)
  | and (terms : List Term)
  | or (terms : List Term)
  | apply (op : Operator) (args : List Term)
  | quantify (q : Quantifier) (collection : Term) (name : String) (body : Term)
  | raise (kind argument : Term)
  | draw (lo hi : Term) (target? : Option Term)
  | reject
deriving Inhabited

namespace Operator

def typed : Option α → Except Fault α
  | some a => .ok a
  | none => .error .illTyped

def numbers (x y : Value) : Except Fault (Int × Int) :=
  typed do return (← x.number?, ← y.number?)

def compared (x y : Value) (test : Ordering → Bool) : Except Fault Value := do
  return .bool (test (← typed (x.order? y)))

/-- Only words are places. -/
def itemAt (v place : Value) : Except Fault Value := do
  let items ← typed v.items?
  let place ← typed place.number?
  if place < Word.least ∨ Word.greatest < place then .error .noPlace
  else
    match itemAt? items place with
    | some item => .ok item
    | none => .error (.outOfRange v.container)

def sumOf (items : List Value) : Except Fault Value := do
  return .int ((← typed (items.mapM Value.number?)).foldl (· + ·) 0)

def applyOne (op : Operator) (x : Value) : Except Fault Value :=
  match op with
  | not => .ok (.bool !x.isTrue)
  | str => .ok (.text x.render)
  | neg => do return .int (-(← typed x.number?))
  | abs => do return .int (← typed x.number?).natAbs
  | len => do return .int (← typed x.items?).length
  | rev => do return .list (← typed x.items?).reverse
  | sorted => do return .list ((← typed x.items?).mergeSort Value.le)
  | sum => do sumOf (← typed x.items?)
  | _ => .error .illTyped

/-- Of two values neither of which is greater, the first is the least and the greatest. -/
def applyTwo (op : Operator) (x y : Value) : Except Fault Value :=
  match op with
  | eq => .ok (.bool (x = y))
  | ne => .ok (.bool (x ≠ y))
  | add => typed (x.plus? y)
  | cat => typed (x.plus? y)
  | mul => typed (x.times? y)
  | sub => do
    let (m, n) ← numbers x y
    return .int (m - n)
  | div => do
    let (m, n) ← numbers x y
    if n = 0 then .error .divisionByZero else .ok (.int (m.fdiv n))
  | mod => do
    let (m, n) ← numbers x y
    if n = 0 then .error .divisionByZero else .ok (.int (m.fmod n))
  | lt => compared x y (· = .lt)
  | le => compared x y (· ≠ .gt)
  | gt => compared x y (· = .gt)
  | ge => compared x y (· ≠ .lt)
  | min => do return if (← typed (x.order? y)) = .gt then y else x
  | max => do return if (← typed (x.order? y)) = .lt then y else x
  | .at => itemAt x y
  | _ => .error .illTyped

def apply (op : Operator) (args : List Value) : Except Fault Value :=
  match op, args with
  | list, items => .ok (.list items)
  | tuple, items => .ok (.tuple items)
  | op, [x] => op.applyOne x
  | op, [x, y] => op.applyTwo x y
  | _, _ => .error .illTyped

end Operator

/-- What comes of raising a kind of fault with something to say, or with nothing. Giving up is told
the number of attempts, and has a text of its own. -/
def raised (kind argument : Value) : Fault :=
  match kind, argument with
  | .text "AttemptsExhaustedError", attempts => .exhausted (attempts.number?.getD 0).toNat
  | .text kind, .none => .raised kind none
  | .text kind, argument => .raised kind (some argument)
  | _, _ => .illTyped

/-- What terms may do besides giving values. -/
structure Effects (m : Type → Type) where
  raise {α : Type} : Fault → m α
  draw : Int → Int → Option Int → m Int
  reject : m Unit

namespace Effects

def ofExcept [Monad m] (fx : Effects m) : Except Fault α → m α
  | .ok a => pure a
  | .error fault => fx.raise fault

def number [Monad m] (fx : Effects m) (v : Value) : m Int :=
  match v.number? with
  | some n => pure n
  | none => fx.raise .illTyped

/-- Terms that only give values or faults. -/
def none : Effects (Except Fault) where
  raise fault := .error fault
  draw _ _ _ := .error .illTyped
  reject := .error .illTyped

/-- Terms within a sampler. -/
def ofSampler : Effects (Sampler σ) where
  raise fault := Act.fail fault
  draw lo hi target := do Sampler.draw (← Act.ofExcept (Bounds.make lo hi target))
  reject := Sampler.reject

end Effects

namespace Quantifier

def mapValues [Monad m] (f : Value → m Value) : List Value → m (List Value)
  | [] => pure []
  | v :: vs => do
    let w ← f v
    let ws ← mapValues f vs
    return w :: ws

def anyTrue [Monad m] (f : Value → m Value) : List Value → m Bool
  | [] => pure false
  | v :: vs => do
    if (← f v).isTrue then return true
    anyTrue f vs

def allTrue [Monad m] (f : Value → m Value) : List Value → m Bool
  | [] => pure true
  | v :: vs => do
    if !(← f v).isTrue then return false
    allTrue f vs

def kept [Monad m] (f : Value → m Value) : List Value → m (List Value)
  | [] => pure []
  | v :: vs => do
    let w ← f v
    let ws ← kept f vs
    return if w.isTrue then v :: ws else ws

def apply [Monad m] (q : Quantifier) (f : Value → m Value) (items : List Value) : m Value :=
  match q with
  | all => Value.bool <$> allTrue f items
  | any => Value.bool <$> anyTrue f items
  | each => Value.list <$> mapValues f items
  | filter => Value.list <$> kept f items

end Quantifier

namespace Term

variable {m : Type → Type} [Monad m] (fx : Effects m)

mutual

def eval (env : Env) : Term → m Value
  | value v => pure v
  | var name =>
    match env.lookup name with
    | some v => pure v
    | none => fx.raise (.raised "KeyError" (some name))
  | ite condition yes no => do
    if (← eval env condition).isTrue then eval env yes else eval env no
  | and terms => Value.bool <$> evalAll env terms
  | or terms => Value.bool <$> evalAny env terms
  | apply op args => do fx.ofExcept (op.apply (← evalList env args))
  | quantify q collection name body => do
    match (← eval env collection).items? with
    | some items => q.apply (fun item => eval ((name, item) :: env) body) items
    | none => fx.raise .illTyped
  | raise kind argument => do
    let kind ← eval env kind
    let argument ← eval env argument
    fx.raise (raised kind argument)
  | draw lo hi target? => do
    let lo ← fx.number (← eval env lo)
    let hi ← fx.number (← eval env hi)
    match target? with
    | none => Value.int <$> fx.draw lo hi (some 0)
    | some target =>
      match ← eval env target with
      | .none => Value.int <$> fx.draw lo hi none
      | v => do Value.int <$> fx.draw lo hi (some (← fx.number v))
  | reject => (fun _ => Value.none) <$> fx.reject

def evalList (env : Env) : List Term → m (List Value)
  | [] => pure []
  | t :: ts => do
    let v ← eval env t
    let vs ← evalList env ts
    return v :: vs

/-- Stops at the first that is false. -/
def evalAll (env : Env) : List Term → m Bool
  | [] => pure true
  | t :: ts => do
    if (← eval env t).isTrue then evalAll env ts else return false

/-- Stops at the first that is true. -/
def evalAny (env : Env) : List Term → m Bool
  | [] => pure false
  | t :: ts => do
    if (← eval env t).isTrue then return true else evalAny env ts

end

end Term

namespace Term

/-- The value of a term that does not draw. -/
def get (env : Env) (t : Term) : Except Fault Value :=
  t.eval .none env

def getInt (env : Env) (t : Term) : Except Fault Int := do
  Effects.none.number (← t.get env)

def getAll (env : Env) (ts : List Term) : Except Fault (List Value) :=
  Term.evalList .none env ts

/-- A term as a function of arguments. -/
def call (env : Env) (t : Term) (values : List Value) : Except Fault Value :=
  t.get (env.withArguments values)

def holds (env : Env) (t : Term) (values : List Value) : Except Fault Bool :=
  (t.call env values).map Value.isTrue

end Term

end Refute.Script

import Refute.Settings.Basic
import Refute.Text.Numeral

namespace Refute

/-- The variables that are set, and the time of day in nanoseconds. -/
structure Environment where
  vars : List (String × String)
  time : Int

/-- Run sizes as read, not yet checked. -/
structure RunSizes where
  seed : Int
  examples : Int
  shrinkCycles : Int
  attempts : Int
deriving DecidableEq

namespace Environment

def seedVariable : String := "QT_SEED"

def examplesVariable : String := "QT_EXAMPLES"

def shrinksVariable : String := "QT_SHRINKS"

def attemptsVariable : String := "QT_ATTEMPTS"

def defaultExamples : Int := 1000

def shrinksPerExample : Int := 100

def defaultAttempts : Int := 10

def defaultMinSteps : Int := 1

def defaultMaxSteps : Int := 50

/-- Where nothing but a seed is set. -/
def ofSeed (seed : Int) : Environment :=
  ⟨[(seedVariable, toString seed)], 0⟩

/-- The text of a variable that is set and not blank. -/
def raw? (env : Environment) (name : String) : Option String :=
  match env.vars.lookup name with
  | none => none
  | some raw => if raw.toList.all Text.isBlank then none else some raw

def readInt (env : Environment) (name : String) : Except Fault (Option Int) :=
  match env.raw? name with
  | none => .ok none
  | some raw =>
    match Text.readInt? raw with
    | some n => .ok (some n)
    | none => .error (.misconfigured (.notAnInteger name raw))

/-- Without a seed the time of day serves as one. -/
def runSizes (env : Environment) : Except Fault RunSizes := do
  let seed ← env.readInt seedVariable
  let examples ← env.readInt examplesVariable
  let examples := examples.getD defaultExamples
  let shrinkCycles ← env.readInt shrinksVariable
  let attempts ← env.readInt attemptsVariable
  return {
    seed := seed.getD env.time
    examples
    shrinkCycles := shrinkCycles.getD (examples * shrinksPerExample)
    attempts := attempts.getD defaultAttempts }

/-- The settings of checks that are given none; they raise what they find. -/
def settings (env : Environment) (guide? : Option (Guide μ)) : Except Fault (Settings μ) := do
  let sizes ← env.runSizes
  Settings.make (.ofSeed sizes.seed) sizes.examples sizes.shrinkCycles sizes.attempts 0
    defaultMinSteps defaultMaxSteps .raising guide?

end Environment

end Refute

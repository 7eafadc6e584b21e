import Refute.Duration
import Refute.Guide
import Refute.Report.Reporter

namespace Refute

/-- `examples` is -1 for no limit; a time limit of zero or less is none. -/
structure Settings (μ : Type) where
  random : Xorshift
  examples : Int
  shrinkCycles : Nat
  attempts : Nat
  timeMillis : Int
  minSteps : Nat
  maxSteps : Nat
  reporter : Reporter
  guide? : Option (Guide μ)
  examples_valid : examples = -1 ∨ 0 < examples

/-- One change of settings. -/
inductive Adjustment (μ : Type) where
  | seed (n : Int)
  | examples (n : Int)
  | unlimitedExamples
  | shrinkCycles (n : Int)
  | attempts (n : Int)
  | testingTime (limit : Seconds)
  | unlimitedTime
  | minSteps (n : Int)
  | maxSteps (n : Int)
  | guide (guide : Guide μ)
  | reporter (reporter : Reporter)

namespace Settings

def misconfigured (reason : Misconfiguration) : Except Fault α :=
  .error (.misconfigured reason)

def natural (n : Int) (reason : Int → Misconfiguration) : Except Fault Nat :=
  if 0 ≤ n then .ok n.toNat else misconfigured (reason n)

/-- Of several bad settings the first in this order is told. -/
def make (random : Xorshift) (examples shrinkCycles attempts timeMillis minSteps maxSteps : Int)
    (reporter : Reporter) (guide? : Option (Guide μ)) : Except Fault (Settings μ) :=
  if valid : examples = -1 ∨ 0 < examples then do
    return {
      random, examples, timeMillis, reporter, guide?
      shrinkCycles := ← natural shrinkCycles .shrinkCycles
      attempts := ← natural attempts .attempts
      minSteps := ← natural minSteps .minSteps
      maxSteps := ← natural maxSteps .maxSteps
      examples_valid := valid }
  else misconfigured (.examples examples)

def adjust (s : Settings μ) : Adjustment μ → Except Fault (Settings μ)
  | .seed n => .ok { s with random := .ofSeed n }
  | .examples n =>
    if valid : n = -1 ∨ 0 < n then .ok { s with examples := n, examples_valid := valid }
    else misconfigured (.examples n)
  | .unlimitedExamples => .ok { s with examples := -1, examples_valid := .inl rfl }
  | .shrinkCycles n => do return { s with shrinkCycles := ← natural n .shrinkCycles }
  | .attempts n => do return { s with attempts := ← natural n .attempts }
  | .testingTime limit => do return { s with timeMillis := ← limit.millis }
  | .unlimitedTime => .ok { s with timeMillis := 0 }
  | .minSteps n => do return { s with minSteps := ← natural n .minSteps }
  | .maxSteps n => do return { s with maxSteps := ← natural n .maxSteps }
  | .guide guide => .ok { s with guide? := some guide }
  | .reporter reporter => .ok { s with reporter }

def adjustAll (s : Settings μ) (changes : List (Adjustment μ)) : Except Fault (Settings μ) :=
  changes.foldlM adjust s

def validate (s : Settings μ) : Except Fault Unit :=
  if s.examples = -1 ∧ s.timeMillis ≤ 0 then misconfigured .unlimited
  else if s.maxSteps < s.minSteps then misconfigured (.stepsReversed s.maxSteps s.minSteps)
  else .ok ()

/-- More rounds than any search can finish stand for no limit. -/
def rounds (s : Settings μ) : Nat :=
  if s.examples < 0 then 1 <<< 64 else s.examples.toNat

end Settings

end Refute

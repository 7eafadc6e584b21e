import Refute.Search.Clock
import Refute.Settings.Basic
import Refute.Shrink.Descent
import Refute.Trace.Fingerprint
import Std.Data.TreeSet.Basic

namespace Refute

structure Search (σ μ β : Type) where
  lab : Lab σ β
  /-- The memory of the guide, if there is a guide. -/
  memory? : Option μ
  /-- The fingerprints of the examples so far. -/
  visited : Std.TreeSet UInt32
  suggested : List (List Int)
  boundaries : List (List Int)
  used : Nat

/-- `falsifying` has the smallest value first and the one found first last. -/
structure Findings (β : Type) where
  exhausted : Bool
  executed : Nat
  falsifying : List β
  cause : Option Fault
deriving DecidableEq

namespace Findings

def isFalsified (f : Findings β) : Bool :=
  !f.falsifying.isEmpty

def smallest (f : Findings β) : Except Fault β :=
  match f.falsifying with
  | [] => .error .notFalsified
  | b :: _ => .ok b

def others (f : Findings β) : List β :=
  f.falsifying.tail

end Findings

/-- The traces that a reference example suggests: every draw at its target, at its minimum, at its
maximum. -/
def Trace.boundaries (t : Trace) : List (List Int) :=
  [t.rests, t.minima, t.maxima]

namespace Search

def start (random : Xorshift) (world : σ) : Search σ μ β :=
  ⟨⟨random, world, []⟩, none, ∅, [], [], 0⟩

def inLab (act : Act (Lab σ β) α) : Act (Search σ μ β) α :=
  Act.within lab (fun lab s => { s with lab }) act

variable (settings : Settings μ) (p : Property σ α β)

def startGuide : Act (Search σ μ β) Unit := fun s =>
  match settings.guide? with
  | none => .ok () s
  | some guide =>
    match guide.start s.lab.random with
    | .ok memory random => .ok () { s with lab := { s.lab with random }, memory? := some memory }
    | .error fault random => .error fault { s with lab := { s.lab with random } }

/-- Tells the guide, if there is one; without one `silence` is the answer. -/
def notify (notice : Notice) (tell : Guide μ → Act (Guided μ) γ) (silence : γ) :
    Act (Search σ μ β) γ := fun s =>
  let s := { s with lab := s.lab.note (.notified notice) }
  match settings.guide?, s.memory? with
  | some guide, some memory =>
    match tell guide ⟨s.lab.random, memory⟩ with
    | .ok c told =>
      .ok c { s with lab := { s.lab with random := told.random }, memory? := some told.memory }
    | .error fault told =>
      .error fault
        { s with lab := { s.lab with random := told.random }, memory? := some told.memory }
  | _, _ => .ok silence s

def generate (forced : List Int) : Act (Search σ μ β) (Example α) :=
  inLab (p.generate settings.attempts forced)

/-- An unforced example serves as reference for the boundaries. -/
def findBoundaries : Act (Search σ μ β) Unit := do
  let e ← generate settings p []
  modify fun s => { s with boundaries := e.trace.boundaries }

/-- Suggestions come before boundaries, and boundaries before nothing at all. -/
def nextForced : Act (Search σ μ β) (List Int) := fun s =>
  match s.suggested, s.boundaries with
  | forced :: suggested, _ => .ok forced { s with suggested }
  | [], forced :: boundaries => .ok forced { s with boundaries }
  | [], [] => .ok [] s

/-- Tells whether the fingerprint is new, and remembers it. -/
def isNew (e : Example α) : Act (Search σ μ β) Bool := do
  let print ← Act.ofExcept e.trace.fingerprint
  if (← get).visited.contains print then return false
  modify fun s => { s with visited := s.visited.insert print }
  return true

/-- One round: the cause and the example that falsified, if one did. -/
def round (k : Nat) : Act (Search σ μ β) (Option (Option Fault × Example α)) := do
  let e ← generate settings p (← nextForced)
  if !(← isNew e) then return none
  modify fun s => { s with used := s.used + 1 }
  notify settings (.newExample e.trace) (fun g => g.newExample e.trace) ()
  let (verdict, e) ← inLab (p.examine e)
  notify settings .executed Guide.executed ()
  match verdict with
  | .fails cause => return some (cause, e)
  | .holds =>
    let traces ← notify settings (.suggest k e.trace) (fun g => g.suggest k e.trace) []
    modify fun s =>
      { s with lab := s.lab.note (.suggested traces), suggested := s.suggested ++ traces }
    notify settings .complete Guide.complete ()
    return none

/-- The clock is asked before every round but the first. -/
def rounds (clock : Clock) :
    Nat → Nat → Act (Search σ μ β) (Option (Option Fault × Example α))
  | 0, _ => pure none
  | left + 1, k => do
    if 0 < k && clock.isOver settings.timeMillis k then return none
    match ← round settings p k with
    | some found => return some found
    | none => rounds clock left (k + 1)

/-- Traces suggested by a guide are tried first, then the boundaries seen from a reference example,
then random ones. -/
def find (clock : Clock) : Act (Search σ μ β) (Option (Option Fault × Example α)) := do
  startGuide settings
  findBoundaries settings p
  rounds settings p clock settings.rounds 0

/-- Shrinks what was found; the first value stays known behind the smaller ones. -/
def shrinkFound (propose : Trace → Proposals) (cause : Option Fault) (e : Example α) :
    Act (Search σ μ β) (Findings β) := fun s =>
  let first := p.outcome e.value s.lab.world
  let (ending, d) := p.shrink settings.attempts propose settings.shrinkCycles s.lab e
  let s := { s with lab := d.lab }
  match ending.fault? with
  | some fault => .error fault s
  | none =>
    let cause := if d.found.isEmpty then cause else d.cause
    .ok ⟨false, s.used, d.found ++ [first], cause⟩ s

def findAndShrink (clock : Clock) (propose : Trace → Proposals) :
    Act (Search σ μ β) (Findings β) := do
  match ← find settings p clock with
  | some (cause, e) => shrinkFound settings p propose cause e
  | none => return ⟨false, (← get).used, [], none⟩

/-- Running out of attempts is a finding too. -/
def run (clock : Clock) (propose : Trace → Proposals) : Act (Search σ μ β) (Findings β) := fun s =>
  match findAndShrink settings p clock propose s with
  | .error fault s => if fault.isExhausted then .ok ⟨true, s.used, [], none⟩ s else .error fault s
  | found => found

end Search

end Refute

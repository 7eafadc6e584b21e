import Refute.Gen.Basic

namespace Refute

/-- A generated value with the source it came from, whose trace may grow while the property runs.
`rejected` is the count at the time of generation. -/
structure Example (α : Type) where
  value : α
  source : Source
  rejected : Nat

/-- `cause` is what the property raised, if it did not just answer false. -/
inductive Verdict where
  | holds
  | fails (cause : Option Fault)
deriving DecidableEq

/-- `outcome` is the value shown for an example: what it is, and what it did to the world. -/
structure Property (σ α β : Type) where
  gen : Gen σ α
  test : α → Sampler σ Bool
  outcome : α → σ → β

/-- What guides are told. -/
inductive Notice where
  | newExample (trace : Trace)
  | executed
  | suggest (round : Nat) (trace : Trace)
  | complete
deriving DecidableEq

inductive Event (β : Type) where
  | generated (forced : List Int) (trace : Trace) (rejected : Nat) (value : β)
  | notGenerated (forced : List Int) (fault : Fault)
  | tested (value : β) (verdict : Verdict)
  /-- The property came to no verdict. -/
  | untested (value : β) (fault : Fault)
  | notified (notice : Notice)
  /-- What the guide answered. -/
  | suggested (traces : List (List Int))

/-- What examples are tried in: the generator that all draws share, the world of the code under
test, and a journal of what was tried. -/
structure Lab (σ β : Type) where
  random : Xorshift
  world : σ
  /-- Newest first. -/
  journal : List (Event β)

namespace Example

def trace (e : Example α) : Trace :=
  e.source.trace

end Example

namespace Gen

/-- One value from a source of its own, drawing on the given generator. -/
def generate (g : Gen σ α) (attempts : Int) (forced : List Int) :
    Act (Xorshift × σ) (Example α) := fun s =>
  match g.sample ⟨Source.start s.1 forced attempts, s.2⟩ with
  | .ok value scene =>
    .ok ⟨value, scene.source, scene.source.rejected⟩ (scene.source.random, scene.world)
  | .error fault scene => .error fault (scene.source.random, scene.world)

end Gen

namespace Lab

def note (event : Event β) (lab : Lab σ β) : Lab σ β :=
  { lab with journal := event :: lab.journal }

end Lab

namespace Property

/-- A property of values alone, which leaves the world as it is. -/
def ofPredicate (gen : Gen σ α) (holds : α → Except Fault Bool) : Property σ α α where
  gen
  test a := Act.ofExcept (holds a)
  outcome a _ := a

def generate (p : Property σ α β) (attempts : Int) (forced : List Int) :
    Act (Lab σ β) (Example α) := fun lab =>
  match p.gen.generate attempts forced (lab.random, lab.world) with
  | .ok e (random, world) =>
    .ok e ({ lab with random, world }.note
      (.generated forced e.trace e.rejected (p.outcome e.value world)))
  | .error fault (random, world) =>
    .error fault ({ lab with random, world }.note (.notGenerated forced fault))

/-- Runs the property on the example's own source. Running out of attempts is no verdict, and there
is none where the property never returns. -/
def examine (p : Property σ α β) (e : Example α) : Act (Lab σ β) (Verdict × Example α) :=
  fun lab =>
    let verdict (v : Verdict) (scene : Scene σ) :=
      .ok (v, { e with source := scene.source })
        ({ lab with random := scene.source.random, world := scene.world }.note
          (.tested (p.outcome e.value scene.world) v))
    match p.test e.value ⟨{ e.source with random := lab.random }, lab.world⟩ with
    | .ok true scene => verdict .holds scene
    | .ok false scene => verdict (.fails none) scene
    | .error fault scene =>
      if fault.isExhausted || fault.isEndless then
        .error fault
          ({ lab with random := scene.source.random, world := scene.world }.note
            (.untested (p.outcome e.value scene.world) fault))
      else verdict (.fails (some fault)) scene

end Property

end Refute

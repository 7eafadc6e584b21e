import Refute.Gen.Sampler

namespace Refute

/-- A sampler that may say how its values are written. Only descriptions, filters and weighted
choices keep the writing of what they are made from. -/
structure Gen (σ α : Type) where
  sample : Sampler σ α
  describe? : Option (α → Except Fault Value)

namespace Gen

def of (sample : Sampler σ α) : Gen σ α :=
  ⟨sample, none⟩

/-- Normally a text, but describers may give anything. -/
def describe [Display α] (g : Gen σ α) (a : α) : Except Fault Value :=
  match g.describe? with
  | some describe => describe a
  | none => .ok (display a)

/-- Values beside their generators, as one text. Values without a generator of their own are not
written. -/
def describeAll [Display α] (gens : List (Gen σ α)) (as : List α) : Except Fault String := do
  Value.listed (← (gens.zip as).mapM fun (g, a) => g.describe a)

def describedAs (g : Gen σ α) (describe : α → Except Fault Value) : Gen σ α :=
  ⟨g.sample, some describe⟩

/-- Never draws. -/
def constant (a : α) : Gen σ α :=
  of (pure a)

def draw (b : Bounds) : Gen σ Int :=
  of (Sampler.draw b)

def map (g : Gen σ α) (f : α → Except Fault β) : Gen σ β :=
  of do Act.ofExcept (f (← g.sample))

def map2 (g : Gen σ α) (f : α → α → Except Fault β) : Gen σ β :=
  of do
    let a ← g.sample
    let b ← g.sample
    Act.ofExcept (f a b)

def map3 (g : Gen σ α) (f : α → α → α → Except Fault β) : Gen σ β :=
  of do
    let a ← g.sample
    let b ← g.sample
    let c ← g.sample
    Act.ofExcept (f a b c)

/-- The function may draw further. -/
def mutate (g : Gen σ α) (f : α → Sampler σ β) : Gen σ β :=
  of (g.sample >>= f)

def flatMap (g : Gen σ α) (f : α → Gen σ β) : Gen σ β :=
  g.mutate fun a => (f a).sample

def zip (g : Gen σ α) (h : Gen σ β) (f : α → β → Except Fault γ) : Gen σ γ :=
  of do
    let a ← g.sample
    let b ← h.sample
    Act.ofExcept (f a b)

def zip3 (g : Gen σ α) (h : Gen σ β) (i : Gen σ γ) (f : α → β → γ → Except Fault δ) : Gen σ δ :=
  of do
    let a ← g.sample
    let b ← h.sample
    let c ← i.sample
    Act.ofExcept (f a b c)

def assuming (g : Gen σ α) (accept : α → Except Fault Bool) : Gen σ α :=
  ⟨g.sample.assuming accept, g.describe?⟩

/-- Shrinks towards the values of `g`. -/
def mix (g h : Gen σ α) : Gen σ α :=
  of do
    if (← Sampler.draw .bit) = 0 then g.sample else h.sample

/-- A value of `h` in `weight` out of a hundred cases. -/
def mixWeighted (g h : Gen σ α) (weight : Int) : Gen σ α :=
  of do
    if (← Sampler.draw .percentage) < weight then h.sample else g.sample

def optional (g : Gen σ α) (percentEmpty : Int) : Gen σ (Option α) :=
  g.mutate fun a => do
    if (← Sampler.draw .percent) < percentEmpty then return none else return some a

/-- A generator for part of a larger world. -/
def within (get : τ → σ) (put : σ → τ → τ) (g : Gen σ α) : Gen τ α :=
  ⟨g.sample.within get put, g.describe?⟩

end Gen

end Refute

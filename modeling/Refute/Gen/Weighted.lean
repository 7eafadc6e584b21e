import Refute.Gen.Basic

namespace Refute

/-- Choices with positive weights, the first apart so that there is one. -/
structure Weighted (α : Type) where
  first : Nat × α
  others : List (Nat × α)

namespace Weighted

def toList (w : Weighted α) : List (Nat × α) :=
  w.first :: w.others

def map (f : α → β) (w : Weighted α) : Weighted β :=
  ⟨(w.first.1, f w.first.2), w.others.map fun c => (c.1, f c.2)⟩

def positive (choices : List (Int × α)) : List (Nat × α) :=
  choices.filterMap fun c => if 0 < c.1 then some (c.1.toNat, c.2) else none

/-- Choices without a positive weight are dropped. -/
def ofList (choices : List (Int × α)) : Except Fault (Weighted α) :=
  if choices.isEmpty then .error .nothingToWeigh
  else
    match positive choices with
    | [] => .error .noPositiveWeight
    | first :: others => .ok ⟨first, others⟩

def total (choices : List (Nat × α)) : Nat :=
  choices.foldl (fun n c => n + c.1) 0

def divisor (choices : List (Nat × α)) : Nat :=
  choices.foldl (fun d c => Nat.gcd d c.1) 0

def shares (w : Weighted α) : List (Nat × α) :=
  let d := divisor w.toList
  w.toList.map fun c => (c.1 / d, c.2)

/-- The owner of a slot, counted from the first choice on. -/
def owner? : List (Nat × α) → Nat → Option α
  | [], _ => none
  | (share, a) :: rest, slot => if slot < share then some a else owner? rest (slot - share)

def bounds (w : Weighted α) : Except Fault Bounds :=
  Bounds.between 0 (total w.shares - 1)

/-- Every slot within the bounds has an owner. -/
def choose (w : Weighted α) (slot : Int) : α :=
  (owner? w.shares slot.toNat).getD w.first.2

end Weighted

namespace Gen

/-- Choices are written as the first of them is. -/
def ofWeighted (w : Weighted (Gen σ α)) (b : Bounds) : Gen σ α where
  sample := do
    let slot ← Sampler.draw b
    (w.choose slot).sample
  describe? := w.first.2.describe?

def frequency (choices : List (Int × Gen σ α)) : Except Fault (Gen σ α) := do
  let w ← Weighted.ofList choices
  return ofWeighted w (← w.bounds)

def frequencyTargetless (choices : List (Int × Gen σ α)) : Except Fault (Gen σ α) := do
  let w ← Weighted.ofList choices
  return ofWeighted w (← w.bounds).targetless

end Gen

end Refute

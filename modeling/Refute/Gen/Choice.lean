import Refute.Gen.Weighted

namespace Refute.Gen

def range (lo hi target : Int) : Except Fault (Gen σ Int) := do
  return draw ((← Bounds.between lo hi).towards target)

def rangeTargetless (lo hi : Int) : Except Fault (Gen σ Int) := do
  return draw (← Bounds.between lo hi).targetless

def positions (n : Nat) : Except Fault Bounds :=
  Bounds.between 0 (n - 1)

/-- Values by position; a draw within `positions` meets one. -/
def ofPositions (first : α) (others : List α) (b : Bounds) : Gen σ α :=
  (draw b).map fun i => .ok ((first :: others)[i.toNat]?.getD first)

def pick : List α → Except Fault (Gen σ α)
  | [] => .error .nothingToPick
  | first :: others => do return ofPositions first others (← positions (others.length + 1))

def pickTargetless : List α → Except Fault (Gen σ α)
  | [] => .error .nothingToPick
  | first :: others => do
    return ofPositions first others (← positions (others.length + 1)).targetless

def bool : Gen σ Bool :=
  (draw .bit).map fun i => .ok (i ≠ 0)

/-- One of several generators, by position. -/
def among (first : Gen σ α) (others : List (Gen σ α)) (b : Bounds) : Gen σ α :=
  (ofPositions first others b).flatMap id

def oneOf (first : Gen σ α) (others : List (Gen σ α)) : Except Fault (Gen σ α) := do
  return among first others (← positions (others.length + 1))

/-- The length is drawn before the items. -/
def listsOf [Display α] (items : Gen σ α) (sizes : Gen σ Int) : Gen σ (List α) where
  sample := do
    let size ← sizes.sample
    items.sample.replicate size.toNat
  describe? := some fun as => do
    let texts ← Value.listed (← as.mapM items.describe)
    return .text ("[" ++ texts ++ "]")

def tuplesOf [Display α] (gens : List (Gen σ α)) : Gen σ (List α) where
  sample := Act.sequence (gens.map sample)
  describe? := some fun as => Value.text <$> describeAll gens as

end Refute.Gen

import Refute.Act
import Refute.Word

namespace Refute

/-- The inclusive bounds of one draw, and the value that shrinking moves it towards, if any. Bounds
that differ only in the target are different, but allow the same values. -/
structure Bounds where
  lo : Int
  hi : Int
  target : Option Int
  lo_le_hi : lo ≤ hi
  least_le_lo : Word.least ≤ lo
  hi_le_greatest : hi ≤ Word.greatest
  target_mem : ∀ t ∈ target, lo ≤ t ∧ t ≤ hi
deriving DecidableEq

namespace Bounds

def clamp (lo hi n : Int) : Int :=
  max lo (min hi n)

theorem lo_le_clamp (lo hi n : Int) : lo ≤ clamp lo hi n :=
  Int.le_max_left ..

theorem clamp_le_hi {lo hi : Int} (h : lo ≤ hi) (n : Int) : clamp lo hi n ≤ hi :=
  Int.max_le.mpr ⟨h, Int.min_le_left ..⟩

theorem clamp_of_mem {lo hi n : Int} (low : lo ≤ n) (high : n ≤ hi) : clamp lo hi n = n := by
  simp only [clamp]
  omega

theorem clamp_target_mem {lo hi : Int} (h : lo ≤ hi) (target : Option Int) :
    ∀ t ∈ target.map (clamp lo hi), lo ≤ t ∧ t ≤ hi := by
  intro t ht
  obtain ⟨n, _, rfl⟩ := Option.map_eq_some_iff.mp ht
  exact ⟨lo_le_clamp .., clamp_le_hi h n⟩

/-- A target outside the bounds stands for the bound next to it. -/
def make (lo hi : Int) (target : Option Int) : Except Fault Bounds :=
  if ordered : lo ≤ hi then
    if within : Word.least ≤ lo ∧ hi ≤ Word.greatest then
      .ok ⟨lo, hi, target.map (clamp lo hi), ordered, within.1, within.2,
        clamp_target_mem ordered target⟩
    else .error (.boundsTooWide lo hi)
  else .error (.boundsReversed lo hi)

/-- Shrinks towards zero, or the bound next to it. -/
def between (lo hi : Int) : Except Fault Bounds :=
  make lo hi (some 0)

def any : Bounds :=
  ⟨Word.least, Word.greatest, some 0, by decide, by decide, by decide, by decide⟩

def bit : Bounds :=
  ⟨0, 1, some 0, by decide, by decide, by decide, by decide⟩

/-- A choice out of a hundred. -/
def percentage : Bounds :=
  ⟨0, 99, some 0, by decide, by decide, by decide, by decide⟩

/-- Both ends of the scale count. -/
def percent : Bounds :=
  ⟨0, 100, some 0, by decide, by decide, by decide, by decide⟩

def towards (b : Bounds) (n : Int) : Bounds :=
  { b with
    target := some (clamp b.lo b.hi n)
    target_mem := clamp_target_mem b.lo_le_hi (some n) }

def targetless (b : Bounds) : Bounds :=
  { b with target := none, target_mem := nofun }

def allows (b : Bounds) (n : Int) : Bool :=
  b.lo ≤ n && n ≤ b.hi

/-- The target, or the lower bound where there is none. -/
def rest (b : Bounds) : Int :=
  b.target.getD b.lo

def render (b : Bounds) : String :=
  let target := match b.target with
    | some t => toString t
    | none => "None"
  s!"[{b.lo}..{b.hi}] -> " ++ target

theorem allows_iff {b : Bounds} : b.allows n ↔ b.lo ≤ n ∧ n ≤ b.hi := by
  simp [allows]

theorem allows_lo (b : Bounds) : b.allows b.lo :=
  allows_iff.mpr ⟨Int.le_refl _, b.lo_le_hi⟩

theorem allows_hi (b : Bounds) : b.allows b.hi :=
  allows_iff.mpr ⟨b.lo_le_hi, Int.le_refl _⟩

theorem allows_rest (b : Bounds) : b.allows b.rest := by
  cases h : b.target with
  | none => simpa [rest, h] using b.allows_lo
  | some t => exact allows_iff.mpr (by simpa [rest, h] using b.target_mem t h)

end Bounds

end Refute

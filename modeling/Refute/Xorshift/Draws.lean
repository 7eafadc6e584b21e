import Refute.Act

namespace Refute.Xorshift

/-- What a draw comes to that skipped outputs: the one that it found, if it found one. -/
def ofFirst (lo hi : Int) (first? : Option (Int × Xorshift)) (r : Xorshift)
    (endless : first? = none → Unreachable lo hi) : EStateM.Result Fault Xorshift Int :=
  match first?, endless with
  | some (v, r), _ => .ok v r
  | none, endless => .error (.unreachableRange lo hi (endless rfl)) r

/-- Skips the outputs outside the range. -/
def skip (lo hi : Int) (wide : widthFits lo hi = false) : Act Xorshift Int := fun r =>
  ofFirst lo hi (firstWithin lo hi cycleBound r) r.next.2 fun h => ⟨wide, r, h⟩

/-- Takes one output where the width of the range is itself a word. -/
def between (lo hi : Int) : Act Xorshift Int := fun r =>
  if hi < lo then .error (.rangeReversed lo hi) r
  else if h : widthFits lo hi = true then .ok (fold lo hi r.next.1) r.next.2
  else skip lo hi (Bool.eq_false_iff.mpr h) r

def any : Act Xorshift Int := fun r =>
  .ok r.next.1 r.next.2

/-- A draw whose bounds are given both or not at all. -/
def draw : Option Int → Option Int → Act Xorshift Int
  | none, none => any
  | some lo, some hi => between lo hi
  | _, _ => Act.fail .halfBounded

/-- So many draws, in order. -/
def times : Nat → Act Xorshift Int → Act Xorshift (List Int)
  | 0, _ => pure []
  | n + 1, act => do
    let first ← act
    let others ← times n act
    return first :: others

theorem ofFirst_some {endless : first? = none → Unreachable lo hi} (h : first? = some (v, r')) :
    ofFirst lo hi first? r endless = .ok v r' := by
  subst h
  rfl

theorem ofFirst_none {endless : first? = none → Unreachable lo hi} (h : first? = none) :
    ofFirst lo hi first? r endless = .error (.unreachableRange lo hi (endless h)) r := by
  subst h
  rfl

theorem skip_of_some {wide : widthFits lo hi = false}
    (h : firstWithin lo hi cycleBound r = some (v, r')) : skip lo hi wide r = .ok v r' :=
  ofFirst_some h

theorem skip_of_none {wide : widthFits lo hi = false} (h : firstWithin lo hi cycleBound r = none) :
    skip lo hi wide r = .error (.unreachableRange lo hi ⟨wide, r, h⟩) r.next.2 :=
  ofFirst_none h

theorem between_of_fits (hle : lo ≤ hi) (h : widthFits lo hi = true) (r : Xorshift) :
    between lo hi r = .ok (fold lo hi r.next.1) r.next.2 := by
  rw [between, if_neg (Int.not_lt.mpr hle), dif_pos h]

theorem between_of_wide (hle : lo ≤ hi) (wide : widthFits lo hi = false) (r : Xorshift) :
    between lo hi r = skip lo hi wide r := by
  rw [between, if_neg (Int.not_lt.mpr hle), dif_neg (Bool.eq_false_iff.mp wide)]

end Refute.Xorshift

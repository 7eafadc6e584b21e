import Refute.Duration

namespace Refute

/-- The readings of a clock in seconds, one for each time it is asked. -/
abbrev Clock := Nat → Float

namespace Clock

/-- The last reading repeats. -/
def ofReadings (readings : List Float) : Clock := fun asked =>
  readings.getD asked (readings.getLastD 0)

def stopped : Clock := fun _ => 0

/-- Whether the limit is over at the given asking, counted from the first. The difference in
milliseconds is a floating point number; a limit of zero or less is none. -/
def isOver (clock : Clock) (limit : Int) (asked : Nat) : Bool :=
  0 < limit && atLeast ((clock asked - clock 0) * 1000) limit

theorem isOver_of_unlimited (clock : Clock) (h : limit ≤ 0) (asked : Nat) :
    clock.isOver limit asked = false := by
  have hlimit : ¬ 0 < limit := Int.not_lt.mpr h
  simp [isOver, hlimit]

end Clock

end Refute

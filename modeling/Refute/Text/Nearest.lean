import Refute.Text.Shortest

namespace Refute.Text

namespace Ratio

/-- The nearest integer; a middle goes to the even neighbour. -/
def round (r : Ratio) : Nat :=
  let below := r.num / r.den
  let rest := 2 * (r.num % r.den)
  if rest < r.den || (rest = r.den && below % 2 = 0) then below else below + 1

/-- The power of two that leaves 53 bits before the point, or as few as the least power does. -/
def power (r : Ratio) : Int :=
  let bits := (r.num.log2 : Int) - r.den.log2
  let bits := if r.lt ((Ratio.mk 1 1).scale 2 bits) then bits - 1 else bits
  max (bits - 52) (-1074)

/-- The stored form of the nearest number: the mantissa's leading bit adds one to the exponent, so
that a mantissa rounded up to the next power of two needs no care. What is too large is infinite. -/
def toBits (r : Ratio) : Nat :=
  let power := r.power
  let mantissa := (r.scale 2 (-power)).round
  min (((power + 1074).toNat <<< 52) + mantissa) (2047 <<< 52)

def toFloat (r : Ratio) : Float :=
  if r.num = 0 then 0 else .ofBits (.ofNat r.toBits)

end Ratio

/-- The floating point number nearest to an integer. -/
def floatOfInt (n : Int) : Float :=
  let size := (Ratio.mk n.natAbs 1).toFloat
  if n < 0 then -size else size

end Refute.Text

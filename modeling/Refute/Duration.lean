import Refute.Fault
import Refute.Text.Nearest

namespace Refute

/-- Sign, mantissa and power of two of a finite floating point number. -/
structure Finite where
  negative : Bool
  mantissa : Nat
  exponent : Int

namespace Finite

/-- The bit that normal mantissas have in front of their 52 stored ones. -/
def leadingBit : Nat :=
  1 <<< 52

def ofFloat? (x : Float) : Option Finite :=
  let bits := x.toBits.toNat
  let field : Nat := bits >>> 52 % 2048
  let fraction := bits % leadingBit
  let negative := bits >>> 63 = 1
  if field = 2047 then none
  else if field = 0 then some ⟨negative, fraction, -1074⟩
  else some ⟨negative, fraction + leadingBit, (field : Int) - 1075⟩

/-- Rounds towards zero. -/
def trunc (x : Finite) : Int :=
  let size : Nat :=
    if 0 ≤ x.exponent then x.mantissa <<< x.exponent.toNat
    else x.mantissa >>> (-x.exponent).toNat
  if x.negative then -size else size

/-- Exact comparison with an integer. -/
def atLeast (x : Finite) (n : Int) : Bool :=
  let size : Int := if x.negative then -x.mantissa else x.mantissa
  let unit : Nat := 1 <<< x.exponent.natAbs
  if 0 ≤ x.exponent then n ≤ size * unit else n * unit ≤ size

def render (x : Finite) : String :=
  let size :=
    if x.mantissa = 0 then "0.0"
    else
      (Text.Binary.mk x.mantissa x.exponent
        (x.mantissa = leadingBit && x.exponent ≠ -1074)).shortest.render
  if x.negative then "-" ++ size else size

end Finite

/-- Exact comparison of a floating point number with an integer; false for what is not a number. -/
def atLeast (x : Float) (n : Int) : Bool :=
  match Finite.ofFloat? x with
  | some y => y.atLeast n
  | none => 0 < x

/-- A length of time, given as an integer or as a floating point number of seconds. -/
inductive Seconds where
  | whole (n : Int)
  | real (x : Float)

namespace Seconds

def toFloat : Seconds → Float
  | whole n => Text.floatOfInt n
  | real x => x

/-- Whole milliseconds, never below zero; products of floating point numbers are rounded first, and
must stay finite. -/
def millis : Seconds → Except Fault Int
  | whole n => .ok (max 0 (n * 1000))
  | real x =>
    match Finite.ofFloat? (x * 1000) with
    | some y => .ok (max 0 y.trunc)
    | none => .error (if x.isNaN then .timeNotANumber else .infiniteTime)

/-- Neither zero nor less; what is not a number passes. -/
def isPositive : Seconds → Bool
  | whole n => 0 < n
  | real x => !(x ≤ 0)

/-- Waiting is counted in nanoseconds, in a signed word of 64 bits; the first count that is too
large for it turns negative. -/
def waitingFault? : Seconds → Option Fault
  | whole n =>
    if n * 1000000000 < 9223372036854775808 then none else some .uncountableTimeout
  | real x =>
    let count := x * 1000000000
    if count == 9223372036854775808 then some .negativeTimeout
    else if 9223372036854775808 < count then some .uncountableTimeout
    else none

def render : Seconds → String
  | whole n => toString n
  | real x =>
    match Finite.ofFloat? x with
    | some y => y.render
    | none => if x.isNaN then "nan" else if 0 < x then "inf" else "-inf"

end Seconds

end Refute

import Refute.Text.Nearest

namespace Refute.Text

def ofDigits (digits : List Char) : Nat :=
  digits.foldl (fun n c => 10 * n + (c.toNat - 48)) 0

/-- The power of ten that ends a number; a number without one has the power zero. -/
def readPower? : List Char → Option Int
  | [] => some 0
  | mark :: cs =>
    if mark.toLower ≠ 'e' then none
    else
      match cs with
      | '-' :: digits => some (-(ofDigits digits : Int))
      | '+' :: digits => some (ofDigits digits)
      | digits => some (ofDigits digits)

/-- The number after its whole digits. -/
def readFraction? (whole : List Char) : List Char → Option Float
  | '.' :: rest => do
    let fraction := rest.takeWhile Char.isDigit
    let power ← readPower? (rest.dropWhile Char.isDigit)
    return (Decimal.mk (ofDigits (whole ++ fraction)) (power - fraction.length)).value.toFloat
  | rest => do return (Decimal.mk (ofDigits whole) (← readPower? rest)).value.toFloat

def readSize? (cs : List Char) : Option Float :=
  if cs = "Infinity".toList then some (1 / 0)
  else if cs = "NaN".toList then some (0 / 0)
  else readFraction? (cs.takeWhile Char.isDigit) (cs.dropWhile Char.isDigit)

/-- The sign of zero is kept. -/
def readFloat? (text : String) : Option Float :=
  match text.toList with
  | '-' :: cs => (readSize? cs).map fun size => -size
  | cs => readSize? cs

end Refute.Text

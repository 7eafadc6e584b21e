namespace Refute.Text

/-- The positive number `mantissa * 2 ^ exponent`; `lowest` marks the first mantissa of its
exponent, below which the numbers stand twice as close. -/
structure Binary where
  mantissa : Nat
  exponent : Int
  lowest : Bool

/-- A quotient of naturals. -/
structure Ratio where
  num : Nat
  den : Nat

def Ratio.scale (r : Ratio) (base : Nat) (power : Int) : Ratio :=
  if 0 ≤ power then ⟨r.num * base.pow power.toNat, r.den⟩
  else ⟨r.num, r.den * base.pow (-power).toNat⟩

def Ratio.le (r s : Ratio) : Bool :=
  r.num * s.den ≤ s.num * r.den

def Ratio.lt (r s : Ratio) : Bool :=
  r.num * s.den < s.num * r.den

def Binary.value (b : Binary) : Ratio :=
  (Ratio.mk b.mantissa 1).scale 2 b.exponent

/-- The middle between `b` and the number below it. -/
def Binary.lower (b : Binary) : Ratio :=
  if b.lowest then (Ratio.mk (4 * b.mantissa - 1) 1).scale 2 (b.exponent - 2)
  else (Ratio.mk (2 * b.mantissa - 1) 1).scale 2 (b.exponent - 1)

/-- The middle between `b` and the number above it. -/
def Binary.upper (b : Binary) : Ratio :=
  (Ratio.mk (2 * b.mantissa + 1) 1).scale 2 (b.exponent - 1)

/-- Whether `r` rounds to `b`: a middle itself goes to the even mantissa. -/
def Binary.readBy (b : Binary) (r : Ratio) : Bool :=
  if b.mantissa % 2 = 0 then b.lower.le r && r.le b.upper
  else b.lower.lt r && r.lt b.upper

/-- The least `k` found with `r < 10 ^ k`, looking upwards from `k`. -/
def Ratio.magnitude (r : Ratio) : Nat → Int → Int
  | 0, k => k
  | fuel + 1, k => if r.lt ((Ratio.mk 1 1).scale 10 k) then k else r.magnitude fuel (k + 1)

/-- `digits * 10 ^ power`. -/
structure Decimal where
  digits : Nat
  power : Int

def Decimal.value (d : Decimal) : Ratio :=
  (Ratio.mk d.digits 1).scale 10 d.power

/-- Twice the distance from below, compared with the step of the grid: which neighbour is nearer. -/
def nearer (r : Ratio) (below : Decimal) : Decimal :=
  let above : Decimal := ⟨below.digits + 1, below.power⟩
  let middle := (Ratio.mk (2 * below.digits + 1) 2).scale 10 below.power
  if r.lt middle || (r.le middle && below.digits % 2 = 0) then below else above

/-- The neighbour of `b` with `places` digits that reads back as `b`, if one does. -/
def Binary.atPlaces? (b : Binary) (magnitude : Int) (places : Nat) : Option Decimal :=
  let power := magnitude - places
  let scaled := b.value.scale 10 (-power)
  let below : Decimal := ⟨scaled.num / scaled.den, power⟩
  let above : Decimal := ⟨below.digits + 1, power⟩
  match b.readBy below.value, b.readBy above.value with
  | true, true => some (nearer b.value below)
  | true, false => some below
  | false, true => some above
  | false, false => none

/-- Seventeen digits always suffice for a 64-bit number. -/
def Binary.shortest (b : Binary) : Decimal :=
  let magnitude := b.value.magnitude 700 (-330)
  ((List.range 17).findSome? fun n => b.atPlaces? magnitude (n + 1)).getD ⟨0, 0⟩

/-- Drops zeros at the end of the digits. -/
def Decimal.normal : Nat → Decimal → Decimal
  | 0, d => d
  | fuel + 1, d =>
    if d.digits ≠ 0 && d.digits % 10 = 0 then normal fuel ⟨d.digits / 10, d.power + 1⟩ else d

def zeroes (n : Nat) : List Char :=
  List.replicate n '0'

/-- Positional from 0.0001 up to 10 ^ 16, always with a point; an exponent of at least two digits
elsewhere. -/
def Decimal.render (d : Decimal) : String :=
  let d := d.normal 20
  let digits := (toString d.digits).toList
  let point : Int := digits.length + d.power
  String.ofList <|
    if -4 < point && point ≤ 16 then
      if point ≤ 0 then '0' :: '.' :: zeroes (-point).toNat ++ digits
      else if 0 ≤ d.power then digits ++ zeroes d.power.toNat ++ ['.', '0']
      else digits.take point.toNat ++ '.' :: digits.drop point.toNat
    else
      let exponent := point - 1
      let size := (toString exponent.natAbs).toList
      let size := if size.length < 2 then '0' :: size else size
      let mark := 'e' :: (if exponent < 0 then '-' else '+') :: size
      match digits with
      | [] => []
      | [c] => c :: mark
      | c :: cs => c :: '.' :: cs ++ mark

end Refute.Text

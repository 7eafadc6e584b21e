namespace Refute

/-- Negative places count from the end. -/
def itemAt? (items : List α) (place : Int) : Option α :=
  let place := if place < 0 then place + items.length else place
  if place < 0 then none else items[place.toNat]?

theorem itemAt?_natCast (items : List α) (n : Nat) : itemAt? items n = items[n]? := by
  simp only [itemAt?]
  split
  · omega
  · simp

end Refute

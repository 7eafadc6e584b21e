namespace Refute

/-- Signed 64-bit words: the numbers a draw may be bounded by, record or return. -/
abbrev Word := BitVec 64

namespace Word

def least : Int := -9223372036854775808

def greatest : Int := 9223372036854775807

/-- The signed word that agrees with `n` modulo 2 ^ 64. -/
def wrap (n : Int) : Int :=
  (BitVec.ofInt 64 n).toInt

theorem least_le_toInt (w : Word) : least ≤ w.toInt := by
  have := w.le_toInt
  simp only [least]
  omega

theorem toInt_le_greatest (w : Word) : w.toInt ≤ greatest := by
  have := w.toInt_lt
  simp only [greatest]
  omega

theorem wrap_of_mem (low : least ≤ n) (high : n ≤ greatest) : wrap n = n := by
  simp only [least, greatest] at low high
  rw [wrap, BitVec.toInt_ofInt]
  exact Int.bmod_eq_of_le (by omega) (by omega)

end Word

end Refute

import Mathlib.Data.Int.CardIntervalMod
import Mathlib.Data.Int.ConditionallyCompleteOrder
import Refute.Proofs.Scrambling

namespace Refute

namespace Word

/-- The number, if it is a word. -/
def checked (n : Int) : Option Int :=
  if least ≤ n ∧ n ≤ greatest then some n else none

theorem checked_of_mem (low : least ≤ n) (high : n ≤ greatest) : checked n = some n :=
  if_pos ⟨low, high⟩

end Word

namespace Xorshift

theorem widthFits_iff (low : Word.least ≤ lo) (hle : lo ≤ hi) (high : hi ≤ Word.greatest) :
    widthFits lo hi = true ↔ hi - lo + 1 ≤ Word.greatest := by
  have hleast : Word.least = -9223372036854775808 := rfl
  have hgreatest : Word.greatest = 9223372036854775807 := rfl
  simp only [widthFits, Bool.or_eq_true, Bool.and_eq_true, decide_eq_true_eq]
  omega

/-- The remainder takes the sign of the output, so a negative one is a width too small. -/
theorem fold_eq_emod (hle : lo ≤ hi) (raw : Int) :
    fold lo hi raw = lo + raw % (hi - lo + 1) := by
  have hwidth : 0 < hi - lo + 1 := by omega
  have hnonneg := Int.emod_nonneg raw (Int.ne_of_gt hwidth)
  have hlt := Int.emod_lt_of_pos raw hwidth
  have hsize : ((hi - lo + 1).natAbs : Int) = hi - lo + 1 := Int.natAbs_of_nonneg (by omega)
  simp only [fold, Int.tmod_eq_emod]
  split <;> split <;> omega

/-- The remainder of the sizes with the sign of the dividend, if all numbers on the way are
words. -/
def checkedRemainder (dividend divisor : Int) : Option Int := do
  let size ← Word.checked dividend.natAbs
  let rest ← Word.checked (size % divisor)
  if dividend < 0 then Word.checked (-rest) else return rest

/-- What the upper end is compared with to test the width, where the range has zero in it. -/
def checkedLimit (lo hi : Int) : Option Int :=
  if -Word.greatest < lo ∧ lo ≤ 0 ∧ 0 ≤ hi then Word.checked (Word.greatest + lo)
  else some Word.greatest

/-- The folding of an output after the test of the width, if all numbers on the way are words. -/
def checkedFold (lo hi raw : Int) : Option Int := do
  let _ ← checkedLimit lo hi
  let span ← Word.checked (hi - lo)
  let width ← Word.checked (span + 1)
  let remainder ← checkedRemainder raw width
  if remainder < 0 then
    let last ← Word.checked (remainder + hi)
    Word.checked (last + 1)
  else
    Word.checked (remainder + lo)

theorem tmod_eq_ite (dividend : Int) (divisor : Int) :
    dividend.tmod divisor =
      if dividend < 0 then -((dividend.natAbs : Int) % divisor)
      else (dividend.natAbs : Int) % divisor := by
  split
  · rename_i hneg
    have hsize : dividend = -(dividend.natAbs : Int) := by omega
    conv_lhs => rw [hsize, Int.neg_tmod, Int.tmod_eq_emod_of_nonneg (by omega)]
  · rename_i hpos
    have hsize : (dividend.natAbs : Int) = dividend := by omega
    rw [hsize, Int.tmod_eq_emod_of_nonneg (by omega)]

theorem checkedRemainder_eq (low : Word.least < dividend) (high : dividend ≤ Word.greatest)
    (hpos : 0 < divisor) (hle : divisor ≤ Word.greatest) :
    checkedRemainder dividend divisor = some (dividend.tmod divisor) := by
  have hleast : Word.least = -9223372036854775808 := rfl
  have hgreatest : Word.greatest = 9223372036854775807 := rfl
  have hnonneg := Int.emod_nonneg (dividend.natAbs : Int) (Int.ne_of_gt hpos)
  have hlt := Int.emod_lt_of_pos (dividend.natAbs : Int) hpos
  have hsize : Word.checked dividend.natAbs = some (dividend.natAbs : Int) :=
    Word.checked_of_mem (by omega) (by omega)
  have hrest : Word.checked ((dividend.natAbs : Int) % divisor) = some _ :=
    Word.checked_of_mem (by omega) (by omega)
  have hneg : Word.checked (-((dividend.natAbs : Int) % divisor)) = some _ :=
    Word.checked_of_mem (by omega) (by omega)
  simp only [checkedRemainder, hsize, hrest, hneg, Option.bind_eq_bind, Option.bind_some,
    tmod_eq_ite]
  split <;> rfl

/-- The size of the least word is no word, but no output is the least word: it would be that of a
negative state. -/
theorem least_lt_next (r : Xorshift) : Word.least < r.next.1 := by
  have hne : r.next.1 ≠ Word.least := by
    intro h
    have hmin : output (BitVec.intMin 64) = Word.least := by decide
    have hstate : r.next.2.state = BitVec.intMin 64 := output_injective (h.trans hmin.symm)
    have hsign := msb_next r
    rw [hstate] at hsign
    exact absurd hsign (by decide)
  exact lt_of_le_of_ne (Word.least_le_toInt _) hne.symm

/-- A remainder is less than a width away from zero, and stays within the words when it is counted
from either end of the range. -/
theorem checkedFold_eq (low : Word.least ≤ lo) (hle : lo ≤ hi) (high : hi ≤ Word.greatest)
    (hwidth : hi - lo + 1 ≤ Word.greatest) (hraw : Word.least < raw)
    (hraw' : raw ≤ Word.greatest) : checkedFold lo hi raw = some (fold lo hi raw) := by
  have hleast : Word.least = -9223372036854775808 := rfl
  have hgreatest : Word.greatest = 9223372036854775807 := rfl
  have hpos : 0 < hi - lo + 1 := by omega
  have hlower := Int.lt_tmod_of_pos raw hpos
  have hupper := Int.tmod_lt_of_pos raw hpos
  obtain ⟨limit, hlimit⟩ : ∃ limit, checkedLimit lo hi = some limit := by
    unfold checkedLimit
    split
    · exact ⟨_, Word.checked_of_mem (by omega) (by omega)⟩
    · exact ⟨_, rfl⟩
  have hspan : Word.checked (hi - lo) = some (hi - lo) :=
    Word.checked_of_mem (by omega) (by omega)
  have hcount : Word.checked (hi - lo + 1) = some (hi - lo + 1) :=
    Word.checked_of_mem (by omega) hwidth
  have hremainder := checkedRemainder_eq hraw hraw' hpos hwidth
  simp only [checkedFold, hlimit, hspan, hcount, hremainder, Option.bind_eq_bind,
    Option.bind_some, fold]
  split
  · have hlast : Word.checked (raw.tmod (hi - lo + 1) + hi) = some _ :=
      Word.checked_of_mem (by omega) (by omega)
    rw [hlast, Option.bind_some]
    exact Word.checked_of_mem (by omega) (by omega)
  · exact Word.checked_of_mem (by omega) (by omega)

/-- The output that no state has. -/
example : checkedFold 0 9 Word.least = none := by decide

theorem fold_eq_iff (hle : lo ≤ hi) (hv : lo ≤ v ∧ v ≤ hi) (raw : Int) :
    fold lo hi raw = v ↔ raw ≡ v - lo [ZMOD hi - lo + 1] := by
  have hself : (v - lo) % (hi - lo + 1) = v - lo := Int.emod_eq_of_lt (by omega) (by omega)
  rw [fold_eq_emod hle, Int.ModEq, hself]
  omega

/-- Each remainder comes up once in each full round of the width, and once more at most. -/
theorem card_modEq {width : Nat} (hpos : 0 < width) (n : Int) :
    ((Finset.Icc Word.least Word.greatest).filter (· ≡ n [ZMOD width])).card = 2 ^ 64 / width ∨
    ((Finset.Icc Word.least Word.greatest).filter (· ≡ n [ZMOD width])).card =
      2 ^ 64 / width + 1 := by
  have hnonneg : 0 ≤ (n - Word.least) % width := Int.emod_nonneg _ (by omega)
  obtain ⟨first, hfirst⟩ := Int.eq_ofNat_of_zero_le hnonneg
  have hshift : ∀ k : Nat, Word.least + k ≡ n [ZMOD width] ↔ k ≡ first [MOD width] := by
    intro k
    have hmod : (first : Int) ≡ n - Word.least [ZMOD width] := by
      rw [← hfirst]
      exact Int.mod_modEq _ _
    rw [← Int.natCast_modEq_iff]
    constructor
    · intro h
      exact (Int.ModEq.add_left_cancel' Word.least (h.trans (by simp))).trans hmod.symm
    · intro h
      simpa using (h.trans hmod).add_left Word.least
  have hwords : (Word.greatest + 1 - Word.least).toNat = 2 ^ 64 := by decide
  have hcard : ((Finset.Icc Word.least Word.greatest).filter (· ≡ n [ZMOD width])).card =
      Nat.count (· ≡ first [MOD width]) (2 ^ 64) := by
    rw [Int.Icc_eq_finset_map, Finset.filter_map, Finset.card_map, hwords,
      Nat.count_eq_card_filter_range]
    exact congrArg Finset.card (Finset.filter_congr fun k _ => hshift k)
  rw [hcard, Nat.count_modEq_card _ hpos]
  split
  · exact .inr rfl
  · exact .inl rfl

/-- Of all words, nearly as many are folded to one number of the range as to another. -/
theorem card_fold (hle : lo ≤ hi) (hv : lo ≤ v ∧ v ≤ hi) :
    (((Finset.Icc Word.least Word.greatest).filter (fold lo hi · = v)).card : Int) =
        2 ^ 64 / (hi - lo + 1) ∨
      (((Finset.Icc Word.least Word.greatest).filter (fold lo hi · = v)).card : Int) =
        2 ^ 64 / (hi - lo + 1) + 1 := by
  obtain ⟨width, hwidth⟩ := Int.eq_ofNat_of_zero_le (show 0 ≤ hi - lo + 1 by omega)
  simp only [fold_eq_iff hle hv, hwidth]
  rcases card_modEq (show 0 < width by omega) (v - lo) with hcard | hcard
  · left
    rw [hcard]
    rfl
  · right
    rw [hcard]
    rfl

variable {r r' : Xorshift}

/-- The output after `n` others lies between the bounds. -/
def Hits (r : Xorshift) (lo hi : Int) (n : Nat) : Prop :=
  lo ≤ (step^[n] r).next.1 ∧ (step^[n] r).next.1 ≤ hi

/-- It is the first that does. -/
def HitsFirst (r : Xorshift) (lo hi : Int) (n : Nat) : Prop :=
  r.Hits lo hi n ∧ ∀ m < n, ¬ r.Hits lo hi m

theorem hitsFirst_zero_iff : r.HitsFirst lo hi 0 ↔ r.Hits lo hi 0 :=
  ⟨And.left, fun h => ⟨h, fun _ hm => absurd hm (Nat.not_lt_zero _)⟩⟩

theorem hitsFirst_succ_iff :
    r.HitsFirst lo hi (n + 1) ↔ ¬ r.Hits lo hi 0 ∧ r.step.HitsFirst lo hi n := by
  constructor
  · rintro ⟨hlast, hskipped⟩
    exact ⟨hskipped 0 (Nat.succ_pos n), hlast, fun m hm => hskipped (m + 1) (by omega)⟩
  · rintro ⟨hfirst, hlast, hskipped⟩
    refine ⟨hlast, fun m hm => ?_⟩
    cases m with
    | zero => exact hfirst
    | succ m => exact hskipped m (by omega)

theorem firstWithin_eq_some_iff :
    firstWithin lo hi fuel r = some (v, r') ↔
      ∃ n < fuel, r.HitsFirst lo hi n ∧ v = (step^[n] r).next.1 ∧ r' = step^[n + 1] r := by
  induction fuel generalizing r with
  | zero => simp [firstWithin]
  | succ fuel ih =>
    rw [firstWithin_succ]
    by_cases hfirst : r.Hits lo hi 0
    · have htest : (lo ≤ r.next.1 && r.next.1 ≤ hi) = true := by
        rwa [Bool.and_eq_true, decide_eq_true_eq, decide_eq_true_eq]
      rw [if_pos htest]
      constructor
      · intro h
        cases h
        exact ⟨0, Nat.succ_pos fuel, hitsFirst_zero_iff.mpr hfirst, rfl, rfl⟩
      · rintro ⟨n, -, hn, rfl, rfl⟩
        cases n with
        | zero => rfl
        | succ n => exact absurd hfirst (hitsFirst_succ_iff.mp hn).1
    · have htest : ¬ (lo ≤ r.next.1 && r.next.1 ≤ hi) = true := by
        rwa [Bool.and_eq_true, decide_eq_true_eq, decide_eq_true_eq]
      rw [if_neg htest]
      refine (ih (r := r.step)).trans ?_
      constructor
      · rintro ⟨n, hlt, hn, rfl, rfl⟩
        exact ⟨n + 1, by omega, hitsFirst_succ_iff.mpr ⟨hfirst, hn⟩, rfl, rfl⟩
      · rintro ⟨n, hlt, hn, rfl, rfl⟩
        cases n with
        | zero => exact absurd (hitsFirst_zero_iff.mp hn) hfirst
        | succ n => exact ⟨n, by omega, (hitsFirst_succ_iff.mp hn).2, rfl, rfl⟩

/-- The outputs that come later all came among the first. -/
theorem HitsFirst.lt_cycleBound (h : r.HitsFirst lo hi n) : n < cycleBound := by
  obtain ⟨m, hm, heq⟩ := exists_early (scramble r.state) n
  by_contra hge
  refine h.2 m (by omega) ?_
  have houtput : (step^[m] r).next.1 = (step^[n] r).next.1 := by
    rw [output_iterate_step, output_iterate_step, Function.iterate_succ_apply, heq,
      ← Function.iterate_succ_apply]
  unfold Hits
  rw [houtput]
  exact h.1

theorem between_eq_ok_iff (hle : lo ≤ hi) (hfits : widthFits lo hi = false) :
    between lo hi r = .ok v r' ↔
      ∃ n, r.HitsFirst lo hi n ∧ v = (step^[n] r).next.1 ∧ r' = step^[n + 1] r := by
  rw [between_of_wide hle hfits]
  constructor
  · intro h
    obtain ⟨n, -, hn⟩ := firstWithin_eq_some_iff.mp (skip_eq_ok h)
    exact ⟨n, hn⟩
  · rintro ⟨n, h⟩
    exact skip_of_some (firstWithin_eq_some_iff.mpr ⟨n, h.1.lt_cycleBound, h⟩)

/-- A range as wide as a word takes one output, folds it evenly by its remainder, and no number on
the way leaves the words. A wider one takes the outputs up to the first that lies in it. -/
theorem between_folds_or_skips (low : Word.least ≤ lo) (hle : lo ≤ hi)
    (high : hi ≤ Word.greatest) (r : Xorshift) :
    (widthFits lo hi = true ↔ hi - lo + 1 ≤ Word.greatest) ∧
    (widthFits lo hi = true →
      between lo hi r = .ok (fold lo hi r.next.1) r.next.2 ∧
      fold lo hi r.next.1 = lo + r.next.1 % (hi - lo + 1) ∧
      (lo ≤ fold lo hi r.next.1 ∧ fold lo hi r.next.1 ≤ hi) ∧
      checkedFold lo hi r.next.1 = some (fold lo hi r.next.1) ∧
      ∀ v, lo ≤ v → v ≤ hi →
        (((Finset.Icc Word.least Word.greatest).filter (fold lo hi · = v)).card : Int) =
            2 ^ 64 / (hi - lo + 1) ∨
          (((Finset.Icc Word.least Word.greatest).filter (fold lo hi · = v)).card : Int) =
            2 ^ 64 / (hi - lo + 1) + 1) ∧
    (widthFits lo hi = false → ∀ v r', between lo hi r = .ok v r' ↔
      ∃ n, r.HitsFirst lo hi n ∧ v = (step^[n] r).next.1 ∧ r' = step^[n + 1] r) := by
  have hwidth := widthFits_iff low hle high
  refine ⟨hwidth, fun hfits => ?_, fun hfits v r' => between_eq_ok_iff hle hfits⟩
  have hfolds := between_of_fits hle hfits r
  have hchecked := checkedFold_eq low hle high (hwidth.mp hfits) (least_lt_next r)
    (Word.toInt_le_greatest _)
  exact ⟨hfolds, fold_eq_emod hle _, fold_mem hle _, hchecked,
    fun v hlo hhi => card_fold hle ⟨hlo, hhi⟩⟩

/-- A negative output is folded; of the numbers up to zero, too many for a word, the second output
is the first that fits. -/
theorem between_folds_or_skips_signs :
    (between (-5) 5 (ofSeed 2) = .ok (-3) (ofSeed 2).step ∧
      (ofSeed 2).next.1 = -8085759483296761286 ∧
      checkedFold (-5) 5 (-8085759483296761286) = some (-3)) ∧
    between Word.least 0 (ofSeed 1) = .ok (-6066446928794000099) (step^[2] (ofSeed 1)) := by
  obtain ⟨hwidth, hfolds, -⟩ := between_folds_or_skips (show Word.least ≤ -5 by decide)
    (show -5 ≤ 5 by decide) (by decide) (ofSeed 2)
  obtain ⟨hdrawn, -, -, hchecked, -⟩ := hfolds (hwidth.mpr (by decide))
  obtain ⟨-, -, hskips⟩ := between_folds_or_skips (Int.le_refl Word.least)
    (show Word.least ≤ 0 by decide) (by decide) (ofSeed 1)
  have hraw : (ofSeed 2).next.1 = -8085759483296761286 := by decide
  have hfold : fold (-5) 5 (-8085759483296761286) = -3 := by decide
  have hsecond : (ofSeed 1).HitsFirst Word.least 0 1 := by
    refine ⟨⟨by decide, by decide⟩, fun m hm => ?_⟩
    obtain rfl : m = 0 := by omega
    exact fun h => absurd h.2 (by decide)
  rw [hraw, hfold] at hdrawn hchecked
  exact ⟨⟨hdrawn, hraw, hchecked⟩,
    (hskips (by decide) _ _).mpr ⟨1, hsecond, by decide, rfl⟩⟩

end Xorshift

end Refute

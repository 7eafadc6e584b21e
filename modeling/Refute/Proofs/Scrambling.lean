import Mathlib.Data.Set.Finite.Lattice
import Refute.Proofs.Endless

namespace Refute.Xorshift

/-- A word with its copy shifted to the right, which keeps the sign. -/
def blendRight (k : Nat) (s : Word) : Word :=
  s ^^^ s.sshiftRight k

/-- A word with its copy shifted to the left. -/
def blendLeft (k : Nat) (s : Word) : Word :=
  s ^^^ s <<< k

theorem scramble_eq_blends (s : Word) :
    scramble s = blendRight 27 (blendLeft 25 (blendRight 12 s)) :=
  rfl

theorem blendRight_xor (k : Nat) (s t : Word) :
    blendRight k (s ^^^ t) = blendRight k s ^^^ blendRight k t := by
  unfold blendRight
  rw [BitVec.sshiftRight_xor_distrib]
  ac_rfl

theorem blendLeft_xor (k : Nat) (s t : Word) :
    blendLeft k (s ^^^ t) = blendLeft k s ^^^ blendLeft k t := by
  unfold blendLeft
  rw [BitVec.shiftLeft_xor_distrib]
  ac_rfl

theorem scramble_xor (s t : Word) : scramble (s ^^^ t) = scramble s ^^^ scramble t := by
  simp only [scramble_eq_blends, blendRight_xor, blendLeft_xor]

/-- The sign meets itself. -/
theorem msb_blendRight (k : Nat) (s : Word) : (blendRight k s).msb = false := by
  simp [blendRight, BitVec.msb_sshiftRight]

/-- A word that is its own shifted copy stays so when it is shifted on, until only copies of its
sign are left. -/
theorem blendRight_eq_zero_iff {k : Nat} (hk : 0 < k) (s : Word) :
    blendRight k s = 0 ↔ s = 0 ∨ s = -1 := by
  constructor
  · intro h
    have hfixed : s = s.sshiftRight k := BitVec.xor_eq_zero_iff.mp h
    have hrepeated : ∀ n, s.sshiftRight (k * n) = s := by
      intro n
      induction n with
      | zero => exact BitVec.sshiftRight_zero
      | succ n ih => rw [Nat.mul_succ, BitVec.sshiftRight_add, ih, ← hfixed]
    have hall := hrepeated 64
    have hwidth : 64 ≤ k * 64 := by omega
    cases hs : s.msb with
    | false =>
      rw [BitVec.sshiftRight_eq_of_msb_false hs, BitVec.ushiftRight_eq_zero hwidth] at hall
      exact .inl hall.symm
    | true =>
      rw [BitVec.sshiftRight_eq_of_msb_true hs, BitVec.ushiftRight_eq_zero hwidth] at hall
      exact .inr hall.symm
  · have hminus : (-1 : Word).sshiftRight k = -1 := by
      rw [BitVec.sshiftRight_eq_of_msb_true (by decide), show ~~~(-1 : Word) = 0#64 by decide,
        BitVec.zero_ushiftRight]
      decide
    rintro (rfl | rfl)
    · exact BitVec.xor_eq_zero_iff.mpr BitVec.zero_sshiftRight.symm
    · exact BitVec.xor_eq_zero_iff.mpr hminus.symm

theorem blendLeft_eq_zero_iff {k : Nat} (hk : 0 < k) (s : Word) : blendLeft k s = 0 ↔ s = 0 := by
  constructor
  · intro h
    have hfixed : s = s <<< k := BitVec.xor_eq_zero_iff.mp h
    have hrepeated : ∀ n, s <<< (k * n) = s := by
      intro n
      induction n with
      | zero => exact BitVec.shiftLeft_zero s
      | succ n ih => rw [Nat.mul_succ, BitVec.shiftLeft_add, ih, ← hfixed]
    rw [← hrepeated 64]
    exact BitVec.shiftLeft_eq_zero (by omega)
  · rintro rfl
    exact BitVec.xor_eq_zero_iff.mpr (BitVec.zero_shiftLeft k).symm

theorem blendLeft_injective {k : Nat} (hk : 0 < k) : Function.Injective (blendLeft k) := by
  intro s t h
  rw [← BitVec.xor_eq_zero_iff]
  apply (blendLeft_eq_zero_iff hk _).mp
  rw [blendLeft_xor, h]
  exact BitVec.xor_self

/-- The word whose blend to the left is minus one. -/
def preimage : Word := 0xFFFC000001FFFFFF#64

/-- Only a negative word blends to minus one, and the first blend gives none. -/
theorem blendLeft_ne_minus_one (hs : s.msb = false) : blendLeft 25 s ≠ -1 := by
  intro h
  have hp : blendLeft 25 preimage = -1 := by decide
  have : s = preimage := blendLeft_injective (by decide) (h.trans hp.symm)
  subst this
  exact absurd hs (by decide)

theorem scramble_eq_zero_iff (s : Word) : scramble s = 0 ↔ s = 0 ∨ s = -1 := by
  have hlast := blendLeft_ne_minus_one (msb_blendRight 12 s)
  rw [scramble_eq_blends, blendRight_eq_zero_iff (by decide), or_iff_left hlast,
    blendLeft_eq_zero_iff (by decide), blendRight_eq_zero_iff (by decide)]

/-- The states with the same successor are complements of each other. -/
theorem scramble_eq_iff (s t : Word) : scramble s = scramble t ↔ s = t ∨ s = ~~~t := by
  have hcomplement : s ^^^ t = -1 ↔ s = ~~~t := by
    rw [← BitVec.xor_left_inj t, BitVec.xor_assoc, BitVec.xor_self, BitVec.xor_zero,
      BitVec.xor_comm]
    exact Iff.of_eq (congrArg (s = ·) BitVec.xor_allOnes)
  rw [← BitVec.xor_eq_zero_iff, ← scramble_xor]
  exact (scramble_eq_zero_iff (s ^^^ t)).trans (or_congr BitVec.xor_eq_zero_iff hcomplement)

/-- The words from zero to the greatest. -/
def nonnegative : Set Word :=
  {s | 0 ≤ s.toInt}

theorem mem_nonnegative : s ∈ nonnegative ↔ s.msb = false := by
  rw [BitVec.msb_eq_toInt, decide_eq_false_iff_not, Int.not_lt]
  rfl

theorem scramble_nonnegative (s : Word) : scramble s ∈ nonnegative :=
  mem_nonnegative.mpr (msb_scramble s)

theorem scramble_injOn : Set.InjOn scramble nonnegative := by
  intro s hs t ht h
  rcases (scramble_eq_iff s t).mp h with heq | hnot
  · exact heq
  · have hsign : s.msb = !t.msb := by
      rw [hnot, BitVec.msb_not, decide_eq_true (by decide), Bool.true_and]
    rw [mem_nonnegative.mp hs, mem_nonnegative.mp ht] at hsign
    cases hsign

theorem scramble_mapsTo : Set.MapsTo scramble nonnegative nonnegative :=
  fun s _ => scramble_nonnegative s

/-- There are finitely many words, so what confuses none of them reaches all of them. -/
theorem scramble_bijOn : Set.BijOn scramble nonnegative nonnegative := by
  have hwords : (Set.univ : Set Word).Finite :=
    Set.finite_univ.of_injOn (Set.mapsTo_univ BitVec.toFin Set.univ) fun _ _ _ _ =>
      BitVec.toFin_inj.mp
  have hfinite : nonnegative.Finite := hwords.subset (Set.subset_univ nonnegative)
  exact (hfinite.injOn_iff_bijOn_of_mapsTo scramble_mapsTo).mp scramble_injOn

/-- Nothing but what leads to zero at once ever leads to it. -/
theorem iterate_eq_zero_iff (s : Word) (n : Nat) : scramble^[n + 1] s = 0 ↔ s = 0 ∨ s = -1 := by
  induction n with
  | zero => exact scramble_eq_zero_iff s
  | succ n ih =>
    rw [Function.iterate_succ_apply', scramble_eq_zero_iff, ← ih, or_iff_left]
    intro h
    have hmsb := msb_scramble (scramble^[n] s)
    rw [← Function.iterate_succ_apply' scramble, h] at hmsb
    exact absurd hmsb (by decide)

/-- From its first successor on, a state comes back. -/
theorem exists_period (s : Word) :
    ∃ p, 0 < p ∧ ∀ n, scramble^[n + 1 + p] s = scramble^[n + 1] s := by
  obtain ⟨i, j, hlt, -, heq⟩ := exists_recurrence (scramble s)
  have hback : scramble^[j - i] (scramble s) = scramble s := by
    have hmem : scramble^[j - i] (scramble s) ∈ nonnegative :=
      scramble_mapsTo.iterate (j - i) (scramble_nonnegative s)
    refine scramble_injOn.iterate scramble_mapsTo i hmem (scramble_nonnegative s) ?_
    rw [← Function.iterate_add_apply, show i + (j - i) = j by omega, heq]
  refine ⟨j - i, by omega, fun n => ?_⟩
  calc scramble^[n + 1 + (j - i)] s
      = scramble^[n] (scramble^[j - i] (scramble s)) := by
        rw [← Function.iterate_add_apply, ← Function.iterate_succ_apply]
        congr 1
        omega
    _ = scramble^[n + 1] s := by rw [hback, Function.iterate_succ_apply]

/-- Undoes the multiplication that makes an output of a state. -/
def inverseMultiplier : Word := 6415128727920758069#64

theorem output_injective : Function.Injective output := by
  intro s t h
  have hproduct : s * multiplier = t * multiplier := BitVec.toInt_inj.mp h
  have hone : multiplier * inverseMultiplier = 1#64 := by decide
  calc s = s * multiplier * inverseMultiplier := by rw [BitVec.mul_assoc, hone, BitVec.mul_one]
    _ = t * multiplier * inverseMultiplier := by rw [hproduct]
    _ = t := by rw [BitVec.mul_assoc, hone, BitVec.mul_one]

theorem output_eq_zero_iff (s : Word) : output s = 0 ↔ s = 0 :=
  output_injective.eq_iff' (by decide)

theorem state_iterate_step (r : Xorshift) (n : Nat) :
    (step^[n] r).state = scramble^[n] r.state := by
  induction n with
  | zero => rfl
  | succ n ih => rw [Function.iterate_succ_apply', Function.iterate_succ_apply', ← ih]; rfl

/-- The output that comes after `n` others. -/
theorem output_iterate_step (r : Xorshift) (n : Nat) :
    (step^[n] r).next.1 = output (scramble^[n + 1] r.state) := by
  rw [Function.iterate_succ_apply', ← state_iterate_step]
  rfl

/-- So many draws without bounds give the next outputs, one after the other. -/
theorem times_draw (r : Xorshift) (n : Nat) :
    times n (draw none none) r =
      .ok ((List.range n).map fun i => (step^[i] r).next.1) (step^[n] r) := by
  induction n generalizing r with
  | zero => rfl
  | succ n ih =>
    have hfirst : draw none none r = .ok r.next.1 r.step := rfl
    refine (Act.bind_ok hfirst).trans ((Act.bind_ok (ih r.step)).trans ?_)
    rw [List.range_succ_eq_map, List.map_cons, List.map_map]
    rfl

theorem draws_eq_iff (r r' : Xorshift) :
    (∀ n, ((times n (draw none none)).outcome r).1 = ((times n (draw none none)).outcome r').1) ↔
      scramble r.state = scramble r'.state := by
  simp only [Act.outcome_of_ok (times_draw _ _), Except.ok.injEq, output_iterate_step]
  constructor
  · intro h
    have hfirst := h 1
    simp only [List.range_one, List.map_cons, List.map_nil, List.cons.injEq, and_true] at hfirst
    exact output_injective hfirst
  · intro h n
    simp only [Function.iterate_succ_apply, h]

theorem toInt_not (s : Word) : (~~~s).toInt = -1 - s.toInt := by
  have h := s.isLt
  rw [BitVec.toInt_eq_toNat_cond, BitVec.toInt_eq_toNat_cond, BitVec.toNat_not]
  omega

theorem initialSeed_ofSeed (n : Int) :
    (ofSeed n).initialSeed = if Word.wrap n = 0 then 1 else Word.wrap n := by
  have hzero : BitVec.ofInt 64 n = 0 ↔ Word.wrap n = 0 := BitVec.toInt_inj.symm
  unfold initialSeed ofSeed
  simp only [hzero]
  split
  · decide
  · rfl

theorem state_ofSeed_eq_minus_one_iff (n : Int) : (ofSeed n).state = -1 ↔ Word.wrap n = -1 := by
  rw [← BitVec.toInt_inj]
  show (ofSeed n).initialSeed = -1 ↔ _
  rw [initialSeed_ofSeed]
  split <;> omega

/-- The generator comes to the state zero from the seed minus one only, though from there at once;
then all its outputs are zero, and draws from a range without zero that outputs cannot be folded
into go on for ever. -/
theorem zero_iff_minus_one (seed : Int) :
    (∀ n, (step^[n] (ofSeed seed)).state = 0 ↔ 0 < n ∧ Word.wrap seed = -1) ∧
    (∀ n, (step^[n] (ofSeed seed)).next.1 = 0 ↔ Word.wrap seed = -1) ∧
    ∀ lo hi, widthFits lo hi = false → lo ≤ hi → ¬ (lo ≤ 0 ∧ 0 ≤ hi) → Word.wrap seed = -1 →
      ∃ endless after,
        between lo hi (ofSeed seed) = .error (.unreachableRange lo hi endless) after := by
  have hstates : ∀ n, scramble^[n + 1] (ofSeed seed).state = 0 ↔ Word.wrap seed = -1 := by
    intro n
    rw [iterate_eq_zero_iff, or_iff_right (state_ofSeed_ne_zero seed),
      state_ofSeed_eq_minus_one_iff]
  refine ⟨?_, ?_, ?_⟩
  · intro n
    rw [state_iterate_step]
    cases n with
    | zero => simpa using state_ofSeed_ne_zero seed
    | succ n => simpa using hstates n
  · intro n
    rw [output_iterate_step, output_eq_zero_iff]
    exact hstates n
  · intro lo hi hfits hle hzero hseed
    have hmisses : (ofSeed seed).Misses lo hi := by
      intro n
      rwa [(output_eq_zero_iff _).mpr ((hstates n).mpr hseed)]
    obtain ⟨endless, h⟩ := between_of_misses hle hfits hmisses
    exact ⟨endless, _, h⟩

/-- A seed beyond the words that wraps to minus one, and one that does not. -/
theorem zero_iff_minus_one_wrapped :
    (step^[1] (ofSeed 18446744073709551615)).state = 0 ∧
      (step^[1000000] (ofSeed 18446744073709551615)).next.1 = 0 ∧
      (step^[1000000] (ofSeed 18446744073709551617)).next.1 ≠ 0 ∧
      ∃ endless after, between Word.least (-1) (ofSeed 18446744073709551615) =
        .error (.unreachableRange Word.least (-1) endless) after := by
  obtain ⟨hstates, houtputs, hendless⟩ := zero_iff_minus_one 18446744073709551615
  have hother := (zero_iff_minus_one 18446744073709551617).2.1 1000000
  exact ⟨(hstates 1).mpr (by decide), (houtputs 1000000).mpr (by decide),
    mt hother.mp (by decide),
    hendless Word.least (-1) (by decide) (by decide) (by decide) (by decide)⟩

/-- The seed zero is replaced so as not to lock the generator, but the seed minus one is not. -/
theorem locked_at_minus_one :
    (ofSeed (-1)).step.state = 0 ∧ (ofSeed (-1)).next.1 = 0 ∧
      (ofSeed (-1)).Misses Word.least (-1) := by
  exact ⟨by decide, by decide, misses_of_stuck (by decide) (by decide)⟩

/-- Every state is followed by one that is not negative, and the states that are not negative are
permuted, zero staying where it is; so from its first successor on every state comes back. The draws
of two generators agree for ever if their seeds are the same or complements, and only then. -/
theorem successors_and_draws :
    (∀ r : Xorshift, 0 ≤ r.next.2.state.toInt ∧ r.next.2.state.toInt ≤ Word.greatest) ∧
    Set.BijOn scramble nonnegative nonnegative ∧ scramble 0 = 0 ∧
    (∀ r : Xorshift, ∃ p, 0 < p ∧ ∀ n, (step^[n + 1 + p] r).state = (step^[n + 1] r).state) ∧
    ∀ a b : Int,
      (∀ n, ((times n (draw none none)).outcome (ofSeed a)).1 =
        ((times n (draw none none)).outcome (ofSeed b)).1) ↔
      (ofSeed a).initialSeed = (ofSeed b).initialSeed ∨
        (ofSeed a).initialSeed = -1 - (ofSeed b).initialSeed := by
  refine ⟨?_, scramble_bijOn, by decide, ?_, ?_⟩
  · intro r
    exact ⟨scramble_nonnegative r.state, Word.toInt_le_greatest _⟩
  · intro r
    obtain ⟨p, hp, hback⟩ := exists_period r.state
    refine ⟨p, hp, fun n => ?_⟩
    rw [state_iterate_step, state_iterate_step, hback]
  · intro a b
    rw [draws_eq_iff, scramble_eq_iff, ← BitVec.toInt_inj, ← BitVec.toInt_inj, toInt_not]
    rfl

end Refute.Xorshift

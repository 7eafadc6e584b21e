import Mathlib.Data.Fintype.Pigeonhole
import Refute.Proofs.Draws

namespace Refute

namespace Xorshift

/-- None of the outputs to come, however many, lies between the bounds. -/
def Misses (r : Xorshift) (lo hi : Int) : Prop :=
  ∀ n, ¬ (lo ≤ output (scramble^[n + 1] r.state) ∧ output (scramble^[n + 1] r.state) ≤ hi)

theorem firstWithin_skips (h : firstWithin lo hi fuel r = none) (hn : n < fuel) :
    ¬ (lo ≤ output (scramble^[n + 1] r.state) ∧ output (scramble^[n + 1] r.state) ≤ hi) := by
  induction fuel generalizing r n with
  | zero => exact absurd hn (Nat.not_lt_zero n)
  | succ fuel ih =>
    rw [firstWithin_succ] at h
    split at h
    · cases h
    · rename_i hraw
      rw [Bool.and_eq_true, decide_eq_true_eq, decide_eq_true_eq] at hraw
      cases n with
      | zero => exact hraw
      | succ n => exact ih (r := r.next.2) h (by omega)

/-- Among more states in a row than there are words, one comes twice. -/
theorem exists_recurrence (s : Word) :
    ∃ i j, i < j ∧ j ≤ cycleBound ∧ scramble^[i] s = scramble^[j] s := by
  obtain ⟨i, j, hne, hij⟩ := Fintype.exists_ne_map_eq_of_card_lt
    (fun k : Fin (2 ^ 64 + 1) => (scramble^[k] s).toFin) (by simp)
  have heq : scramble^[i] s = scramble^[j] s := BitVec.toFin_inj.mp hij
  have hbound : cycleBound = 2 ^ 64 := by
    unfold cycleBound
    decide
  rcases Nat.lt_or_gt_of_ne (Fin.val_ne_of_ne hne) with hlt | hlt
  · exact ⟨i, j, hlt, by omega, heq⟩
  · exact ⟨j, i, hlt, by omega, heq.symm⟩

/-- The states that come later all came among the first. -/
theorem exists_early (s : Word) (n : Nat) :
    ∃ m, m < cycleBound ∧ scramble^[m] s = scramble^[n] s := by
  obtain ⟨i, j, hlt, hj, heq⟩ := exists_recurrence s
  induction n using Nat.strongRecOn with
  | ind n ih =>
    by_cases hn : n < cycleBound
    · exact ⟨n, hn, rfl⟩
    · obtain ⟨m, hm, hms⟩ := ih (n - j + i) (by omega)
      refine ⟨m, hm, hms.trans ?_⟩
      rw [Function.iterate_add_apply, heq, ← Function.iterate_add_apply]
      congr
      omega

/-- What is given up for want of a fitting output would never have had one. -/
theorem misses_of_firstWithin (h : firstWithin lo hi cycleBound r = none) : r.Misses lo hi := by
  intro n
  obtain ⟨m, hm, heq⟩ := exists_early (scramble r.state) n
  have hskips := firstWithin_skips h hm
  rwa [Function.iterate_succ_apply, heq, ← Function.iterate_succ_apply] at hskips

theorem firstWithin_of_misses {r : Xorshift} (h : r.Misses lo hi) (fuel : Nat) :
    firstWithin lo hi fuel r = none := by
  induction fuel generalizing r with
  | zero => rfl
  | succ fuel ih =>
    have hfirst : ¬ (lo ≤ r.next.1 && r.next.1 ≤ hi) = true := by
      rw [Bool.and_eq_true, decide_eq_true_eq, decide_eq_true_eq]
      exact h 0
    rw [firstWithin_succ, if_neg hfirst]
    exact ih fun n => h (n + 1)

theorem between_of_misses {r : Xorshift} (hle : lo ≤ hi) (wide : widthFits lo hi = false)
    (h : r.Misses lo hi) :
    ∃ endless, between lo hi r = .error (.unreachableRange lo hi endless) r.next.2 := by
  rw [between_of_wide hle wide, skip_of_none (firstWithin_of_misses h cycleBound)]
  exact ⟨_, rfl⟩

/-- From the state zero no generator moves on. -/
theorem misses_of_stuck {r : Xorshift} (hr : scramble r.state = 0) (h : ¬ (lo ≤ 0 ∧ 0 ≤ hi)) :
    r.Misses lo hi := by
  intro n
  have hstate : scramble^[n + 1] r.state = 0 := by
    rw [Function.iterate_succ_apply, hr]
    exact Function.iterate_fixed (by decide) n
  have houtput : output 0 = 0 := by decide
  rwa [hstate, houtput]

end Xorshift

namespace Fault

/-- Comes of a draw from a range that no output can be folded into, where of the outputs to come,
skipped one after the other, none lies in the range. -/
inductive Endless : Fault → Prop where
  | draw {lo hi : Int} {r : Xorshift} (endless : Xorshift.Unreachable lo hi)
      (wide : Xorshift.widthFits lo hi = false) (misses : r.Misses lo hi) :
      Endless (.unreachableRange lo hi endless)
  | during {earlier later : Fault} : Endless later → Endless (.during earlier later)

theorem endless_unreachableRange (endless : Xorshift.Unreachable lo hi) :
    (Fault.unreachableRange lo hi endless).Endless := by
  obtain ⟨r, hskips⟩ := endless.skips
  exact .draw endless endless.wide (Xorshift.misses_of_firstWithin hskips)

/-- What ends a run as a draw that goes on for ever is one. -/
theorem endless_iff {fault : Fault} : fault.Endless ↔ fault.isEndless = true := by
  constructor
  · intro h
    induction h with
    | draw => rfl
    | during _ ih => exact ih
  · intro h
    induction fault with
    | unreachableRange _ _ endless => exact endless_unreachableRange endless
    | during _ _ _ ih => exact .during (ih h)
    | _ => cases h

theorem not_endless_of_exhausted {fault : Fault} (h : fault.isExhausted = true) :
    fault.isEndless = false := by
  cases he : fault.isEndless with
  | false => rfl
  | true => exact h.symm.trans (not_exhausted_of_endless he)

theorem Endless.not_exhausted {fault : Fault} (h : fault.Endless) : fault.isExhausted = false :=
  not_exhausted_of_endless (endless_iff.mp h)

end Fault

theorem Xorshift.between_endless (hle : lo ≤ hi) (h : between lo hi r = .error fault r') :
    fault.Endless := by
  obtain ⟨-, -, endless, rfl⟩ := between_eq_error hle h
  exact Fault.endless_unreachableRange endless

/-- Of the ranges without negative words, only that of all of them is too wide. -/
theorem Xorshift.full_of_widthFits (low : 0 ≤ lo) (hle : lo ≤ hi) (high : hi ≤ Word.greatest)
    (h : widthFits lo hi = false) : lo = 0 ∧ hi = Word.greatest := by
  simp only [widthFits, Bool.or_eq_false_iff, Bool.and_eq_false_iff, decide_eq_false_iff_not] at h
  simp only [Word.greatest, Word.least] at h high ⊢
  omega

theorem Sampler.draw_endless {s s' : Scene σ} (h : draw b s = .error fault s') :
    Xorshift.widthFits b.lo b.hi = false ∧ fault.Endless := by
  obtain ⟨endless, rfl⟩ := draw_stuck h
  exact ⟨endless.wide, Fault.endless_unreachableRange endless⟩

end Refute

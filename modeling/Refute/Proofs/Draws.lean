import Refute.Gen.Sampler

namespace Refute

namespace Xorshift

/-- Both branches of the folding land between the bounds, whatever the output was. -/
theorem fold_mem (h : lo ≤ hi) (raw : Int) : lo ≤ fold lo hi raw ∧ fold lo hi raw ≤ hi := by
  have hw : 0 < hi - lo + 1 := by omega
  have hl := Int.lt_tmod_of_pos raw hw
  have hu := Int.tmod_lt_of_pos raw hw
  simp only [fold]
  split <;> omega

theorem firstWithin_mem (h : firstWithin lo hi fuel r = some (v, r')) : lo ≤ v ∧ v ≤ hi := by
  induction fuel generalizing r with
  | zero => cases h
  | succ fuel ih =>
    simp only [firstWithin] at h
    split at h
    · rename_i hv
      cases h
      simpa using hv
    · exact ih h

theorem skip_eq_ok {wide : widthFits lo hi = false} (h : skip lo hi wide r = .ok v r') :
    firstWithin lo hi cycleBound r = some (v, r') := by
  cases hfirst : firstWithin lo hi cycleBound r with
  | none =>
    rw [skip_of_none hfirst] at h
    cases h
  | some first =>
    rw [skip_of_some hfirst] at h
    cases h
    rfl

theorem skip_eq_error {wide : widthFits lo hi = false} (h : skip lo hi wide r = .error fault r') :
    firstWithin lo hi cycleBound r = none ∧ r' = r.next.2 ∧
      ∃ endless, fault = .unreachableRange lo hi endless := by
  cases hfirst : firstWithin lo hi cycleBound r with
  | none =>
    rw [skip_of_none hfirst] at h
    cases h
    exact ⟨rfl, rfl, _, rfl⟩
  | some first =>
    rw [skip_of_some hfirst] at h
    cases h

theorem between_mem (h : between lo hi r = .ok v r') : lo ≤ v ∧ v ≤ hi := by
  unfold between at h
  split at h
  · cases h
  · rename_i hle
    split at h
    · cases h
      exact fold_mem (by omega) _
    · exact firstWithin_mem (skip_eq_ok h)

/-- Only skipped outputs keep a draw from a range that is not empty from a value. -/
theorem between_eq_error (hle : lo ≤ hi) (h : between lo hi r = .error fault r') :
    firstWithin lo hi cycleBound r = none ∧ r' = r.next.2 ∧
      ∃ endless, fault = .unreachableRange lo hi endless := by
  cases hfits : widthFits lo hi with
  | true =>
    rw [between_of_fits hle hfits] at h
    cases h
  | false =>
    rw [between_of_wide hle hfits] at h
    exact skip_eq_error h

theorem state_ofSeed_ne_zero (n : Int) : (ofSeed n).state ≠ 0 := by
  unfold ofSeed
  dsimp only
  split
  · decide
  · assumption

/-- The last shift copies the sign onto itself, which clears it. -/
theorem msb_scramble (s : Word) : (scramble s).msb = false := by
  simp [scramble, BitVec.msb_sshiftRight]

theorem msb_next (r : Xorshift) : r.next.2.state.msb = false :=
  msb_scramble r.state

theorem firstWithin_succ (lo hi : Int) (fuel : Nat) (r : Xorshift) :
    firstWithin lo hi (fuel + 1) r =
      if lo ≤ r.next.1 && r.next.1 ≤ hi then some (r.next.1, r.next.2)
      else firstWithin lo hi fuel r.next.2 := by
  rw [firstWithin]

theorem msb_firstWithin (h : firstWithin lo hi fuel r = some (v, r')) :
    r'.state.msb = false := by
  induction fuel generalizing r with
  | zero => cases h
  | succ fuel ih =>
    rw [firstWithin_succ] at h
    split at h
    · cases h
      exact msb_next r
    · exact ih h

/-- A draw from a range that is not empty takes at least one step, even where none reaches it. -/
theorem msb_between (h : lo ≤ hi) (r : Xorshift) :
    (Act.outcome (between lo hi) r).2.state.msb = false := by
  cases hb : between lo hi r with
  | error fault r' =>
    obtain ⟨-, rfl, -⟩ := between_eq_error h hb
    rw [Act.outcome_of_error hb]
    exact msb_next r
  | ok v r' =>
    rw [Act.outcome_of_ok hb]
    cases hfits : widthFits lo hi with
    | true =>
      rw [between_of_fits h hfits] at hb
      cases hb
      exact msb_next r
    | false =>
      rw [between_of_wide h hfits] at hb
      exact msb_firstWithin (skip_eq_ok hb)

end Xorshift

namespace Source

theorem drawFresh_ok (h : drawFresh b s = .ok v s') :
    b.allows v ∧ ∃ random, s' = { s with random }.record ⟨b, v⟩ := by
  unfold drawFresh at h
  split at h
  · rename_i hb
    cases h
    exact ⟨Bounds.allows_iff.mpr (Xorshift.between_mem hb), _, rfl⟩
  · cases h

/-- Whoever answered, the answer fits, and it is what was recorded. -/
theorem next_ok (h : next b s = .ok v s') :
    b.allows v ∧ ∃ random forced, s' = { s with random, forced }.record ⟨b, v⟩ := by
  unfold next at h
  split at h
  · obtain ⟨hv, random, rfl⟩ := drawFresh_ok h
    exact ⟨hv, random, s.forced, rfl⟩
  · split at h
    · rename_i hv
      cases h
      exact ⟨hv, s.random, _, rfl⟩
    · obtain ⟨hv, random, rfl⟩ := drawFresh_ok h
      exact ⟨hv, random, s.forced, rfl⟩

theorem drawFresh_eq_error (h : drawFresh b s = .error fault s') :
    ∃ random, Xorshift.between b.lo b.hi s.random = .error fault random ∧
      s' = { s with random } := by
  unfold drawFresh at h
  split at h
  · cases h
  · rename_i random hb
    cases h
    exact ⟨random, hb, rfl⟩

/-- Only the generator keeps a draw from a value, and nothing else has changed by then. -/
theorem next_eq_error (h : next b s = .error fault s') :
    ∃ random, Xorshift.between b.lo b.hi s.random = .error fault random ∧
      s' = { s with random } := by
  unfold next at h
  split at h
  · exact drawFresh_eq_error h
  · split at h
    · cases h
    · exact drawFresh_eq_error h

/-- A draw that gives no value names the bounds that it was to meet. -/
theorem next_stuck (h : next b s = .error fault s') :
    (∃ endless, fault = .unreachableRange b.lo b.hi endless) ∧
      ∃ random, s' = { s with random } := by
  obtain ⟨random, hb, hs⟩ := next_eq_error h
  obtain ⟨-, -, hfault⟩ := Xorshift.between_eq_error b.lo_le_hi hb
  exact ⟨hfault, random, hs⟩

theorem msb_drawFresh (b : Bounds) (s : Source) :
    (Act.outcome (drawFresh b) s).2.random.state.msb = false := by
  have hb := Xorshift.msb_between b.lo_le_hi s.random
  cases hd : Xorshift.between b.lo b.hi s.random with
  | ok v random =>
    rw [Act.outcome_of_ok hd] at hb
    have hs : drawFresh b s = .ok v ({ s with random }.record ⟨b, v⟩) := by
      simp only [drawFresh, hd]
    rw [Act.outcome_of_ok hs]
    exact hb
  | error fault random =>
    rw [Act.outcome_of_error hd] at hb
    have hs : drawFresh b s = .error fault { s with random } := by
      simp only [drawFresh, hd]
    rw [Act.outcome_of_error hs]
    exact hb

/-- The forced values alone settle whether the generator is asked. -/
theorem next_forced_or_fresh (b : Bounds) (s : Source) :
    (∃ v rest, s.forced = v :: rest ∧ b.allows v = true) ∨
      ∀ random, next b { s with random } = drawFresh b { s with random } := by
  cases hf : s.forced with
  | nil => exact .inr fun random => by simp only [next]
  | cons v rest =>
    cases hv : b.allows v with
    | true => exact .inl ⟨v, rest, rfl, hv⟩
    | false => exact .inr fun random => by simp [next, hv]

end Source

theorem Sampler.draw_stuck {s s' : Scene σ} (h : draw b s = .error fault s') :
    ∃ endless, fault = .unreachableRange b.lo b.hi endless := by
  unfold draw onSource Act.within at h
  split at h
  · cases h
  · rename_i hn
    cases h
    exact (Source.next_stuck hn).1

end Refute

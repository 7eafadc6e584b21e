import Refute.Journal

namespace Refute

/-- The predicate is false of the value, or raises something else than that attempts gave out. One
that goes on for ever does not. -/
inductive Falsifies (holds : α → Except Fault Bool) (a : α) : Option Fault → Prop where
  | answered : holds a = .ok false → Falsifies holds a none
  | raised : holds a = .error fault → fault.isExhausted = false → fault.isEndless = false →
      Falsifies holds a (some fault)

theorem not_falsifies_of_holds {holds : α → Except Fault Bool} (h : holds a = .ok true) :
    ¬ Falsifies holds a cause := by
  rintro (hf | ⟨hf, -⟩) <;> rw [h] at hf <;> cases hf

theorem not_falsifies_of_error {holds : α → Except Fault Bool} (h : holds a = .error fault)
    (hx : fault.isExhausted = true ∨ fault.isEndless = true) : ¬ Falsifies holds a cause := by
  rintro (hf | ⟨hf, hx', he'⟩)
  · rw [h] at hf
    cases hf
  · rw [h] at hf
    cases hf
    rw [hx', he'] at hx
    rcases hx with hx | hx <;> cases hx

namespace Property

variable {p : Property σ α β} {attempts : Int}

theorem generate_ok {lab lab' : Lab σ β} (h : p.generate attempts forced lab = .ok e lab') :
    p.gen.generate attempts forced (lab.random, lab.world) = .ok e (lab'.random, lab'.world) ∧
      lab'.journal =
        .generated forced e.trace e.rejected (p.outcome e.value lab'.world) :: lab.journal := by
  unfold generate at h
  split at h
  · rename_i hg
    cases h
    exact ⟨hg, rfl⟩
  · cases h

theorem generate_error {lab lab' : Lab σ β}
    (h : p.generate attempts forced lab = .error fault lab') :
    p.gen.generate attempts forced (lab.random, lab.world) =
        .error fault (lab'.random, lab'.world) ∧
      lab'.journal = .notGenerated forced fault :: lab.journal := by
  unfold generate at h
  split at h
  · cases h
  · rename_i hg
    cases h
    exact ⟨hg, rfl⟩

/-- The property may draw from the source of its example, but changes neither the value nor what
was counted when it was generated. -/
theorem examine_ok {lab lab' : Lab σ β} (h : p.examine e lab = .ok (verdict, e') lab') :
    lab'.journal = .tested (p.outcome e.value lab'.world) verdict :: lab.journal ∧
      e'.value = e.value ∧ e'.rejected = e.rejected := by
  unfold examine at h
  dsimp only at h
  split at h
  · cases h
    exact ⟨rfl, rfl, rfl⟩
  · cases h
    exact ⟨rfl, rfl, rfl⟩
  · split at h
    · cases h
    · cases h
      exact ⟨rfl, rfl, rfl⟩

theorem examine_error {lab lab' : Lab σ β} (h : p.examine e lab = .error fault lab') :
    (fault.isExhausted = true ∨ fault.isEndless = true) ∧
      lab'.journal = .untested (p.outcome e.value lab'.world) fault :: lab.journal := by
  unfold examine at h
  dsimp only at h
  split at h
  · cases h
  · cases h
  · split at h
    · rename_i hf
      cases h
      exact ⟨Bool.or_eq_true_iff.mp hf, rfl⟩
    · cases h

/-- A property of values alone leaves the trace of its example as it was. -/
theorem examine_ofPredicate {gen : Gen σ α} {holds : α → Except Fault Bool}
    {lab lab' : Lab σ α} (h : (ofPredicate gen holds).examine e lab = .ok (verdict, e') lab') :
    e'.trace = e.trace ∧
      match verdict with
      | .holds => holds e.value = .ok true
      | .fails cause => Falsifies holds e.value cause := by
  unfold examine ofPredicate at h
  dsimp only at h
  cases hv : holds e.value with
  | ok answer =>
    rw [hv] at h
    cases answer with
    | true =>
      cases h
      exact ⟨rfl, rfl⟩
    | false =>
      cases h
      exact ⟨rfl, .answered hv⟩
  | error fault =>
    rw [hv] at h
    simp only [Act.ofExcept, Act.fail_apply] at h
    split at h
    · cases h
    · rename_i hf
      cases h
      rw [Bool.or_eq_true, not_or, Bool.not_eq_true, Bool.not_eq_true] at hf
      exact ⟨rfl, .raised hv hf.1 hf.2⟩

theorem examine_ofPredicate_error {gen : Gen σ α} {holds : α → Except Fault Bool}
    {lab lab' : Lab σ α} (h : (ofPredicate gen holds).examine e lab = .error fault lab') :
    holds e.value = .error fault ∧ (fault.isExhausted = true ∨ fault.isEndless = true) := by
  have hf := (examine_error h).1
  unfold examine ofPredicate at h
  dsimp only at h
  cases hv : holds e.value with
  | ok answer =>
    rw [hv] at h
    cases answer <;> cases h
  | error other =>
    rw [hv] at h
    simp only [Act.ofExcept, Act.fail_apply] at h
    split at h
    · cases h
      exact ⟨rfl, hf⟩
    · cases h

end Property

end Refute

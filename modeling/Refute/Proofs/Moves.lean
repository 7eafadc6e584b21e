import Refute.Proofs.Descent
import Refute.Proofs.Endless

namespace Refute

namespace Shrink

theorem destination_error (h : destination b r = .error fault r') : fault.Endless := by
  unfold destination at h
  cases ht : b.target with
  | some t =>
    rw [ht] at h
    cases h
  | none =>
    rw [ht] at h
    exact Xorshift.between_endless b.lo_le_hi h

/-- A place between the first value and the last is one of the trace. -/
theorem get_of_place {t : Trace} (hl : i ≤ (t.length : Int) - 1) (h0 : 0 ≤ i) :
    ∃ d, t.get i = .ok d := by
  obtain ⟨n, rfl⟩ := Int.eq_ofNat_of_zero_le h0
  have hn : n < t.length := by omega
  refine ⟨t[n], ?_⟩
  simp only [Trace.get, itemAt?_natCast, List.getElem?_eq_getElem hn]

theorem randomMove_ok (h : randomMove t values r = .ok moved r') :
    moved.length = values.length := by
  obtain ⟨index, r₁, -, h⟩ := Act.bind_eq_ok.mp h
  obtain ⟨d, r₂, -, h⟩ := Act.bind_eq_ok.mp h
  obtain ⟨target, r₃, -, h⟩ := Act.bind_eq_ok.mp h
  split at h
  · cases h
    rfl
  · obtain ⟨v, r₄, -, h⟩ := Act.bind_eq_ok.mp h
    cases h
    exact List.length_set

theorem randomMove_error {t : Trace} (hl : values.length = t.length) (ht : t ≠ [])
    (h : randomMove t values r = .error fault r') : fault.Endless := by
  have hp : 0 < t.length := List.length_pos_iff.mpr ht
  rcases Act.bind_eq_error.mp h with h | ⟨index, r₁, hi, h⟩
  · exact Xorshift.between_endless (by omega) h
  have hm := Xorshift.between_mem hi
  rcases Act.bind_eq_error.mp h with h | ⟨d, r₂, -, h⟩
  · obtain ⟨d, hd⟩ := get_of_place (t := t) (by omega) hm.1
    rw [hd] at h
    cases h
  rcases Act.bind_eq_error.mp h with h | ⟨target, r₃, -, h⟩
  · exact destination_error h
  split at h
  · cases h
  · rcases Act.bind_eq_error.mp h with h | ⟨v, r₄, -, h⟩
    · exact Xorshift.between_endless (by omega) h
    · cases h

theorem changedMove_error {t : Trace} (ht : t ≠ []) (h : changedMove t r = .error fault r') :
    fault.Endless := by
  rcases Act.bind_eq_error.mp h with h | ⟨candidate, r₁, hc, h⟩
  · exact randomMove_error t.length_values ht h
  have hl : candidate.length = t.length := (randomMove_ok hc).trans t.length_values
  split at h
  · cases h
  rcases Act.bind_eq_error.mp h with h | ⟨again, r₂, ha, h⟩
  · exact randomMove_error hl ht h
  · exact randomMove_error ((randomMove_ok ha).trans hl) ht h

end Shrink

namespace Proposals

/-- Only such faults can keep a candidate from being made. -/
def FailsOnly (P : Fault → Prop) : Proposals → Prop
  | .done => True
  | .next propose rest =>
    (∀ r fault r', propose r = .error fault r' → P fault) ∧ ∀ r, FailsOnly P (rest r)

variable {P : Fault → Prop}

theorem FailsOnly.ofList {after : Proposals} (h : after.FailsOnly P)
    (candidates : List (List Int)) : (Proposals.ofList candidates after).FailsOnly P := by
  induction candidates with
  | nil => exact h
  | cons candidate candidates ih => exact ⟨nofun, fun _ => ih⟩

theorem FailsOnly.repeated (h : ∀ r fault r', propose r = .error fault r' → P fault) (n : Nat) :
    (Proposals.repeated propose n).FailsOnly P := by
  induction n with
  | zero => exact trivial
  | succ n ih => exact ⟨h, fun _ => ih⟩

theorem targeted_failsOnly (moves : Nat) (t : Trace) :
    (Shrink.targeted moves t).FailsOnly Fault.Endless := by
  rw [Shrink.targeted_eq]
  split
  · exact trivial
  · rename_i ht
    refine .ofList (.repeated (fun _ _ _ h => ?_) moves) _
    exact Shrink.changedMove_error (fun he => ht (by rw [he]; rfl)) h

end Proposals

namespace Descent

variable {p : Property σ α β} {P : Fault → Prop}

theorem Pass.failsOnly {fault : Fault} {d d' : Descent σ α β} (hf : ps.FailsOnly P)
    (h : Pass p attempts budget ps d (some (.fault fault)) d') : P fault := by
  generalize hr : some (Ending.fault fault) = result at h
  induction h with
  | done | spent | accepted | exhausted | endless => cases hr
  | unmade _ hp =>
    cases hr
    exact hf.1 _ _ _ hp
  | tried _ _ _ _ ih | discarded _ _ _ _ _ ih => exact ih (hf.2 _) hr

theorem Course.failsOnly {fault : Fault} {d d' : Descent σ α β} (hf : ∀ t, (propose t).FailsOnly P)
    (h : Course p attempts propose budget n d (.fault fault) d') : P fault := by
  generalize hr : Ending.fault fault = ending at h
  induction h with
  | outOfCycles | spent | trivial => cases hr
  | last _ _ _ hp =>
    subst hr
    exact hp.failsOnly (hf _)
  | more _ _ _ _ ih => exact ih hr

end Descent

/-- Shrinking fails only where a random move is drawn for ever, or a replay never ends. -/
theorem Property.shrink_targeted_fault {p : Property σ α β} {lab : Lab σ β} {e : Example α}
    (h : p.shrink attempts (Shrink.targeted moves) replays lab e = (ending, d))
    (hf : ending.fault? = some fault) : fault.Endless := by
  have hc := Descent.course_of_run h
  cases ending with
  | fault fault =>
    cases hf
    exact hc.failsOnly fun t => Proposals.targeted_failsOnly moves t
  | endless fault =>
    cases hf
    obtain ⟨c, d₁, ho⟩ := hc.outcome_of_endless
    exact Fault.endless_iff.mpr ho.isEndless
  | minimal | trivial | spent | exhausted => cases hf

end Refute

import Mathlib.Data.List.Forall2
import Refute.Gen.Choice
import Refute.Proofs.Encoding
import Refute.Proofs.Endless
import Refute.Proofs.Replay

namespace Refute

/-- The checksum by which a search knows these values. -/
def fingerprintOf (values : List Int) : UInt32 :=
  Checksum.ofBytes (values.flatMap fun v => Word.bytes (BitVec.ofInt 64 v))

/-- Values that single draws with these bounds may answer. -/
abbrev Allowed (bs : List Bounds) (vs : List Int) : Prop :=
  List.Forall₂ (fun b v => b.allows v = true) bs vs

/-- What is recorded when such values are drawn. -/
def drawn (bs : List Bounds) (vs : List Int) : Trace :=
  List.zipWith Draw.mk bs vs

theorem values_drawn (h : Allowed bs vs) : (drawn bs vs).values = vs := by
  induction h with
  | nil => rfl
  | cons _ _ ih => exact congrArg _ ih

namespace Trace

theorem encodable_of_legal {t : Trace} (h : ∀ d ∈ t, d.isLegal = true) : t.Encodable := by
  intro v hv
  obtain ⟨d, hd, rfl⟩ := List.mem_map.mp hv
  obtain ⟨hlo, hhi⟩ := Bounds.allows_iff.mp (h d hd)
  exact ⟨Int.le_trans d.bounds.least_le_lo hlo, Int.le_trans hhi d.bounds.hi_le_greatest⟩

theorem bytes_of_legal {t : Trace} (h : ∀ d ∈ t, d.isLegal = true) :
    t.bytes = .ok (t.values.flatMap fun v => Word.bytes (BitVec.ofInt 64 v)) :=
  bytes_of_encodable (encodable_of_legal h)

theorem fingerprint_drawn (h : Allowed bs vs) :
    (drawn bs vs).fingerprint = .ok (fingerprintOf vs) := by
  have hl : ∀ d ∈ drawn bs vs, d.isLegal = true := by
    induction h with
    | nil => exact List.forall_mem_nil _
    | cons hv _ ih => exact List.forall_mem_cons.mpr ⟨hv, ih⟩
  unfold fingerprint
  rw [bytes_of_legal hl, values_drawn h, fingerprintOf, Except.map]

end Trace

namespace Sampler

/-- Forced values that fit are all served, in order. -/
theorem sequence_draws_forced (h : Allowed bs vs) {s : Scene σ}
    (hs : s.source.forced = vs ++ rest) :
    Act.sequence (bs.map draw) s = .ok vs (s.serve (drawn bs vs) rest) := by
  induction h generalizing s with
  | nil => exact congrArg (EStateM.Result.ok []) (Scene.serve_nil hs).symm
  | @cons b v bs vs hv _ ih =>
    have hd : draw b s = .ok v (s.serve [⟨b, v⟩] (vs ++ rest)) :=
      onSource_of_ok (Source.next_of_forced hs hv)
    have ht := ih (s := s.serve [⟨b, v⟩] (vs ++ rest)) rfl
    rw [Scene.serve_serve] at ht
    exact (Act.bind_ok hd).trans (Act.bind_ok ht)

theorem sequence_draws_ok {s s' : Scene σ} (h : Act.sequence (bs.map draw) s = .ok vs s') :
    s'.source.trace.bounds = s.source.trace.bounds ++ bs := by
  induction bs generalizing s vs with
  | nil =>
    cases h
    exact (List.append_nil _).symm
  | cons b bs ih =>
    obtain ⟨v, s₁, hd, h⟩ := Act.bind_eq_ok.mp h
    obtain ⟨ws, s₂, ht, h⟩ := Act.bind_eq_ok.mp h
    cases h
    obtain ⟨-, random, forced, hs⟩ := Source.next_ok (onSource_ok hd).1
    rw [ih ht, hs, Source.trace_record]
    simp [Trace.bounds, Source.trace]

theorem sequence_draws_error {bs : List Bounds} {s s' : Scene σ}
    (h : Act.sequence (bs.map draw) s = .error fault s') : fault.Endless := by
  induction bs generalizing s with
  | nil => cases h
  | cons b bs ih =>
    rcases Act.bind_eq_error.mp h with h | ⟨v, s₁, -, h⟩
    · exact (draw_endless h).2
    · rcases Act.bind_eq_error.mp h with h | ⟨vs, s₂, -, h⟩
      · exact ih h
      · cases h

end Sampler

namespace Gen

variable [Display Int]

theorem sample_draws (bs : List Bounds) :
    (tuplesOf (σ := σ) (bs.map draw)).sample = Act.sequence (bs.map Sampler.draw) := by
  simp only [tuplesOf, List.map_map]
  rfl

theorem generate_draws_forced (h : Allowed bs vs) (attempts : Int) (s : Xorshift × σ) :
    ∃ e, (tuplesOf (bs.map draw)).generate attempts vs s = .ok e s ∧
      e.value = vs ∧ e.trace = drawn bs vs := by
  have hforced : (Source.start s.1 vs attempts).forced = vs ++ [] := (List.append_nil vs).symm
  have hs := Sampler.sequence_draws_forced h (s := ⟨Source.start s.1 vs attempts, s.2⟩) hforced
  refine ⟨⟨vs, _, 0⟩, ?_, rfl, Source.trace_serve (Source.start s.1 vs attempts) _ []⟩
  unfold generate
  rw [sample_draws, hs]
  rfl

theorem generate_draws_ok {s s' : Xorshift × σ} (bs : List Bounds)
    (h : (tuplesOf (bs.map draw)).generate attempts forced s = .ok e s') :
    e.trace.bounds = bs := by
  unfold generate at h
  rw [sample_draws] at h
  split at h
  · rename_i hs
    cases h
    exact Sampler.sequence_draws_ok hs
  · cases h

theorem generate_draws_error {s s' : Xorshift × σ} (bs : List Bounds)
    (h : (tuplesOf (bs.map draw)).generate attempts forced s = .error fault s') :
    fault.Endless := by
  unfold generate at h
  rw [sample_draws] at h
  split at h
  · cases h
  · rename_i hs
    cases h
    exact Sampler.sequence_draws_error hs

end Gen

end Refute

import Refute.Proofs.Composed
import Refute.Proofs.Draws
import Refute.Property

namespace Refute

namespace Sampler

/-- From this source the body does the same whatever the generator and the world are, and leaves
both alone. -/
def Blind (body : Sampler σ α) (s : Source) : Prop :=
  ∃ (out : Except Fault α) (s' : Source), ∀ random world,
    Act.outcome body ⟨{ s with random }, world⟩ = (out, ⟨{ s' with random }, world⟩)

/-- From this source the body asks the generator, whatever its state. -/
def Asks (body : Sampler σ α) (s : Source) : Prop :=
  ∀ random world,
    (Act.outcome body ⟨{ s with random }, world⟩).2.source.random.state.msb = false

/-- What makes it a matter of the source alone whether the generator is asked. The second part
says that a state that is not negative stays so. -/
structure Decided (body : Sampler σ α) : Prop where
  split : ∀ s, Blind body s ∨ Asks body s
  msb : ∀ s, s.source.random.state.msb = false →
    (Act.outcome body s).2.source.random.state.msb = false

theorem decided_ofExcept (e : Except Fault α) :
    Decided (Act.ofExcept e : Sampler σ α) := by
  constructor
  · intro s
    refine .inl ⟨e, s, fun random world => ?_⟩
    cases e <;> rfl
  · intro s hs
    cases e <;> exact hs

theorem decided_mark : Decided (mark : Sampler σ Nat) :=
  ⟨fun s => .inl ⟨.ok s.recorded.length, s, fun _ _ => rfl⟩, fun _ hs => hs⟩

/-- Acts on a source that neither look at its generator nor touch it. -/
theorem decided_onSource {act : Act Source α}
    (h : ∀ s : Source, ∃ (out : Except Fault α) (s' : Source), ∀ random,
      Act.outcome act { s with random } = (out, { s' with random })) :
    Decided (onSource act : Sampler σ α) := by
  constructor
  · intro s
    obtain ⟨out, s', ho⟩ := h s
    refine .inl ⟨out, s', fun random world => ?_⟩
    rw [outcome_onSource, ho random]
  · intro s hs
    obtain ⟨out, s', ho⟩ := h s.source
    have hr := ho s.source.random
    rw [outcome_onSource, hr]
    exact hs

theorem decided_rollback (start : Nat) : Decided (rollback start : Sampler σ Unit) := by
  refine decided_onSource fun s => ?_
  by_cases h : start ≤ s.recorded.length
  · exact ⟨.ok (), { s with recorded := s.recorded.drop (s.recorded.length - start) },
      fun random => Act.outcome_of_ok (if_pos h)⟩
  · exact ⟨.error (.truncation s.recorded.length start), s,
      fun random => Act.outcome_of_error (if_neg h)⟩

theorem decided_reject : Decided (reject : Sampler σ Unit) := by
  refine decided_onSource fun s => ?_
  by_cases h : s.attempts - (s.rejected + 1 : Nat) ≤ 0
  · exact ⟨.error (.exhausted (s.rejected + 1)), { s with rejected := s.rejected + 1 },
      fun random => Act.outcome_of_error (if_pos h)⟩
  · exact ⟨.ok (), { s with rejected := s.rejected + 1 },
      fun random => Act.outcome_of_ok (if_neg h)⟩

/-- Only a forced value that fits spares the generator. -/
theorem decided_draw (b : Bounds) : Decided (draw b : Sampler σ Int) := by
  constructor
  · intro s
    rcases Source.next_forced_or_fresh b s with ⟨v, rest, hf, hv⟩ | hs
    · refine .inl ⟨.ok v, { s with forced := rest }.record ⟨b, v⟩, fun random world => ?_⟩
      exact Act.outcome_of_ok (onSource_of_ok (Source.next_of_forced hf hv))
    · refine .inr fun random world => ?_
      rw [draw, outcome_onSource, Act.outcome_congr (hs random)]
      exact Source.msb_drawFresh b _
  · intro s hr
    rw [draw, outcome_onSource]
    rcases Source.next_forced_or_fresh b s.source with ⟨v, rest, hf, hv⟩ | hs
    · rw [Act.outcome_of_ok (Source.next_of_forced hf hv)]
      exact hr
    · rw [Act.outcome_congr (hs s.source.random)]
      exact Source.msb_drawFresh b _

theorem msb_bind {body : Sampler σ α} {next : α → Sampler σ β} {s : Scene σ}
    (hm : (Act.outcome body s).2.source.random.state.msb = false)
    (h : ∀ a, Decided (next a)) :
    (Act.outcome (body >>= next) s).2.source.random.state.msb = false := by
  rcases hb : Act.outcome body s with ⟨out, t⟩
  rw [hb] at hm
  cases out with
  | error fault =>
    rw [Act.outcome_bind_error hb]
    exact hm
  | ok a =>
    rw [Act.outcome_bind_ok hb]
    exact (h a).msb t hm

theorem Decided.bind {body : Sampler σ α} {next : α → Sampler σ β} (h : Decided body)
    (h' : ∀ a, Decided (next a)) : Decided (body >>= next) := by
  constructor
  · intro s
    rcases h.split s with ⟨out, s', ho⟩ | ha
    · cases out with
      | error fault =>
        exact .inl ⟨.error fault, s', fun random world => Act.outcome_bind_error (ho random world)⟩
      | ok a =>
        rcases (h' a).split s' with ⟨out, s'', ho'⟩ | ha
        · refine .inl ⟨out, s'', fun random world => ?_⟩
          rw [Act.outcome_bind_ok (ho random world), ho' random world]
        · refine .inr fun random world => ?_
          rw [Act.outcome_bind_ok (ho random world)]
          exact ha random world
    · exact .inr fun random world => msb_bind (ha random world) h'
  · intro s hs
    exact msb_bind (h.msb s hs) h'

theorem Decided.retry {body : Sampler σ α} (h : Decided body) (accept : α → Except Fault Bool)
    (fuel : Nat) : Decided (retry body accept fuel) := by
  induction fuel with
  | zero =>
    exact ⟨fun s => .inl ⟨.error (.exhausted s.rejected), s, fun _ _ => rfl⟩, fun _ hs => hs⟩
  | succ fuel ih =>
    refine decided_mark.bind fun start => h.bind fun a =>
      (decided_ofExcept _).bind fun accepted => ?_
    cases accepted with
    | true => exact decided_ofExcept (.ok a)
    | false => exact (decided_rollback start).bind fun _ => decided_reject.bind fun _ => ih

theorem Plain.decided {body : Sampler σ α} (h : body.Plain) : Decided body := by
  induction h with
  | ofExcept e => exact decided_ofExcept e
  | draw b => exact decided_draw b
  | bind _ _ ih ih' => exact ih.bind ih'
  | assuming accept _ ih =>
    -- The fuel is the source's patience, which the generator has no part in.
    constructor
    · intro s
      exact (ih.retry accept (s.patience + 1)).split s
    · intro s hs
      exact (ih.retry accept (s.source.patience + 1)).msb s hs

end Sampler

namespace Gen

/-- Forced upon `g`, these values leave the generator nothing to be asked for: whatever its state
is, it stays. -/
def Unasked (g : Gen σ α) (attempts : Int) (forced : List Int) : Prop :=
  ∀ random world, (Act.outcome (g.generate attempts forced) (random, world)).2.1 = random

theorem generate_of_outcome_ok {g : Gen σ α} {s : Xorshift × σ}
    (h : Act.outcome g.sample ⟨Source.start s.1 forced attempts, s.2⟩ = (.ok a, scene)) :
    g.generate attempts forced s =
      .ok ⟨a, scene.source, scene.source.rejected⟩ (scene.source.random, scene.world) := by
  simp only [generate, Act.of_outcome_ok h]

theorem generate_of_outcome_error {g : Gen σ α} {s : Xorshift × σ}
    (h : Act.outcome g.sample ⟨Source.start s.1 forced attempts, s.2⟩ = (.error fault, scene)) :
    g.generate attempts forced s = .error fault (scene.source.random, scene.world) := by
  simp only [generate, Act.of_outcome_error h]

theorem random_outcome_generate (g : Gen σ α) (attempts : Int) (forced : List Int)
    (s : Xorshift × σ) : (Act.outcome (g.generate attempts forced) s).2.1 =
      (Act.outcome g.sample ⟨Source.start s.1 forced attempts, s.2⟩).2.source.random := by
  rcases hs : Act.outcome g.sample ⟨Source.start s.1 forced attempts, s.2⟩ with ⟨out, scene⟩
  cases out with
  | ok a => rw [Act.outcome_of_ok (generate_of_outcome_ok hs)]
  | error fault => rw [Act.outcome_of_error (generate_of_outcome_error hs)]

/-- A state with its sign set is gone once the generator was asked. -/
theorem Unasked.not_asks {g : Gen σ α} (h : g.Unasked attempts forced) (random : Xorshift)
    (world : σ) : ¬ Sampler.Asks g.sample (Source.start random forced attempts) := by
  intro ha
  have hm := ha ⟨-1, -1⟩ world
  have hu := h ⟨-1, -1⟩ world
  rw [random_outcome_generate] at hu
  have hs : ({ Source.start random forced attempts with random := ⟨-1, -1⟩ } : Source) =
      Source.start ⟨-1, -1⟩ forced attempts := rfl
  rw [hs, hu] at hm
  exact absurd hm (by decide)

/-- Without the generator there is one outcome for all its states and all worlds. -/
theorem Unasked.generate_eq {g : Gen σ α} (h : g.Unasked attempts forced) (hg : g.sample.Plain)
    (world : σ) :
    (∃ fault, ∀ s, g.generate attempts forced s = .error fault s) ∨
      ∃ (a : α) (source : Source), ∀ s, g.generate attempts forced s =
        .ok ⟨a, { source with random := s.1 }, source.rejected⟩ s := by
  rcases hg.decided.split (Source.start ⟨0, 0⟩ forced attempts) with ⟨out, source, ho⟩ | ha
  · cases out with
    | error fault => exact .inl ⟨fault, fun s => generate_of_outcome_error (ho s.1 s.2)⟩
    | ok a => exact .inr ⟨a, source, fun s => generate_of_outcome_ok (ho s.1 s.2)⟩
  · exact absurd ha (h.not_asks _ world)

theorem Unasked.generate_ok {g : Gen σ α} (h : g.Unasked attempts forced) (hg : g.sample.Plain)
    {s t s' t' : Xorshift × σ} (hs : g.generate attempts forced s = .ok e s')
    (ht : g.generate attempts forced t = .ok e' t') :
    e'.value = e.value ∧ e'.trace = e.trace ∧ e'.rejected = e.rejected := by
  rcases h.generate_eq hg s.2 with ⟨fault, hf⟩ | ⟨a, source, ha⟩
  · rw [hf] at hs
    cases hs
  · rw [ha] at hs ht
    cases hs
    cases ht
    exact ⟨rfl, rfl, rfl⟩

theorem Unasked.generate_error {g : Gen σ α} (h : g.Unasked attempts forced)
    (hg : g.sample.Plain) {s s' : Xorshift × σ}
    (hs : g.generate attempts forced s = .error fault s') (t : Xorshift × σ) :
    g.generate attempts forced t = .error fault t := by
  rcases h.generate_eq hg s.2 with ⟨other, hf⟩ | ⟨a, source, ha⟩
  · rw [hf] at hs
    cases hs
    exact hf t
  · rw [ha] at hs
    cases hs

end Gen

end Refute

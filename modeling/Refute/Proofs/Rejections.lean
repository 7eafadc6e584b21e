import Mathlib.Control.Monad.Basic
import Refute.Proofs.Acceptance
import Refute.Stateful.Step

namespace Refute

namespace Sampler

/-- The source counts no rejection, however the sampler ends. -/
def RejectsNone (body : Sampler σ α) : Prop :=
  ∀ s, (body.outcome s).2.source.rejected = s.source.rejected

end Sampler

theorem Gen.generate_rejected {g : Gen σ α} (h : g.generate attempts forced s = .ok e s') :
    e.rejected = e.source.rejected := by
  unfold Gen.generate at h
  split at h
  · cases h
    rfl
  · cases h

namespace Property

variable {p : Property σ α β}

theorem examine_source {lab lab' : Lab σ β} (h : p.examine e lab = .ok (verdict, e') lab') :
    e'.source = ((p.test e.value).outcome
      ⟨{ e.source with random := lab.random }, lab.world⟩).2.source := by
  unfold examine at h
  dsimp only at h
  split at h
  · rename_i ht
    cases h
    rw [Act.outcome_of_ok ht]
  · rename_i ht
    cases h
    rw [Act.outcome_of_ok ht]
  · rename_i ht
    split at h
    · cases h
    · cases h
      rw [Act.outcome_of_error ht]

theorem examine_rejectsNone (hp : ∀ a, (p.test a).RejectsNone) {lab lab' : Lab σ β}
    (h : p.examine e lab = .ok (verdict, e') lab') : e'.source.rejected = e.source.rejected := by
  rw [examine_source h]
  exact hp e.value _

theorem rejectsNone_ofPredicate (gen : Gen σ α) (holds : α → Except Fault Bool) (a : α) :
    ((ofPredicate gen holds).test a).RejectsNone := by
  intro s
  show ((Act.ofExcept (holds a)).outcome s).2.source.rejected = _
  cases holds a <;> rfl

/-- From the first example to the last that shrinking accepts, no more is rejected to generate one
than was for any before it. If the property rejects nothing while it runs, this is all that their
sources ever counted. -/
theorem shrink_rejections (p : Property σ α β) (attempts : Int) (propose : Trace → Proposals)
    (replays : Nat) (lab : Lab σ β) (first : Example α) :
    ∃ as : List (Acceptance σ α β),
      Acceptance.Chained p attempts propose lab first as
        (p.shrink attempts propose replays lab first).2 ∧
      (∀ a ∈ as, a.kept.rejected = a.made.source.rejected) ∧
      (as.map Acceptance.kept ++ [first]).Pairwise (fun e e' => e.rejected ≤ e'.rejected) ∧
      ((∀ a, (p.test a).RejectsNone) → first.rejected = first.source.rejected →
        (as.map Acceptance.kept ++ [first]).Pairwise
          fun e e' => e.source.rejected ≤ e'.source.rejected) := by
  obtain ⟨as, h⟩ := Acceptance.exists_chained p attempts propose replays lab first
  have hsnapshot : ∀ a ∈ as, a.kept.rejected = a.made.source.rejected := by
    intro a ha
    obtain ⟨_, _, hs⟩ := h.chain.sound ha
    exact (examine_ok hs.falsified).2.2.trans (Gen.generate_rejected (generate_ok hs.replayed).1)
  have hpairwise : (as.map Acceptance.kept ++ [first]).Pairwise
      fun e e' => e.rejected ≤ e'.rejected :=
    h.chain.pairwise_of (R := fun e e' => e.rejected ≤ e'.rejected) Nat.le_trans
      Acceptance.Sound.rejected
  refine ⟨as, h, hsnapshot, hpairwise, fun hp hfirst => ?_⟩
  have hall : ∀ e ∈ as.map Acceptance.kept ++ [first], e.rejected = e.source.rejected := by
    refine List.forall_mem_append.mpr ⟨fun e he => ?_, fun e he => ?_⟩
    · obtain ⟨a, ha, rfl⟩ := List.mem_map.mp he
      obtain ⟨_, _, hs⟩ := h.chain.sound ha
      rw [hsnapshot a ha, examine_rejectsNone hp hs.falsified]
    · obtain rfl := List.mem_singleton.mp he
      exact hfirst
  refine hpairwise.imp_of_mem fun he he' hle => ?_
  rwa [← hall _ he, ← hall _ he']

end Property

namespace Thirds

def third (n : Int) : Except Fault Bool :=
  .ok (n % 3 = 0)

def small (n : Int) : Except Fault Bool :=
  .ok (n ≤ 3)

def gen : Gen Unit Int :=
  (Gen.draw .percent).assuming third

/-- Two values were rejected before this one. -/
def first : Example Int :=
  ⟨90, ⟨.ofSeed 9, [], 50, 2, [⟨.percent, 90⟩]⟩, 2⟩

theorem shrink_rejections_thirds :
    ∃ as : List (Acceptance Unit Int Int),
      ((Property.ofPredicate gen small).shrink 50 (Shrink.targeted 5) 20
        ⟨.ofSeed 9, (), []⟩ first).2.found = [9, 15, 30] ∧
      as.length = 3 ∧
      (as.map Acceptance.kept ++ [first]).Pairwise
        fun e e' => e.source.rejected ≤ e'.source.rejected := by
  obtain ⟨as, h, -, -, hcounts⟩ := Property.shrink_rejections (.ofPredicate gen small) 50
    (Shrink.targeted 5) 20 ⟨.ofSeed 9, (), []⟩ first
  have hfound : ((Property.ofPredicate gen small).shrink 50 (Shrink.targeted 5) 20
      ⟨.ofSeed 9, (), []⟩ first).2.found = [9, 15, 30] := by
    decide +kernel
  have hlength := congrArg List.length h.found
  rw [hfound, List.length_map] at hlength
  exact ⟨as, hfound, hlength.symm, hcounts (Property.rejectsNone_ofPredicate gen small) rfl⟩

end Thirds

namespace Idling

def go : StepBuilder Unit Int where
  desc := "go"
  action _ := pure ()
  args := []
  precondition? := none
  postcondition? := none

def fail : StepBuilder Unit Int :=
  { go with desc := "fail", postcondition? := some (pure false) }

def idle : StepBuilder Unit Int :=
  { go with desc := "idle", precondition? := some (pure false) }

def register : Act (Roster Unit) Unit := do
  Roster.addStep go.build 1
  Roster.addStep fail.build 1
  Roster.addStep idle.build 1

def property : Property (Roster Unit) Unit (Roster Unit) :=
  (Roster.machine () register (pure ())).property 3 3

def start (seed : Int) : Lab (Roster Unit) (Roster Unit) :=
  ⟨.ofSeed seed, .ofSystem (), []⟩

/-- Shrinks the example forced by these values with one replay, and tells its verdict, what its
source counted, how many examples were accepted, and what the source of the last of them counted. -/
def shrinkOnce (forced : List Int) :
    Act (Lab (Roster Unit) (Roster Unit)) (Verdict × Nat × Nat × Nat) := do
  let made ← property.generate 100 forced
  let (verdict, first) ← property.examine made
  let d := (property.shrink 100 (Shrink.targeted 0) 1 (← get) first).2
  return (verdict, first.source.rejected, d.found.length, d.current.source.rejected)

/-- Three steps were chosen at once for the first example; for the one that took its place, which
is shorter, steps were rejected twice. -/
theorem accepted_with_more_rejections :
    ∃ made lab first lab',
      property.generate 100 [0, 3, 0, 0, 1] (start 6) = .ok made lab ∧
      property.examine made lab = .ok (.fails none, first) lab' ∧
      first.source.rejected = 0 ∧
      (property.shrink 100 (Shrink.targeted 0) 1 lab' first).2.found.length = 1 ∧
      (property.shrink 100 (Shrink.targeted 0) 1 lab' first).2.current.source.rejected = 2 := by
  have hcounts : ((shrinkOnce [0, 3, 0, 0, 1]).outcome (start 6)).1 =
      .ok (.fails none, 0, 1, 2) := by
    decide +kernel
  obtain ⟨made, lab, hmade, h⟩ := Act.bind_eq_ok.mp (Act.of_outcome_ok (Act.outcome_eq hcounts))
  obtain ⟨⟨verdict, first⟩, lab', hexamined, h⟩ := Act.bind_eq_ok.mp h
  obtain ⟨_, _, hlab, h⟩ := Act.bind_eq_ok.mp h
  cases hlab
  simp only [Act.pure_apply, EStateM.Result.ok.injEq, Prod.mk.injEq] at h
  obtain ⟨⟨rfl, hfirst, hfound, hcurrent⟩, -⟩ := h
  exact ⟨made, lab, first, lab', hmade, hexamined, hfirst, hfound, hcurrent⟩

end Idling

end Refute

import Refute.Source.Basic

namespace Refute

structure Scene (σ : Type) where
  source : Source
  world : σ

/-- Samplers draw from a source and act on a world of their own: whatever the code under test keeps
between draws. -/
abbrev Sampler (σ : Type) := Act (Scene σ)

namespace Sampler

def onSource (act : Act Source α) : Sampler σ α :=
  Act.within Scene.source (fun source s => { s with source }) act

def onWorld (act : Act σ α) : Sampler σ α :=
  Act.within Scene.world (fun world s => { s with world }) act

def draw (b : Bounds) : Sampler σ Int :=
  onSource (Source.next b)

def reject : Sampler σ Unit :=
  onSource Source.reject

def mark : Sampler σ Nat := fun s =>
  .ok s.source.recorded.length s

def rollback (mark : Nat) : Sampler σ Unit :=
  onSource (Source.rollback mark)

/-- The fuel is spent only after as many rejections, which exhaust the source before. -/
def retry (body : Sampler σ α) (accept : α → Except Fault Bool) : Nat → Sampler σ α
  | 0 => fun s => .error (.exhausted s.source.rejected) s
  | fuel + 1 => do
    let start ← mark
    let a ← body
    if ← Act.ofExcept (accept a) then return a
    rollback start
    reject
    retry body accept fuel

/-- Rolls the source back after a rejected value, so that its draws leave no trace, and stops with
the source's patience. -/
def assuming (body : Sampler σ α) (accept : α → Except Fault Bool) : Sampler σ α := fun s =>
  retry body accept (s.source.patience + 1) s

/-- As many values as asked for, in order. -/
def replicate (body : Sampler σ α) : Nat → Sampler σ (List α)
  | 0 => pure []
  | n + 1 => do
    let a ← body
    let rest ← replicate body n
    return a :: rest

/-- A sampler on part of a larger world. -/
def within (get : τ → σ) (put : σ → τ → τ) (body : Sampler σ α) : Sampler τ α :=
  Act.within (fun s => ⟨s.source, get s.world⟩)
    (fun inner s => ⟨inner.source, put inner.world s.world⟩) body

theorem outcome_onSource (act : Act Source α) (s : Scene σ) :
    (onSource act).outcome s =
      ((act.outcome s.source).1, { s with source := (act.outcome s.source).2 }) :=
  Act.outcome_within ..

theorem outcome_onWorld (act : Act σ α) (s : Scene σ) :
    (onWorld act).outcome s =
      ((act.outcome s.world).1, { s with world := (act.outcome s.world).2 }) :=
  Act.outcome_within ..

theorem onSource_ok {act : Act Source α} {s s' : Scene σ} (h : onSource act s = .ok a s') :
    act s.source = .ok a s'.source ∧ s'.world = s.world := by
  unfold onSource Act.within at h
  cases ha : act s.source with
  | ok b source =>
    rw [ha] at h
    cases h
    exact ⟨rfl, rfl⟩
  | error fault source =>
    rw [ha] at h
    cases h

theorem onWorld_ok {act : Act σ α} {s s' : Scene σ} (h : onWorld act s = .ok a s') :
    act s.world = .ok a s'.world ∧ s'.source = s.source := by
  have ho := outcome_onWorld act s
  rw [Act.outcome_of_ok h] at ho
  obtain ⟨ha, rfl⟩ := Prod.mk.inj ho
  exact ⟨Act.of_outcome_ok (Prod.ext ha.symm rfl), rfl⟩

theorem onSource_of_ok {act : Act Source α} {s : Scene σ} (h : act s.source = .ok a source) :
    onSource act s = .ok a { s with source } := by
  unfold onSource Act.within
  rw [h]

theorem onSource_of_error {act : Act Source α} {s : Scene σ}
    (h : act s.source = .error fault source) :
    onSource act s = .error fault { s with source } := by
  unfold onSource Act.within
  rw [h]

end Sampler

end Refute

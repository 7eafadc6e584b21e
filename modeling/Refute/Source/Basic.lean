import Refute.Trace.Basic
import Refute.Xorshift.Draws

namespace Refute

/-- Where draws are answered: by the forced values while they fit, by the generator otherwise. Every
answer is recorded. -/
structure Source where
  random : Xorshift
  /-- Still to be served. -/
  forced : List Int
  attempts : Int
  rejected : Nat
  /-- Newest first. -/
  recorded : List Draw
deriving DecidableEq

namespace Source

def start (random : Xorshift) (forced : List Int) (attempts : Int) : Source :=
  ⟨random, forced, attempts, 0, []⟩

def trace (s : Source) : Trace :=
  s.recorded.reverse

def record (s : Source) (d : Draw) : Source :=
  { s with recorded := d :: s.recorded }

def drawFresh (b : Bounds) : Act Source Int := fun s =>
  match Xorshift.between b.lo b.hi s.random with
  | .ok v random => .ok v ({ s with random }.record ⟨b, v⟩)
  | .error fault random => .error fault { s with random }

/-- A forced value outside the bounds stays where it is, and blocks those behind it. -/
def next (b : Bounds) : Act Source Int := fun s =>
  match s.forced with
  | [] => drawFresh b s
  | v :: forced =>
    if b.allows v then .ok v ({ s with forced }.record ⟨b, v⟩) else drawFresh b s

/-- Drops what was recorded after the first `mark` draws. -/
def rollback (mark : Nat) : Act Source Unit := fun s =>
  if mark ≤ s.recorded.length then
    .ok () { s with recorded := s.recorded.drop (s.recorded.length - mark) }
  else .error (.truncation s.recorded.length mark) s

/-- Counts a rejected value; the last attempt gone, nothing further can be generated. -/
def reject : Act Source Unit := fun s =>
  let s : Source := { s with rejected := s.rejected + 1 }
  if s.attempts - s.rejected ≤ 0 then .error (.exhausted s.rejected) s else .ok () s

/-- Rejections left before generation gives up. -/
def patience (s : Source) : Nat :=
  (s.attempts - s.rejected).toNat

@[simp] theorem trace_start (random : Xorshift) (forced : List Int) (attempts : Int) :
    (start random forced attempts).trace = [] := rfl

@[simp] theorem trace_record (s : Source) (d : Draw) : (s.record d).trace = s.trace ++ [d] := by
  simp [trace, record]

@[simp] theorem length_trace (s : Source) : s.trace.length = s.recorded.length :=
  List.length_reverse

theorem next_of_forced {s : Source} {b : Bounds} {v : Int} {rest : List Int}
    (h : s.forced = v :: rest) (fits : b.allows v) :
    next b s = .ok v ({ s with forced := rest }.record ⟨b, v⟩) := by
  simp [next, h, fits]

theorem rollback_of_le {s : Source} {mark : Nat} (h : mark ≤ s.trace.length) :
    ∃ s', rollback mark s = .ok () s' ∧ s'.trace = s.trace.take mark ∧
      s'.random = s.random ∧ s'.forced = s.forced ∧
      s'.attempts = s.attempts ∧ s'.rejected = s.rejected := by
  rw [length_trace] at h
  refine ⟨_, if_pos h, ?_, rfl, rfl, rfl, rfl⟩
  simp only [trace, List.reverse_drop]
  rw [show s.recorded.length - (s.recorded.length - mark) = mark by omega]

theorem rollback_of_lt {s : Source} {mark : Nat} (h : s.trace.length < mark) :
    rollback mark s = .error (.truncation s.trace.length mark) s := by
  rw [length_trace] at h ⊢
  exact if_neg (Nat.not_le.mpr h)

end Source

end Refute

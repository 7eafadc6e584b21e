import Refute.Trace.Basic
import Refute.Xorshift.Draws

namespace Refute

namespace Shrink

/-- The target, the middle, one step closer: what is left of these without repetition. -/
def closer (value target : Int) : List Int :=
  let distance := value - target
  if distance = 0 then []
  else
    let step := if 0 < distance then value - 1 else value + 1
    [target, target + distance.tdiv 2, step].eraseDups

/-- What is done to the values of a trace. -/
inductive Edit where
  /-- Only so many values stay, from the first on. -/
  | keep (length : Nat)
  | put (index : Nat) (value : Int)
deriving DecidableEq

def Edit.apply (values : List Int) : Edit → List Int
  | keep length => values.take length
  | put index value => values.set index value

/-- The leading half, where that is not everything or nothing, and all but the last. -/
def shortenings (length : Nat) : List Edit :=
  if 1 < length then [.keep (length / 2), .keep (length - 1)] else [.keep (length - 1)]

/-- The value at one position moved closer to its target. -/
def movesAt (index : Nat) (d : Draw) : List Edit :=
  match d.bounds.target with
  | some t => (closer d.value t).map (.put index)
  | none => []

def edits (t : Trace) : List Edit :=
  shortenings t.length ++ (t.mapIdx movesAt).flatten

/-- What the edits make of a trace. -/
def fixed (t : Trace) : List (List Int) :=
  (edits t).map (Edit.apply t.values)

/-- Where a value is moved: without a target, to anywhere within its bounds. -/
def destination (b : Bounds) : Act Xorshift Int :=
  match b.target with
  | some t => pure t
  | none => Xorshift.between b.lo b.hi

/-- Moves one value at a random position to a random place on its way. -/
def randomMove (t : Trace) (values : List Int) : Act Xorshift (List Int) := do
  let index ← Xorshift.between 0 (values.length - 1)
  let current := values.getD index.toNat 0
  let d ← Act.ofExcept (t.get index)
  let target ← destination d.bounds
  if current = target then return values
  let moved ← Xorshift.between (min current target) (max current target)
  return values.set index.toNat moved

/-- So many moves of the same values or, in a chain, each of what the last one left. -/
def randomMovesFrom (t : Trace) (chained : Bool) (values : List Int) :
    Nat → Act Xorshift (List (List Int))
  | 0 => pure []
  | n + 1 => do
    let moved ← randomMove t values
    let others ← randomMovesFrom t chained (if chained then moved else values) n
    return moved :: others

/-- A move that changes nothing gives way to two more. -/
def changedMove (t : Trace) : Act Xorshift (List Int) := do
  let candidate ← randomMove t t.values
  if candidate ≠ t.values then return candidate
  randomMove t (← randomMove t candidate)

end Shrink

/-- Finitely many candidates, each made when its turn comes. What follows may depend on the state
of the generator at that time, so on all that was drawn before. -/
inductive Proposals where
  | done
  | next (propose : Act Xorshift (List Int)) (rest : Xorshift → Proposals)

namespace Proposals

def ofList : List (List Int) → Proposals → Proposals
  | [], after => after
  | candidate :: candidates, after => .next (pure candidate) fun _ => ofList candidates after

/-- A long list of edits of a long trace is never spelled out as a list of traces. -/
def ofEdits (values : List Int) : List Shrink.Edit → Proposals → Proposals
  | [], after => after
  | e :: es, after => .next (pure (e.apply values)) fun _ => ofEdits values es after

theorem ofEdits_eq_ofList (values : List Int) (es : List Shrink.Edit) (after : Proposals) :
    ofEdits values es after = ofList (es.map (Shrink.Edit.apply values)) after := by
  induction es with
  | nil => rfl
  | cons e es ih => simp only [ofEdits, List.map_cons, ofList, ih]

def repeated (propose : Act Xorshift (List Int)) : Nat → Proposals
  | 0 => .done
  | n + 1 => .next propose fun _ => repeated propose n

/-- All candidates, with nothing drawn between them. -/
def collect : Proposals → Act Xorshift (List (List Int))
  | .done => pure []
  | .next propose rest => fun r =>
    (do
      let candidate ← propose
      let others ← collect (rest r)
      return candidate :: others) r

/-- The first `n` candidates. -/
def collectUpTo : Nat → Proposals → Act Xorshift (List (List Int))
  | 0, _ => pure []
  | _, .done => pure []
  | n + 1, .next propose rest => fun r =>
    (do
      let candidate ← propose
      let others ← collectUpTo n (rest r)
      return candidate :: others) r

end Proposals

namespace Shrink

/-- Nothing is proposed for a trace without draws. -/
def targeted (moves : Nat) (t : Trace) : Proposals :=
  if t.isEmpty then .done
  else .ofEdits t.values (edits t) (.repeated (changedMove t) moves)

theorem targeted_eq (moves : Nat) (t : Trace) : targeted moves t =
    if t.isEmpty then .done else .ofList (fixed t) (.repeated (changedMove t) moves) := by
  rw [targeted, fixed, Proposals.ofEdits_eq_ofList]

/-- Random moves in a cycle, where not said otherwise. -/
def randomMoves : Nat := 200

end Shrink

end Refute

import Refute.Word

namespace Refute

/-- A seeded xorshift generator of signed words, whose outputs are its states times a constant.
`seed` stays what the generator began with. -/
structure Xorshift where
  seed : Word
  state : Word
deriving DecidableEq

namespace Xorshift

/-- State zero would stay zero, so the seed zero stands for one. -/
def ofSeed (n : Int) : Xorshift :=
  let seed : Word := BitVec.ofInt 64 n
  let seed := if seed = 0 then 1 else seed
  ⟨seed, seed⟩

def initialSeed (r : Xorshift) : Int :=
  r.seed.toInt

/-- The right shifts keep the sign. -/
def scramble (s : Word) : Word :=
  let s := s ^^^ s.sshiftRight 12
  let s := s ^^^ (s <<< 25)
  s ^^^ s.sshiftRight 27

def multiplier : Word := 2685821657736338717#64

def output (s : Word) : Int :=
  (s * multiplier).toInt

/-- The state first moves on; the output is that of the new state. -/
def step (r : Xorshift) : Xorshift :=
  { r with state := scramble r.state }

def next (r : Xorshift) : Int × Xorshift :=
  (output r.step.state, r.step)

/-- Whether `hi - lo + 1` is a word, told from the signs without leaving the words. -/
def widthFits (lo hi : Int) : Bool :=
  (1 ≤ lo && hi ≤ Word.greatest) ||
  (Word.least ≤ lo && hi ≤ -2) ||
  (Word.least + 1 ≤ lo && hi ≤ -1) ||
  (-Word.greatest < lo && lo ≤ 0 && 0 ≤ hi && hi < Word.greatest + lo)

/-- Folds an output into the range: its remainder has its sign, and negative remainders count
back from the upper end. -/
def fold (lo hi raw : Int) : Int :=
  let remainder := raw.tmod (hi - lo + 1)
  if remainder < 0 then remainder + hi + 1 else remainder + lo

/-- The first output inside the range, if there is one among so many. -/
def firstWithin (lo hi : Int) : Nat → Xorshift → Option (Int × Xorshift)
  | 0, _ => none
  | fuel + 1, r =>
    let raw := r.next.1
    if lo ≤ raw && raw ≤ hi then some (raw, r.next.2) else firstWithin lo hi fuel r.next.2

/-- There are fewer states than this, so a generator that has taken as many steps comes to no state
that is new. -/
@[irreducible]
def cycleBound : Nat := 1 <<< 64

/-- From some states on, a draw from the range goes on for ever: no output can be folded into the
range, and none that is to come lies in it. -/
structure Unreachable (lo hi : Int) : Prop where
  wide : widthFits lo hi = false
  skips : ∃ r, firstWithin lo hi cycleBound r = none

def render (r : Xorshift) : String :=
  s!"XorShiftPRNG(seed={r.initialSeed})"

end Xorshift

end Refute

import Refute.Gen.Basic

namespace Refute

structure Command (S M : Type) where
  name : String
  run : Act S Unit
  next : M → Except Fault M

/-- How a system is built in a given state, and what state it shows. -/
structure Modelled (S M : Type) where
  build : M → Except Fault S
  observe : S → Except Fault M

/-- The first disagreement, after `completed` commands that agreed. -/
structure Divergence (M : Type) where
  observed : M
  expected : M
  command : String
  completed : Nat

def Divergence.text [Display M] (d : Divergence M) : String :=
  "Expected " ++ display d.observed ++ " to be " ++ display d.expected ++ " after " ++ d.command ++
    s!"\n Ran {d.completed} steps before failure."

namespace Sequential

variable {S M : Type}

inductive Result (M : Type) where
  | agrees
  | diverges (d : Divergence M)
  | fault (fault : Fault)

/-- What a check saw: the states shown by the system, one after each command. -/
structure Observed (M : Type) where
  states : List M
  result : Result M

namespace Observed

def failed (fault : Fault) : Observed M :=
  ⟨[], .fault fault⟩

def after (state : M) (rest : Observed M) : Observed M :=
  { rest with states := state :: rest.states }

end Observed

/-- Goes on from a system and a model state after `completed` commands. -/
def goOn [BEq M] (observe : S → Except Fault M) :
    List (Command S M) → S → M → Nat → Observed M
  | [], _, _, _ => ⟨[], .agrees⟩
  | c :: cs, system, state, completed =>
    match c.run system with
    | .error fault _ => .failed fault
    | .ok _ system =>
      match c.next state with
      | .error fault => .failed fault
      | .ok state =>
        match observe system with
        | .error fault => .failed fault
        | .ok shown =>
          if shown == state then
            .after shown (goOn observe cs system state (completed + 1))
          else ⟨[shown], .diverges ⟨shown, state, c.name, completed⟩⟩

/-- Stops at the first command after which the system shows a state other than the model's. -/
def check [BEq M] (m : Modelled S M) (initial : M) (commands : List (Command S M)) : Observed M :=
  match m.build initial with
  | .error fault => .failed fault
  | .ok system => goOn m.observe commands system initial 0

end Sequential

end Refute

import Refute.Duration
import Refute.Model.Sequential

namespace Refute

/-- How a worker fared with its command. -/
inductive WorkerResult where
  | done
  | raised (fault : Fault)
  /-- Not finished in time. -/
  | blocked
deriving DecidableEq

/-- A command, and what it does to the system in the hands of a worker. -/
structure WorkerCommand (S M : Type) extends Command S M where
  work : S → WorkerResult × S

namespace Parallel

variable {S M : Type}

/-- Every element beside the others, in order. -/
def picks : List α → List (α × List α)
  | [] => []
  | a :: as => (a, as) :: (picks as).map fun p => (p.1, a :: p.2)

/-- The states that runs of all commands from `state` end in, one for each order. The fuel is the
number of commands. -/
def endings : Nat → List (Command S M) → M → Except Fault (List M)
  | 0, _, state => .ok [state]
  | fuel + 1, commands, state =>
    if commands.isEmpty then .ok [state]
    else do
      let branches ← (picks commands).mapM fun p => do endings fuel p.2 (← p.1.next state)
      return branches.flatten

/-- A state for each serial order of the commands. -/
def serialEndings (initial : M) (commands : List (Command S M)) : Except Fault (List M) :=
  endings commands.length commands initial

/-- The states reached by serial orders of the commands, each once. -/
def endStates [BEq M] (initial : M) (commands : List (Command S M)) : Except Fault (List M) := do
  return (← serialEndings initial commands).eraseDups

/-- Why a check by workers failed. -/
inductive Failure (M : Type) where
  | diverges (d : Divergence M)
  | unreachable (final : M) (allowed : List M)
  | stepRaised (cause : Fault)
  | stepBlocked
  | fault (fault : Fault)

namespace Failure

/-- The allowed states are listed in the order of their texts. -/
def text [Display M] : Failure M → String
  | diverges d => d.text
  | unreachable final allowed =>
    let states := (allowed.map display).mergeSort fun a b => !(b < a)
    "Final state " ++ display final ++ " not valid.\n Allowable states :- " ++
      ", ".intercalate states
  | stepRaised _ => "Error executing step"
  | stepBlocked => "Error executing step: timed out"
  | fault f => f.message

def kind : Failure M → String
  | diverges _ => "AssertionError"
  | unreachable _ _ => "AssertionError"
  | stepRaised _ => "ParallelExecutionError"
  | stepBlocked => "ParallelExecutionError"
  | fault f => f.kind

/-- The kind of what lies behind a failure of a worker. -/
def cause? : Failure M → Option String
  | stepRaised cause => some cause.kind
  | stepBlocked => some "TimeoutError"
  | _ => none

end Failure

/-- Workers take the commands in the given order; what each came to is kept beside its place. -/
def work : List (Nat × WorkerCommand S M) → S → List (Nat × WorkerResult) × S
  | [], system => ([], system)
  | (place, c) :: rest, system =>
    let (result, system) := c.work system
    let (results, system) := work rest system
    ((place, result) :: results, system)

/-- What comes of waiting for a command that does not finish. -/
def overdue (timeout : Seconds) : Failure M :=
  match timeout.waitingFault? with
  | none => .stepBlocked
  | some fault => .stepRaised fault

/-- The first command in the order of submission that did not finish well. -/
def firstFailure? (results : List (Nat × WorkerResult)) (timeout : Seconds) :
    Nat → Nat → Option (Failure M)
  | 0, _ => none
  | left + 1, place =>
    match results.lookup place with
    | some (.raised fault) => some (.stepRaised fault)
    | some .blocked => some (overdue timeout)
    | _ => firstFailure? results timeout left (place + 1)

/-- The concurrent part of a check, on a system of its own. -/
def concurrently [BEq M] (m : Modelled S M) (initial : M) (commands : List (WorkerCommand S M))
    (schedule : List Nat) (threads : Int) (timeout : Seconds) : Option (Failure M) :=
  match m.build initial with
  | .error fault => some (.fault fault)
  | .ok system =>
    match serialEndings initial (commands.map WorkerCommand.toCommand) with
    | .error fault => some (.fault fault)
    | .ok reached =>
      if threads < 1 then some (.fault .noWorkers)
      else
        let ordered := schedule.filterMap fun place => commands[place]?.map fun c => (place, c)
        let (results, system) := work ordered system
        match firstFailure? results timeout commands.length 0 with
        | some failure => some failure
        | none =>
          match m.observe system with
          | .error fault => some (.fault fault)
          | .ok final =>
            if reached.contains final then none else some (.unreachable final reached.eraseDups)

/-- First the timeout, then the commands one by one, then by workers. -/
def check [BEq M] (m : Modelled S M) (initial : M) (commands : List (WorkerCommand S M))
    (schedule : List Nat) (threads : Int) (timeout : Seconds) : Option (Failure M) :=
  if !timeout.isPositive then some (.fault (.timeout timeout.render))
  else
    match (Sequential.check m initial (commands.map WorkerCommand.toCommand)).result with
    | .diverges d => some (.diverges d)
    | .fault fault => some (.fault fault)
    | .agrees => concurrently m initial commands schedule threads timeout

/-- Commands taken in the order of submission. -/
def inOrder (commands : List (WorkerCommand S M)) : List Nat :=
  List.range commands.length

end Parallel

end Refute

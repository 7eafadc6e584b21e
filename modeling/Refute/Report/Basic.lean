import Refute.Fault

namespace Refute

/-- `smallest` and `others` are values that falsify the property; `cause` is what the property
raised on the smallest, if it raised anything. -/
structure Report (β : Type) where
  seed : Int
  examples : Int
  smallest : β
  cause : Option Fault
  others : List β
deriving DecidableEq

inductive Outcome (β : Type) where
  | passed
  | falsified (report : Report β)
  /-- The attempts gave out after so many examples. -/
  | exhausted (examples : Int)
deriving DecidableEq

namespace Fault

/-- Kinds that reports name in full. -/
def ownKinds : List String :=
  ["AttemptsExhaustedError", "ConfigurationError", "ParallelExecutionError",
    "PropertyFalsifiedError", "ValuesExhaustedError"]

def fullKind (fault : Fault) : String :=
  if ownKinds.contains fault.kind then "theory_kit.utilities.constants." ++ fault.kind
  else fault.kind

/-- A fault without a message is told by its kind alone. -/
def line (fault : Fault) : String :=
  if fault.message.isEmpty then fault.fullKind else fault.fullKind ++ ": " ++ fault.message

/-- The line of a fault after those of the faults before it. -/
def account : Fault → String
  | during earlier later =>
    earlier.account ++
      "\nDuring handling of the above exception, another exception occurred:\n\n" ++
      later.account
  | fault => fault.line ++ "\n"

end Fault

namespace Report

def causeText : Option Fault → String
  | none => ""
  | some fault => "\nCause was :-\n" ++ fault.account

/-- Goes through values until `limit` descriptions are kept, passing over those seen before. -/
def keepNew [BEq δ] (describe : β → Except Fault δ) (limit : Int) :
    List β → List δ → List δ → Except Fault (List δ)
  | [], _, kept => .ok kept
  | b :: bs, seen, kept =>
    if limit ≤ kept.length then .ok kept
    else
      match describe b with
      | .error fault => .error fault
      | .ok words =>
        if seen.contains words then keepNew describe limit bs seen kept
        else keepNew describe limit bs (words :: seen) (kept ++ [words])

/-- At most `limit` descriptions of other values, each different from the smallest value's. -/
def distinctOthers [BEq δ] (describe : β → Except Fault δ) (limit : Int) (smallest : β)
    (others : List β) : Except Fault (List δ) := do
  let words ← describe smallest
  keepNew describe limit others [words] []

/-- Descriptions that are texts, one a line. -/
def lines (descriptions : List Value) : Except Fault String := do
  return "\n".intercalate (← descriptions.mapM Value.needText)

/-- A description to be looked up in the set of those seen, which refuses what can be changed. -/
def fixed (describe : β → Except Fault Value) (b : β) : Except Fault Value := do
  (← describe b).needFixed

def othersText (describe : β → Except Fault Value) (limit : Int) (smallest : β)
    (others : List β) : Except Fault String := do
  lines (← distinctOthers (fixed describe) limit smallest others)

/-- Reports show no more other values than this. -/
def othersShown : Int := 10

def text (describe : β → Except Fault Value) (r : Report β) : Except Fault String := do
  let smallest ← describe r.smallest
  let others ← othersText describe othersShown r.smallest r.others
  return s!"Property falsified after {r.examples} example(s) \n" ++
    "Smallest found falsifying value(s) :-\n" ++
    smallest.render ++ causeText r.cause ++ "\n" ++
    "Other found falsifying value(s) :- \n" ++
    others ++ "\n" ++
    " \n" ++
    s!"Seed was {r.seed}"

end Report

def exhaustionText (examples : Int) : String :=
  s!"Gave up after finding only {examples} example(s) matching the assumptions"

/-- One numbered line for each step. -/
def historyText (steps : List String) : String :=
  "\n".intercalate (steps.mapIdx fun i step => s!"S{i + 1} = " ++ step)

end Refute

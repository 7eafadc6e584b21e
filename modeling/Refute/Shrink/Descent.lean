import Refute.Property
import Refute.Shrink.Move
import Std.Data.TreeSet.Basic

namespace Refute

/-- How many replays there may be, if there is a limit. -/
abbrev Budget := Option Nat

def Budget.spent (budget : Budget) (replays : Nat) : Bool :=
  match budget with
  | some limit => limit ≤ replays
  | none => false

/-- Candidates for the trace of the current example are replayed until one falsifies the property
too, with no more rejections and a simpler trace; then it becomes the current example and a new
cycle begins. -/
structure Descent (σ α β : Type) where
  lab : Lab σ β
  current : Example α
  tried : Std.TreeSet (List Int)
  replays : Nat
  /-- Newest first. -/
  found : List β
  /-- What the property raised on the newest. -/
  cause : Option Fault

inductive Ending where
  /-- No candidate was better. -/
  | minimal
  /-- The trace has no draws left. -/
  | trivial
  /-- No replays are left. -/
  | spent
  /-- The attempts gave out in a replay or in the property. -/
  | exhausted
  /-- A candidate could not be made. -/
  | fault (fault : Fault)
  /-- A replay goes on for ever. -/
  | endless (fault : Fault)
deriving DecidableEq

/-- The fault that a descent leaves behind. -/
def Ending.fault? : Ending → Option Fault
  | .fault left | .endless left => some left
  | _ => none

/-- What came of one replay. -/
inductive Reply where
  | accepted
  | discarded
  | exhausted
  | endless (fault : Fault)
deriving DecidableEq

/-- Faults other than these only rule a candidate out. -/
def Reply.ofFault (fault : Fault) : Reply :=
  if fault.isExhausted then .exhausted
  else if fault.isEndless then .endless fault
  else .discarded

namespace Descent

def start (lab : Lab σ β) (e : Example α) : Descent σ α β :=
  ⟨lab, e, .ofList [e.trace.values], 0, [], none⟩

variable (p : Property σ α β) (attempts : Int)

/-- Judges a replayed example after the property ran on it. -/
def judge (d : Descent σ α β) (verdict : Verdict) (e : Example α) : Reply × Descent σ α β :=
  match verdict with
  | .holds => (.discarded, d)
  | .fails cause =>
    if e.trace.simplerThan d.current.trace then
      (.accepted, { d with
        current := e
        found := p.outcome e.value d.lab.world :: d.found
        cause })
    else (.discarded, d)

def replay (candidate : List Int) (d : Descent σ α β) : Reply × Descent σ α β :=
  let d := { d with tried := d.tried.insert candidate, replays := d.replays + 1 }
  match p.generate attempts candidate d.lab with
  | .error fault lab => (.ofFault fault, { d with lab })
  | .ok e lab =>
    if d.current.rejected < e.rejected then (.discarded, { d with lab })
    else
      match p.examine e lab with
      | .error fault lab => (.ofFault fault, { d with lab })
      | .ok (verdict, e) lab => judge p { d with lab } verdict e

/-- Goes through the candidates up to the first that is accepted; `none` tells that one was. -/
def cycle (budget : Budget) : Proposals → Descent σ α β → Option Ending × Descent σ α β
  | .done, d => (some .minimal, d)
  | .next propose rest, d =>
    match propose d.lab.random with
    | .error fault random => (some (.fault fault), { d with lab := { d.lab with random } })
    | .ok candidate random =>
      let after := rest d.lab.random
      let d := { d with lab := { d.lab with random } }
      if budget.spent d.replays then (some .spent, d)
      else if d.tried.contains candidate then cycle budget after d
      else
        match replay p attempts candidate d with
        | (.accepted, d) => (none, d)
        | (.discarded, d) => cycle budget after d
        | (.exhausted, d) => (some .exhausted, d)
        | (.endless fault, d) => (some (.endless fault), d)

/-- At most `cycles` cycles; each but the last takes a replay. -/
def run (propose : Trace → Proposals) (budget : Budget) :
    Nat → Descent σ α β → Ending × Descent σ α β
  | 0, d => (.spent, d)
  | cycles + 1, d =>
    if budget.spent d.replays then (.spent, d)
    else if d.current.trace.isEmpty then (.trivial, d)
    else
      match cycle p attempts budget (propose d.current.trace) d with
      | (some ending, d) => (ending, d)
      | (none, d) => run propose budget cycles d

end Descent

/-- Shrinks a falsifying example within so many replays. -/
def Property.shrink (p : Property σ α β) (attempts : Int) (propose : Trace → Proposals)
    (replays : Nat) (lab : Lab σ β) (e : Example α) : Ending × Descent σ α β :=
  Descent.run p attempts propose (some replays) replays (.start lab e)

end Refute

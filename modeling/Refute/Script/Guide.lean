import Refute.Guide

namespace Refute.Script

/-- Fixed traces for given rounds, one random value, and the last trace with every value raised by
one. -/
structure GuideScript where
  traces : List (Nat × List (List Int))
  random? : Option (Int × Int)
  bump : Bool

/-- In the order told. -/
structure GuideNotes where
  calls : List String
  seen : List (List Int)

namespace GuideScript

def noteCall (call : String) : Act (Guided GuideNotes) Unit :=
  modify fun g => { g with memory := { g.memory with calls := g.memory.calls ++ [call] } }

def noteSeen (values : List Int) : Act (Guided GuideNotes) Unit :=
  modify fun g => { g with memory := { g.memory with seen := g.memory.seen ++ [values] } }

def randomTraces : Option (Int × Int) → Act (Guided GuideNotes) (List (List Int))
  | none => pure []
  | some (lo, hi) => do
    let n ← Act.within Guided.random (fun random g => { g with random }) (Xorshift.between lo hi)
    return [[n]]

def guide (s : GuideScript) : Guide GuideNotes where
  start := pure ⟨[], []⟩
  newExample t := do
    noteCall "new"
    noteSeen t.values
  executed := noteCall "executed"
  suggest round t := do
    noteCall s!"suggest {round}"
    let random ← randomTraces s.random?
    let bumped := if s.bump then [t.values.map (· + 1)] else []
    return (s.traces.lookup round).getD [] ++ random ++ bumped
  complete := noteCall "complete"

end GuideScript

end Refute.Script

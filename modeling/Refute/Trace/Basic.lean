import Refute.Place
import Refute.Trace.Bounds

namespace Refute

structure Draw where
  bounds : Bounds
  value : Int
deriving DecidableEq

namespace Draw

/-- How far the value is from its target; without a target nothing counts. -/
def distance (d : Draw) : Nat :=
  match d.bounds.target with
  | some t => (d.value - t).natAbs
  | none => 0

def isLegal (d : Draw) : Bool :=
  d.bounds.allows d.value

end Draw

/-- The draws made while one value was generated, in order. -/
abbrev Trace := List Draw

namespace Trace

def values (t : Trace) : List Int :=
  t.map Draw.value

def bounds (t : Trace) : List Bounds :=
  t.map Draw.bounds

def rests (t : Trace) : List Int :=
  t.map fun d => d.bounds.rest

def minima (t : Trace) : List Int :=
  t.map fun d => d.bounds.lo

def maxima (t : Trace) : List Int :=
  t.map fun d => d.bounds.hi

def distances (t : Trace) : List Nat :=
  t.map Draw.distance

/-- Shorter comes first; among equally long traces the first difference in distance decides. -/
def simplerThan (t u : Trace) : Bool :=
  t.length < u.length || (t.length = u.length && t.distances < u.distances)

def truncate (t : Trace) (length : Int) : Except Fault Trace :=
  if 0 ≤ length ∧ length ≤ t.length then .ok (t.take length.toNat)
  else .error (.truncation t.length length)

def get (t : Trace) (place : Int) : Except Fault Draw :=
  match itemAt? t place with
  | some d => .ok d
  | none => .error (.outOfRange "list")

def render (t : Trace) : String :=
  "Precursor([" ++ ", ".intercalate (t.values.map toString) ++ "])"

@[simp] theorem values_append (t u : Trace) : values (t ++ u) = t.values ++ u.values :=
  List.map_append

@[simp] theorem length_values (t : Trace) : t.values.length = t.length :=
  List.length_map ..

@[simp] theorem length_distances (t : Trace) : t.distances.length = t.length :=
  List.length_map ..

end Trace

end Refute

import Refute.Trace.Basic
import Refute.Xorshift.Draws

namespace Refute

structure Guided (μ : Type) where
  random : Xorshift
  memory : μ

/-- Guides watch a search example by example and may suggest traces for it to try next. Each keeps a
memory of its own and may draw from the generator of the search. -/
structure Guide (μ : Type) where
  start : Act Xorshift μ
  newExample : Trace → Act (Guided μ) Unit
  executed : Act (Guided μ) Unit
  suggest : Nat → Trace → Act (Guided μ) (List (List Int))
  complete : Act (Guided μ) Unit

/-- The first registration stands until the registry is cleared. -/
structure GuideRegistry (α : Type) where
  chosen : Option α

namespace GuideRegistry

def empty : GuideRegistry α :=
  ⟨none⟩

/-- Tells whether the guide was taken. -/
def register (r : GuideRegistry α) (guide : α) : Bool × GuideRegistry α :=
  match r.chosen with
  | some _ => (false, r)
  | none => (true, ⟨some guide⟩)

end GuideRegistry

end Refute

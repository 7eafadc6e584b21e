import Refute.Place
import Refute.Source.Basic

namespace Refute

/-- View zero is the source itself, which marks no place; the others are numbered as they were
opened. -/
structure Views where
  source : Source
  marks : List (Option Nat)

namespace Views

inductive Operation where
  | next (b : Bounds)
  | detach
  | commit
  | rollback
  | reject
deriving DecidableEq

inductive Answer where
  | drawn (value : Int)
  | opened (view : Nat)
  | done
deriving DecidableEq

def start (source : Source) : Views :=
  ⟨source, [none]⟩

def onSource (act : Act Source α) : Act Views α :=
  Act.within source (fun source v => { v with source }) act

/-- Draws and rejections go to the source through any view. What stays is kept anyway, so a commit
changes nothing. -/
def perform : Option Nat → Operation → Act Views Answer
  | _, .next b => Answer.drawn <$> onSource (Source.next b)
  | _, .detach => fun v =>
    .ok (.opened v.marks.length) { v with marks := v.marks ++ [some v.source.recorded.length] }
  | _, .reject => (fun _ => Answer.done) <$> onSource Source.reject
  | none, .commit => Act.fail .noMark
  | none, .rollback => Act.fail .noMark
  | some _, .commit => pure .done
  | some mark, .rollback => (fun _ => Answer.done) <$> onSource (Source.rollback mark)

/-- The view is looked up before what is asked of it. -/
def call (view : Int) (op : Except Fault Operation) : Act Views Answer := do
  match itemAt? (← get).marks view with
  | some mark => perform mark (← Act.ofExcept op)
  | none => Act.fail (.outOfRange "list")

end Views

end Refute

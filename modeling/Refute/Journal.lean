import Refute.Property

namespace Refute.Journal

/-- The values the property was run on, in order. -/
def testedValues (journal : List (Event β)) : List β :=
  journal.reverse.filterMap fun
    | .tested value _ => some value
    | .untested value _ => some value
    | _ => none

/-- The forced values of every generation, newest first. -/
def replayed (journal : List (Event β)) : List (List Int) :=
  journal.filterMap fun
    | .generated forced _ _ _ => some forced
    | .notGenerated forced _ => some forced
    | _ => none

/-- A run replaces the value last generated by what it became. -/
def settle (done : List β) : Event β → List β
  | .generated _ _ _ value => value :: done
  | .tested value _ => value :: done.tail
  | .untested value _ => value :: done.tail
  | _ => done

/-- Every generated value, as it was left, in order. -/
def finalValues (journal : List (Event β)) : List β :=
  (journal.reverse.foldl settle []).reverse

end Refute.Journal

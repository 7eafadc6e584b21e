import Refute.Report.Panel

namespace Refute

inductive Reporter where
  | collecting
  | raising
  | printing
deriving DecidableEq

/-- What a check raises at its caller. -/
inductive Alarm (β : Type) where
  | falsified (message : String) (report : Report β)
  | exhausted (examples : Int)
  | fault (fault : Fault)

inductive Entry (β : Type) where
  | falsification (report : Report β) (description : Value)
  | exhaustion (examples : Int)

structure Delivery (β : Type) where
  collected : List (Entry β)
  printed : List Panel
  raised : Option (Alarm β)

namespace Delivery

def silent : Delivery β :=
  ⟨[], [], none⟩

def raise (alarm : Alarm β) : Delivery β :=
  ⟨[], [], some alarm⟩

end Delivery

namespace Reporter

def raiseReport (describe : β → Except Fault Value) (r : Report β) : Alarm β :=
  match r.text describe with
  | .ok message => .falsified message r
  | .error fault => .fault fault

/-- A value that cannot be described raises its fault instead of the report. -/
def deliver (describe : β → Except Fault Value) : Reporter → Outcome β → Delivery β
  | _, .passed => .silent
  | collecting, .falsified r =>
    match describe r.smallest with
    | .ok description => { Delivery.silent with collected := [.falsification r description] }
    | .error fault => .raise (.fault fault)
  | collecting, .exhausted n => { Delivery.silent with collected := [.exhaustion n] }
  | raising, .falsified r => .raise (raiseReport describe r)
  | raising, .exhausted n => .raise (.exhausted n)
  | printing, .falsified r =>
    match Panel.ofReport describe r with
    | .ok panel => { Delivery.raise (raiseReport describe r) with printed := [panel] }
    | .error fault => .raise (.fault fault)
  | printing, .exhausted n =>
    { Delivery.raise (.exhausted n) with printed := [Panel.ofExhaustion n] }

end Reporter

end Refute

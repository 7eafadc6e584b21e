import Refute.Search.Basic

namespace Refute

namespace Outcome

/-- Falsifying values make a falsification; only without any can a check be exhausted. -/
def ofFindings (seed : Int) (found : Findings β) : Outcome β :=
  match found.falsifying with
  | smallest :: others => .falsified ⟨seed, found.executed, smallest, found.cause, others⟩
  | [] => if found.exhausted then .exhausted found.executed else .passed

end Outcome

/-- How a check ended, and the search as it was left; settings that do not go together prevent the
search. -/
structure Checked (σ μ β : Type) where
  outcome : Except Fault (Outcome β)
  search? : Option (Search σ μ β)

def Settings.seed (s : Settings μ) : Int :=
  s.random.initialSeed

namespace Checked

/-- A check that its settings prevented. -/
def prevented (fault : Fault) : Checked σ μ β :=
  ⟨.error fault, none⟩

/-- What the search tried, newest first. -/
def journal (c : Checked σ μ β) : List (Event β) :=
  match c.search? with
  | some search => search.lab.journal
  | none => []

end Checked

/-- The report names the seed that the settings began with. -/
def Property.check (p : Property σ α β) (settings : Settings μ) (clock : Clock) (world : σ) :
    Checked σ μ β :=
  match settings.validate with
  | .error fault => .prevented fault
  | .ok () =>
    match Search.run settings p clock (Shrink.targeted Shrink.randomMoves)
        (.start settings.random world) with
    | .ok found s => ⟨.ok (.ofFindings settings.seed found), some s⟩
    | .error fault s => ⟨.error fault, some s⟩

/-- What the reporter makes of it; faults outside the property are raised as they are. -/
def Checked.deliver (c : Checked σ μ β) (reporter : Reporter)
    (describe : β → Except Fault Value) : Delivery β :=
  match c.outcome with
  | .ok outcome => reporter.deliver describe outcome
  | .error fault => .raise (.fault fault)

end Refute

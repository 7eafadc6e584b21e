import Refute.Proofs.Rounds

namespace Refute.Search

open Act

variable {settings : Settings μ} {p : Property σ α β} {I : Search σ μ β → Prop}

/-- What a round does once the property was run. -/
def conclude (settings : Settings μ) (k : Nat) :
    Verdict × Example α → Act (Search σ μ β) (Option (Option Fault × Example α))
  | (verdict, e) => do
    notify settings .executed Guide.executed ()
    match verdict with
    | .fails cause => return some (cause, e)
    | .holds =>
      let traces ← notify settings (.suggest k e.trace) (fun g => g.suggest k e.trace) []
      modify fun s =>
        { s with lab := s.lab.note (.suggested traces), suggested := s.suggested ++ traces }
      notify settings .complete Guide.complete ()
      return none

theorem round_eq (settings : Settings μ) (p : Property σ α β) (k : Nat) :
    round settings p k = (do
      let e ← generate settings p (← nextForced)
      if !(← isNew e) then return none
      modify fun s => { s with used := s.used + 1 }
      notify settings (.newExample e.trace) (fun g => g.newExample e.trace) ()
      conclude settings k (← inLab (p.examine e))) :=
  rfl

/-- Lasts through a search: whatever is noted but notices to the guide, whatever waits and is
counted, and whatever the guide is told in a round. -/
structure Lasts (settings : Settings μ) (I : Search σ μ β → Prop) : Prop where
  event : ∀ {s : Search σ μ β} {lab : Lab σ β} {event : Event β}, I s →
    lab.journal = event :: s.lab.journal → (∀ notice, event ≠ .notified notice) → I { s with lab }
  queues : ∀ {s : Search σ μ β} (visited : Std.TreeSet UInt32)
    (suggested boundaries : List (List Int)) (used : Nat), I s →
    I { s with visited, suggested, boundaries, used }
  newExample : ∀ t, Preserves I (notify settings (.newExample t) (fun g => g.newExample t) ())
  executed : Preserves I (notify settings .executed Guide.executed ())
  suggest : ∀ k t, Preserves I (notify settings (.suggest k t) (fun g => g.suggest k t) [])
  complete : Preserves I (notify settings .complete Guide.complete ())

namespace Lasts

theorem generate (h : Lasts settings I) (p : Property σ α β) (forced : List Int) :
    Preserves I (generate settings p forced) := by
  intro s hs
  rw [Search.generate, inLab, outcome_within]
  cases hr : p.generate settings.attempts forced s.lab with
  | ok e lab =>
    rw [outcome_of_ok hr]
    exact h.event hs (Property.generate_ok hr).2 nofun
  | error fault lab =>
    rw [outcome_of_error hr]
    exact h.event hs (Property.generate_error hr).2 nofun

theorem examine (h : Lasts settings I) (p : Property σ α β) (e : Example α) :
    Preserves I (inLab (p.examine e)) := by
  intro s hs
  rw [inLab, outcome_within]
  cases hr : p.examine e s.lab with
  | ok x lab =>
    rw [outcome_of_ok hr]
    exact h.event hs (Property.examine_ok hr).1 nofun
  | error fault lab =>
    rw [outcome_of_error hr]
    exact h.event hs (Property.examine_error hr).2 nofun

theorem conclude (h : Lasts settings I) (k : Nat) (x : Verdict × Example α) :
    Preserves I (conclude settings k x) := by
  obtain ⟨verdict, e⟩ := x
  refine h.executed.bind fun _ => ?_
  cases verdict with
  | fails cause => exact preserves_pure _
  | holds =>
    refine (h.suggest k e.trace).bind fun traces => ?_
    refine .bind (preserves_modify fun s hs => ?_) fun _ => ?_
    · exact h.event (h.queues s.visited (s.suggested ++ traces) s.boundaries s.used hs) rfl nofun
    · exact h.complete.bind fun _ => preserves_pure _

theorem round (h : Lasts settings I) (p : Property σ α β) (k : Nat) :
    Preserves I (round settings p k) := by
  have hforced : Preserves I (nextForced : Act (Search σ μ β) _) := by
    intro s hs
    obtain ⟨forced, suggested, boundaries, hr⟩ := nextForced_ok s
    rw [outcome_of_ok hr]
    exact h.queues s.visited suggested boundaries s.used hs
  have hnew (e : Example α) : Preserves I (isNew e : Act (Search σ μ β) _) := by
    intro s hs
    cases hr : isNew e s with
    | ok new s' =>
      obtain ⟨print, -, -, rfl⟩ := isNew_ok hr
      rw [outcome_of_ok hr]
      cases new with
      | false => exact hs
      | true => exact h.queues _ s.suggested s.boundaries s.used hs
    | error fault s' =>
      obtain ⟨-, rfl⟩ := isNew_error hr
      rwa [outcome_of_error hr]
  rw [round_eq]
  refine hforced.bind fun forced => (h.generate p forced).bind fun e => ?_
  refine (hnew e).bind fun new => ?_
  cases new with
  | false => exact preserves_pure _
  | true =>
    refine .bind (preserves_modify fun s hs => ?_) fun _ => ?_
    · exact h.queues s.visited s.suggested s.boundaries _ hs
    · refine (h.newExample e.trace).bind fun _ => ?_
      exact (h.examine p e).bind fun x => h.conclude k x

theorem rounds (h : Lasts settings I) (p : Property σ α β) (clock : Clock) (left k : Nat) :
    Preserves I (rounds settings p clock left k) := by
  induction left generalizing k with
  | zero => exact preserves_pure _
  | succ left ih =>
    unfold Search.rounds
    split
    · exact preserves_pure _
    · refine (h.round p k).bind fun found => ?_
      cases found with
      | some found => exact preserves_pure _
      | none => exact ih (k + 1)

theorem findBoundaries (h : Lasts settings I) (p : Property σ α β) :
    Preserves I (findBoundaries settings p) := by
  refine (h.generate p []).bind fun e => preserves_modify fun s hs => ?_
  exact h.queues s.visited s.suggested _ s.used hs

end Lasts

end Refute.Search

import Refute.Proofs.Observing
import Refute.Stateful.Machine

namespace Refute

namespace Machine

open Sampler

/-- From where `I` holds, leads to where it holds, and gives a generator that only observes. -/
def Finds (I : τ → Prop) (find : Act τ (Gen τ κ)) : Prop :=
  ∀ w g w', I w → find w = .ok g w' → I w' ∧ g.sample.Observes

/-- `I` holds from the end of the initialisation up to the teardown, and makes every generator of
steps observe. -/
structure Keeps (m : Machine τ κ) (I : τ → Prop) : Prop where
  init : ∀ w, m.init m.fresh = .ok () w → I w
  setup : ∀ w finds w', I w → m.setup w = .ok finds w' → I w' ∧ ∀ find ∈ finds, Finds I find
  steps : Finds I m.steps
  execute : ∀ step w ok w', I w → m.execute step w = .ok ok w' → I w'

variable {m : Machine τ κ} {I : τ → Prop}

theorem Keeps.performStep (h : m.Keeps I) (hf : Finds I find) :
    Sampler.Keeps I (m.performStep find) := by
  refine (keeps_onWorld fun w g w' hw hr => (hf w g w' hw hr).1).bind fun g s s' hs hr => ?_
  have hg := (hf _ _ _ hs (onWorld_ok hr).1).2
  exact hg.keeps.bind fun step _ _ _ _ => keeps_onWorld (h.execute step)

theorem Keeps.perform (h : m.Keeps I) (hf : ∀ find ∈ finds, Finds I find) :
    Sampler.Keeps I (m.perform finds) := by
  induction finds with
  | nil => exact keeps_pure true
  | cons find finds ih =>
    refine (h.performStep (hf find List.mem_cons_self)).bind fun ok _ _ _ _ => ?_
    cases ok with
    | true => exact ih fun other ho => hf other (List.mem_cons_of_mem _ ho)
    | false => exact keeps_pure false

theorem Keeps.performSteps (h : m.Keeps I) (n : Nat) : Sampler.Keeps I (m.performSteps n) := by
  induction n with
  | zero => exact keeps_pure true
  | succ n ih =>
    refine (h.performStep h.steps).bind fun ok _ _ _ _ => ?_
    cases ok with
    | true => exact ih
    | false => exact keeps_pure false

theorem keeps_stepCount (minSteps maxSteps : Int) :
    Sampler.Keeps I (stepCount minSteps maxSteps) := by
  refine (keeps_ofExcept _).bind fun g _ _ _ hr => ?_
  exact (Gen.plain_range (Act.ofExcept_eq_ok.mp hr).1).observing.observes.keeps

theorem Keeps.body (h : m.Keeps I) (minSteps maxSteps : Int) :
    Sampler.Keeps I (m.body minSteps maxSteps) := by
  refine (keeps_onWorld fun w finds w' hw hr => (h.setup w finds w' hw hr).1).bind
    fun finds s s' hs hr => ?_
  have hf := (h.setup _ _ _ hs (onWorld_ok hr).1).2
  refine (h.perform hf).bind fun ok _ _ _ _ => ?_
  cases ok with
  | true =>
    exact (keeps_stepCount minSteps maxSteps).bind fun count _ _ _ _ =>
      h.performSteps count.toNat
  | false => exact keeps_pure false

theorem Keeps.run_steady (h : m.Keeps I) (minSteps maxSteps : Int) (source : Source) :
    Steady (m.run minSteps maxSteps) ⟨source, m.fresh⟩ := by
  refine (steady_onWorld m.init _).bind fun _ s hr => ?_
  exact ((h.body minSteps maxSteps).steady (h.init _ (onWorld_ok hr).1)).andFinally m.teardown

/-- The machine is made anew, so the worlds before the two runs do not matter. -/
theorem Keeps.runAnew_again (h : m.Keeps I) {s : Scene τ} (hs : s.source.trace = [])
    (hrun : (m.runAnew minSteps maxSteps).outcome s = (out, scene)) (hout : Settled out)
    (u : Scene τ) (rest : List Int)
    (hu : u.source.forced = scene.source.trace.values ++ rest) :
    (m.runAnew minSteps maxSteps).outcome u =
      (out, ⟨u.source.serve scene.source.trace rest, scene.world⟩) := by
  cases hd : Sampler.draw Bounds.any.targetless s with
  | error fault t =>
    have hb : m.begin s = .error fault t := Act.bind_error hd
    rw [runAnew, Act.outcome_bind_error (Act.outcome_of_error hb)] at hrun
    cases hrun
    obtain ⟨endless, rfl⟩ := draw_stuck hd
    exact absurd trivial (hout _ rfl)
  | ok v t =>
    have hb : m.begin s = .ok () { t with world := m.fresh } := Act.bind_ok hd
    rw [runAnew, Act.outcome_bind_ok (Act.outcome_of_ok hb)] at hrun
    have hfirst := replays_draw hd
    obtain ⟨ds, hds⟩ := h.run_steady minSteps maxSteps t.source out scene hrun hout
    have htrace : scene.source.trace = ⟨Bounds.any.targetless, v⟩ :: ds := by
      rw [hds.trace]
      show t.source.trace ++ ds = _
      rw [hfirst.trace, hs]
      rfl
    rw [htrace] at hu ⊢
    have hdraw := hfirst.again u (ds.values ++ rest) (by simpa [Trace.values] using hu)
    have hbu : m.begin u = .ok () ⟨u.source.serve [⟨_, v⟩] (ds.values ++ rest), m.fresh⟩ :=
      Act.bind_ok hdraw
    rw [runAnew, Act.outcome_bind_ok (Act.outcome_of_ok hbu)]
    refine (hds.again ⟨u.source.serve _ _, m.fresh⟩ rest rfl rfl).trans ?_
    simp [Source.serve]

end Machine

end Refute

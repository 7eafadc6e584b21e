import Refute.Proofs.StepFailures
import Refute.Theory

namespace Refute

theorem Settings.minSteps_le {settings : Settings μ} (h : settings.validate = .ok ()) :
    settings.minSteps ≤ settings.maxSteps := by
  unfold validate at h
  split at h
  · cases h
  · split at h
    · cases h
    · exact Nat.le_of_not_lt ‹_›

/-- A number that may be no word is not drawn. -/
theorem Machine.stepCount_tooWide {minSteps maxSteps : Nat} (hle : minSteps ≤ maxSteps)
    (hmax : Word.greatest < (maxSteps : Int)) (s : Scene τ) :
    stepCount minSteps maxSteps s = .error (.boundsTooWide minSteps maxSteps) s := by
  unfold stepCount Gen.range Bounds.between Bounds.make
  rw [dif_pos (Int.ofNat_le.mpr hle), dif_neg fun h => Int.not_lt.mpr h.2 hmax]
  rfl

namespace Machine.Runs

variable {m : Machine τ κ} {minSteps maxSteps : Nat} {finds : List (Act τ (Gen τ κ))}
  {s : Scene τ} {c : Course τ κ}

/-- After its setup a run has a number of steps between its bounds, unless the draw of one among
all words that are not negative goes on for ever. -/
theorem count_or_endless (h : m.Runs minSteps maxSteps finds s c) (hle : minSteps ≤ maxSteps)
    (hmax : (maxSteps : Int) ≤ Word.greatest) (hlength : c.setup.length = finds.length)
    (hall : ∀ t ∈ c.setup, t.result = .ok true) :
    (∃ n : Nat, c.count = some (n : Int) ∧ minSteps ≤ n ∧ n ≤ maxSteps) ∨
      minSteps = 0 ∧ (maxSteps : Int) = Word.greatest ∧
        ∃ fault, c.out = .error fault ∧ fault.Endless := by
  have hshape := h.shape hle hmax
  cases hcount : c.count with
  | none => exact .inr ((hshape.uncounted hcount).2 hlength hall)
  | some n =>
    obtain ⟨hlow, hhigh, -⟩ := hshape.counted n hcount
    exact .inl ⟨n.toNat, congrArg some (by omega), by omega, by omega⟩

/-- Where the greatest number is no word, a run has no number of steps, and says why. -/
theorem uncounted_of_tooWide (h : m.Runs minSteps maxSteps finds s c) (hle : minSteps ≤ maxSteps)
    (hmax : Word.greatest < (maxSteps : Int)) :
    c.count = none ∧ c.steps = [] ∧
      (c.setup.length = finds.length → (∀ t ∈ c.setup, t.result = .ok true) →
        c.out = .error (.boundsTooWide minSteps maxSteps)) := by
  cases h with
  | failed hsetup hfailed =>
    exact ⟨rfl, rfl, fun hlength hall => absurd (hsetup.succeeded_of_all hlength hall) hfailed⟩
  | uncounted _ hdrawn =>
    rw [stepCount_tooWide hle hmax] at hdrawn
    cases hdrawn
    exact ⟨rfl, rfl, fun _ _ => rfl⟩
  | counted _ hdrawn =>
    rw [stepCount_tooWide hle hmax] at hdrawn
    cases hdrawn

end Machine.Runs

namespace Roster

/-- Under settings that were found valid, a run whose setup succeeds draws a number of steps that
they allow, if all of these are words. (The draw of a number among all words that are not negative
may go on for ever.) If they are not, no number is drawn, and the run fails for that. -/
theorem run_counted (system : ω) (initSteps teardown : Act (Roster ω) Unit)
    {settings : Settings μ} (hvalid : settings.validate = .ok ()) {s : Scene (Roster ω)}
    {r : Roster ω} (hinit : initSteps s.world = .ok () r) :
    ∃ c : Machine.Course (Roster ω) (Option (Step ω)),
      (machine system initSteps teardown).Runs settings.minSteps settings.maxSteps r.setupFinds
        ⟨s.source, r⟩ c ∧
      ((machine system initSteps teardown).run settings.minSteps settings.maxSteps).outcome s =
        c.ended teardown ∧
      (c.setup.length = r.setup.length → (∀ t ∈ c.setup, t.result = .ok true) →
        ((settings.maxSteps : Int) ≤ Word.greatest →
          (∃ n : Nat, c.count = some (n : Int) ∧
            settings.minSteps ≤ n ∧ n ≤ settings.maxSteps) ∨
          settings.minSteps = 0 ∧ (settings.maxSteps : Int) = Word.greatest ∧
            ∃ fault, c.out = .error fault ∧ fault.Endless) ∧
        (Word.greatest < (settings.maxSteps : Int) → c.count = none ∧ c.steps = [] ∧
          c.out = .error (.boundsTooWide settings.minSteps settings.maxSteps))) := by
  obtain ⟨c, hruns, hrun, -⟩ := exists_runs hinit settings.minSteps settings.maxSteps
  have hle := Settings.minSteps_le hvalid
  refine ⟨c, hruns, hrun, fun hlength hall => ?_⟩
  have hfinds : c.setup.length = r.setupFinds.length := by rw [hlength, setupFinds, List.length_map]
  refine ⟨fun hmax => hruns.count_or_endless hle hmax hfinds hall, fun hmax => ?_⟩
  obtain ⟨hcount, hsteps, hout⟩ := hruns.uncounted_of_tooWide hle hmax
  exact ⟨hcount, hsteps, hout hfinds hall⟩

end Roster

namespace Overlong

def waiting : Machine (Roster Unit) (Option (Step Unit)) :=
  Roster.machine () (Roster.addStep Barred.wait.build 1) (pure ())

def registered : Roster Unit :=
  ⟨(), [], [(1, Barred.wait.build)], []⟩

def start : Scene (Roster Unit) :=
  ⟨Source.start (.ofSeed 1) [] 100, .ofSystem ()⟩

/-- One example of at least one step. -/
def settings (maxSteps : Nat) : Settings Unit where
  random := .ofSeed 1
  examples := 1
  shrinkCycles := 0
  attempts := 10
  timeMillis := 0
  minSteps := 1
  maxSteps
  reporter := .raising
  guide? := none
  examples_valid := .inr (by decide)

/-- One more than the greatest word. -/
def tooMany : Nat :=
  9223372036854775808

theorem setup_nil {c : Machine.Course (Roster Unit) (Option (Step Unit))}
    (h : waiting.Runs minSteps maxSteps registered.setupFinds ⟨start.source, registered⟩ c) :
    c.setup = [] := by
  have htaken := h.setup_taken
  rw [show registered.setupFinds = [] from rfl, List.take_nil] at htaken
  exact List.forall₂_nil_left_iff.mp htaken

/-- One to three steps are drawn as such a number; with one step too many there is none to draw. -/
theorem run_counted_waiting :
    ((settings 3).validate = .ok () ∧
      ∃ (c : Machine.Course (Roster Unit) (Option (Step Unit))) (n : Nat),
        waiting.Runs 1 3 registered.setupFinds ⟨start.source, registered⟩ c ∧
        c.count = some (n : Int) ∧ 1 ≤ n ∧ n ≤ 3) ∧
    (settings tooMany).validate = .ok () ∧
      ∃ c : Machine.Course (Roster Unit) (Option (Step Unit)),
        waiting.Runs 1 tooMany registered.setupFinds ⟨start.source, registered⟩ c ∧
        c.out = .error (.boundsTooWide 1 tooMany) ∧ c.steps = [] := by
  obtain ⟨c, hruns, -, hcounts⟩ :=
    Roster.run_counted () (Roster.addStep Barred.wait.build 1) (pure ())
      (show (settings 3).validate = .ok () from rfl) (s := start) (r := registered) rfl
  obtain ⟨c', hruns', -, hcounts'⟩ :=
    Roster.run_counted () (Roster.addStep Barred.wait.build 1) (pure ())
      (show (settings tooMany).validate = .ok () from rfl) (s := start) (r := registered) rfl
  have hsetup : c.setup = [] := setup_nil hruns
  have hsetup' : c'.setup = [] := setup_nil hruns'
  rw [hsetup] at hcounts
  rw [hsetup'] at hcounts'
  obtain ⟨hcount, -⟩ := hcounts rfl (List.forall_mem_nil _)
  obtain ⟨-, htooWide⟩ := hcounts' rfl (List.forall_mem_nil _)
  obtain ⟨-, hsteps, hout⟩ := htooWide (by decide)
  refine ⟨⟨rfl, c, ?_⟩, rfl, c', hruns', hout, hsteps⟩
  rcases hcount (by decide) with ⟨n, hn, hlow, hhigh⟩ | ⟨hzero, -⟩
  · exact ⟨n, hruns, hn, hlow, hhigh⟩
  · cases hzero

/-- What the only example was found to be falsified for. -/
def cause? (checked : Checked τ μ β) : Option (Option Fault) :=
  match checked.outcome with
  | .ok (.falsified report) => some report.cause
  | _ => none

/-- Settings that are found valid may say that a machine on which nothing can fail is falsified. -/
theorem check_falsified_overlong :
    Settings.make (.ofSeed 1) 1 0 10 0 1 tooMany .raising none = .ok (settings tooMany) ∧
    (settings tooMany).validate = .ok () ∧
    cause? (waiting.check (settings tooMany) .stopped) =
      some (some (.boundsTooWide 1 tooMany)) :=
  ⟨rfl, rfl, by decide +kernel⟩

end Overlong

end Refute

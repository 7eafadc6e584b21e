import Mathlib.Control.Monad.Basic
import Refute.Check
import Refute.Proofs.Draws
import Refute.Proofs.TwinSearch

namespace Refute

namespace Xorshift

/-- The seed of a new generator that gives what this one gives from now on. The state zero is
no seed, but follows the state minus one. -/
def resume (r : Xorshift) : Int :=
  if r.state = 0 then -1 else r.state.toInt

theorem ofSeed_toInt {seed : Word} (h : seed ≠ 0) : ofSeed seed.toInt = ⟨seed, seed⟩ := by
  unfold ofSeed
  rw [BitVec.ofInt_toInt]
  simp only [if_neg h]

theorem initialSeed_resume (r : Xorshift) : (ofSeed r.resume).initialSeed = r.resume := by
  unfold resume
  split
  · decide
  · rename_i h
    rw [ofSeed_toInt h]
    rfl

theorem resume_ofSeed (n : Int) : (ofSeed n).resume = (ofSeed n).initialSeed :=
  if_neg (state_ofSeed_ne_zero n)

theorem twins_resume (r : Xorshift) : r.Twins r.seed (ofSeed r.resume).seed (ofSeed r.resume) := by
  refine ⟨rfl, rfl, ?_⟩
  unfold resume
  split
  · rename_i h
    show scramble r.state = _
    rw [h]
    decide
  · rename_i h
    rw [ofSeed_toInt h]
    rfl

theorem twins_self (r : Xorshift) : r.Twins r.seed r.seed r :=
  ⟨rfl, rfl, rfl⟩

end Xorshift

namespace Outcome

/-- The same, but for the seed that is reported. -/
def withSeed (seed : Int) : Outcome β → Outcome β
  | passed => passed
  | falsified report => falsified { report with seed }
  | exhausted examples => exhausted examples

theorem withSeed_ofFindings (seed seed' : Int) (found : Findings β) :
    (ofFindings seed found).withSeed seed' = ofFindings seed' found := by
  unfold ofFindings
  split
  · rfl
  · split <;> rfl

end Outcome

namespace Search

variable (settings : Settings μ) (random : Xorshift) (p : Property σ α β)

theorem rounds_withRandom (clock : Clock) (left k : Nat) :
    rounds { settings with random } p clock left k = rounds settings p clock left k := by
  induction left generalizing k with
  | zero => rfl
  | succ left ih =>
    unfold rounds
    simp only [ih]
    rfl

/-- A search draws on the generator it begins with, not on that of its settings. -/
theorem run_withRandom (clock : Clock) (propose : Trace → Proposals) :
    run { settings with random } p clock propose = run settings p clock propose := by
  have hfind : find { settings with random } p clock = find settings p clock := by
    unfold find
    rw [rounds_withRandom]
    rfl
  unfold run findAndShrink
  rw [hfind]
  rfl

end Search

/-- Checks that begin with twins report the same, each with its own seed. -/
theorem Property.check_twins (settings : Settings μ) {gen : Gen σ α}
    (holds : α → Except Fault Bool) (hgen : gen.Composed)
    (hguide : ∀ g ∈ settings.guide?, g.Drawn a b) (h : settings.random.Twins a b random)
    (clock : Clock) (world world' : σ) :
    ((ofPredicate gen holds).check { settings with random } clock world').outcome =
        ((ofPredicate gen holds).check settings clock world).outcome.map
          (Outcome.withSeed b.toInt) ∧
      ∀ s, ((ofPredicate gen holds).check settings clock world).search? = some s →
        ∃ s', ((ofPredicate gen holds).check { settings with random } clock world').search? =
          some s' ∧ s.Twins a b s' := by
  have hstart : (Search.start settings.random world : Search σ μ α).Twins a b
    (.start random world') := ⟨h, rfl, rfl, rfl, rfl, rfl⟩
  have hr := Search.pairs_run holds hgen.plain hguide
    (Shrink.drawn_targeted Shrink.randomMoves) clock _ _ hstart
  have hvalid : ({ settings with random } : Settings μ).validate = settings.validate := rfl
  unfold check
  rw [hvalid, Search.run_withRandom]
  dsimp only
  cases settings.validate with
  | error fault => exact ⟨rfl, nofun⟩
  | ok _ =>
    dsimp only
    generalize Search.run settings (ofPredicate gen holds) clock
      (Shrink.targeted Shrink.randomMoves) (.start settings.random world) = r at hr
    generalize Search.run settings (ofPredicate gen holds) clock
      (Shrink.targeted Shrink.randomMoves) (.start random world') = r' at hr
    cases hr with
    | @ok found _ s s' hv ht =>
      cases hv
      refine ⟨?_, fun t hs => ?_⟩
      · have hseed : ({ settings with random } : Settings μ).seed = b.toInt :=
          congrArg BitVec.toInt h.right
        simp only [Except.map, Outcome.withSeed_ofFindings, hseed]
      · cases hs
        exact ⟨s', rfl, ht⟩
    | @error s s' fault ht =>
      refine ⟨rfl, fun t hs => ?_⟩
      cases hs
      exact ⟨s', rfl, ht⟩

namespace Settings

/-- The settings after a check with them. The generator goes on from where the check left it. -/
def after (settings : Settings μ) (c : Checked σ μ β) : Settings μ :=
  match c.search? with
  | some search => { settings with random := search.lab.random }
  | none => settings

/-- What becomes of settings in checks made with them, one after another. -/
inductive Reused (settings : Settings μ) : Settings μ → Prop where
  | unused : Reused settings settings
  | check {σ α : Type} {gen : Gen σ α} {holds : α → Except Fault Bool} (hgen : gen.Composed)
      (clock : Clock) (world : σ) (h : Reused settings s) :
      Reused settings (s.after ((Property.ofPredicate gen holds).check s clock world))

/-- Only the generator changes, and its seed does not. -/
theorem Reused.eq {settings s : Settings μ} (h : settings.Reused s)
    (hguide : ∀ g ∈ settings.guide?, ∀ a b, g.Drawn a b) :
    ∃ random, random.seed = settings.random.seed ∧ s = { settings with random } := by
  induction h with
  | unused => exact ⟨settings.random, rfl, rfl⟩
  | @check s σ α gen holds hgen clock world _ ih =>
    obtain ⟨random, hseed, rfl⟩ := ih
    have hself := Property.check_twins { settings with random } holds hgen
      (fun g hg => hguide g hg _ _) random.twins_self clock world world
    unfold after
    split
    · rename_i search hs
      obtain ⟨_, _, ht⟩ := hself.2 search hs
      exact ⟨search.lab.random, ht.lab.left.trans hseed, rfl⟩
    · exact ⟨random, hseed, rfl⟩

/-- A report names the seed of the settings that were checked. -/
theorem seed_of_falsified {settings : Settings μ} {p : Property σ α β}
    (h : (p.check settings clock world).outcome = .ok (.falsified report)) :
    report.seed = settings.seed := by
  unfold Property.check at h
  split at h
  · cases h
  · split at h
    · unfold Outcome.ofFindings at h
      dsimp only at h
      split at h
      · cases h
        rfl
      · split at h <;> cases h
    · cases h

/-- However often settings were used, what is reported next is reported again, but for its seed, by
one check with the seed that the generator resumes with. That is the seed reported only as long as
nothing was drawn. -/
theorem Reused.report_resumed {settings s : Settings μ} (h : settings.Reused s)
    (hguide : ∀ g ∈ settings.guide?, ∀ a b, g.Drawn a b) {gen : Gen σ α} (hgen : gen.Composed)
    (hr : ((Property.ofPredicate gen holds).check s clock world).outcome =
      .ok (.falsified report)) (world' : σ) :
    report.seed = settings.seed ∧
    (∀ n, s.random = .ofSeed n → s.random.resume = report.seed) ∧
    ∃ again, settings.adjust (.seed s.random.resume) = .ok again ∧
      ((Property.ofPredicate gen holds).check again clock world').outcome =
        .ok (.falsified { report with seed := s.random.resume }) := by
  have hreport := seed_of_falsified hr
  obtain ⟨random, hseed, rfl⟩ := h.eq hguide
  have hagain := (Property.check_twins { settings with random } holds hgen
    (fun g hg => hguide g hg _ _) random.twins_resume clock world world').1
  rw [hr] at hagain
  refine ⟨hreport.trans (congrArg BitVec.toInt hseed), fun n hn => ?_, _, rfl, ?_⟩
  · have hrandom : random = .ofSeed n := hn
    show random.resume = report.seed
    rw [hreport, hrandom]
    exact Xorshift.resume_ofSeed n
  · have hresume : (Xorshift.ofSeed random.resume).seed.toInt = random.resume :=
      random.initialSeed_resume
    rw [hresume] at hagain
    exact hagain

end Settings

namespace Reuse

def settings : Settings Unit where
  random := .ofSeed 1
  examples := 20
  shrinkCycles := 0
  attempts := 10
  timeMillis := 0
  minSteps := 1
  maxSteps := 1
  reporter := .raising
  guide? := none
  examples_valid := .inr (by decide)

/-- Below fifty, or a hundred. -/
def low (n : Int) : Except Fault Bool :=
  .ok (n < 50 || n = 100)

def check (settings : Settings Unit) : Checked Unit Unit Int :=
  (Property.ofPredicate (.draw .percent) low).check settings .stopped ()

def second : Settings Unit :=
  settings.after (check settings)

theorem reused_second : settings.Reused second :=
  .check (.draw .percent) .stopped () .unused

theorem report_resumed_second :
    (check second).outcome = .ok (.falsified ⟨1, 4, 70, none, []⟩) ∧
    ∃ again, settings.adjust (.seed 3659449627584515) = .ok again ∧
      (check again).outcome = .ok (.falsified ⟨3659449627584515, 4, 70, none, []⟩) := by
  have hr : (check second).outcome = .ok (.falsified ⟨1, 4, 70, none, []⟩) := by decide +kernel
  have hresume : second.random.resume = 3659449627584515 := by decide +kernel
  obtain ⟨-, -, again, ha, hc⟩ := reused_second.report_resumed nofun (.draw .percent) hr ()
  rw [hresume] at ha hc
  exact ⟨hr, again, ha, hc⟩

/-- The second report names the seed of the first, which brings back the first. -/
theorem report_not_resumed :
    ∃ first report again, (check settings).outcome = .ok (.falsified first) ∧
      (check second).outcome = .ok (.falsified report) ∧
      settings.adjust (.seed report.seed) = .ok again ∧
      (check again).outcome = .ok (.falsified first) ∧ first.smallest ≠ report.smallest :=
  ⟨⟨1, 4, 91, none, []⟩, ⟨1, 4, 70, none, []⟩, settings, by decide +kernel, by decide +kernel, rfl,
    by decide +kernel, by decide⟩

end Reuse

end Refute

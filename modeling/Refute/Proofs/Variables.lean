import Refute.Proofs.Scrambling
import Refute.Settings.Environment

namespace Refute

/-- Nothing but a complaint about the settings. -/
def Complains (result : Except Fault α) : Prop :=
  ∃ reason, result = .error (.misconfigured reason)

namespace Complains

theorem bind {result : Except Fault α} (h : Complains result) (f : α → Except Fault β) :
    Complains (result >>= f) := by
  obtain ⟨reason, rfl⟩ := h
  exact ⟨reason, rfl⟩

theorem not_ok {result : Except Fault α} (h : Complains result) (a : α) : result ≠ .ok a := by
  obtain ⟨reason, rfl⟩ := h
  exact nofun

end Complains

namespace Environment

/-- The variables that are read. -/
def namesRead : List String :=
  [seedVariable, examplesVariable, shrinksVariable, attemptsVariable]

/-- The number that a variable is set to, if it is set to one. -/
def number? (env : Environment) (name : String) : Option Int :=
  (env.raw? name).bind Text.readInt?

/-- A variable is set to what is no number. -/
def Unreadable (env : Environment) (name : String) : Prop :=
  (env.raw? name).isSome ∧ env.number? name = none

/-- A variable is set to what no check can use, whatever the other variables are set to. -/
def BadlySet (env : Environment) : Prop :=
  (∃ name ∈ namesRead, env.Unreadable name) ∨
  (∃ n ∈ env.number? examplesVariable, n = 0 ∨ n < -1) ∨
  (∃ n ∈ env.number? shrinksVariable, n < 0) ∨
  (∃ n ∈ env.number? attemptsVariable, n < 0)

/-- Examples without limit, and no word on shrinking. -/
def UnlimitedAlone (env : Environment) : Prop :=
  env.number? examplesVariable = some (-1) ∧ env.raw? shrinksVariable = none

instance (env : Environment) (name : String) : Decidable (env.Unreadable name) :=
  inferInstanceAs (Decidable (_ ∧ _))

instance (env : Environment) : Decidable env.BadlySet :=
  inferInstanceAs (Decidable (_ ∨ _ ∨ _ ∨ _))

instance (env : Environment) : Decidable env.UnlimitedAlone :=
  inferInstanceAs (Decidable (_ ∧ _))

end Environment

namespace Settings

/-- Sizes that each setting can be given, whatever the others are. -/
structure Usable (examples shrinkCycles attempts minSteps maxSteps : Int) : Prop where
  examples : examples = -1 ∨ 0 < examples
  shrinkCycles : 0 ≤ shrinkCycles
  attempts : 0 ≤ attempts
  minSteps : 0 ≤ minSteps
  maxSteps : 0 ≤ maxSteps

theorem natural_of_nonneg (h : 0 ≤ n) (reason : Int → Misconfiguration) :
    natural n reason = .ok n.toNat :=
  if_pos h

theorem natural_complains (h : ¬ 0 ≤ n) (reason : Int → Misconfiguration) :
    natural n reason = .error (.misconfigured (reason n)) :=
  if_neg h

section Make

variable {random : Xorshift} {examples shrinkCycles attempts timeMillis minSteps maxSteps : Int}
  {reporter : Reporter} {guide? : Option (Guide μ)}

theorem make_of_usable (h : Usable examples shrinkCycles attempts minSteps maxSteps) :
    make random examples shrinkCycles attempts timeMillis minSteps maxSteps reporter guide? =
      .ok { random, examples, timeMillis, reporter, guide?
            shrinkCycles := shrinkCycles.toNat
            attempts := attempts.toNat
            minSteps := minSteps.toNat
            maxSteps := maxSteps.toNat
            examples_valid := h.examples } := by
  rw [make, dif_pos h.examples, natural_of_nonneg h.shrinkCycles, natural_of_nonneg h.attempts,
    natural_of_nonneg h.minSteps, natural_of_nonneg h.maxSteps]
  rfl

theorem make_complains (h : ¬ Usable examples shrinkCycles attempts minSteps maxSteps) :
    Complains (make random examples shrinkCycles attempts timeMillis minSteps maxSteps reporter
      guide?) := by
  -- In the order of the checks, each number is either fine or what is complained about.
  by_cases he : examples = -1 ∨ 0 < examples
  · rw [make, dif_pos he]
    by_cases hs : 0 ≤ shrinkCycles
    · rw [natural_of_nonneg hs]
      by_cases ha : 0 ≤ attempts
      · rw [natural_of_nonneg ha]
        by_cases hm : 0 ≤ minSteps
        · rw [natural_of_nonneg hm]
          by_cases hx : 0 ≤ maxSteps
          · exact absurd ⟨he, hs, ha, hm, hx⟩ h
          · rw [natural_complains hx]
            exact ⟨_, rfl⟩
        · rw [natural_complains hm]
          exact ⟨_, rfl⟩
      · rw [natural_complains ha]
        exact ⟨_, rfl⟩
    · rw [natural_complains hs]
      exact ⟨_, rfl⟩
  · rw [make, dif_neg he]
    exact ⟨_, rfl⟩

end Make

/-- Settings that say what the variables say, and the usual where these say nothing. -/
structure Follows (s : Settings μ) (env : Environment) (guide? : Option (Guide μ)) : Prop where
  seed : s.random.initialSeed =
    let seed := Word.wrap ((env.number? Environment.seedVariable).getD env.time)
    if seed = 0 then 1 else seed
  unused : s.random.state = s.random.seed
  examples : s.examples =
    (env.number? Environment.examplesVariable).getD Environment.defaultExamples
  shrinkCycles : s.shrinkCycles = (env.number? Environment.shrinksVariable).getD
    (s.examples * Environment.shrinksPerExample)
  attempts : s.attempts =
    (env.number? Environment.attemptsVariable).getD Environment.defaultAttempts
  timeMillis : s.timeMillis = 0
  minSteps : s.minSteps = Environment.defaultMinSteps
  maxSteps : s.maxSteps = Environment.defaultMaxSteps
  reporter : s.reporter = .raising
  guide : s.guide? = guide?

end Settings

namespace Environment

variable {env : Environment}

theorem readInt_of_readable (h : ¬ env.Unreadable name) :
    env.readInt name = .ok (env.number? name) := by
  unfold Unreadable at h
  unfold readInt
  unfold number? at h ⊢
  cases hr : env.raw? name with
  | none => rfl
  | some raw =>
    rw [hr] at h
    cases hn : Text.readInt? raw with
    | none => exact absurd ⟨rfl, hn⟩ h
    | some n => simp only [hn, Option.bind_some]

theorem readInt_complains (h : env.Unreadable name) : Complains (env.readInt name) := by
  obtain ⟨hr, hn⟩ := h
  obtain ⟨raw, hr⟩ := Option.isSome_iff_exists.mp hr
  have hn : Text.readInt? raw = none := by simpa [number?, hr] using hn
  refine ⟨.notAnInteger name raw, ?_⟩
  simp only [readInt, hr, hn]

/-- The sizes that readable variables stand for. -/
def sizes (env : Environment) : RunSizes :=
  let examples := (env.number? examplesVariable).getD defaultExamples
  { seed := (env.number? seedVariable).getD env.time
    examples
    shrinkCycles := (env.number? shrinksVariable).getD (examples * shrinksPerExample)
    attempts := (env.number? attemptsVariable).getD defaultAttempts }

def Readable (env : Environment) : Prop :=
  ∀ name ∈ namesRead, ¬ env.Unreadable name

theorem readable_iff : env.Readable ↔
    ¬ env.Unreadable seedVariable ∧ ¬ env.Unreadable examplesVariable ∧
      ¬ env.Unreadable shrinksVariable ∧ ¬ env.Unreadable attemptsVariable := by
  simp [Readable, namesRead]

theorem runSizes_of_readable (h : env.Readable) : env.runSizes = .ok env.sizes := by
  obtain ⟨seed, examples, shrinks, attempts⟩ := readable_iff.mp h
  rw [runSizes, readInt_of_readable seed, readInt_of_readable examples,
    readInt_of_readable shrinks, readInt_of_readable attempts]
  rfl

theorem runSizes_complains (h : ¬ env.Readable) : Complains env.runSizes := by
  unfold runSizes
  by_cases hs : env.Unreadable seedVariable
  · exact (readInt_complains hs).bind _
  rw [readInt_of_readable hs]
  by_cases he : env.Unreadable examplesVariable
  · exact (readInt_complains he).bind _
  rw [readInt_of_readable he]
  by_cases hc : env.Unreadable shrinksVariable
  · exact (readInt_complains hc).bind _
  rw [readInt_of_readable hc]
  by_cases ha : env.Unreadable attemptsVariable
  · exact (readInt_complains ha).bind _
  exact absurd (readable_iff.mpr ⟨hs, he, hc, ha⟩) h

/-- The variables are readable, and what they say can be used. -/
structure Accepted (env : Environment) : Prop where
  readable : env.Readable
  usable : Settings.Usable env.sizes.examples env.sizes.shrinkCycles env.sizes.attempts
    defaultMinSteps defaultMaxSteps

theorem raw?_of_number?_eq_none (readable : ¬ env.Unreadable name) (h : env.number? name = none) :
    env.raw? name = none := by
  by_contra hr
  exact readable ⟨Option.isSome_iff_ne_none.mpr hr, h⟩

theorem sizes_examples_of_some (h : env.number? examplesVariable = some n) :
    env.sizes.examples = n := by
  simp [sizes, h]

theorem sizes_shrinkCycles_of_some (h : env.number? shrinksVariable = some n) :
    env.sizes.shrinkCycles = n := by
  simp [sizes, h]

theorem sizes_shrinkCycles_of_none (h : env.number? shrinksVariable = none) :
    env.sizes.shrinkCycles = env.sizes.examples * shrinksPerExample := by
  simp [sizes, h]

theorem sizes_attempts_of_some (h : env.number? attemptsVariable = some n) :
    env.sizes.attempts = n := by
  simp [sizes, h]

theorem UnlimitedAlone.shrinkCycles (h : env.UnlimitedAlone) : env.sizes.shrinkCycles = -100 := by
  have unset : env.number? shrinksVariable = none := by simp [number?, h.2]
  rw [sizes_shrinkCycles_of_none unset, sizes_examples_of_some h.1]
  rfl

theorem Accepted.not_badlySet (h : env.Accepted) : ¬ env.BadlySet := by
  rintro (⟨name, hname, bad⟩ | ⟨n, hn, bad⟩ | ⟨n, hn, bad⟩ | ⟨n, hn, bad⟩)
  · exact h.readable name hname bad
  · have := h.usable.examples
    rw [sizes_examples_of_some hn] at this
    omega
  · have := h.usable.shrinkCycles
    rw [sizes_shrinkCycles_of_some hn] at this
    omega
  · have := h.usable.attempts
    rw [sizes_attempts_of_some hn] at this
    omega

theorem Accepted.not_unlimitedAlone (h : env.Accepted) : ¬ env.UnlimitedAlone := by
  intro alone
  have := h.usable.shrinkCycles
  rw [alone.shrinkCycles] at this
  omega

theorem readable_of_not_badlySet (h : ¬ env.BadlySet) : env.Readable :=
  fun name hname bad => h (.inl ⟨name, hname, bad⟩)

/-- The number of examples is -1 only where it is set to that. -/
theorem examples_valid_of_not_badlySet (h : ¬ env.BadlySet) :
    env.number? examplesVariable = some (-1) ∧ env.sizes.examples = -1 ∨
      0 < env.sizes.examples := by
  cases hn : env.number? examplesVariable with
  | none =>
    have unset : env.sizes.examples = defaultExamples := by simp [sizes, hn]
    exact .inr (unset ▸ by decide)
  | some n =>
    have good : ¬ (n = 0 ∨ n < -1) := fun bad => h (.inr (.inl ⟨n, hn, bad⟩))
    rw [sizes_examples_of_some hn, Option.some.injEq]
    omega

theorem accepted_of_not (bad : ¬ env.BadlySet) (alone : ¬ env.UnlimitedAlone) : env.Accepted := by
  have readable := readable_of_not_badlySet bad
  refine ⟨readable, ⟨(examples_valid_of_not_badlySet bad).imp_left And.right, ?_, ?_, by decide,
    by decide⟩⟩
  · cases hn : env.number? shrinksVariable with
    | none =>
      have unset := raw?_of_number?_eq_none (readable_iff.mp readable).2.2.1 hn
      rw [sizes_shrinkCycles_of_none hn]
      rcases examples_valid_of_not_badlySet bad with ⟨he, -⟩ | he
      · exact absurd ⟨he, unset⟩ alone
      · simp only [shrinksPerExample]
        omega
    | some n =>
      rw [sizes_shrinkCycles_of_some hn]
      exact Int.not_lt.mp fun low => bad (.inr (.inr (.inl ⟨n, hn, low⟩)))
  · cases hn : env.number? attemptsVariable with
    | none =>
      have unset : env.sizes.attempts = defaultAttempts := by simp [sizes, hn]
      exact unset ▸ by decide
    | some n =>
      rw [sizes_attempts_of_some hn]
      exact Int.not_lt.mp fun low => bad (.inr (.inr (.inr ⟨n, hn, low⟩)))

/-- Variables are accepted unless one is badly set, or examples are without limit alone. -/
theorem accepted_iff : env.Accepted ↔ ¬ (env.BadlySet ∨ env.UnlimitedAlone) := by
  rw [not_or]
  exact ⟨fun h => ⟨h.not_badlySet, h.not_unlimitedAlone⟩, fun h => accepted_of_not h.1 h.2⟩

theorem settings_complains (guide? : Option (Guide μ)) (h : ¬ env.Accepted) :
    Complains (env.settings guide?) := by
  unfold settings
  by_cases readable : env.Readable
  · rw [runSizes_of_readable readable]
    exact Settings.make_complains fun usable => h ⟨readable, usable⟩
  · exact (runSizes_complains readable).bind _

theorem settings_of_accepted (guide? : Option (Guide μ)) (h : env.Accepted) :
    ∃ s, env.settings guide? = .ok s ∧ s.Follows env guide? := by
  have hs : env.settings guide? = _ :=
    (congrArg (· >>= _) (runSizes_of_readable h.readable)).trans
      (Settings.make_of_usable h.usable)
  refine ⟨_, hs, ⟨Xorshift.initialSeed_ofSeed _, rfl, rfl, ?_, ?_, rfl, rfl, rfl, rfl, rfl⟩⟩
  · exact Int.toNat_of_nonneg h.usable.shrinkCycles
  · exact Int.toNat_of_nonneg h.usable.attempts

/-- There are settings, and they say what the variables say, unless a variable is badly set or
examples are without limit and shrinking is not mentioned. In the last case too the complaint is
about the settings: a hundred times minus one is no number of shrink cycles. -/
theorem settings_iff (env : Environment) (guide? : Option (Guide μ)) :
    (Complains (env.settings guide?) ↔ env.BadlySet ∨ env.UnlimitedAlone) ∧
    ((∃ s, env.settings guide? = .ok s ∧ s.Follows env guide?) ↔
      ¬ (env.BadlySet ∨ env.UnlimitedAlone)) ∧
    (env.UnlimitedAlone ∧ ¬ env.BadlySet →
      env.settings guide? = .error (.misconfigured (.shrinkCycles (-100)))) := by
  rw [← accepted_iff]
  refine ⟨⟨?_, ?_⟩, ⟨?_, settings_of_accepted guide?⟩, ?_⟩
  · intro complains
    by_contra h
    obtain ⟨s, hs, -⟩ := settings_of_accepted guide? (accepted_iff.mpr h)
    exact complains.not_ok s hs
  · intro h
    exact settings_complains guide? fun accepted => accepted_iff.mp accepted h
  · rintro ⟨s, hs, -⟩
    by_contra h
    exact (settings_complains guide? h).not_ok s hs
  · rintro ⟨alone, good⟩
    have valid : env.sizes.examples = -1 ∨ 0 < env.sizes.examples :=
      (examples_valid_of_not_badlySet good).imp_left And.right
    have low : ¬ 0 ≤ env.sizes.shrinkCycles := by
      rw [alone.shrinkCycles]
      decide
    unfold settings
    rw [runSizes_of_readable (readable_of_not_badlySet good)]
    show Settings.make _ env.sizes.examples env.sizes.shrinkCycles _ _ _ _ _ _ = _
    rw [Settings.make, dif_pos valid, Settings.natural_complains low, alone.shrinkCycles]
    rfl

/-- Blanks around a number, a seed that stands for one, and an unset number of shrink cycles; and
examples without limit alone. -/
theorem settings_iff_spaced :
    (∃ s : Settings Unit,
      settings ⟨[(seedVariable, "0"), (examplesVariable, " 12 "), (attemptsVariable, "")], 5⟩ none =
        .ok s ∧
      s.random.initialSeed = 1 ∧ s.examples = 12 ∧ s.shrinkCycles = 1200 ∧ s.attempts = 10) ∧
    (settings ⟨[(examplesVariable, "-1")], 5⟩ none : Except Fault (Settings Unit)) =
      .error (.misconfigured (.shrinkCycles (-100))) := by
  refine ⟨?_, (settings_iff ⟨[(examplesVariable, "-1")], 5⟩ none).2.2 (by decide +kernel)⟩
  obtain ⟨s, hs, follows⟩ := (settings_iff (μ := Unit)
    ⟨[(seedVariable, "0"), (examplesVariable, " 12 "), (attemptsVariable, "")], 5⟩ none).2.1.mpr
      (by decide +kernel)
  have examples : s.examples = 12 := follows.examples.trans (by decide +kernel)
  have shrinkCycles := follows.shrinkCycles
  rw [examples] at shrinkCycles
  have attempts := follows.attempts
  refine ⟨s, hs, follows.seed.trans (by decide +kernel), examples, ?_, ?_⟩
  · exact Int.ofNat.inj (shrinkCycles.trans (by decide +kernel))
  · exact Int.ofNat.inj (attempts.trans (by decide +kernel))

/-- Examples without limit are no bad setting, but without a number of shrink cycles they are
complained about. -/
theorem unlimited_alone_complains :
    ¬ BadlySet ⟨[(examplesVariable, "-1")], 5⟩ ∧
    Complains (settings ⟨[(examplesVariable, "-1")], 5⟩ (none : Option (Guide Unit))) := by
  refine ⟨by decide +kernel, .shrinkCycles (-100), ?_⟩
  rfl

end Environment

end Refute

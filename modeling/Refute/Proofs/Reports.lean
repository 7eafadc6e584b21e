import Refute.Proofs.Acceptance
import Refute.Proofs.Conclusions
import Refute.Proofs.Moves
import Refute.Theory

namespace Refute

namespace Descent

variable {gen : Gen σ α} {holds : α → Except Fault Bool}

/-- Since the journal was this, the property was run on values of the generator only. -/
def Tests (gen : Gen σ α) (journal : List (Event α)) (d : Descent σ α α) : Prop :=
  ∃ news, d.lab.journal = news ++ journal ∧ ∀ v ∈ Journal.testedValues news, gen.Yields v

theorem Outcome.tests {d d' : Descent σ α α}
    (h : Outcome (.ofPredicate gen holds) attempts c d reply d') : Tests gen d.lab.journal d' := by
  cases h with
  | failed hg | exhausted hg | endless hg =>
    have hj := (Property.generate_error hg).2
    exact ⟨[_], hj, nofun⟩
  | rejected hg =>
    have hj := (Property.generate_ok hg).2
    exact ⟨[_], hj, nofun⟩
  | untested hg _ ht | unfinished hg _ ht =>
    obtain ⟨hg, hj⟩ := Property.generate_ok hg
    have hj' := (Property.examine_error ht).2
    rw [hj] at hj'
    exact ⟨[_, _], hj', List.forall_mem_singleton.mpr (Gen.yields_of_generate hg)⟩
  | holds hg _ ht | notSimpler hg _ ht | accepted hg _ ht =>
    obtain ⟨hg, hj⟩ := Property.generate_ok hg
    have hj' := (Property.examine_ok ht).1
    rw [hj] at hj'
    exact ⟨[_, _], hj', List.forall_mem_singleton.mpr (Gen.yields_of_generate hg)⟩

theorem Tests.trans {d d' : Descent σ α α} (h : Tests gen journal d)
    (h' : Tests gen d.lab.journal d') : Tests gen journal d' := by
  obtain ⟨news, hj, hy⟩ := h
  obtain ⟨news', hj', hy'⟩ := h'
  refine ⟨news' ++ news, by rw [hj', hj, List.append_assoc], fun v hv => ?_⟩
  rw [Journal.testedValues_append, List.mem_append] at hv
  rcases hv with hv | hv
  · exact hy v hv
  · exact hy' v hv

theorem tests_keeps (journal : List (Event α)) (propose : Trace → Proposals) :
    Keeps (.ofPredicate gen holds) attempts propose (Tests gen journal) (Tests gen journal) where
  reseed := fun _ h => h
  replay := by
    intro d d' c asked reply hd _ _ hr
    rw [ite_self]
    exact hd.trans hr.tests

end Descent

namespace Acceptance

variable {gen : Gen σ α} {holds : α → Except Fault Bool}

theorem Sound.falsifies {lab : Lab σ α} {since : Lab σ α} {a : Acceptance σ α α}
    (h : Sound (.ofPredicate gen holds) attempts propose lab first prev since a) :
    gen.Yields a.kept.value ∧ Falsifies holds a.kept.value a.cause := by
  rw [(Property.examine_ok h.falsified).2.1]
  exact ⟨Gen.yields_of_generate (Property.generate_ok h.replayed).1,
    (Property.examine_ofPredicate h.falsified).2⟩

end Acceptance

/-- What shrinking an example found are values of the generator that falsify, and the cause it
goes with is that of the smallest. -/
theorem Property.shrink_falsifies {gen : Gen σ α} {holds : α → Except Fault Bool} {lab : Lab σ α}
    {first : Example α}
    (hd : (ofPredicate gen holds).shrink attempts propose replays lab first = (ending, d)) :
    Descent.Tests gen lab.journal d ∧
      (∀ v ∈ d.found, gen.Yields v ∧ ∃ cause, Falsifies holds v cause) ∧
      ∀ smallest ∈ d.found.head?, Falsifies holds smallest d.cause := by
  obtain ⟨as, hc⟩ :=
    Acceptance.exists_chained (ofPredicate gen holds) attempts propose replays lab first
  have hk := (Descent.run_course (ofPredicate gen holds) attempts propose (some replays) replays
    (.start lab first)).keeps (Descent.tests_keeps lab.journal propose) ⟨[], rfl, nofun⟩
  rw [ite_self] at hk
  have hs : ∀ a ∈ as, gen.Yields a.kept.value ∧ Falsifies holds a.kept.value a.cause := by
    intro a ha
    obtain ⟨_, _, hs⟩ := hc.chain.sound ha
    exact hs.falsifies
  rw [hd] at hc
  have hfound : d.found = as.map fun a => a.kept.value := hc.found
  refine ⟨?_, fun v hv => ?_, fun smallest hm => ?_⟩
  · change Descent.Tests gen lab.journal (shrink _ attempts propose replays lab first).2 at hk
    rwa [hd] at hk
  · rw [hfound] at hv
    obtain ⟨a, ha, rfl⟩ := List.mem_map.mp hv
    exact ⟨(hs a ha).1, _, (hs a ha).2⟩
  · have hcause : d.cause = as.head?.bind Acceptance.cause := hc.cause
    rw [hfound] at hm
    cases as with
    | nil => cases hm
    | cons a as =>
      cases hm
      rw [hcause]
      exact (hs a List.mem_cons_self).2

/-- A report tells of values that falsify; the search came to the last of them after values that
hold, and the cause is that of the smallest. -/
structure Report.Truthful (holds : α → Except Fault Bool) (tested : List α) (r : Report α) :
    Prop where
  found : ∃ held first shrunk, tested = held ++ first :: shrunk ∧
    (∀ v ∈ held, holds v = .ok true) ∧ (r.smallest :: r.others).getLast? = some first
  smallest : Falsifies holds r.smallest r.cause
  others : ∀ v ∈ r.others, ∃ cause, Falsifies holds v cause

/-- A search that ran the property on these values broke off after the last of them, for the guide
failed on hearing that it was executed. Those before it held. -/
def Search.LeavesUnheard (settings : Settings μ) (gen : Gen σ α) (holds : α → Except Fault Bool)
    (s : Search σ μ α) (tested : List α) (fault : Fault) (s' : Search σ μ α) : Prop :=
  ∃ held e, tested = held ++ [e.value] ∧ (∀ v ∈ held, holds v = .ok true) ∧
    GuideFails settings (.ofPredicate gen holds) s e fault s'

/-- What the end of a check says of the values in its journal. -/
inductive Says (settings : Settings μ) (gen : Gen σ α) (holds : α → Except Fault Bool)
    (clock : Clock) (world : σ) (journal : List (Event α)) : Except Fault (Outcome α) → Prop where
  | passed (hv : ∀ v ∈ Journal.testedValues journal, holds v = .ok true) :
      Says settings gen holds clock world journal (.ok .passed)
  | falsified (hr : r.Truthful holds (Journal.testedValues journal))
      (hy : ∀ v ∈ r.smallest :: r.others, gen.Yields v) :
      Says settings gen holds clock world journal (.ok (.falsified r))
  | exhausted
      (hf : Search.find settings (.ofPredicate gen holds) clock (.start settings.random world) =
        .error fault s) (hx : fault.isExhausted = true) (hn : executed = Journal.started journal)
      (hv : (∀ v ∈ Journal.testedValues journal, ∀ cause, ¬ Falsifies holds v cause) ∨
        Search.LeavesUnheard settings gen holds (.start settings.random world)
          (Journal.testedValues journal) fault s) :
      Says settings gen holds clock world journal (.ok (.exhausted (executed : Nat)))
  | held (hv : ∀ v ∈ Journal.testedValues journal, holds v = .ok true) :
      Says settings gen holds clock world journal (.error fault)
  | unheard
      (hf : Search.find settings (.ofPredicate gen holds) clock (.start settings.random world) =
        .error fault s)
      (hu : Search.LeavesUnheard settings gen holds (.start settings.random world)
        (Journal.testedValues journal) fault s) :
      Says settings gen holds clock world journal (.error fault)
  | endless (he : fault.Endless) : Says settings gen holds clock world journal (.error fault)

namespace Search

variable {settings : Settings μ} {gen : Gen σ α} {holds : α → Except Fault Bool}

theorem Tests.of_start {random : Xorshift} {world : σ} {s : Search σ μ α}
    (h : Tests gen (.start random world) s vs) :
    Journal.testedValues s.lab.journal = vs ∧ s.used = Journal.started s.lab.journal ∧
      ∀ v ∈ vs, gen.Yields v := by
  obtain ⟨⟨hj, hu⟩, ht, hy⟩ := h
  have hj : s.lab.journal = _ := hj.trans (List.append_nil _)
  have hu : s.used = _ := hu.trans (Nat.zero_add _)
  rw [hj]
  exact ⟨ht, hu, hy⟩

theorem Conclusion.unfalsified {unheard : Example α → Fault → Prop}
    (h : Conclusion holds unheard (.error fault) vs) (hx : fault.isExhausted = true) :
    (∀ v ∈ vs, ∀ cause, ¬ Falsifies holds v cause) ∨
      ∃ held e, vs = held ++ [e.value] ∧ (∀ v ∈ held, holds v = .ok true) ∧ unheard e fault := by
  cases h with
  | stopped hv => exact .inl fun v hm _ => not_falsifies_of_holds (hv v hm)
  | gaveOut hv hf =>
    refine .inl fun v hm cause => ?_
    rcases List.mem_append.mp hm with hm | hm
    · exact not_falsifies_of_holds (hv v hm)
    · obtain rfl := List.mem_singleton.mp hm
      exact not_falsifies_of_error hf (.inl hx)
  | unheard hv hu => exact .inr ⟨_, _, rfl, hv, hu⟩

theorem says_of_error {s : Search σ μ α}
    (hf : find settings (.ofPredicate gen holds) clock (.start settings.random world) =
      .error fault s) (hx : fault.isExhausted = false)
    (hc : Conclusion holds (GuideFails settings (.ofPredicate gen holds)
      (.start settings.random world) · · s) (.error fault) (Journal.testedValues journal)) :
    Says settings gen holds clock world journal (.error fault) := by
  generalize hvs : Journal.testedValues journal = vs at hc
  cases hc with
  | stopped hv => exact .held (hvs ▸ hv)
  | gaveOut _ _ hf' =>
    rcases hf' with hx' | he
    · rw [hx] at hx'
      cases hx'
    · exact .endless (Fault.endless_iff.mpr he)
  | unheard hv hu => exact .unheard hf ⟨_, _, hvs, hv, hu⟩

theorem Tests.of_shrink {random : Xorshift} {world : σ} {s : Search σ μ α}
    (h : Tests gen (.start random world) s vs)
    (hd : (Property.ofPredicate gen holds).shrink attempts propose replays s.lab first =
      (ending, d)) :
    ∃ shrunk, Journal.testedValues d.lab.journal = vs ++ shrunk ∧
      ∀ v ∈ Journal.testedValues d.lab.journal, gen.Yields v := by
  obtain ⟨hv, -, hy⟩ := h.of_start
  obtain ⟨⟨news, hj, hy'⟩, -⟩ := Property.shrink_falsifies hd
  have ht : Journal.testedValues d.lab.journal = vs ++ Journal.testedValues news := by
    rw [hj, Journal.testedValues_append, hv]
  refine ⟨_, ht, fun v hm => ?_⟩
  rw [ht] at hm
  rcases List.mem_append.mp hm with hm | hm
  · exact hy v hm
  · exact hy' v hm

/-- The value found first and the smaller ones make a report that tells the truth. -/
theorem says_of_shrink {lab : Lab σ α} {first : Example α} {journal : List (Event α)}
    (hj : Journal.testedValues journal = us ++ [first.value] ++ shrunk)
    (hu : ∀ v ∈ us, holds v = .ok true) (hf : Falsifies holds first.value cause)
    (hy : gen.Yields first.value)
    (hd : (Property.ofPredicate gen holds).shrink attempts propose replays lab first =
      (ending, d)) (clock : Clock) (world : σ) (seed : Int) (executed : Nat) :
    Says settings gen holds clock world journal (.ok (.ofFindings seed
      ⟨false, executed, d.found ++ [first.value],
        if d.found.isEmpty then cause else d.cause⟩)) := by
  obtain ⟨-, hfound, hsmallest⟩ := Property.shrink_falsifies hd
  have hall : ∀ v ∈ d.found ++ [first.value], gen.Yields v ∧ ∃ cause, Falsifies holds v cause := by
    intro v hv
    rcases List.mem_append.mp hv with hv | hv
    · exact hfound v hv
    · obtain rfl := List.mem_singleton.mp hv
      exact ⟨hy, cause, hf⟩
  have hj : Journal.testedValues journal = us ++ first.value :: shrunk := by simp [hj]
  cases hs : d.found with
  | nil =>
    rw [hs] at hall
    exact .falsified ⟨⟨us, first.value, shrunk, hj, hu, rfl⟩, hf, nofun⟩
      fun v hv => (hall v hv).1
  | cons smallest others =>
    rw [hs] at hall hsmallest
    have hlast : (smallest :: (others ++ [first.value])).getLast? = some first.value :=
      List.getLast?_concat (l := smallest :: others)
    exact .falsified ⟨⟨us, first.value, shrunk, hj, hu, hlast⟩, hsmallest smallest rfl,
      fun v hv => (hall v (List.mem_cons_of_mem _ hv)).2⟩ fun v hv => (hall v hv).1

theorem Finish.says {s' : Search σ μ α}
    (h : Finish settings (.ofPredicate gen holds) clock (Shrink.targeted moves)
      (.start settings.random world) result s') :
    (∀ v ∈ Journal.testedValues s'.lab.journal, gen.Yields v) ∧
      Says settings gen holds clock world s'.lab.journal
        (result.map (Outcome.ofFindings settings.seed)) := by
  have hh := find_hunt settings (.ofPredicate gen holds) clock (.start settings.random world)
  cases h with
  | exhausted hf hx =>
    rw [Act.outcome_of_error hf] at hh
    obtain ⟨vs, hs, hc⟩ := hh.conclusion
    obtain ⟨rfl, hu, hy⟩ := hs.of_start
    exact ⟨hy, .exhausted hf hx hu (hc.unfalsified hx)⟩
  | failed hf hx =>
    rw [Act.outcome_of_error hf] at hh
    obtain ⟨vs, hs, hc⟩ := hh.conclusion
    obtain ⟨rfl, -, hy⟩ := hs.of_start
    exact ⟨hy, says_of_error hf hx hc⟩
  | passed hf =>
    rw [Act.outcome_of_ok hf] at hh
    obtain ⟨vs, hs, hc⟩ := hh.conclusion
    obtain ⟨rfl, hu, hy⟩ := hs.of_start
    cases hc with
    | passed hv => exact ⟨hy, .passed hv⟩
  | shrunk hf hd he =>
    rw [Act.outcome_of_ok hf] at hh
    obtain ⟨vs, hs, hc⟩ := hh.conclusion
    obtain ⟨shrunk, ht, hy⟩ := hs.of_shrink hd
    cases hc with
    | falsified hheld hfalse =>
      have hy₁ := hs.of_start.2.2 _ (List.mem_append_right _ (List.mem_singleton_self _))
      exact ⟨hy, says_of_shrink ht hheld hfalse hy₁ hd clock world settings.seed _⟩
  | unmade hf hd he hx =>
    rw [Act.outcome_of_ok hf] at hh
    obtain ⟨vs, hs, -⟩ := hh.conclusion
    obtain ⟨-, -, hy⟩ := hs.of_shrink hd
    exact ⟨hy, .endless (Property.shrink_targeted_fault hd he)⟩
  | gaveOut hf hd he hx =>
    rw [(Property.shrink_targeted_fault hd he).not_exhausted] at hx
    cases hx

end Search

/-- Whatever the settings and the predicate are. -/
theorem Property.check_says (settings : Settings μ) (gen : Gen σ α)
    (holds : α → Except Fault Bool) (clock : Clock) (world : σ) {checked : Checked σ μ α}
    (h : (ofPredicate gen holds).check settings clock world = checked) :
    (∀ v ∈ Journal.testedValues checked.journal, gen.Yields v) ∧
      Says settings gen holds clock world checked.journal checked.outcome := by
  subst h
  unfold check
  split
  · exact ⟨nofun, .held nofun⟩
  · have hf := Search.run_finish settings (ofPredicate gen holds) clock
      (Shrink.targeted Shrink.randomMoves) (.start settings.random world)
    split
    · rename_i hr
      rw [Act.outcome_of_ok hr] at hf
      exact hf.says
    · rename_i hr
      rw [Act.outcome_of_error hr] at hf
      exact hf.says

/-- A filter lets through only what it accepts. -/
theorem Sampler.retry_accepts {body : Sampler σ α} (h : retry body accept fuel s = .ok a s') :
    accept a = .ok true := by
  induction fuel generalizing s with
  | zero => cases h
  | succ fuel ih =>
    obtain ⟨start, s₁, -, h⟩ := Act.bind_eq_ok.mp h
    obtain ⟨b, s₂, -, h⟩ := Act.bind_eq_ok.mp h
    obtain ⟨c, s₃, hc, h⟩ := Act.bind_eq_ok.mp h
    obtain ⟨ha, rfl⟩ := Act.ofExcept_eq_ok.mp hc
    cases c with
    | true =>
      cases h
      exact ha
    | false =>
      obtain ⟨_, s₄, -, h⟩ := Act.bind_eq_ok.mp h
      obtain ⟨_, s₅, -, h⟩ := Act.bind_eq_ok.mp h
      exact ih h

/-- No reporter makes more of an outcome than one entry and one panel. -/
theorem Reporter.deliver_once (describe : β → Except Fault Value) (reporter : Reporter)
    (outcome : Outcome β) :
    (reporter.deliver describe outcome).collected.length ≤ 1 ∧
      (reporter.deliver describe outcome).printed.length ≤ 1 := by
  cases outcome with
  | passed => cases reporter <;> exact ⟨Nat.zero_le 1, Nat.zero_le 1⟩
  | exhausted n => cases reporter <;> simp [deliver, Delivery.silent, Delivery.raise]
  | falsified r =>
    cases reporter <;> simp only [deliver]
    case collecting => split <;> simp [Delivery.silent, Delivery.raise]
    case raising => exact ⟨Nat.zero_le 1, Nat.zero_le 1⟩
    case printing => split <;> simp [Delivery.raise]

namespace ForAll

/-- The values satisfy all assumptions. -/
def Accepts (f : ForAll μ σ α) (values : List α) : Prop :=
  ∀ assumption ∈ f.assumptions, assumption values = .ok true

theorem allHold_ok {assumptions : List (List α → Except Fault Bool)}
    (h : allHold assumptions values = .ok true) :
    ∀ assumption ∈ assumptions, assumption values = .ok true := by
  induction assumptions with
  | nil => exact nofun
  | cons assumption assumptions ih =>
    unfold allHold at h
    split at h
    · rename_i ha
      exact List.forall_mem_cons.mpr ⟨ha, ih h⟩
    · rename_i hne
      exact absurd h hne

theorem accepts_of_yields [Display α] {f : ForAll μ σ α} (h : f.gen.Yields values) :
    f.Accepts values := by
  obtain ⟨s, s', h⟩ := h
  unfold gen at h
  dsimp only at h
  split at h
  · rename_i he
    rw [Accepts, List.isEmpty_iff.mp he]
    exact nofun
  · exact allHold_ok (Sampler.retry_accepts h)

/-- Checks tell one thing at most, and what they tell is so: the predicate sees only values that
satisfy all assumptions; a falsification is of such values, the first of them found by the search
and listed last, with the cause of the smallest; an exhaustion ends the search before any value is
falsified; and where nothing is told, all values held. Only where the guide fails on hearing that
an example was executed may that example, the last, be a falsified one that the check does not
tell of; and what never ends is not told of at all. -/
theorem check_truthful [Display α] (f : ForAll μ σ α) (holds : List α → Except Fault Bool)
    (env : Environment) (clock : Clock) (world : σ) {settings : Settings μ}
    (hs : f.theory.settings env = .ok settings) {told : Told σ μ (List α)}
    (ht : f.check holds env clock world = told) :
    (told.delivery.collected.length ≤ 1 ∧ told.delivery.printed.length ≤ 1) ∧
    (∀ v ∈ Journal.testedValues told.checked.journal, f.Accepts v) ∧
    (∀ r, told.checked.outcome = .ok (.falsified r) →
      r.Truthful holds (Journal.testedValues told.checked.journal) ∧
      ∀ v ∈ r.smallest :: r.others, f.Accepts v) ∧
    (∀ n, told.checked.outcome = .ok (.exhausted n) →
      n = Journal.started told.checked.journal ∧
      ∃ fault s, Search.find settings (f.property holds) clock (.start settings.random world) =
        .error fault s ∧ fault.isExhausted = true ∧
        ((∀ v ∈ Journal.testedValues told.checked.journal, ∀ cause, ¬ Falsifies holds v cause) ∨
          Search.LeavesUnheard settings f.gen holds (.start settings.random world)
            (Journal.testedValues told.checked.journal) fault s)) ∧
    (told.checked.outcome = .ok .passed →
      ∀ v ∈ Journal.testedValues told.checked.journal, holds v = .ok true) ∧
    (∀ fault, told.checked.outcome = .error fault →
      (∀ v ∈ Journal.testedValues told.checked.journal, holds v = .ok true) ∨
      (∃ s, Search.find settings (f.property holds) clock (.start settings.random world) =
        .error fault s ∧
        Search.LeavesUnheard settings f.gen holds (.start settings.random world)
          (Journal.testedValues told.checked.journal) fault s) ∨
      fault.Endless) := by
  have hc : (f.property holds).check settings clock world = told.checked := by
    rw [← ht, check, hs]
  obtain ⟨hyields, hsays⟩ := Property.check_says settings f.gen holds clock world hc
  have hd : told.delivery.collected.length ≤ 1 ∧ told.delivery.printed.length ≤ 1 := by
    unfold Told.delivery Checked.deliver
    split
    · exact Reporter.deliver_once ..
    · exact ⟨Nat.zero_le 1, Nat.zero_le 1⟩
  refine ⟨hd, fun v hv => accepts_of_yields (hyields v hv), ?_⟩
  generalize told.checked.outcome = outcome at hsays
  cases hsays with
  | passed hv => exact ⟨nofun, nofun, fun _ => hv, nofun⟩
  | falsified hr hy =>
    refine ⟨fun r h => ?_, nofun, nofun, nofun⟩
    cases h
    exact ⟨hr, fun v hv => accepts_of_yields (hy v hv)⟩
  | exhausted hf hx hn hv =>
    refine ⟨nofun, fun n h => ?_, nofun, nofun⟩
    cases h
    exact ⟨congrArg Nat.cast hn, _, _, hf, hx, hv⟩
  | held hv =>
    refine ⟨nofun, nofun, nofun, fun fault h => ?_⟩
    cases h
    exact .inl hv
  | unheard hf hu =>
    refine ⟨nofun, nofun, nofun, fun fault h => ?_⟩
    cases h
    exact .inr (.inl ⟨_, hf, hu⟩)
  | endless he =>
    refine ⟨nofun, nofun, nofun, fun fault h => ?_⟩
    cases h
    exact .inr (.inr he)

end ForAll

/-- Ten examples from the seed one, and twenty replays. -/
def Settings.briefly : Settings Unit where
  random := .ofSeed 1
  examples := 10
  shrinkCycles := 20
  attempts := 10
  timeMillis := 0
  minSteps := 1
  maxSteps := 50
  reporter := .collecting
  guide? := none
  examples_valid := .inr (by decide)

/-- Even numbers up to a hundred. -/
def ForAll.evens : ForAll Unit Unit Int where
  theory := .ofSettings (.ok .briefly)
  gens := [Gen.draw .percent]
  assumptions := [fun values => .ok (values.sum % 2 = 0)]
  gens_ne_nil := List.cons_ne_nil _ _

/-- Complains of large numbers. -/
def ForAll.small (values : List Int) : Except Fault Bool :=
  if values.sum < 20 then .ok true else .error (.raised "ValueError" none)

/-- Zero held and a hundred did not; what came after were replays. -/
theorem ForAll.check_truthful_evens :
    ∃ told r, evens.check small (.ofSeed 1) .stopped () = told ∧
      told.checked.outcome = .ok (.falsified r) ∧
      Journal.testedValues told.checked.journal =
        [[0], [100], [18], [0], [50], [14], [4], [24], [12], [16], [20], [10], [8]] ∧
      r.smallest = [20] ∧ r.others = [[24], [50], [100]] ∧
      r.Truthful small (Journal.testedValues told.checked.journal) ∧
      (∀ v ∈ r.smallest :: r.others, evens.Accepts v) ∧
      ∀ v ∈ Journal.testedValues told.checked.journal, evens.Accepts v := by
  have ho : (evens.check small (.ofSeed 1) .stopped ()).checked.outcome = .ok (.falsified
      ⟨1, 2, [20], some (.raised "ValueError" none), [[24], [50], [100]]⟩) :=
    eq_ok_of_toOption (by decide +kernel)
  have hs : evens.theory.settings (.ofSeed 1) = .ok .briefly := rfl
  obtain ⟨-, haccepts, hreport, -⟩ := check_truthful evens small (.ofSeed 1) .stopped () hs rfl
  obtain ⟨htrue, hr⟩ := hreport _ ho
  exact ⟨_, _, rfl, ho, by decide +kernel, rfl, rfl, htrue, hr, haccepts⟩

/-- Gives out on hearing that an example was executed. -/
def Guide.givingOut : Guide Unit where
  start := pure ()
  newExample _ := pure ()
  executed := Act.fail (.exhausted 0)
  suggest _ _ := pure []
  complete := pure ()

def Settings.guided : Settings Unit :=
  { Settings.briefly with guide? := some .givingOut }

def ForAll.guidedEvens : ForAll Unit Unit Int :=
  { ForAll.evens with theory := .ofSettings (.ok .guided) }

/-- An exhaustion is told of with one example, which is falsified, where it is the guide that gives
out. So it is where the predicate gives out, if to falsify is to raise anything. -/
theorem ForAll.check_exhausted_falsified :
    ((guidedEvens.check (fun _ => .ok false) (.ofSeed 1) .stopped ()).checked.outcome =
        .ok (.exhausted 1) ∧
      Journal.testedValues
        (guidedEvens.check (fun _ => .ok false) (.ofSeed 1) .stopped ()).checked.journal = [[0]] ∧
      Falsifies (fun _ => .ok false) ([0] : List Int) none) ∧
    (evens.check (fun _ => .error (.exhausted 0)) (.ofSeed 1) .stopped ()).checked.outcome =
        .ok (.exhausted 1) ∧
      Journal.testedValues (evens.check (fun _ => .error (.exhausted 0)) (.ofSeed 1)
        .stopped ()).checked.journal = [[0]] :=
  ⟨⟨eq_ok_of_toOption (by decide +kernel), by decide +kernel, .answered rfl⟩,
    eq_ok_of_toOption (by decide +kernel), by decide +kernel⟩

end Refute

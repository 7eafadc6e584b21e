import Refute.Proofs.Trials
import Refute.Search.Basic

namespace Refute

namespace Journal

/-- How many examples were begun. -/
def started (journal : List (Event β)) : Nat :=
  journal.countP fun
    | .notified (.newExample _) => true
    | _ => false

theorem started_append (news journal : List (Event β)) :
    started (news ++ journal) = started news + started journal :=
  List.countP_append

theorem testedValues_append (news journal : List (Event β)) :
    testedValues (news ++ journal) = testedValues journal ++ testedValues news := by
  simp [testedValues]

end Journal

namespace Search

/-- A new example, known by its fingerprint from now on. -/
def count (s : Search σ μ β) (print : UInt32) : Search σ μ β :=
  { s with visited := s.visited.insert print, used := s.used + 1 }

/-- What the guide suggests waits behind its earlier suggestions. -/
def advise (s : Search σ μ β) (traces : List (List Int)) : Search σ μ β :=
  { s with lab := s.lab.note (.suggested traces), suggested := s.suggested ++ traces }

variable {settings : Settings μ} {p : Property σ α β}

/-- The next example, before it is known whether it is new. -/
inductive Met (settings : Settings μ) (p : Property σ α β) (s : Search σ μ β) (e : Example α)
    (s' : Search σ μ β) : Prop where
  | intro (hn : nextForced s = .ok forced s₁) (hg : generate settings p forced s₁ = .ok e s')

/-- A new example that the guide was told of. -/
inductive Begun (settings : Settings μ) (p : Property σ α β) (s : Search σ μ β) (e : Example α)
    (s' : Search σ μ β) : Prop where
  | intro (hm : Met settings p s e s₁) (hp : e.trace.fingerprint = .ok print)
      (hv : s₁.visited.contains print = false)
      (ht : notify settings (.newExample e.trace) (fun g => g.newExample e.trace) ()
        (s₁.count print) = .ok () s')

/-- A new example that the property was run on, which the guide was told too. -/
inductive Judged (settings : Settings μ) (p : Property σ α β) (s : Search σ μ β)
    (verdict : Verdict) (e : Example α) (s' : Search σ μ β) : Prop where
  | intro (hb : Begun settings p s e₀ s₁) (hx : inLab (p.examine e₀) s₁ = .ok (verdict, e) s₂)
      (ht : notify settings .executed Guide.executed () s₂ = .ok () s')

/-- The ways in which a round can go. -/
inductive Round (settings : Settings μ) (p : Property σ α β) (k : Nat) (s : Search σ μ β) :
    Except Fault (Option (Option Fault × Example α)) → Search σ μ β → Prop where
  | ungenerated (hn : nextForced s = .ok forced s₁)
      (hg : generate settings p forced s₁ = .error fault s') :
      Round settings p k s (.error fault) s'
  | unprinted (hm : Met settings p s e s') (hp : e.trace.fingerprint = .error fault) :
      Round settings p k s (.error fault) s'
  | repeated (hm : Met settings p s e s') (hp : e.trace.fingerprint = .ok print)
      (hv : s'.visited.contains print = true) : Round settings p k s (.ok none) s'
  | unannounced (hm : Met settings p s e s₁) (hp : e.trace.fingerprint = .ok print)
      (hv : s₁.visited.contains print = false)
      (ht : notify settings (.newExample e.trace) (fun g => g.newExample e.trace) ()
        (s₁.count print) = .error fault s') : Round settings p k s (.error fault) s'
  | untested (hb : Begun settings p s e s₁) (hx : inLab (p.examine e) s₁ = .error fault s') :
      Round settings p k s (.error fault) s'
  | unreported (hb : Begun settings p s e₀ s₁)
      (hx : inLab (p.examine e₀) s₁ = .ok (verdict, e) s₂)
      (ht : notify settings .executed Guide.executed () s₂ = .error fault s') :
      Round settings p k s (.error fault) s'
  | falsified (hj : Judged settings p s (.fails cause) e s') :
      Round settings p k s (.ok (some (cause, e))) s'
  | unadvised (hj : Judged settings p s .holds e s₁)
      (ht : notify settings (.suggest k e.trace) (fun g => g.suggest k e.trace) [] s₁ =
        .error fault s') : Round settings p k s (.error fault) s'
  | uncompleted (hj : Judged settings p s .holds e s₁)
      (ht : notify settings (.suggest k e.trace) (fun g => g.suggest k e.trace) [] s₁ =
        .ok traces s₂)
      (hc : notify settings .complete Guide.complete () (s₂.advise traces) = .error fault s') :
      Round settings p k s (.error fault) s'
  | held (hj : Judged settings p s .holds e s₁)
      (ht : notify settings (.suggest k e.trace) (fun g => g.suggest k e.trace) [] s₁ =
        .ok traces s₂)
      (hc : notify settings .complete Guide.complete () (s₂.advise traces) = .ok () s') :
      Round settings p k s (.ok none) s'

theorem nextForced_ok (s : Search σ μ β) : ∃ forced suggested boundaries,
    nextForced s = .ok forced { s with suggested, boundaries } := by
  unfold nextForced
  split <;> exact ⟨_, _, _, rfl⟩

theorem isNew_error {s s' : Search σ μ β} {e : Example α} (h : isNew e s = .error fault s') :
    e.trace.fingerprint = .error fault ∧ s' = s := by
  unfold isNew at h
  cases hp : e.trace.fingerprint with
  | error other =>
    rw [hp] at h
    cases h
    exact ⟨rfl, rfl⟩
  | ok print =>
    rw [hp] at h
    simp only [Act.ofExcept, Act.bind_apply, Act.pure_apply, Act.get_apply] at h
    split at h <;> cases h

theorem isNew_ok {s s' : Search σ μ β} {e : Example α} (h : isNew e s = .ok new s') :
    ∃ print, e.trace.fingerprint = .ok print ∧ s.visited.contains print = !new ∧
      s' = if new then { s with visited := s.visited.insert print } else s := by
  unfold isNew at h
  cases hp : e.trace.fingerprint with
  | error other =>
    rw [hp] at h
    cases h
  | ok print =>
    rw [hp] at h
    simp only [Act.ofExcept, Act.bind_apply, Act.pure_apply, Act.get_apply] at h
    refine ⟨print, rfl, ?_⟩
    split at h
    · rename_i hv
      cases h
      exact ⟨hv, rfl⟩
    · rename_i hv
      cases h
      exact ⟨Bool.eq_false_iff.mpr hv, rfl⟩

theorem round_cases (settings : Settings μ) (p : Property σ α β) (k : Nat) (s : Search σ μ β) :
    Round settings p k s ((round settings p k).outcome s).1
      ((round settings p k).outcome s).2 := by
  obtain ⟨forced, suggested, boundaries, hn⟩ := nextForced_ok s
  refine Act.bind_ends (fun fault s' h => ?_) fun forced s₁ hn => ?_
  · rw [hn] at h
    cases h
  refine Act.bind_ends (fun fault s' hg => .ungenerated hn hg) fun e s₂ hg => ?_
  have hm : Met settings p s e s₂ := .intro hn hg
  refine Act.bind_ends (fun fault s' h => ?_) fun new s₃ h => ?_
  · obtain ⟨hp, rfl⟩ := isNew_error h
    exact .unprinted hm hp
  obtain ⟨print, hp, hv, rfl⟩ := isNew_ok h
  cases new with
  | false => exact .repeated hm hp hv
  | true =>
    refine Act.bind_ends (fun fault s' h => nomatch h) fun _ s₃ h => ?_
    cases h
    refine Act.bind_ends (fun fault s' ht => .unannounced hm hp hv ht) fun _ s₄ ht => ?_
    have hb : Begun settings p s e s₄ := .intro hm hp hv ht
    refine Act.bind_ends (fun fault s' hx => .untested hb hx) fun ⟨verdict, e'⟩ s₅ hx => ?_
    refine Act.bind_ends (fun fault s' ht => .unreported hb hx ht) fun _ s₆ ht => ?_
    have hj : Judged settings p s verdict e' s₆ := .intro hb hx ht
    cases verdict with
    | fails cause => exact .falsified hj
    | holds =>
      refine Act.bind_ends (fun fault s' ht => .unadvised hj ht) fun traces s₇ ht => ?_
      refine Act.bind_ends (fun fault s' h => nomatch h) fun _ s₈ h => ?_
      cases h
      refine Act.bind_ends (fun fault s' hc => .uncompleted hj ht hc) fun _ s₉ hc => ?_
      exact .held hj ht hc

/-- How a search goes from round to round, with so many rounds to go and the number of the next. -/
inductive Course (settings : Settings μ) (p : Property σ α β) (clock : Clock) :
    Nat → Nat → Search σ μ β → Except Fault (Option (Option Fault × Example α)) →
      Search σ μ β → Prop where
  | finished (k : Nat) (s : Search σ μ β) : Course settings p clock 0 k s (.ok none) s
  | late (left : Nat) (s : Search σ μ β)
      (ht : (0 < k && clock.isOver settings.timeMillis k) = true) :
      Course settings p clock (left + 1) k s (.ok none) s
  | last (left : Nat) (ht : (0 < k && clock.isOver settings.timeMillis k) = false)
      (hr : Round settings p k s result s') (hl : result ≠ .ok none) :
      Course settings p clock (left + 1) k s result s'
  | more (ht : (0 < k && clock.isOver settings.timeMillis k) = false)
      (hr : Round settings p k s (.ok none) s₁)
      (hn : Course settings p clock left (k + 1) s₁ result s') :
      Course settings p clock (left + 1) k s result s'

theorem rounds_course (settings : Settings μ) (p : Property σ α β) (clock : Clock)
    (left k : Nat) (s : Search σ μ β) :
    Course settings p clock left k s ((rounds settings p clock left k).outcome s).1
      ((rounds settings p clock left k).outcome s).2 := by
  induction left generalizing k s with
  | zero => exact .finished k s
  | succ left ih =>
    unfold rounds
    cases ht : 0 < k && clock.isOver settings.timeMillis k with
    | true => exact .late left s ht
    | false =>
      have hr := round_cases settings p k s
      refine Act.bind_ends (fun fault s' h => ?_) fun found s₁ h => ?_
      · rw [Act.outcome_of_error h] at hr
        exact .last left ht hr nofun
      · rw [Act.outcome_of_ok h] at hr
        cases found with
        | some found => exact .last left ht hr nofun
        | none => exact .more ht hr (ih (k + 1) s₁)

/-- How a search comes to an example, or to none. -/
inductive Hunt (settings : Settings μ) (p : Property σ α β) (clock : Clock) (s : Search σ μ β) :
    Except Fault (Option (Option Fault × Example α)) → Search σ μ β → Prop where
  | unguided (hg : startGuide settings s = .error fault s') :
      Hunt settings p clock s (.error fault) s'
  | unreferenced (hg : startGuide settings s = .ok () s₁)
      (hb : findBoundaries settings p s₁ = .error fault s') :
      Hunt settings p clock s (.error fault) s'
  | rounds (hg : startGuide settings s = .ok () s₁) (hb : findBoundaries settings p s₁ = .ok () s₂)
      (hc : Course settings p clock settings.rounds 0 s₂ result s') :
      Hunt settings p clock s result s'

theorem find_hunt (settings : Settings μ) (p : Property σ α β) (clock : Clock)
    (s : Search σ μ β) : Hunt settings p clock s ((find settings p clock).outcome s).1
      ((find settings p clock).outcome s).2 := by
  refine Act.bind_ends (fun fault s' hg => .unguided hg) fun _ s₁ hg => ?_
  refine Act.bind_ends (fun fault s' hb => .unreferenced hg hb) fun _ s₂ hb => ?_
  exact .rounds hg hb (rounds_course settings p clock settings.rounds 0 s₂)

theorem findBoundaries_ok {s s' : Search σ μ β} (h : findBoundaries settings p s = .ok () s') :
    ∃ e s₁, generate settings p [] s = .ok e s₁ ∧
      s' = { s₁ with boundaries := e.trace.boundaries } := by
  obtain ⟨e, s₁, hg, hn⟩ := Act.bind_eq_ok.mp h
  cases hn
  exact ⟨e, s₁, hg, rfl⟩

theorem findBoundaries_error {s s' : Search σ μ β}
    (h : findBoundaries settings p s = .error fault s') :
    generate settings p [] s = .error fault s' := by
  rcases Act.bind_eq_error.mp h with hg | ⟨_, _, _, hn⟩
  · exact hg
  · cases hn

theorem inLab_ok {act : Act (Lab σ β) γ} {s s' : Search σ μ β} (h : inLab act s = .ok a s') :
    act s.lab = .ok a s'.lab ∧ s' = { s with lab := s'.lab } := by
  unfold inLab Act.within at h
  split at h
  · rename_i ha
    cases h
    exact ⟨ha, rfl⟩
  · cases h

theorem inLab_error {act : Act (Lab σ β) γ} {s s' : Search σ μ β}
    (h : inLab act s = .error fault s') :
    act s.lab = .error fault s'.lab ∧ s' = { s with lab := s'.lab } := by
  unfold inLab Act.within at h
  split at h
  · cases h
  · rename_i ha
    cases h
    exact ⟨ha, rfl⟩

/-- A search after the guide was told something, whatever came of it. -/
def notified (s : Search σ μ β) (notice : Notice) (random : Xorshift) (memory? : Option μ) :
    Search σ μ β :=
  { s with lab := { s.lab.note (.notified notice) with random }, memory? }

theorem notify_ok {s s' : Search σ μ β} {tell : Guide μ → Act (Guided μ) γ}
    (h : notify settings notice tell silence s = .ok c s') :
    ∃ random memory?, s' = s.notified notice random memory? := by
  unfold notify at h
  dsimp only at h
  split at h
  · split at h
    · cases h
      exact ⟨_, _, rfl⟩
    · cases h
  · cases h
    exact ⟨_, _, rfl⟩

/-- Only a guide can fail. -/
theorem notify_error {s s' : Search σ μ β} {tell : Guide μ → Act (Guided μ) γ}
    (h : notify settings notice tell silence s = .error fault s') :
    (∃ random memory?, s' = s.notified notice random memory?) ∧
      ∃ guide ∈ settings.guide?, ∃ before after, tell guide before = .error fault after := by
  unfold notify at h
  dsimp only at h
  split at h
  · rename_i guide memory hg hm
    split at h
    · cases h
    · rename_i ht
      cases h
      exact ⟨⟨_, _, rfl⟩, guide, hg, _, _, ht⟩
  · cases h

/-- A guide may draw from the generator of the search before it starts. -/
theorem startGuide_ends (settings : Settings μ) (s : Search σ μ β) : ∃ random memory?,
    ((startGuide settings).outcome s).2 = { s with lab := { s.lab with random }, memory? } := by
  unfold Act.outcome startGuide
  cases settings.guide? with
  | none => exact ⟨_, _, rfl⟩
  | some guide =>
    dsimp only
    cases guide.start s.lab.random with
    | ok memory random => exact ⟨_, _, rfl⟩
    | error fault random => exact ⟨_, _, rfl⟩

/-- How a search ends: without an example, or with what shrinking made of one. -/
inductive Finish (settings : Settings μ) (p : Property σ α β) (clock : Clock)
    (propose : Trace → Proposals) (s : Search σ μ β) :
    Except Fault (Findings β) → Search σ μ β → Prop where
  | exhausted (hf : find settings p clock s = .error fault s') (hx : fault.isExhausted = true) :
      Finish settings p clock propose s (.ok ⟨true, s'.used, [], none⟩) s'
  | failed (hf : find settings p clock s = .error fault s') (hx : fault.isExhausted = false) :
      Finish settings p clock propose s (.error fault) s'
  | passed (hf : find settings p clock s = .ok none s') :
      Finish settings p clock propose s (.ok ⟨false, s'.used, [], none⟩) s'
  | shrunk (hf : find settings p clock s = .ok (some (cause, e)) s₁)
      (hd : p.shrink settings.attempts propose settings.shrinkCycles s₁.lab e = (ending, d))
      (he : ending.fault? = none) :
      Finish settings p clock propose s
        (.ok ⟨false, s₁.used, d.found ++ [p.outcome e.value s₁.lab.world],
          if d.found.isEmpty then cause else d.cause⟩) { s₁ with lab := d.lab }
  | unmade (hf : find settings p clock s = .ok (some (cause, e)) s₁)
      (hd : p.shrink settings.attempts propose settings.shrinkCycles s₁.lab e = (ending, d))
      (he : ending.fault? = some fault) (hx : fault.isExhausted = false) :
      Finish settings p clock propose s (.error fault) { s₁ with lab := d.lab }
  | gaveOut (hf : find settings p clock s = .ok (some (cause, e)) s₁)
      (hd : p.shrink settings.attempts propose settings.shrinkCycles s₁.lab e = (ending, d))
      (he : ending.fault? = some fault) (hx : fault.isExhausted = true) :
      Finish settings p clock propose s (.ok ⟨true, s₁.used, [], none⟩) { s₁ with lab := d.lab }

theorem run_of_ok {s s' : Search σ μ β}
    (h : findAndShrink settings p clock propose s = .ok found s') :
    run settings p clock propose s = .ok found s' := by
  simp only [run, h]

theorem run_of_exhausted {s s' : Search σ μ β}
    (h : findAndShrink settings p clock propose s = .error fault s')
    (hx : fault.isExhausted = true) :
    run settings p clock propose s = .ok ⟨true, s'.used, [], none⟩ s' := by
  simp only [run, h, hx, if_true]

theorem run_of_error {s s' : Search σ μ β}
    (h : findAndShrink settings p clock propose s = .error fault s')
    (hx : fault.isExhausted = false) :
    run settings p clock propose s = .error fault s' := by
  simp only [run, h, hx, Bool.false_eq_true, if_false]

theorem shrinkFound_fault {s : Search σ μ β} (cause : Option Fault)
    (hd : p.shrink settings.attempts propose settings.shrinkCycles s.lab e = (ending, d))
    (he : ending.fault? = some fault) :
    shrinkFound settings p propose cause e s = .error fault { s with lab := d.lab } := by
  simp only [shrinkFound, hd, he]

theorem shrinkFound_ok {s : Search σ μ β} (cause : Option Fault)
    (hd : p.shrink settings.attempts propose settings.shrinkCycles s.lab e = (ending, d))
    (he : ending.fault? = none) :
    shrinkFound settings p propose cause e s =
      .ok ⟨false, s.used, d.found ++ [p.outcome e.value s.lab.world],
        if d.found.isEmpty then cause else d.cause⟩ { s with lab := d.lab } := by
  simp only [shrinkFound, hd, he]

theorem run_finish (settings : Settings μ) (p : Property σ α β) (clock : Clock)
    (propose : Trace → Proposals) (s : Search σ μ β) :
    Finish settings p clock propose s ((run settings p clock propose).outcome s).1
      ((run settings p clock propose).outcome s).2 := by
  cases hf : find settings p clock s with
  | error fault s' =>
    have hs : findAndShrink settings p clock propose s = .error fault s' := Act.bind_error hf
    cases hx : fault.isExhausted with
    | true =>
      rw [Act.outcome_of_ok (run_of_exhausted hs hx)]
      exact .exhausted hf hx
    | false =>
      rw [Act.outcome_of_error (run_of_error hs hx)]
      exact .failed hf hx
  | ok found s₁ =>
    cases found with
    | none =>
      have hs : findAndShrink settings p clock propose s = .ok ⟨false, s₁.used, [], none⟩ s₁ :=
        Act.bind_ok hf
      rw [Act.outcome_of_ok (run_of_ok hs)]
      exact .passed hf
    | some found =>
      obtain ⟨cause, e⟩ := found
      have hs : findAndShrink settings p clock propose s =
        shrinkFound settings p propose cause e s₁ := Act.bind_ok hf
      rcases hd : p.shrink settings.attempts propose settings.shrinkCycles s₁.lab e with ⟨ending, d⟩
      cases he : ending.fault? with
      | some fault =>
        rw [shrinkFound_fault cause hd he] at hs
        cases hx : fault.isExhausted with
        | true =>
          rw [Act.outcome_of_ok (run_of_exhausted hs hx)]
          have hg : Finish settings p clock propose s (.ok ⟨true, s₁.used, [], none⟩) _ :=
            .gaveOut hf hd he hx
          exact hg
        | false =>
          rw [Act.outcome_of_error (run_of_error hs hx)]
          exact .unmade hf hd he hx
      | none =>
        rw [shrinkFound_ok cause hd he] at hs
        rw [Act.outcome_of_ok (run_of_ok hs)]
        exact .shrunk hf hd he

theorem Finish.of_error {s s₁ s' : Search σ μ β} (h : Finish settings p clock propose s result s')
    (hf : find settings p clock s = .error fault s₁) :
    result = if fault.isExhausted then .ok ⟨true, s₁.used, [], none⟩ else .error fault := by
  cases h with
  | passed hf' | shrunk hf' | unmade hf' | gaveOut hf' =>
    rw [hf] at hf'
    cases hf'
  | exhausted hf' hx | failed hf' hx =>
    rw [hf] at hf'
    cases hf'
    simp [hx]

theorem Finish.of_none {s s₁ s' : Search σ μ β} (h : Finish settings p clock propose s result s')
    (hf : find settings p clock s = .ok none s₁) :
    result = .ok ⟨false, s₁.used, [], none⟩ := by
  cases h with
  | exhausted hf' | failed hf' | shrunk hf' | unmade hf' | gaveOut hf' =>
    rw [hf] at hf'
    cases hf'
  | passed hf' =>
    rw [hf] at hf'
    cases hf'
    rfl

theorem Finish.of_shrink {s s₁ s' : Search σ μ β} (h : Finish settings p clock propose s result s')
    (hf : find settings p clock s = .ok (some (cause, e)) s₁)
    (hd : p.shrink settings.attempts propose settings.shrinkCycles s₁.lab e = (ending, d)) :
    (∃ fault, ending.fault? = some fault ∧
      result = if fault.isExhausted then .ok ⟨true, s₁.used, [], none⟩ else .error fault) ∨
    ending.fault? = none ∧ ∃ cause, result =
      .ok ⟨false, s₁.used, d.found ++ [p.outcome e.value s₁.lab.world], cause⟩ := by
  cases h with
  | exhausted hf' | failed hf' | passed hf' =>
    rw [hf] at hf'
    cases hf'
  | shrunk hf' hd' he =>
    rw [hf] at hf'
    cases hf'
    rw [hd] at hd'
    cases hd'
    exact .inr ⟨he, _, rfl⟩
  | unmade hf' hd' he hx | gaveOut hf' hd' he hx =>
    rw [hf] at hf'
    cases hf'
    rw [hd] at hd'
    cases hd'
    exact .inl ⟨_, he, by simp [hx]⟩

/-- All that was noted between two moments of a search, newest first. -/
structure Extends (s s' : Search σ μ β) (news : List (Event β)) : Prop where
  journal : s'.lab.journal = news ++ s.lab.journal
  used : s'.used = s.used + Journal.started news

theorem Extends.refl (s : Search σ μ β) : Extends s s [] :=
  ⟨rfl, rfl⟩

theorem Extends.trans {s s₁ s' : Search σ μ β} (h : Extends s s₁ news)
    (h' : Extends s₁ s' news') : Extends s s' (news' ++ news) where
  journal := by rw [h'.journal, h.journal, List.append_assoc]
  used := by
    rw [h'.used, h.used, Journal.started_append]
    omega

theorem Extends.notified {s s₁ : Search σ μ β} (h : Extends s s₁ news) (notice : Notice)
    (hn : ∀ t, notice ≠ .newExample t) (random : Xorshift) (memory? : Option μ) :
    Extends s (s₁.notified notice random memory?) (.notified notice :: news) where
  journal := congrArg (Event.notified notice :: ·) h.journal
  used := by
    have hs : Journal.started (.notified notice :: news) = Journal.started news := by
      cases notice with
      | newExample t => exact absurd rfl (hn t)
      | executed | suggest | complete => simp [Journal.started]
    rw [hs, ← h.used]
    rfl

theorem Extends.count {s s₁ : Search σ μ β} (h : Extends s s₁ news) (print : UInt32)
    (t : Trace) (random : Xorshift) (memory? : Option μ) :
    Extends s ((s₁.count print).notified (.newExample t) random memory?)
      (.notified (.newExample t) :: news) where
  journal := congrArg (Event.notified (.newExample t) :: ·) h.journal
  used := by
    have hs : Journal.started (.notified (.newExample t) :: news) = Journal.started news + 1 := by
      simp [Journal.started]
    rw [hs, ← Nat.add_assoc, ← h.used]
    rfl

theorem generate_ok {s s' : Search σ μ β} (h : generate settings p forced s = .ok e s') :
    p.gen.generate settings.attempts forced (s.lab.random, s.lab.world) =
        .ok e (s'.lab.random, s'.lab.world) ∧
      Extends s s' [.generated forced e.trace e.rejected (p.outcome e.value s'.lab.world)] := by
  obtain ⟨hg, hs⟩ := inLab_ok h
  obtain ⟨hg, hj⟩ := Property.generate_ok hg
  exact ⟨hg, hj, by rw [hs]; rfl⟩

theorem generate_error {s s' : Search σ μ β} (h : generate settings p forced s = .error fault s') :
    Extends s s' [.notGenerated forced fault] := by
  obtain ⟨hg, hs⟩ := inLab_error h
  exact ⟨(Property.generate_error hg).2, by rw [hs]; rfl⟩

theorem startGuide_extends {s s' : Search σ μ β}
    (h : (startGuide settings).outcome s = (result, s')) : Extends s s' [] := by
  obtain ⟨random, memory?, hs⟩ := startGuide_ends settings s
  rw [h] at hs
  cases hs
  exact ⟨rfl, rfl⟩

theorem findBoundaries_extends {s s' : Search σ μ β}
    (h : findBoundaries settings p s = .ok () s') : ∃ t rejected value,
    Extends s s' [.generated [] t rejected value] := by
  obtain ⟨e, s₁, hg, rfl⟩ := findBoundaries_ok h
  obtain ⟨hj, hu⟩ := (generate_ok hg).2
  exact ⟨_, _, _, hj, hu⟩

theorem Met.extends {s s' : Search σ μ β} (h : Met settings p s e s') : ∃ forced before,
    p.gen.generate settings.attempts forced before = .ok e (s'.lab.random, s'.lab.world) ∧
      Extends s s' [.generated forced e.trace e.rejected (p.outcome e.value s'.lab.world)] := by
  obtain ⟨hn, hg⟩ := h
  obtain ⟨_, suggested, boundaries, hf⟩ := nextForced_ok s
  rw [hf] at hn
  cases hn
  obtain ⟨hg, hj, hu⟩ := generate_ok hg
  exact ⟨_, _, hg, hj, hu⟩

theorem ungenerated_extends {s s₁ s' : Search σ μ β} (hn : nextForced s = .ok forced s₁)
    (hg : generate settings p forced s₁ = .error fault s') :
    Extends s s' [.notGenerated forced fault] := by
  obtain ⟨_, suggested, boundaries, hf⟩ := nextForced_ok s
  rw [hf] at hn
  cases hn
  obtain ⟨hj, hu⟩ := generate_error hg
  exact ⟨hj, hu⟩

theorem Extends.examined {s s₁ s₂ : Search σ μ β} (h : Extends s s₁ news)
    (hx : inLab (p.examine e) s₁ = .ok (verdict, e') s₂) :
    Extends s s₂ (.tested (p.outcome e.value s₂.lab.world) verdict :: news) := by
  obtain ⟨hx, hs⟩ := inLab_ok hx
  refine ⟨?_, ?_⟩
  · rw [(Property.examine_ok hx).1, h.journal]
    rfl
  · rw [hs]
    simpa [Journal.started] using h.used

theorem Extends.unexamined {s s₁ s₂ : Search σ μ β} (h : Extends s s₁ news)
    (hx : inLab (p.examine e) s₁ = .error fault s₂) :
    Extends s s₂ (.untested (p.outcome e.value s₂.lab.world) fault :: news) := by
  obtain ⟨hx, hs⟩ := inLab_error hx
  refine ⟨?_, ?_⟩
  · rw [(Property.examine_error hx).2, h.journal]
    rfl
  · rw [hs]
    simpa [Journal.started] using h.used

theorem Extends.advised {s s₁ : Search σ μ β} (h : Extends s s₁ news)
    (traces : List (List Int)) :
    Extends s (s₁.advise traces) (.suggested traces :: news) where
  journal := congrArg (Event.suggested traces :: ·) h.journal
  used := by
    have hs : Journal.started (.suggested traces :: news) = Journal.started news := by
      simp [Journal.started]
    rw [hs, ← h.used]
    rfl

end Search

end Refute

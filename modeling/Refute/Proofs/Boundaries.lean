import Refute.Proofs.DrawTuples
import Refute.Proofs.Moves
import Refute.Proofs.Rounds

namespace Refute

namespace Search

/-- Two moments of a search that differ only in the lab and in what the guide remembers. -/
structure Alike (s s' : Search σ μ β) : Prop where
  visited : s'.visited = s.visited
  suggested : s'.suggested = s.suggested
  boundaries : s'.boundaries = s.boundaries
  used : s'.used = s.used

variable {settings : Settings μ}

theorem Alike.notified {s s₁ : Search σ μ β} (h : Alike s s₁) (notice : Notice)
    (random : Xorshift) (memory? : Option μ) : Alike s (s₁.notified notice random memory?) :=
  ⟨h.visited, h.suggested, h.boundaries, h.used⟩

theorem Alike.inLab {s s₁ s' : Search σ μ β} (h : Alike s s₁)
    (hx : inLab act s₁ = .ok a s') : Alike s s' := by
  rw [(inLab_ok hx).2]
  exact ⟨h.visited, h.suggested, h.boundaries, h.used⟩

theorem Alike.count {s s₁ : Search σ μ β} (h : Alike s s₁) (print : UInt32) :
    Alike (s.count print) (s₁.count print) :=
  ⟨congrArg (·.insert print) h.visited, h.suggested, h.boundaries, congrArg (· + 1) h.used⟩

theorem Alike.advised_nil {s s₁ : Search σ μ β} (h : Alike s s₁) : Alike s (s₁.advise []) :=
  ⟨h.visited, (List.append_nil _).trans h.suggested, h.boundaries, h.used⟩

theorem notify_unguided (hg : settings.guide? = none) (notice : Notice)
    (tell : Guide μ → Act (Guided μ) γ) (silence : γ) (s : Search σ μ β) :
    notify settings notice tell silence s =
      .ok silence (s.notified notice s.lab.random s.memory?) := by
  unfold notify
  dsimp only
  rw [hg]
  rfl

/-- With nothing suggested, boundaries are next. -/
theorem nextForced_boundary {s : Search σ μ β} (hs : s.suggested = [])
    (hb : s.boundaries = vs :: rest) : nextForced s = .ok vs { s with boundaries := rest } := by
  simp only [nextForced, hs, hb]

section Boundaries

variable [Display Int] {bs : List Bounds} {holds : List Int → Except Fault Bool}

/-- The property of tuples of such draws. -/
def drawsProperty (bs : List Bounds) (holds : List Int → Except Fault Bool) :
    Property σ (List Int) (List Int) :=
  .ofPredicate (Gen.tuplesOf (bs.map Gen.draw)) holds

/-- The next boundary is what is generated. -/
theorem Met.forced {s s' : Search σ μ (List Int)}
    (hm : Met settings (drawsProperty bs holds) s e s') (hs : s.suggested = [])
    (hb : s.boundaries = vs :: rest) (h : Allowed bs vs) :
    e.value = vs ∧ e.trace.fingerprint = .ok (fingerprintOf vs) ∧
      Alike { s with boundaries := rest } s' := by
  obtain ⟨hn, hg⟩ := hm
  rw [nextForced_boundary hs hb] at hn
  cases hn
  have ha : Alike { s with boundaries := rest } s' :=
    Alike.inLab ⟨rfl, rfl, rfl, rfl⟩ hg
  obtain ⟨e', he, hvalue, htrace⟩ :=
    Gen.generate_draws_forced h settings.attempts (s.lab.random, s.lab.world)
  injection he.symm.trans (generate_ok hg).1 with hee
  rw [← hee]
  exact ⟨hvalue, htrace ▸ Trace.fingerprint_drawn h, ha⟩

/-- How a round goes that is forced by a boundary, with no guide. -/
inductive Visit (holds : List Int → Except Fault Bool) (vs : List Int)
    (s s' : Search σ μ (List Int)) :
    Except Fault (Option (Option Fault × Example (List Int))) → Prop where
  | skipped (hv : s.visited.contains (fingerprintOf vs) = true) (ha : Alike s s') :
      Visit holds vs s s' (.ok none)
  | held (hh : holds vs = .ok true) (ha : Alike (s.count (fingerprintOf vs)) s') :
      Visit holds vs s s' (.ok none)
  | falsified (ha : Alike (s.count (fingerprintOf vs)) s') :
      Visit holds vs s s' (.ok (some found))
  | gaveOut (hh : holds vs = .error fault) (hx : fault.isExhausted = true) :
      Visit holds vs s s' (.error fault)
  | endless (hh : holds vs = .error fault) (he : fault.Endless) : Visit holds vs s s' (.error fault)

/-- A round that comes to a new example runs the predicate on the boundary. -/
theorem Begun.forced {s s' : Search σ μ (List Int)} (hg : settings.guide? = none)
    (hb : Begun settings (drawsProperty bs holds) s e s') (hs : s.suggested = [])
    (hbs : s.boundaries = vs :: rest) (h : Allowed bs vs) :
    e.value = vs ∧ Alike ({ s with boundaries := rest }.count (fingerprintOf vs)) s' := by
  obtain ⟨hm, hp, -, ht⟩ := hb
  obtain ⟨hvalue, hprint, ha⟩ := hm.forced hs hbs h
  rw [hprint] at hp
  cases hp
  rw [notify_unguided hg] at ht
  cases ht
  exact ⟨hvalue, (ha.count _).notified ..⟩

theorem Judged.forced {s s' : Search σ μ (List Int)} (hg : settings.guide? = none)
    (hj : Judged settings (drawsProperty bs holds) s verdict e s') (hs : s.suggested = [])
    (hbs : s.boundaries = vs :: rest) (h : Allowed bs vs) :
    (verdict = .holds → holds vs = .ok true) ∧
      Alike ({ s with boundaries := rest }.count (fingerprintOf vs)) s' := by
  obtain ⟨hb, hx, ht⟩ := hj
  obtain ⟨hvalue, ha⟩ := hb.forced hg hs hbs h
  have hv := (Property.examine_ofPredicate (inLab_ok hx).1).2
  rw [hvalue] at hv
  rw [notify_unguided hg] at ht
  cases ht
  refine ⟨fun hh => ?_, (ha.inLab hx).notified ..⟩
  subst hh
  exact hv

theorem Round.visit {s s' : Search σ μ (List Int)} (hg : settings.guide? = none)
    (hr : Round settings (drawsProperty bs holds) k s result s') (hs : s.suggested = [])
    (hbs : s.boundaries = vs :: rest) (h : Allowed bs vs) :
    Visit holds vs { s with boundaries := rest } s' result := by
  cases hr with
  | ungenerated hn hgen =>
    rw [nextForced_boundary hs hbs] at hn
    cases hn
    obtain ⟨e, he, -⟩ := Gen.generate_draws_forced h settings.attempts (s.lab.random, s.lab.world)
    cases he.symm.trans (Property.generate_error (inLab_error hgen).1).1
  | unprinted hm hp =>
    rw [(hm.forced hs hbs h).2.1] at hp
    cases hp
  | repeated hm hp hv =>
    obtain ⟨-, hprint, ha⟩ := hm.forced hs hbs h
    rw [hprint] at hp
    cases hp
    rw [ha.visited] at hv
    exact .skipped hv ha
  | unannounced _ _ _ ht =>
    rw [notify_unguided hg] at ht
    cases ht
  | untested hb hx =>
    obtain ⟨hvalue, -⟩ := hb.forced hg hs hbs h
    obtain ⟨hh, hx | he⟩ := Property.examine_ofPredicate_error (inLab_error hx).1
    · exact .gaveOut (hvalue ▸ hh) hx
    · exact .endless (hvalue ▸ hh) (Fault.endless_iff.mpr he)
  | unreported _ _ ht =>
    rw [notify_unguided hg] at ht
    cases ht
  | falsified hj => exact .falsified (hj.forced hg hs hbs h).2
  | unadvised _ ht =>
    rw [notify_unguided hg] at ht
    cases ht
  | uncompleted _ _ hc =>
    rw [notify_unguided hg] at hc
    cases hc
  | held hj ht hc =>
    obtain ⟨hh, ha⟩ := hj.forced hg hs hbs h
    rw [notify_unguided hg] at ht
    cases ht
    rw [notify_unguided hg] at hc
    cases hc
    exact .held (hh rfl) ((ha.notified ..).advised_nil.notified ..)

end Boundaries

/-- What makes a search stop at one of its next boundaries: it is new, shares its fingerprint with
none before it that holds, and does not hold itself; and none of them takes all attempts. -/
structure Stops (holds : List Int → Except Fault Bool) (visited : Std.TreeSet UInt32)
    (before : List (List Int)) (vs : List Int) : Prop where
  new : visited.contains (fingerprintOf vs) = false
  distinct : ∀ us ∈ before, holds us = .ok true → fingerprintOf us ≠ fingerprintOf vs
  patient : ∀ us ∈ before ++ [vs], ∀ fault, holds us = .error fault → fault.isExhausted = false
  fails : holds vs ≠ .ok true

variable {holds : List Int → Except Fault Bool}

/-- The boundary itself does not leave the search without an example. -/
theorem Visit.not_stops {s s' : Search σ μ (List Int)} (h : Visit holds vs s s' (.ok none)) :
    ¬ Stops holds s.visited [] vs := by
  intro hs
  cases h with
  | skipped hv =>
    rw [hs.new] at hv
    cases hv
  | held hh => exact hs.fails hh

theorem Visit.queues {s s' : Search σ μ (List Int)} (h : Visit holds vs s s' (.ok none)) :
    s'.suggested = s.suggested ∧ s'.boundaries = s.boundaries := by
  cases h with
  | skipped _ ha | held _ ha => exact ⟨ha.suggested, ha.boundaries⟩

theorem Visit.stops {s s' : Search σ μ (List Int)} (h : Visit holds us s s' (.ok none))
    (hs : Stops holds s.visited (us :: before) vs) :
    Stops holds s'.visited before vs ∧ s'.used ≤ s.used + 1 := by
  have hdistinct : ∀ us ∈ before, holds us = .ok true → fingerprintOf us ≠ fingerprintOf vs :=
    fun us hus => hs.distinct us (List.mem_cons_of_mem _ hus)
  have hpatient : ∀ us ∈ before ++ [vs], ∀ fault, holds us = .error fault →
      fault.isExhausted = false := fun us hus => hs.patient us (List.mem_cons_of_mem _ hus)
  cases h with
  | skipped _ ha =>
    exact ⟨⟨ha.visited ▸ hs.new, hdistinct, hpatient, hs.fails⟩, ha.used ▸ Nat.le_succ _⟩
  | held hh ha =>
    have hne := hs.distinct us List.mem_cons_self hh
    have hnew : s'.visited.contains (fingerprintOf vs) = false := by
      rw [ha.visited]
      simp [Search.count, Std.TreeSet.contains_insert, hne, hs.new]
    exact ⟨⟨hnew, hdistinct, hpatient, hs.fails⟩, Nat.le_of_eq ha.used⟩

theorem Visit.found {s s' : Search σ μ (List Int)} (h : Visit holds vs s s' result)
    (hl : result ≠ .ok none)
    (hx : ∀ fault, holds vs = .error fault → fault.isExhausted = false) :
    ((∃ found, result = .ok (some found)) ∧ s'.used = s.used + 1) ∨
      ∃ fault, result = .error fault ∧ fault.Endless := by
  cases h with
  | skipped | held => exact absurd rfl hl
  | falsified ha => exact .inl ⟨⟨_, rfl⟩, ha.used⟩
  | gaveOut hh hx' =>
    rw [hx _ hh] at hx'
    cases hx'
  | endless _ he => exact .inr ⟨_, rfl, he⟩

/-- The search comes to an example when it comes to this boundary, unless it did before, or the
predicate never answers. -/
theorem Course.boundary [Display Int] {s s' : Search σ μ (List Int)}
    (hg : settings.guide? = none) (ht : settings.timeMillis ≤ 0)
    (hc : Course settings (drawsProperty bs holds) clock left k s result s')
    (hsug : s.suggested = []) (hbs : s.boundaries = before ++ vs :: after)
    (hallowed : ∀ us ∈ s.boundaries, Allowed bs us) (hleft : before.length < left)
    (hs : Stops holds s.visited before vs) :
    ((∃ found, result = .ok (some found)) ∧ s'.used ≤ s.used + before.length + 1) ∨
      ∃ fault, result = .error fault ∧ fault.Endless := by
  have hover : ∀ k, (0 < k && clock.isOver settings.timeMillis k) = false := by
    intro k
    rw [clock.isOver_of_unlimited ht, Bool.and_false]
  induction hc generalizing before with
  | finished => exact absurd hleft (Nat.not_lt_zero _)
  | late left s ht =>
    rw [hover] at ht
    cases ht
  | last left _ hr hl =>
    obtain ⟨us, others, hqueue, hmem⟩ :
        ∃ us others, before ++ vs :: after = us :: others ∧ us ∈ before ++ [vs] := by
      cases before <;> exact ⟨_, _, rfl, List.mem_cons_self⟩
    rw [hbs, hqueue] at hallowed
    have hv := hr.visit hg hsug (hbs.trans hqueue) (hallowed us List.mem_cons_self)
    rcases hv.found hl (hs.patient us hmem) with ⟨hfound, hu⟩ | hends
    · exact .inl ⟨hfound, by rw [hu]; simp⟩
    · exact .inr hends
  | more _ hr _ ih =>
    rw [hbs] at hallowed
    cases before with
    | nil =>
      have hv := hr.visit hg hsug hbs (hallowed _ List.mem_cons_self)
      exact absurd hs hv.not_stops
    | cons us before =>
      have hv := hr.visit hg hsug hbs (hallowed _ List.mem_cons_self)
      obtain ⟨hsug₁, hbs₁⟩ := hv.queues
      obtain ⟨hs₁, hu₁⟩ := hv.stops hs
      have hallowed₁ : ∀ us ∈ before ++ vs :: after, Allowed bs us :=
        fun us hus => hallowed us (List.mem_cons_of_mem _ hus)
      refine (ih (hsug₁.trans hsug) hbs₁ (hbs₁ ▸ hallowed₁) (Nat.lt_of_succ_lt_succ hleft)
        hs₁).imp_left fun ⟨hfound, hu⟩ => ⟨hfound, ?_⟩
      simp only [List.length_cons] at hu hu₁ ⊢
      omega

/-- The boundaries of a tuple of draws, in the order in which a search tries them. -/
def boundariesOf (bs : List Bounds) : List (List Int) :=
  [bs.map Bounds.rest, bs.map Bounds.lo, bs.map Bounds.hi]

theorem boundaries_eq (t : Trace) : t.boundaries = boundariesOf t.bounds := by
  simp only [boundariesOf, Trace.boundaries, Trace.rests, Trace.minima, Trace.maxima, Trace.bounds,
    List.map_map]
  rfl

theorem allowed_boundariesOf (bs : List Bounds) : ∀ vs ∈ boundariesOf bs, Allowed bs vs := by
  have hmap : ∀ f : Bounds → Int, (∀ b, Bounds.allows b (f b) = true) → Allowed bs (bs.map f) :=
    fun f hf => List.forall₂_map_right_iff.mpr (List.forall₂_same.mpr fun b _ => hf b)
  intro vs hvs
  simp only [boundariesOf, List.mem_cons, List.not_mem_nil, or_false] at hvs
  rcases hvs with rfl | rfl | rfl
  · exact hmap _ Bounds.allows_rest
  · exact hmap _ Bounds.allows_lo
  · exact hmap _ Bounds.allows_hi

/-- Whatever was drawn for reference, its bounds are those of the draws. -/
theorem findBoundaries_draws [Display Int] {s s' : Search σ μ (List Int)}
    (h : findBoundaries settings (drawsProperty bs holds) s = .ok () s') :
    Alike { s with boundaries := boundariesOf bs } s' := by
  obtain ⟨e, s₁, hg, rfl⟩ := findBoundaries_ok h
  have hb := Gen.generate_draws_ok bs (generate_ok hg).1
  have ha : Alike s s₁ := Alike.inLab ⟨rfl, rfl, rfl, rfl⟩ hg
  refine ⟨ha.visited, ha.suggested, ?_, ha.used⟩
  rw [← hb]
  exact boundaries_eq e.trace

theorem Hunt.boundary [Display Int] {random : Xorshift} {world : σ} {s' : Search σ μ (List Int)}
    (hg : settings.guide? = none) (ht : settings.timeMillis ≤ 0) (hr : 3 ≤ settings.rounds)
    (hb : boundariesOf bs = before ++ vs :: after) (hs : Stops holds ∅ before vs)
    (hh : Hunt settings (drawsProperty bs holds) clock (.start random world) result s') :
    ((∃ found, result = .ok (some found)) ∧ s'.used ≤ 3) ∨
      ∃ fault, result = .error fault ∧ fault.Endless := by
  have hstart : startGuide settings (.start random world : Search σ μ (List Int)) =
      .ok () (.start random world) := by
    simp only [startGuide, hg]
  have hlen : before.length + 1 ≤ 3 := by
    have hl := congrArg List.length hb
    simp only [boundariesOf, List.length_append, List.length_cons, List.length_nil] at hl
    omega
  cases hh with
  | unguided h =>
    rw [hstart] at h
    cases h
  | unreferenced h hf =>
    have hgen := (Property.generate_error (inLab_error (findBoundaries_error hf)).1).1
    exact .inr ⟨_, rfl, Gen.generate_draws_error bs hgen⟩
  | rounds h hf hc =>
    rw [hstart] at h
    cases h
    have ha := findBoundaries_draws hf
    have hbs : _ = boundariesOf bs := ha.boundaries
    refine (hc.boundary hg ht ha.suggested (hbs.trans hb)
      (fun us hus => allowed_boundariesOf bs us (hbs ▸ hus)) (by omega)
      (ha.visited ▸ hs)).imp_left fun ⟨hfound, hu⟩ => ⟨hfound, ?_⟩
    rw [ha.used, start, Nat.zero_add] at hu
    exact Nat.le_trans hu hlen

/-- A search that comes to an example falsifies by it, whatever becomes of shrinking. -/
theorem Finish.of_found {s s₁ s' : Search σ μ β} {p : Property σ α β}
    (h : Finish settings p clock (Shrink.targeted moves) s result s')
    (hf : find settings p clock s = .ok (some found) s₁) :
    (∃ findings, result = .ok findings ∧ findings.isFalsified = true ∧
      findings.exhausted = false ∧ findings.executed = s₁.used) ∨
    ∃ fault, result = .error fault ∧ fault.Endless := by
  rcases hd : p.shrink settings.attempts (Shrink.targeted moves) settings.shrinkCycles s₁.lab
    found.2 with ⟨ending, d⟩
  rcases h.of_shrink hf hd with ⟨fault, hfault, hr⟩ | ⟨-, _, rfl⟩
  · have hends := Property.shrink_targeted_fault hd hfault
    rw [hends.not_exhausted] at hr
    exact .inr ⟨fault, hr, hends⟩
  · exact .inl ⟨_, rfl, by simp [Findings.isFalsified], rfl, rfl⟩

theorem Finish.of_endless {s s₁ s' : Search σ μ β} {p : Property σ α β}
    (h : Finish settings p clock propose s result s')
    (hf : find settings p clock s = .error fault s₁) (hn : fault.Endless) :
    result = .error fault := by
  rw [h.of_error hf, hn.not_exhausted]
  rfl

theorem find_boundary [Display Int] (hg : settings.guide? = none) (ht : settings.timeMillis ≤ 0)
    (hr : 3 ≤ settings.rounds) (hb : boundariesOf bs = before ++ vs :: after)
    (hs : Stops holds ∅ before vs) (clock : Clock) (random : Xorshift) (world : σ) : ∃ s₁,
    (∃ found, find settings (drawsProperty bs holds) clock (.start random world) =
      .ok (some found) s₁ ∧ s₁.used ≤ 3) ∨
    ∃ fault, find settings (drawsProperty bs holds) clock (.start random world) =
      .error fault s₁ ∧ fault.Endless := by
  have hh := find_hunt settings (drawsProperty bs holds) clock (.start random world)
  cases hf : find settings (drawsProperty bs holds) clock (.start random world) with
  | ok found s₁ =>
    rw [Act.outcome_of_ok hf] at hh
    rcases hh.boundary hg ht hr hb hs with ⟨⟨found, hfound⟩, hu⟩ | ⟨fault, hfault, -⟩
    · cases hfound
      exact ⟨s₁, .inl ⟨found, rfl, hu⟩⟩
    · cases hfault
  | error fault s₁ =>
    rw [Act.outcome_of_error hf] at hh
    rcases hh.boundary hg ht hr hb hs with ⟨⟨found, hfound⟩, -⟩ | ⟨fault, hfault, hn⟩
    · cases hfound
    · cases hfault
      exact ⟨s₁, .inr ⟨_, rfl, hn⟩⟩

end Search

namespace Gen

/-- Generators of numbers within bounds that shrink towards targets. -/
def ranges (specs : List (Int × Int × Int)) : Except Fault (List (Gen σ Int)) :=
  specs.mapM fun (lo, hi, target) => range lo hi target

/-- The targets, moved between the bounds, then the minima, then the maxima. -/
def boundaryTuples (specs : List (Int × Int × Int)) : List (List Int) :=
  [specs.map fun (lo, hi, target) => Bounds.clamp lo hi target, specs.map fun (lo, _, _) => lo,
    specs.map fun (_, hi, _) => hi]

theorem ranges_ok {gens : List (Gen σ Int)} (h : ranges specs = .ok gens) :
    ∃ bs, gens = bs.map draw ∧ Search.boundariesOf bs = boundaryTuples specs := by
  induction specs generalizing gens with
  | nil =>
    cases h
    exact ⟨[], rfl, rfl⟩
  | cons spec specs ih =>
    obtain ⟨lo, hi, target⟩ := spec
    rw [ranges, List.mapM_cons] at h
    obtain ⟨g, hg, h⟩ := Except.bind_eq_ok.mp h
    obtain ⟨gs, hgs, h⟩ := Except.bind_eq_ok.mp h
    cases h
    obtain ⟨b, rfl, hrest, hlo, hhi⟩ := range_ok hg
    obtain ⟨bs, rfl, hbs⟩ := ih hgs
    refine ⟨b :: bs, rfl, ?_⟩
    simp only [Search.boundariesOf, boundaryTuples, List.cons.injEq, and_true] at hbs
    obtain ⟨hrests, hlos, hhis⟩ := hbs
    simp only [Search.boundariesOf, boundaryTuples, List.map_cons, hrest, hlo, hhi, hrests, hlos,
      hhis]

end Gen

/-- A failing boundary is found within three examples, unless a boundary before it takes all
attempts or, holding itself, hides it by the same fingerprint; or some draw goes on for ever. -/
theorem Search.run_finds_boundary [Display Int] {gens : List (Gen σ Int)}
    (hgens : Gen.ranges specs = .ok gens) (settings : Settings μ)
    (hexamples : 3 ≤ settings.examples) (htime : settings.timeMillis ≤ 0)
    (hguide : settings.guide? = none) (holds : List Int → Except Fault Bool)
    (hb : Gen.boundaryTuples specs = before ++ vs :: after) (hf : Falsifies holds vs cause)
    (hpatient : ∀ us ∈ before, ∀ fault, holds us = .error fault → fault.isExhausted = false)
    (hdistinct : ∀ us ∈ before, holds us = .ok true → fingerprintOf us ≠ fingerprintOf vs)
    (clock : Clock) (moves : Nat) (random : Xorshift) (world : σ) :
    (∃ found s, run settings (.ofPredicate (Gen.tuplesOf gens) holds) clock (Shrink.targeted moves)
        (.start random world) = .ok found s ∧
      found.isFalsified = true ∧ found.exhausted = false ∧ found.executed ≤ 3) ∨
    ∃ fault s, run settings (.ofPredicate (Gen.tuplesOf gens) holds) clock (Shrink.targeted moves)
        (.start random world) = .error fault s ∧ fault.Endless := by
  obtain ⟨bs, rfl, hbs⟩ := Gen.ranges_ok hgens
  have hrounds : 3 ≤ settings.rounds := by
    rw [Settings.rounds, if_neg (by omega)]
    omega
  have hfails : ∀ fault, holds vs = .error fault → fault.isExhausted = false := by
    intro fault he
    cases hx : fault.isExhausted with
    | true => exact absurd hf (not_falsifies_of_error he (.inl hx))
    | false => rfl
  have hs : Stops holds ∅ before vs := by
    refine ⟨rfl, hdistinct, fun us hus => ?_, fun hh => not_falsifies_of_holds hh hf⟩
    rcases List.mem_append.mp hus with hus | hus
    · exact hpatient us hus
    · exact List.mem_singleton.mp hus ▸ hfails
  have hend := run_finish settings (drawsProperty bs holds) clock (Shrink.targeted moves)
    (.start random world)
  obtain ⟨s₁, ⟨found, hfind, hu⟩ | ⟨fault, hfind, hn⟩⟩ :=
    find_boundary hguide htime hrounds (hbs.trans hb) hs clock random world
  · rcases hend.of_found hfind with ⟨findings, hr, hfalsified, hexhausted, he⟩ | ⟨fault, hr, hn⟩
    · exact .inl ⟨findings, _, Act.of_outcome_ok (Prod.ext hr rfl), hfalsified, hexhausted,
        he ▸ hu⟩
    · exact .inr ⟨fault, _, Act.of_outcome_error (Prod.ext hr rfl), hn⟩
  · have hr := hend.of_endless hfind hn
    exact .inr ⟨fault, _, Act.of_outcome_error (Prod.ext hr rfl), hn⟩

/-- Three examples from this seed, which are not shrunk. -/
def Settings.three (seed : Int) : Settings Unit where
  random := .ofSeed seed
  examples := 3
  shrinkCycles := 0
  attempts := 10
  timeMillis := 0
  minSteps := 1
  maxSteps := 50
  reporter := .collecting
  guide? := none
  examples_valid := .inr (by decide)

namespace Search

/-- What a search for a tuple of numbers in these ranges finds. -/
def searchThree (seed : Int) (specs : List (Int × Int × Int))
    (holds : List Int → Except Fault Bool) : Except Fault (Findings (List Int)) := do
  let gens ← Gen.ranges (σ := Unit) specs
  (Act.outcome (run (.three seed) (.ofPredicate (Gen.tuplesOf gens) holds) .stopped
    (Shrink.targeted Shrink.randomMoves)) (.start (.ofSeed seed) ())).1

theorem searchThree_of_ok (h : Gen.ranges (σ := Unit) specs = .ok gens) (seed : Int)
    (holds : List Int → Except Fault Bool) :
    searchThree seed specs holds = (Act.outcome (run (.three seed)
      (.ofPredicate (Gen.tuplesOf gens) holds) .stopped (Shrink.targeted Shrink.randomMoves))
      (.start (.ofSeed seed) ())).1 := by
  unfold searchThree
  rw [h]
  rfl

/-- False of one tuple only. -/
def except (vs : List Int) : List Int → Except Fault Bool := fun us =>
  .ok (us ≠ vs)

theorem falsifies_except (vs : List Int) : Falsifies (except vs) vs none :=
  .answered (by simp [except])

/-- The maxima fail; the targets and the minima, tried before, hold and have other fingerprints. -/
theorem run_finds_boundary_maxima :
    Gen.boundaryTuples [(-5, 10, 3), (0, 7, 0)] = [[3, 0], [-5, 0], [10, 7]] ∧
      ∃ found, searchThree 1 [(-5, 10, 3), (0, 7, 0)] (except [10, 7]) = .ok found ∧
        found.isFalsified = true ∧ found.exhausted = false ∧ found.executed ≤ 3 := by
  have hgens : Gen.ranges (σ := Unit) [(-5, 10, 3), (0, 7, 0)] = .ok _ := rfl
  have hb : Gen.boundaryTuples [(-5, 10, 3), (0, 7, 0)] = [[3, 0], [-5, 0]] ++ [10, 7] :: [] := rfl
  have hdistinct : ∀ us ∈ [[3, 0], [-5, 0]], except [10, 7] us = .ok true →
      fingerprintOf us ≠ fingerprintOf [10, 7] := by
    have hall : ∀ us ∈ [[3, 0], [-5, 0]], fingerprintOf us ≠ fingerprintOf [10, 7] := by
      decide +kernel
    exact fun us hus _ => hall us hus
  have hend := run_finds_boundary hgens (.three 1) (by decide) (by decide) rfl (except [10, 7]) hb
    (falsifies_except _) (fun _ _ _ h => nomatch h) hdistinct .stopped Shrink.randomMoves
    (.ofSeed 1) ()
  refine ⟨hb, ?_⟩
  have hok : (searchThree 1 [(-5, 10, 3), (0, 7, 0)] (except [10, 7])).toOption.isSome = true := by
    decide +kernel
  rw [searchThree_of_ok hgens] at hok ⊢
  rcases hend with ⟨found, s, hr, hfound⟩ | ⟨fault, s, hr, -⟩
  · exact ⟨found, congrArg Prod.fst (Act.outcome_of_ok hr), hfound⟩
  · rw [Act.outcome_of_error hr] at hok
    cases hok

/-- Gives up on the tuple of zero, and is false of the tuple of five. -/
def impatient (us : List Int) : Except Fault Bool :=
  if us = [0] then .error (.exhausted 0) else except [5] us

theorem run_unreferenced {settings : Settings μ} {p : Property σ α β}
    (hg : settings.guide? = none) {random : Xorshift} {world : σ} {after : Xorshift × σ}
    (h : p.gen.generate settings.attempts [] (random, world) = .error fault after)
    (hx : fault.isExhausted = false) (clock : Clock) (propose : Trace → Proposals) :
    ∃ s, run settings p clock propose (.start random world) = .error fault s := by
  have hstart : startGuide settings (.start random world : Search σ μ β) =
      .ok () (.start random world) := by
    simp only [startGuide, hg]
  have hgen : ∃ s, generate settings p [] (.start random world : Search σ μ β) =
      .error fault s := by
    simp only [generate, inLab, Act.within, Property.generate, start, h]
    exact ⟨_, rfl⟩
  obtain ⟨s, hgen⟩ := hgen
  have hfind : find settings p clock (.start random world) = .error fault s :=
    (Act.bind_ok hstart).trans (Act.bind_error (Act.bind_error hgen))
  exact ⟨s, run_of_error (Act.bind_error hfind) hx⟩

theorem generate_unreferenced {b : Bounds} {random after : Xorshift}
    (h : Xorshift.between b.lo b.hi random = .error fault after) (attempts : Int) (world : σ) :
    (Gen.tuplesOf [Gen.draw b]).generate attempts [] (random, world) =
      .error fault (after, world) := by
  have hnext : Source.next b (.start random [] attempts) =
      .error fault (.start after [] attempts) := by
    simp only [Source.next, Source.start, Source.drawFresh, h]
  have hdraw : Sampler.draw b ⟨.start random [] attempts, world⟩ =
      .error fault ⟨.start after [] attempts, world⟩ := Sampler.onSource_of_error hnext
  have hs : (Gen.tuplesOf [Gen.draw b]).sample ⟨.start random [] attempts, world⟩ =
      .error fault ⟨.start after [] attempts, world⟩ := Act.bind_error hdraw
  simp only [Gen.generate, hs]
  rfl

/-- The numbers below zero, too many for one word to count. -/
def belowZero : Bounds :=
  ⟨Word.least, -1, some (-1), by decide, Int.le_refl Word.least, by decide, by decide⟩

/-- The generator from minus one only ever answers zero. -/
theorem between_belowZero : ∃ endless after,
    Xorshift.between belowZero.lo belowZero.hi (.ofSeed (-1)) =
      .error (.unreachableRange belowZero.lo belowZero.hi endless) after := by
  have hstuck : Xorshift.scramble (Xorshift.ofSeed (-1)).state = 0 := by decide
  have hout : ¬ (belowZero.lo ≤ 0 ∧ 0 ≤ belowZero.hi) := by decide
  obtain ⟨endless, h⟩ := Xorshift.between_of_misses belowZero.lo_le_hi (by decide)
    (Xorshift.misses_of_stuck hstuck hout)
  exact ⟨endless, _, h⟩

theorem searchThree_endless (holds : List Int → Except Fault Bool) :
    ∃ endless, searchThree (-1) [(Word.least, -1, 0)] holds =
      .error (.unreachableRange Word.least (-1) endless) := by
  have hgens : Gen.ranges (σ := Unit) [(Word.least, -1, 0)] = .ok [Gen.draw belowZero] := rfl
  have hguide : (Settings.three (-1)).guide? = none := rfl
  obtain ⟨endless, after, hbetween⟩ := between_belowZero
  have hgen : (Property.ofPredicate (Gen.tuplesOf [Gen.draw belowZero]) holds).gen.generate
      (Settings.three (-1)).attempts [] (.ofSeed (-1), ()) = .error _ (after, ()) :=
    generate_unreferenced hbetween _ ()
  obtain ⟨s, hr⟩ := run_unreferenced hguide hgen rfl .stopped (Shrink.targeted Shrink.randomMoves)
  refine ⟨endless, ?_⟩
  rw [searchThree_of_ok hgens, Act.outcome_of_error hr]
  rfl

/-- A failing boundary can be missed: the maximum, where its checksum is that of zero; the maximum,
where the target took all attempts before; and any, where the first draw goes on for ever. -/
theorem boundary_missed :
    (Gen.boundaryTuples [(0, 6814697335, 0)] = [[0], [0], [6814697335]] ∧
      Falsifies (except [6814697335]) [6814697335] none ∧
      searchThree 1 [(0, 6814697335, 0)] (except [6814697335]) = .ok ⟨false, 1, [], none⟩) ∧
    (Gen.boundaryTuples [(0, 5, 0)] = [[0], [0], [5]] ∧ Falsifies impatient [5] none ∧
      searchThree 1 [(0, 5, 0)] impatient = .ok ⟨true, 1, [], none⟩) ∧
    (Gen.boundaryTuples [(Word.least, -1, 0)] = [[-1], [Word.least], [-1]] ∧
      Falsifies (except [-1]) [-1] none ∧
      ∃ endless, searchThree (-1) [(Word.least, -1, 0)] (except [-1]) =
        .error (.unreachableRange Word.least (-1) endless)) := by
  refine ⟨⟨rfl, falsifies_except _, eq_ok_of_toOption (by decide +kernel)⟩,
    ⟨rfl, .answered rfl, eq_ok_of_toOption (by decide +kernel)⟩,
    rfl, falsifies_except _, searchThree_endless _⟩

end Search

end Refute

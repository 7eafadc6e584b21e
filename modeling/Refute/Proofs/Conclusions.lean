import Refute.Proofs.Rounds

namespace Refute

namespace Gen

/-- The value comes of some run of the generator. -/
def Yields (g : Gen σ α) (a : α) : Prop :=
  ∃ s s', g.sample s = .ok a s'

theorem yields_of_generate {g : Gen σ α} (h : g.generate attempts forced before = .ok e after) :
    g.Yields e.value := by
  unfold generate at h
  split at h
  · rename_i hs
    cases h
    exact ⟨_, _, hs⟩
  · cases h

end Gen

/-- The verdict is what the predicate says of the value. -/
def Verdict.Fits (holds : α → Except Fault Bool) (a : α) : Verdict → Prop
  | .holds => holds a = .ok true
  | .fails cause => Falsifies holds a cause

namespace Search

variable {settings : Settings μ} {gen : Gen σ α} {holds : α → Except Fault Bool}

/-- Between two moments of a search the property was run on just these values, in order. -/
inductive Tests (gen : Gen σ α) (s s' : Search σ μ α) (vs : List α) : Prop where
  | intro (hn : Extends s s' news) (ht : Journal.testedValues news = vs)
      (hy : ∀ v ∈ vs, gen.Yields v)

theorem Tests.refl (gen : Gen σ α) (s : Search σ μ α) : Tests gen s s [] :=
  .intro (.refl s) rfl nofun

theorem Tests.trans {s s₁ s' : Search σ μ α} (h : Tests gen s s₁ vs) (h' : Tests gen s₁ s' vs') :
    Tests gen s s' (vs ++ vs') := by
  obtain ⟨hn, rfl, hy⟩ := h
  obtain ⟨hn', rfl, hy'⟩ := h'
  refine .intro (hn.trans hn') (Journal.testedValues_append _ _) fun v hv => ?_
  rcases List.mem_append.mp hv with hv | hv
  · exact hy v hv
  · exact hy' v hv

/-- What was noted since did not come of the property. -/
theorem Tests.extend {s s₁ s' : Search σ μ α} (h : Tests gen s s₁ vs) (hn : Extends s₁ s' news)
    (ht : Journal.testedValues news = []) : Tests gen s s' vs := by
  have hv := h.trans (.intro hn ht nofun)
  rwa [List.append_nil] at hv

theorem Tests.notified {s s₁ : Search σ μ α} (h : Tests gen s s₁ vs) (notice : Notice)
    (hn : ∀ t, notice ≠ .newExample t) (random : Xorshift) (memory? : Option μ) :
    Tests gen s (s₁.notified notice random memory?) vs :=
  h.extend ((Extends.refl s₁).notified notice hn random memory?) rfl

theorem Tests.count {s s₁ : Search σ μ α} (h : Tests gen s s₁ vs) (print : UInt32) (t : Trace)
    (random : Xorshift) (memory? : Option μ) :
    Tests gen s ((s₁.count print).notified (.newExample t) random memory?) vs :=
  h.extend ((Extends.refl s₁).count print t random memory?) rfl

theorem Tests.advised {s s₁ : Search σ μ α} (h : Tests gen s s₁ vs) (traces : List (List Int)) :
    Tests gen s (s₁.advise traces) vs :=
  h.extend ((Extends.refl s₁).advised traces) rfl

theorem Tests.examined {s s₁ s' : Search σ μ α} (h : Tests gen s s₁ vs)
    (hy : gen.Yields e.value)
    (hx : inLab ((Property.ofPredicate gen holds).examine e) s₁ = .ok (verdict, e') s') :
    Tests gen s s' (vs ++ [e.value]) :=
  h.trans (.intro ((Extends.refl s₁).examined hx) rfl (by simpa using hy))

theorem Tests.unexamined {s s₁ s' : Search σ μ α} (h : Tests gen s s₁ vs)
    (hy : gen.Yields e.value)
    (hx : inLab ((Property.ofPredicate gen holds).examine e) s₁ = .error fault s') :
    Tests gen s s' (vs ++ [e.value]) :=
  h.trans (.intro ((Extends.refl s₁).unexamined hx) rfl (by simpa using hy))

theorem Met.tests {s s' : Search σ μ α} (h : Met settings (.ofPredicate gen holds) s e s') :
    Tests gen s s' [] ∧ gen.Yields e.value := by
  obtain ⟨forced, before, hg, hn⟩ := h.extends
  exact ⟨(Tests.refl gen s).extend hn rfl, Gen.yields_of_generate hg⟩

theorem Begun.tests {s s' : Search σ μ α} (h : Begun settings (.ofPredicate gen holds) s e s') :
    Tests gen s s' [] ∧ gen.Yields e.value := by
  obtain ⟨hm, -, -, ht⟩ := h
  obtain ⟨random, memory?, rfl⟩ := notify_ok ht
  exact ⟨hm.tests.1.count .., hm.tests.2⟩

theorem Judged.tests {s s' : Search σ μ α}
    (h : Judged settings (.ofPredicate gen holds) s verdict e s') :
    Tests gen s s' [e.value] ∧ verdict.Fits holds e.value := by
  obtain ⟨hb, hx, ht⟩ := h
  obtain ⟨random, memory?, rfl⟩ := notify_ok ht
  have hv := (Property.examine_ofPredicate (inLab_ok hx).1).2
  have he := (Property.examine_ok (inLab_ok hx).1).2.1
  have hs := (hb.tests.1.examined hb.tests.2 hx).notified .executed nofun random memory?
  rw [he]
  exact ⟨hs, by cases verdict <;> exact hv⟩

/-- Round by round a search came to an example that the property was run on, and broke off there,
for the guide failed on hearing that it was executed. -/
inductive Unheard (settings : Settings μ) (p : Property σ α β) :
    Nat → Search σ μ β → Example α → Fault → Search σ μ β → Prop where
  | here (k : Nat) (hb : Begun settings p s e₀ s₁)
      (hx : inLab (p.examine e₀) s₁ = .ok (verdict, e) s₂)
      (ht : notify settings .executed Guide.executed () s₂ = .error fault s') :
      Unheard settings p k s e fault s'
  | later (hr : Round settings p k s (.ok none) s₁)
      (hn : Unheard settings p (k + 1) s₁ e fault s') : Unheard settings p k s e fault s'

/-- A search from its start on broke off so. -/
inductive GuideFails (settings : Settings μ) (p : Property σ α β) (s : Search σ μ β)
    (e : Example α) (fault : Fault) (s' : Search σ μ β) : Prop where
  | intro (hg : startGuide settings s = .ok () s₁) (hb : findBoundaries settings p s₁ = .ok () s₂)
      (hu : Unheard settings p 0 s₂ e fault s') : GuideFails settings p s e fault s'

/-- What a search comes to after it ran the property on these values, in order. `unheard` tells when
the guide fails on hearing of an example. -/
inductive Conclusion (holds : α → Except Fault Bool) (unheard : Example α → Fault → Prop) :
    Except Fault (Option (Option Fault × Example α)) → List α → Prop where
  | passed (hv : ∀ v ∈ vs, holds v = .ok true) : Conclusion holds unheard (.ok none) vs
  | falsified (hv : ∀ v ∈ vs, holds v = .ok true) (hf : Falsifies holds e.value cause) :
      Conclusion holds unheard (.ok (some (cause, e))) (vs ++ [e.value])
  | stopped (hv : ∀ v ∈ vs, holds v = .ok true) : Conclusion holds unheard (.error fault) vs
  /-- The property itself ran out of attempts, or never ended. -/
  | gaveOut (hv : ∀ v ∈ vs, holds v = .ok true) (hx : holds v = .error fault)
      (hf : fault.isExhausted = true ∨ fault.isEndless = true) :
      Conclusion holds unheard (.error fault) (vs ++ [v])
  | unheard (hv : ∀ v ∈ vs, holds v = .ok true) (hu : unheard e fault) :
      Conclusion holds unheard (.error fault) (vs ++ [e.value])

variable {unheard unheard' : Example α → Fault → Prop}

theorem Conclusion.after (h : Conclusion holds unheard result vs)
    (hu : ∀ v ∈ us, holds v = .ok true) (hlater : ∀ e fault, unheard e fault → unheard' e fault) :
    Conclusion holds unheard' result (us ++ vs) := by
  have happ : ∀ {ws : List α}, (∀ v ∈ ws, holds v = .ok true) →
      ∀ v ∈ us ++ ws, holds v = .ok true := by
    intro ws hw v hv
    rcases List.mem_append.mp hv with hv | hv
    · exact hu v hv
    · exact hw v hv
  cases h with
  | passed hv => exact .passed (happ hv)
  | falsified hv hf =>
    rw [← List.append_assoc]
    exact .falsified (happ hv) hf
  | stopped hv => exact .stopped (happ hv)
  | gaveOut hv hx hf =>
    rw [← List.append_assoc]
    exact .gaveOut (happ hv) hx hf
  | unheard hv hu =>
    rw [← List.append_assoc]
    exact .unheard (happ hv) (hlater _ _ hu)

/-- One round runs the property once at most. -/
theorem Round.conclusion {s s' : Search σ μ α}
    (h : Round settings (.ofPredicate gen holds) k s result s') :
    ∃ vs, Tests gen s s' vs ∧
      Conclusion holds (Unheard settings (.ofPredicate gen holds) k s · · s') result vs := by
  cases h with
  | ungenerated hn hg =>
    exact ⟨[], (Tests.refl gen s).extend (ungenerated_extends hn hg) rfl, .stopped nofun⟩
  | unprinted hm => exact ⟨[], hm.tests.1, .stopped nofun⟩
  | repeated hm => exact ⟨[], hm.tests.1, .passed nofun⟩
  | unannounced hm hp hv ht =>
    obtain ⟨⟨random, memory?, rfl⟩, -⟩ := notify_error ht
    exact ⟨[], hm.tests.1.count .., .stopped nofun⟩
  | untested hb hx =>
    obtain ⟨hv, hf⟩ := Property.examine_ofPredicate_error (inLab_error hx).1
    exact ⟨_, hb.tests.1.unexamined hb.tests.2 hx, .gaveOut nofun hv hf⟩
  | unreported hb hx ht =>
    have hs := hb.tests.1.examined hb.tests.2 hx
    have hu := Unheard.here k hb hx ht
    obtain ⟨⟨random, memory?, rfl⟩, -⟩ := notify_error ht
    have he := (Property.examine_ok (inLab_ok hx).1).2.1
    rw [← he] at hs
    exact ⟨_, hs.notified .executed nofun random memory?, .unheard nofun hu⟩
  | falsified hj =>
    rename_i e
    exact ⟨[] ++ [e.value], hj.tests.1, .falsified nofun hj.tests.2⟩
  | unadvised hj ht =>
    obtain ⟨⟨random, memory?, rfl⟩, -⟩ := notify_error ht
    exact ⟨_, hj.tests.1.notified (.suggest ..) nofun random memory?,
      .stopped (List.forall_mem_singleton.mpr hj.tests.2)⟩
  | uncompleted hj ht hc =>
    obtain ⟨random, memory?, rfl⟩ := notify_ok ht
    obtain ⟨⟨random', memory?', rfl⟩, -⟩ := notify_error hc
    exact ⟨_, ((hj.tests.1.notified (.suggest ..) nofun random memory?).advised _).notified
      .complete nofun random' memory?', .stopped (List.forall_mem_singleton.mpr hj.tests.2)⟩
  | held hj ht hc =>
    obtain ⟨random, memory?, rfl⟩ := notify_ok ht
    obtain ⟨random', memory?', rfl⟩ := notify_ok hc
    exact ⟨_, ((hj.tests.1.notified (.suggest ..) nofun random memory?).advised _).notified
      .complete nofun random' memory?', .passed (List.forall_mem_singleton.mpr hj.tests.2)⟩

/-- Rounds without a falsifying example leave only values that hold. -/
theorem Course.conclusion {s s' : Search σ μ α}
    (h : Course settings (.ofPredicate gen holds) clock left k s result s') :
    ∃ vs, Tests gen s s' vs ∧
      Conclusion holds (Unheard settings (.ofPredicate gen holds) k s · · s') result vs := by
  induction h with
  | finished k s => exact ⟨[], .refl gen s, .passed nofun⟩
  | late left s => exact ⟨[], .refl gen s, .passed nofun⟩
  | last _ _ hr => exact hr.conclusion
  | more _ hr _ ih =>
    obtain ⟨us, hu, hcu⟩ := hr.conclusion
    obtain ⟨vs, hv, hcv⟩ := ih
    cases hcu with
    | passed hheld =>
      exact ⟨us ++ vs, hu.trans hv, hcv.after hheld fun _ _ hn => .later hr hn⟩

theorem Hunt.conclusion {s s' : Search σ μ α}
    (h : Hunt settings (.ofPredicate gen holds) clock s result s') :
    ∃ vs, Tests gen s s' vs ∧
      Conclusion holds (GuideFails settings (.ofPredicate gen holds) s · · s') result vs := by
  cases h with
  | unguided hg =>
    have hs := (Tests.refl gen s).extend (startGuide_extends (Act.outcome_of_error hg)) rfl
    exact ⟨[], hs, .stopped nofun⟩
  | unreferenced hg hb =>
    have hs := (Tests.refl gen s).extend (startGuide_extends (Act.outcome_of_ok hg)) rfl
    exact ⟨[], hs.extend (generate_error (findBoundaries_error hb)) rfl, .stopped nofun⟩
  | rounds hg hb hc =>
    have hs := (Tests.refl gen s).extend (startGuide_extends (Act.outcome_of_ok hg)) rfl
    obtain ⟨_, _, _, hn⟩ := findBoundaries_extends hb
    obtain ⟨vs, hv, hcv⟩ := hc.conclusion
    refine ⟨vs, (hs.extend hn rfl).trans hv, ?_⟩
    exact hcv.after (List.forall_mem_nil _) fun _ _ hu => GuideFails.intro hg hb hu

end Search

end Refute

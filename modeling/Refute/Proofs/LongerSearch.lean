import Mathlib.Control.Monad.Basic
import Refute.Proofs.Lasting
import Refute.Proofs.LongerDescent
import Refute.Proofs.Moves

namespace Refute

open Act

namespace Search

variable {settings : Settings μ} {p : Property σ α β} {V : Example α → Example α → Prop}
  {more : Nat}

/-- Found for the same cause, as examples that `V` relates. -/
def LikeFindings (V : Example α → Example α → Prop) :
    Option (Option Fault × Example α) → Option (Option Fault × Example α) → Prop :=
  Option.Rel fun x x' => x.1 = x'.1 ∧ V x.2 x'.2

/-- An event of the kind `G` was noted. -/
def Marked (G : Event β → Prop) (s : Search σ μ β) : Prop :=
  s.lab.Marked G

section Marked

variable {G : Event β → Prop}

theorem Marked.note {lab : Lab σ β} (h : lab.Marked G) (event : Event β) :
    (lab.note event).Marked G := by
  obtain ⟨other, hm, hG⟩ := h
  exact ⟨other, List.mem_cons_of_mem event hm, hG⟩

theorem preserves_notify (settings : Settings μ) (notice : Notice)
    (tell : Guide μ → Act (Guided μ) γ) (silence : γ) :
    Preserves (Marked G) (notify settings notice tell silence : Act (Search σ μ β) γ) := by
  intro s hs
  cases hr : notify settings notice tell silence s with
  | ok c s' =>
    obtain ⟨random, memory?, rfl⟩ := notify_ok hr
    rw [outcome_of_ok hr]
    exact Marked.note hs _
  | error fault s' =>
    obtain ⟨⟨random, memory?, rfl⟩, -⟩ := notify_error hr
    rw [outcome_of_error hr]
    exact Marked.note hs _

/-- What was noted stays noted. -/
theorem lasts_marked (settings : Settings μ) :
    Lasts settings (Marked G : Search σ μ β → Prop) where
  event := by
    rintro s lab event ⟨other, hm, hG⟩ hj -
    exact ⟨other, hj ▸ List.mem_cons_of_mem event hm, hG⟩
  queues _ _ _ _ h := h
  newExample _ := preserves_notify settings _ _ _
  executed := preserves_notify settings _ _ _
  suggest _ _ := preserves_notify settings _ _ _
  complete := preserves_notify settings _ _ _

end Marked

theorem outlasts_inLab {act : Act (Lab σ β) γ} {act' : Act (Lab σ β) δ}
    (h : Outlasts Eq W act act') :
    Outlasts Eq W (inLab act : Act (Search σ μ β) γ) (inLab act') :=
  h.within (fun _ _ hs => congrArg lab hs) fun _ _ _ _ hs ht => by rw [hs, ht]

theorem isNew_congr {e e' : Example α} (h : e.Like e') :
    (isNew e : Act (Search σ μ β) Bool) = isNew e' := by
  unfold isNew
  rw [h.trace]

section Endures

variable {W : σ → Prop} {G : Event β → Prop}

theorem outlasts_generate (hp : p.Endures settings.attempts more W G V) (forced : List Int) :
    Outlasts Eq V (generate settings p forced : Act (Search σ μ β) (Example α))
      (generate { settings with attempts := more } p forced) :=
  outlasts_inLab (hp.generate forced)

theorem outlasts_findBoundaries (hp : p.Endures settings.attempts more W G V) :
    Outlasts Eq Eq (findBoundaries settings p : Act (Search σ μ β) Unit)
      (findBoundaries { settings with attempts := more } p) := by
  refine (outlasts_generate hp []).bind fun e e' he => ?_
  rw [(hp.like he).trace]
  exact (pairs_self _).outlasts

theorem outlasts_examine (hp : p.Endures settings.attempts more W G V) (he : V e e')
    {s : Search σ μ β} (hs : W s.lab.world) :
    OutlastsAt (Marked G) (fun x x' => x.1 = x'.1 ∧ V x.2 x'.2) (inLab (p.examine e))
      (inLab (p.examine e')) s := by
  rcases hp.examine he hs with hmarked | h
  · refine .inl ?_
    rw [inLab, outcome_within]
    exact hmarked
  · exact .inr (Outlast.within h fun _ _ ht => by rw [ht])

theorem outlasts_conclude (hp : p.Endures settings.attempts more W G V) (k : Nat)
    {x x' : Verdict × Example α} (hx : x.1 = x'.1 ∧ V x.2 x'.2) :
    Outlasts Eq (LikeFindings V) (conclude settings k x : Act (Search σ μ β) _)
      (conclude { settings with attempts := more } k x') := by
  obtain ⟨verdict, e⟩ := x
  obtain ⟨_, e'⟩ := x'
  obtain ⟨rfl, he⟩ := hx
  refine (pairs_self (notify settings _ _ _)).outlasts.bind_eq fun _ => ?_
  cases verdict with
  | fails cause => exact (pairs_pure (.some ⟨rfl, he⟩)).outlasts
  | holds =>
    dsimp only
    rw [(hp.like he).trace]
    refine (pairs_self (notify settings _ _ _)).outlasts.bind_eq fun traces => ?_
    refine (pairs_self _).outlasts.bind_eq fun _ => ?_
    exact (pairs_self (notify settings _ _ _)).outlasts.bind_eq fun _ => (pairs_pure .none).outlasts

theorem outlasts_round (hp : p.Endures settings.attempts more W G V) (k : Nat)
    (s : Search σ μ β) :
    OutlastsAt (Marked G) (LikeFindings V) (round settings p k)
      (round { settings with attempts := more } p k) s := by
  rw [round_eq, round_eq]
  refine .follow ((pairs_self nextForced).outlasts s s rfl) fun forced _ s₁ hv hn => ?_
  cases hv
  refine .follow (outlasts_generate hp forced s₁ s₁ rfl) fun e e' s₂ he hg => ?_
  have hworld : W s₂.lab.world := hp.world (inLab_ok hg).1
  rw [isNew_congr (hp.like he), (hp.like he).trace]
  refine .follow ((pairs_self (isNew e')).outlasts s₂ s₂ rfl) fun new _ s₃ hv hn => ?_
  cases hv
  cases new with
  | false => exact .inr (.alike (.ok .none rfl))
  | true =>
    obtain ⟨print, -, -, rfl⟩ := isNew_ok hn
    refine .follow ((pairs_self _).outlasts _ _ rfl) fun _ _ s₄ _ hm => ?_
    cases hm
    refine .follow ((pairs_self (notify settings _ _ _)).outlasts _ _ rfl) fun _ _ s₅ _ ht => ?_
    obtain ⟨random, memory?, rfl⟩ := notify_ok ht
    refine .bind (outlasts_examine hp he hworld) ((lasts_marked settings).conclude k)
      fun x x' s₆ hx _ => ?_
    exact .inr (outlasts_conclude hp k hx s₆ s₆ rfl)

theorem outlasts_rounds (hp : p.Endures settings.attempts more W G V) {clock clock' : Clock}
    (hclock : ∀ k, clock.isOver settings.timeMillis k = clock'.isOver settings.timeMillis k)
    (left k : Nat) (s : Search σ μ β) :
    OutlastsAt (Marked G) (LikeFindings V) (rounds settings p clock left k)
      (rounds { settings with attempts := more } p clock' left k) s := by
  induction left generalizing k s with
  | zero => exact .inr (.alike (.ok .none rfl))
  | succ left ih =>
    unfold rounds
    rw [hclock]
    split
    · exact .inr (.alike (.ok .none rfl))
    · refine .bind (outlasts_round hp k s) (fun found => ?_) fun found found' s₁ hf _ => ?_
      · cases found with
        | some found => exact preserves_pure _
        | none => exact (lasts_marked settings).rounds p clock left (k + 1)
      · cases hf with
        | none => exact ih (k + 1) s₁
        | some hx => exact .inr (.alike (.ok (.some hx) rfl))

/-- Up to the example that it finds, a search goes as with fewer attempts. -/
theorem endures_find (hp : p.Endures settings.attempts more W G V) {clock clock' : Clock}
    (hclock : ∀ k, clock.isOver settings.timeMillis k = clock'.isOver settings.timeMillis k)
    (s : Search σ μ β) :
    OutlastsAt (Marked G) (LikeFindings V) (find settings p clock)
      (find { settings with attempts := more } p clock') s := by
  refine .follow ((pairs_self (startGuide settings)).outlasts s s rfl) fun _ _ s₁ _ _ => ?_
  refine .follow (outlasts_findBoundaries hp s₁ s₁ rfl) fun _ _ s₂ _ _ => ?_
  exact outlasts_rounds hp hclock settings.rounds 0 s₂

end Endures

theorem outlasts_find (hp : p.Outlives settings.attempts more V) (htime : settings.timeMillis ≤ 0)
    (clock clock' : Clock) :
    Outlasts Eq (LikeFindings V) (find settings p clock : Act (Search σ μ β) _)
      (find { settings with attempts := more } p clock') := by
  rintro s _ rfl
  have hclock (k : Nat) :
      clock.isOver settings.timeMillis k = clock'.isOver settings.timeMillis k := by
    rw [Clock.isOver_of_unlimited _ htime, Clock.isOver_of_unlimited _ htime]
  rcases endures_find hp.endures hclock s with ⟨event, -, hnone⟩ | h
  · exact hnone.elim
  · exact h

/-- Shrink cycles are not looked at before there is an example. -/
theorem rounds_withCycles (htime : settings.timeMillis ≤ 0) (cycles : Nat) (clock clock' : Clock)
    (left k : Nat) :
    rounds { settings with shrinkCycles := cycles } p clock' left k =
      rounds settings p clock left k := by
  induction left generalizing k with
  | zero => rfl
  | succ left ih =>
    unfold rounds
    simp only [Clock.isOver_of_unlimited _ htime, Bool.and_false, Bool.false_eq_true, if_false, ih]
    rfl

theorem find_withCycles (htime : settings.timeMillis ≤ 0) (cycles : Nat) (clock clock' : Clock) :
    find { settings with shrinkCycles := cycles } p clock' = find settings p clock := by
  unfold find
  rw [← rounds_withCycles htime cycles clock clock']
  rfl

/-- What came of a search, and of one that had more to spend: the same fault, or the same findings
up to further shrinking, unless that goes on for ever. -/
inductive Prolongs : Except Fault (Findings β) → Except Fault (Findings β) → Prop where
  | found {f f' : Findings β} (exhausted : f.exhausted = f'.exhausted)
      (executed : f.executed = f'.executed) (falsified : f.isFalsified = f'.isFalsified)
      (falsifying : f.falsifying <:+ f'.falsifying) : Prolongs (.ok f) (.ok f')
  | endless {fault : Fault} (h : fault.Endless) : Prolongs (.ok f) (.error fault)
  | failed (fault : Fault) : Prolongs (.error fault) (.error fault)

theorem Prolongs.refl (result : Except Fault (Findings β)) : Prolongs result result := by
  cases result with
  | ok f => exact .found rfl rfl rfl (List.suffix_refl _)
  | error fault => exact .failed fault

/-- The smallest value found with less is one of the steps on the way to that found with more. -/
theorem Prolongs.smallest_mem {f f' : Findings β} (h : Prolongs (.ok f) (.ok f'))
    (hb : f.smallest = .ok b) : b ∈ f'.falsifying := by
  cases h with
  | found _ _ _ hsuffix =>
    refine hsuffix.subset ?_
    unfold Findings.smallest at hb
    split at hb
    · cases hb
    · rename_i hf
      cases hb
      rw [hf]
      exact List.mem_cons_self

section

variable {settings' : Settings μ} {s t t' : Search σ μ β}

/-- Like examples, shrunk by two searches, the second with no fewer shrink cycles. -/
theorem Finish.prolongs_found (hp : p.Outlives settings.attempts settings'.attempts V)
    (hle : settings.shrinkCycles ≤ settings'.shrinkCycles) (he : V e e')
    (h : Finish settings p clock (Shrink.targeted moves) s result t)
    (h' : Finish settings' p clock' (Shrink.targeted moves) s result' t')
    (hf : find settings p clock s = .ok (some (cause, e)) s₁)
    (hf' : find settings' p clock' s = .ok (some (cause, e')) s₁) : Prolongs result result' := by
  obtain ⟨habreast, hfound⟩ := Property.shrink_abreast hp hle (Shrink.targeted moves) s₁.lab he
  rcases hd : p.shrink settings.attempts (Shrink.targeted moves) settings.shrinkCycles s₁.lab e
    with ⟨ending, d⟩
  rcases hd' : p.shrink settings'.attempts (Shrink.targeted moves) settings'.shrinkCycles s₁.lab e'
    with ⟨ending', d'⟩
  rw [hd, hd'] at habreast hfound
  rcases h.of_shrink hf hd with ⟨fault, hfault, hr⟩ | ⟨-, _, rfl⟩
  · -- A descent that fails is not cut short, so the other fails in the same way.
    rcases habreast with hcut | ⟨hending, -⟩
    · cases hcut <;> cases hfault
    · cases hending
      rcases h'.of_shrink hf' hd' with ⟨_, hfault', hr'⟩ | ⟨hno, -⟩
      · rw [hfault] at hfault'
        cases hfault'
        rw [hr, hr']
        exact .refl _
      · rw [hfault] at hno
        cases hno
  · rcases h'.of_shrink hf' hd' with ⟨_, hfault, hr'⟩ | ⟨-, _, rfl⟩
    · have hends := Property.shrink_targeted_fault hd' hfault
      rw [hr', hends.not_exhausted]
      exact .endless hends
    · obtain ⟨shrunk, hshrunk⟩ := hfound
      refine .found rfl rfl ?_ ⟨shrunk, ?_⟩
      · have hsome : ∀ (bs : List β) (b : β), (bs ++ [b]).isEmpty = false := by simp
        simp only [Findings.isFalsified, hsome]
      · dsimp only at hshrunk ⊢
        rw [← List.append_assoc, hshrunk, (hp.like he).value]

theorem Finish.prolongs (hp : p.Outlives settings.attempts settings'.attempts V)
    (hle : settings.shrinkCycles ≤ settings'.shrinkCycles)
    (hfind : Ends Eq (LikeFindings V) (find settings p clock s) (find settings' p clock' s))
    (h : Finish settings p clock (Shrink.targeted moves) s result t)
    (h' : Finish settings' p clock' (Shrink.targeted moves) s result' t') :
    Prolongs result result' := by
  generalize hf : find settings p clock s = r at hfind
  generalize hf' : find settings' p clock' s = r' at hfind
  cases hfind with
  | error fault hs =>
    cases hs
    rw [h.of_error hf, h'.of_error hf']
    exact .refl _
  | ok hv hs =>
    cases hs
    cases hv with
    | none =>
      rw [h.of_none hf, h'.of_none hf']
      exact .refl _
    | @some x x' hx =>
      obtain ⟨cause, e⟩ := x
      obtain ⟨_, e'⟩ := x'
      obtain ⟨rfl, he⟩ := hx
      exact h.prolongs_found hp hle he h' hf hf'

end

theorem prolongs_withMoreCycles (p : Property σ α β) (htime : settings.timeMillis ≤ 0)
    (hle : settings.shrinkCycles ≤ more) (clock clock' : Clock) (moves : Nat) (s : Search σ μ β) :
    Prolongs ((run settings p clock (Shrink.targeted moves)).outcome s).1
      ((run { settings with shrinkCycles := more } p clock'
        (Shrink.targeted moves)).outcome s).1 := by
  have h := run_finish settings p clock (Shrink.targeted moves) s
  have h' := run_finish { settings with shrinkCycles := more } p clock' (Shrink.targeted moves) s
  refine Finish.prolongs (V := Eq) ?_ ?_ ?_ h h'
  · exact p.outlives_self _
  · exact hle
  · rw [find_withCycles htime more clock clock']
    cases find settings p clock s with
    | error fault s₁ => exact .error fault rfl
    | ok found s₁ =>
      refine .ok ?_ rfl
      cases found with
      | none => exact .none
      | some x => exact .some ⟨rfl, rfl⟩

/-- With more shrink cycles a search ends in the same way after as many examples, and has what it
found with fewer among what it finds, behind what it finds after that. So it is with shrinking
alone. -/
theorem run_withMoreCycles (settings : Settings μ) (p : Property σ α β)
    (htime : settings.timeMillis ≤ 0) (hle : settings.shrinkCycles ≤ more) (clock clock' : Clock)
    (moves : Nat) (s : Search σ μ β) :
    Prolongs ((run settings p clock (Shrink.targeted moves)).outcome s).1
        ((run { settings with shrinkCycles := more } p clock'
          (Shrink.targeted moves)).outcome s).1 ∧
      (∀ f f', ((run settings p clock (Shrink.targeted moves)).outcome s).1 = .ok f →
        ((run { settings with shrinkCycles := more } p clock'
          (Shrink.targeted moves)).outcome s).1 = .ok f' →
        ∀ b, f.smallest = .ok b → b ∈ f'.falsifying) ∧
      ∀ (attempts : Int) (propose : Trace → Proposals) (replays wider : Nat) (lab : Lab σ β)
        (e : Example α), replays ≤ wider →
        (p.shrink attempts propose replays lab e).2.found.reverse <+:
          (p.shrink attempts propose wider lab e).2.found.reverse := by
  have hrun := prolongs_withMoreCycles p htime hle clock clock' moves s
  refine ⟨hrun, fun f f' hf hf' b hb => ?_, ?_⟩
  · rw [hf, hf'] at hrun
    exact hrun.smallest_mem hb
  · intro attempts propose replays wider lab e hreplays
    rw [List.reverse_prefix]
    exact (Property.shrink_abreast (p.outlives_self attempts) hreplays propose lab rfl).2

/-- A search that does not run out of attempts ends in the same way with more of them, after as
many examples. What it found is among what it finds with more, behind what it finds after that. -/
theorem run_withMoreAttempts (settings : Settings μ) {gen : Gen σ α}
    (holds : α → Except Fault Bool) (hgen : gen.Composed) (htime : settings.timeMillis ≤ 0)
    (hle : settings.attempts ≤ more) (clock clock' : Clock) (moves : Nat) (s : Search σ μ α)
    (hx : ∀ f, ((run settings (.ofPredicate gen holds) clock (Shrink.targeted moves)).outcome s).1 =
      .ok f → f.exhausted = false) :
    Prolongs
      ((run settings (.ofPredicate gen holds) clock (Shrink.targeted moves)).outcome s).1
      ((run { settings with attempts := more } (.ofPredicate gen holds) clock'
        (Shrink.targeted moves)).outcome s).1 := by
  have hp := Property.outlives_ofPredicate holds hgen.plain (Int.ofNat_le.mpr hle)
  have h := run_finish settings (.ofPredicate gen holds) clock (Shrink.targeted moves) s
  have h' := run_finish { settings with attempts := more } (.ofPredicate gen holds) clock'
    (Shrink.targeted moves) s
  have hfind := outlasts_find hp htime clock clock' s s rfl
  generalize hf : find settings (.ofPredicate gen holds) clock s = r at hfind
  cases hfind with
  | gaveOut hx' =>
    have hend := h.of_error hf
    rw [if_pos hx'] at hend
    cases hx _ hend
  | alike hfind =>
    rw [← hf] at hfind
    refine Finish.prolongs (V := Example.Like) ?_ ?_ hfind h h'
    · exact hp
    · exact Nat.le_refl _

end Search

namespace Spending

def settings (seed : Int) (shrinkCycles attempts : Nat) : Settings Unit where
  random := .ofSeed seed
  examples := 30
  shrinkCycles
  attempts
  timeMillis := 0
  minSteps := 1
  maxSteps := 1
  reporter := .raising
  guide? := none
  examples_valid := .inr (by decide)

def small (n : Int) : Except Fault Bool :=
  .ok (n ≤ 3)

def third (n : Int) : Except Fault Bool :=
  .ok (n % 3 = 0)

def found (gen : Gen Unit Int) (settings : Settings Unit) : Except Fault (Findings Int) :=
  ((Search.run settings (.ofPredicate gen small) .stopped (Shrink.targeted 5)).outcome
    (.start settings.random ())).1

theorem run_withMoreCycles_small :
    found (.draw .percent) (settings 1 1 10) = .ok ⟨false, 2, [18, 100], none⟩ ∧
    found (.draw .percent) (settings 1 20 10) = .ok ⟨false, 2, [4, 9, 18, 100], none⟩ ∧
    (18 : Int) ∈ [4, 9, 18, 100] := by
  have hless : found (.draw .percent) (settings 1 1 10) = .ok ⟨false, 2, [18, 100], none⟩ := by
    decide +kernel
  have hmore : found (.draw .percent) (settings 1 20 10) =
      .ok ⟨false, 2, [4, 9, 18, 100], none⟩ := by
    decide +kernel
  obtain ⟨-, hsmallest, -⟩ := Search.run_withMoreCycles (settings 1 1 10)
    (.ofPredicate (.draw .percent) small) (by decide) (show 1 ≤ 20 by decide) .stopped .stopped 5
    (.start (.ofSeed 1) ())
  exact ⟨hless, hmore, hsmallest _ _ hless hmore 18 rfl⟩

/-- With two attempts shrinking gives out at once, with fifty it goes on. -/
theorem run_withMoreAttempts_third :
    found ((Gen.draw .percent).assuming third) (settings 9 20 2) = .ok ⟨false, 2, [90], none⟩ ∧
    found ((Gen.draw .percent).assuming third) (settings 9 20 50) =
      .ok ⟨false, 2, [9, 18, 45, 90], none⟩ ∧
    Search.Prolongs (found ((Gen.draw .percent).assuming third) (settings 9 20 2))
      (found ((Gen.draw .percent).assuming third) (settings 9 20 50)) := by
  have hfew : found ((Gen.draw .percent).assuming third) (settings 9 20 2) =
      .ok ⟨false, 2, [90], none⟩ := by
    decide +kernel
  refine ⟨hfew, by decide +kernel, ?_⟩
  refine Search.run_withMoreAttempts (settings 9 20 2) small (.assuming third (.draw .percent))
    (by decide) (show 2 ≤ 50 by decide) .stopped .stopped 5 (.start (.ofSeed 9) ()) fun f hf => ?_
  cases hfew.symm.trans hf
  rfl

end Spending

end Refute

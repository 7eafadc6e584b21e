import Refute.Proofs.Twins
import Refute.Search.Basic

namespace Refute

open Act

namespace Act

variable {R : σ → σ → Prop}

theorem pairs_get : Pairs R R (get : Act σ σ) get := fun _ _ hs =>
  .ok hs hs

theorem pairs_modify {f : σ → σ} (h : ∀ s s', R s s' → R (f s) (f s')) :
    Pairs R Eq (modify f : Act σ PUnit) (modify f) := fun s s' hs =>
  .ok rfl (h s s' hs)

end Act

/-- Alike in all that a search looks at. -/
structure Example.Like (e e' : Example α) : Prop where
  value : e.value = e'.value
  trace : e.trace = e'.trace
  rejected : e.rejected = e'.rejected

/-- Neither the worlds nor what was noted counts. -/
def Lab.Twins (a b : Word) (lab lab' : Lab σ β) : Prop :=
  lab.random.Twins a b lab'.random

variable {a b : Word}

theorem Gen.pairs_generate {g : Gen σ α} (h : g.sample.Plain) (attempts : Int)
    (forced : List Int) :
    Pairs (fun s s' => s.1.Twins a b s'.1) Example.Like (g.generate attempts forced)
      (g.generate attempts forced) := by
  intro s s' hs
  have hg := h.pairs ⟨Source.start s.1 forced attempts, s.2⟩
    ⟨Source.start s'.1 forced attempts, s'.2⟩ ⟨s'.1, hs, rfl⟩
  unfold generate
  generalize g.sample ⟨Source.start s.1 forced attempts, s.2⟩ = r at hg
  generalize g.sample ⟨Source.start s'.1 forced attempts, s'.2⟩ = r' at hg
  cases hg with
  | ok hv ht =>
    obtain ⟨random, ht, hsource⟩ := ht
    refine .ok ⟨hv, ?_, ?_⟩ ?_
    · simp only [Example.trace, Source.trace, hsource]
    · simp only [hsource]
    · simpa only [hsource] using ht
  | error fault ht =>
    obtain ⟨random, ht, hsource⟩ := ht
    refine .error fault ?_
    simpa only [hsource] using ht

theorem Property.pairs_generate {gen : Gen σ α} (holds : α → Except Fault Bool)
    (h : gen.sample.Plain) (attempts : Int) (forced : List Int) :
    Pairs (Lab.Twins a b) Example.Like ((ofPredicate gen holds).generate attempts forced)
      ((ofPredicate gen holds).generate attempts forced) := by
  intro lab lab' hs
  have hg := Gen.pairs_generate h attempts forced (lab.random, lab.world) (lab'.random, lab'.world)
    hs
  have hgen : (ofPredicate gen holds).gen = gen := rfl
  unfold generate
  rw [hgen]
  generalize gen.generate attempts forced (lab.random, lab.world) = r at hg
  generalize gen.generate attempts forced (lab'.random, lab'.world) = r' at hg
  cases hg with
  | ok hv ht => exact .ok hv ht
  | error fault ht => exact .error fault ht

theorem Property.pairs_examine (gen : Gen σ α) (holds : α → Except Fault Bool)
    {e e' : Example α} (h : e.Like e') :
    Pairs (Lab.Twins a b) (fun x x' => x.1 = x'.1 ∧ x.2.Like x'.2)
      ((ofPredicate gen holds).examine e) ((ofPredicate gen holds).examine e') := by
  intro lab lab' hs
  unfold examine ofPredicate
  dsimp only
  rw [← h.value]
  cases holds e.value with
  | ok answer => cases answer <;> exact .ok ⟨rfl, rfl, h.trace, h.rejected⟩ hs
  | error fault =>
    simp only [Act.ofExcept, Act.fail_apply]
    split
    · exact .error fault hs
    · exact .ok ⟨rfl, rfl, h.trace, h.rejected⟩ hs

namespace Shrink

theorem pairs_destination (bounds : Bounds) :
    Pairs (Xorshift.Twins a b) Eq (destination bounds) (destination bounds) := by
  unfold destination
  split
  · exact pairs_pure rfl
  · exact Xorshift.pairs_between _ _

theorem pairs_randomMove (t : Trace) (values : List Int) :
    Pairs (Xorshift.Twins a b) Eq (randomMove t values) (randomMove t values) := by
  refine (Xorshift.pairs_between _ _).bind_eq fun index => ?_
  refine (pairs_ofExcept _).bind_eq fun d => (pairs_destination d.bounds).bind_eq fun target => ?_
  split
  · exact pairs_pure rfl
  · exact (Xorshift.pairs_between _ _).bind_eq fun moved => pairs_pure rfl

theorem pairs_changedMove (t : Trace) :
    Pairs (Xorshift.Twins a b) Eq (changedMove t) (changedMove t) := by
  refine (pairs_randomMove t _).bind_eq fun candidate => ?_
  split
  · exact pairs_pure rfl
  · exact (pairs_randomMove t candidate).bind_eq (pairs_randomMove t)

end Shrink

/-- Proposals that draw on the generator and look at nothing else of it. -/
inductive Proposals.Drawn (a b : Word) : Proposals → Prop where
  | done : Drawn a b .done
  | next {propose : Act Xorshift (List Int)} {rest : Xorshift → Proposals} :
      Pairs (Xorshift.Twins a b) Eq propose propose →
      (∀ r r', r.Twins a b r' → rest r = rest r') → (∀ r, Drawn a b (rest r)) →
      Drawn a b (.next propose rest)

theorem Proposals.drawn_ofEdits {after : Proposals} (h : after.Drawn a b) (values : List Int)
    (es : List Shrink.Edit) : (ofEdits values es after).Drawn a b := by
  induction es with
  | nil => exact h
  | cons e es ih => exact .next (pairs_pure rfl) (fun _ _ _ => rfl) fun _ => ih

theorem Proposals.drawn_repeated {propose : Act Xorshift (List Int)}
    (h : Pairs (Xorshift.Twins a b) Eq propose propose) (n : Nat) :
    (repeated propose n).Drawn a b := by
  induction n with
  | zero => exact .done
  | succ n ih => exact .next h (fun _ _ _ => rfl) fun _ => ih

theorem Shrink.drawn_targeted (moves : Nat) (t : Trace) : (targeted moves t).Drawn a b := by
  unfold targeted
  split
  · exact .done
  · exact Proposals.drawn_ofEdits (Proposals.drawn_repeated (pairs_changedMove t) moves) _ _

namespace Descent

structure Twins (a b : Word) (d d' : Descent σ α β) : Prop where
  lab : d.lab.Twins a b d'.lab
  current : d.current.Like d'.current
  tried : d.tried = d'.tried
  replays : d.replays = d'.replays
  found : d.found = d'.found
  cause : d.cause = d'.cause

/-- Results of one kind, with twins as what is left. -/
def Agree (a b : Word) (r r' : γ × Descent σ α β) : Prop :=
  r.1 = r'.1 ∧ r.2.Twins a b r'.2

variable {gen : Gen σ α} (holds : α → Except Fault Bool) {d d' : Descent σ α α}

theorem Twins.withLab {lab lab' : Lab σ α} (h : d.Twins a b d') (hl : lab.Twins a b lab') :
    Twins a b { d with lab } { d' with lab := lab' } :=
  ⟨hl, h.current, h.tried, h.replays, h.found, h.cause⟩

theorem agree_judge (h : d.Twins a b d') (verdict : Verdict) (he : e.Like e') :
    Agree a b (judge (.ofPredicate gen holds) d verdict e)
      (judge (.ofPredicate gen holds) d' verdict e') := by
  cases verdict with
  | holds => exact ⟨rfl, h⟩
  | fails cause =>
    unfold judge
    dsimp only
    rw [he.trace, h.current.trace]
    split
    · refine ⟨rfl, h.lab, he, h.tried, h.replays, ?_, rfl⟩
      show e.value :: d.found = e'.value :: d'.found
      rw [he.value, h.found]
    · exact ⟨rfl, h⟩

theorem agree_replay (hgen : gen.sample.Plain) (attempts : Int) (candidate : List Int)
    (h : d.Twins a b d') :
    Agree a b (replay (.ofPredicate gen holds) attempts candidate d)
      (replay (.ofPredicate gen holds) attempts candidate d') := by
  have hd : Twins a b
      { d with tried := d.tried.insert candidate, replays := d.replays + 1 }
      { d' with tried := d'.tried.insert candidate, replays := d'.replays + 1 } :=
    ⟨h.lab, h.current, congrArg (·.insert candidate) h.tried, congrArg (· + 1) h.replays, h.found,
      h.cause⟩
  unfold replay
  generalize { d with tried := d.tried.insert candidate, replays := d.replays + 1 } = c at hd
  generalize { d' with tried := d'.tried.insert candidate, replays := d'.replays + 1 } = c' at hd
  have hg := Property.pairs_generate holds hgen attempts candidate _ _ hd.lab
  dsimp only
  generalize (Property.ofPredicate gen holds).generate attempts candidate c.lab = r at hg
  generalize (Property.ofPredicate gen holds).generate attempts candidate c'.lab = r' at hg
  cases hg with
  | error fault hl => exact ⟨rfl, hd.withLab hl⟩
  | @ok e e' lab lab' he hl =>
    dsimp only
    rw [hd.current.rejected, he.rejected]
    split
    · exact ⟨rfl, hd.withLab hl⟩
    · have hx := Property.pairs_examine gen holds he _ _ hl
      generalize (Property.ofPredicate gen holds).examine e lab = r at hx
      generalize (Property.ofPredicate gen holds).examine e' lab' = r' at hx
      cases hx with
      | error fault hl => exact ⟨rfl, hd.withLab hl⟩
      | @ok x x' _ _ hx hl =>
        obtain ⟨verdict, f⟩ := x
        obtain ⟨_, f'⟩ := x'
        obtain ⟨rfl, hf⟩ := hx
        exact agree_judge holds (hd.withLab hl) verdict hf

theorem agree_cycle (hgen : gen.sample.Plain) (attempts : Int) (budget : Budget)
    (hp : proposals.Drawn a b) (h : d.Twins a b d') :
    Agree a b (cycle (.ofPredicate gen holds) attempts budget proposals d)
      (cycle (.ofPredicate gen holds) attempts budget proposals d') := by
  induction hp generalizing d d' with
  | done => exact ⟨rfl, h⟩
  | @next propose rest hpropose hrest _ ih =>
    have hpr := hpropose _ _ h.lab
    have hre := hrest _ _ h.lab
    unfold cycle
    generalize propose d.lab.random = r at hpr
    generalize propose d'.lab.random = r' at hpr
    cases hpr with
    | error fault hl => exact ⟨rfl, h.withLab hl⟩
    | @ok candidate _ random random' hv hl =>
      cases hv
      have hlab : Lab.Twins a b (Lab.mk random d.lab.world d.lab.journal)
        (Lab.mk random' d'.lab.world d'.lab.journal) := hl
      have hspent : budget.spent d'.replays = budget.spent d.replays := by rw [h.replays]
      have htried : d'.tried.contains candidate = d.tried.contains candidate := by rw [h.tried]
      dsimp only
      rw [← hre, hspent, htried]
      generalize Lab.mk random d.lab.world d.lab.journal = lab at hlab
      generalize Lab.mk random' d'.lab.world d'.lab.journal = lab' at hlab
      have hd := h.withLab hlab
      split
      · exact ⟨rfl, hd⟩
      · split
        · exact ih _ hd
        · obtain ⟨hreply, hleft⟩ := agree_replay holds hgen attempts candidate hd
          generalize replay (.ofPredicate gen holds) attempts candidate { d with lab } = x
            at hreply hleft
          generalize replay (.ofPredicate gen holds) attempts candidate { d' with lab := lab' } = x'
            at hreply hleft
          obtain ⟨reply, left⟩ := x
          obtain ⟨_, left'⟩ := x'
          cases hreply
          cases reply with
          | accepted => exact ⟨rfl, hleft⟩
          | discarded => exact ih _ hleft
          | exhausted => exact ⟨rfl, hleft⟩
          | endless => exact ⟨rfl, hleft⟩

theorem agree_run (hgen : gen.sample.Plain) (attempts : Int) (budget : Budget)
    (hp : ∀ t, (propose t).Drawn a b) (cycles : Nat) (h : d.Twins a b d') :
    Agree a b (run (.ofPredicate gen holds) attempts propose budget cycles d)
      (run (.ofPredicate gen holds) attempts propose budget cycles d') := by
  induction cycles generalizing d d' with
  | zero => exact ⟨rfl, h⟩
  | succ cycles ih =>
    unfold run
    rw [← h.replays, ← h.current.trace]
    split
    · exact ⟨rfl, h⟩
    · split
      · exact ⟨rfl, h⟩
      · obtain ⟨hending, hleft⟩ :=
          agree_cycle holds hgen attempts budget (hp d.current.trace) h
        generalize cycle (.ofPredicate gen holds) attempts budget (propose d.current.trace) d = x
          at hending hleft
        generalize cycle (.ofPredicate gen holds) attempts budget (propose d.current.trace) d' = x'
          at hending hleft
        obtain ⟨ending, left⟩ := x
        obtain ⟨_, left'⟩ := x'
        cases hending
        cases ending with
        | some ending => exact ⟨rfl, hleft⟩
        | none => exact ih hleft

end Descent

def Guided.Twins (a b : Word) (t t' : Guided μ) : Prop :=
  t.random.Twins a b t'.random ∧ t.memory = t'.memory

/-- A guide that draws on the generator and looks at nothing else of it. -/
structure Guide.Drawn (a b : Word) (g : Guide μ) : Prop where
  start : Pairs (Xorshift.Twins a b) Eq g.start g.start
  newExample : ∀ t, Pairs (Guided.Twins a b) Eq (g.newExample t) (g.newExample t)
  executed : Pairs (Guided.Twins a b) Eq g.executed g.executed
  suggest : ∀ k t, Pairs (Guided.Twins a b) Eq (g.suggest k t) (g.suggest k t)
  complete : Pairs (Guided.Twins a b) Eq g.complete g.complete

namespace Search

structure Twins (a b : Word) (s s' : Search σ μ β) : Prop where
  lab : s.lab.Twins a b s'.lab
  memory : s.memory? = s'.memory?
  visited : s.visited = s'.visited
  suggested : s.suggested = s'.suggested
  boundaries : s.boundaries = s'.boundaries
  used : s.used = s'.used

variable {settings : Settings μ} {gen : Gen σ α} (holds : α → Except Fault Bool)

theorem pairs_inLab {act : Act (Lab σ β) γ} {act' : Act (Lab σ β) δ}
    (h : Pairs (Lab.Twins a b) V act act') :
    Pairs (Twins a b) V (inLab act : Act (Search σ μ β) γ) (inLab act') :=
  h.within (fun _ _ hs => hs.lab) fun _ _ _ _ hs ht => { hs with lab := ht }

theorem pairs_startGuide (hguide : ∀ g ∈ settings.guide?, g.Drawn a b) :
    Pairs (Twins a b) Eq (startGuide settings : Act (Search σ μ β) Unit) (startGuide settings) := by
  intro s s' hs
  unfold startGuide
  cases hg : settings.guide? with
  | none => exact .ok rfl hs
  | some guide =>
    have hstart := (hguide guide hg).start _ _ hs.lab
    dsimp only
    generalize guide.start s.lab.random = r at hstart
    generalize guide.start s'.lab.random = r' at hstart
    cases hstart with
    | ok hm ht => exact .ok rfl { hs with lab := ht, memory := congrArg some hm }
    | error fault ht => exact .error fault { hs with lab := ht }

theorem pairs_notify (notice : Notice) {tell : Guide μ → Act (Guided μ) γ} (silence : γ)
    (htell : ∀ g ∈ settings.guide?, Pairs (Guided.Twins a b) Eq (tell g) (tell g)) :
    Pairs (Twins a b) Eq (notify settings notice tell silence : Act (Search σ μ β) γ)
      (notify settings notice tell silence) := by
  intro s s' hs
  have hnoted : Twins a b { s with lab := s.lab.note (.notified notice) }
    { s' with lab := s'.lab.note (.notified notice) } := { hs with }
  unfold notify
  generalize { s with lab := s.lab.note (.notified notice) } = t at hnoted
  generalize { s' with lab := s'.lab.note (.notified notice) } = t' at hnoted
  dsimp only
  rw [← hnoted.memory]
  cases hg : settings.guide? with
  | none => exact .ok rfl hnoted
  | some guide =>
    cases t.memory? with
    | none => exact .ok rfl hnoted
    | some memory =>
      have ht := htell guide hg ⟨t.lab.random, memory⟩ ⟨t'.lab.random, memory⟩ ⟨hnoted.lab, rfl⟩
      dsimp only
      generalize tell guide ⟨t.lab.random, memory⟩ = r at ht
      generalize tell guide ⟨t'.lab.random, memory⟩ = r' at ht
      cases ht with
      | ok hv ht =>
        exact .ok hv { hnoted with lab := ht.1, memory := congrArg some ht.2 }
      | error fault ht =>
        exact .error fault { hnoted with lab := ht.1, memory := congrArg some ht.2 }

theorem pairs_generate (hgen : gen.sample.Plain) (forced : List Int) :
    Pairs (Twins a b) Example.Like
      (generate settings (.ofPredicate gen holds) forced : Act (Search σ μ α) (Example α))
      (generate settings (.ofPredicate gen holds) forced) :=
  pairs_inLab (Property.pairs_generate holds hgen settings.attempts forced)

theorem pairs_findBoundaries (hgen : gen.sample.Plain) :
    Pairs (Twins a b) Eq
      (findBoundaries settings (.ofPredicate gen holds) : Act (Search σ μ α) Unit)
      (findBoundaries settings (.ofPredicate gen holds)) := by
  refine (pairs_generate holds hgen []).bind fun e e' he => ?_
  rw [he.trace]
  exact pairs_modify fun s s' hs => { hs with boundaries := rfl }

theorem pairs_nextForced :
    Pairs (Twins a b) Eq (nextForced : Act (Search σ μ β) (List Int)) nextForced := by
  intro s s' hs
  unfold nextForced
  rw [← hs.suggested, ← hs.boundaries]
  split
  · exact .ok rfl { hs with suggested := rfl, boundaries := rfl }
  · exact .ok rfl { hs with suggested := rfl, boundaries := rfl }
  · exact .ok rfl hs

theorem pairs_isNew {e e' : Example α} (he : e.Like e') :
    Pairs (Twins a b) Eq (isNew e : Act (Search σ μ β) Bool) (isNew e') := by
  unfold isNew
  rw [he.trace]
  refine (pairs_ofExcept _).bind_eq fun print => pairs_get.bind fun s s' hs => ?_
  rw [hs.visited]
  split
  · exact pairs_pure rfl
  · refine (pairs_modify fun s s' hs => ?_).bind_eq fun _ => pairs_pure rfl
    exact { hs with visited := congrArg (·.insert print) hs.visited }

/-- What was found: the cause, and an example. -/
def LikeFound : Option (Option Fault × Example α) → Option (Option Fault × Example α) → Prop
  | some (cause, e), some (cause', e') => cause = cause' ∧ e.Like e'
  | none, none => True
  | _, _ => False

theorem pairs_round (hgen : gen.sample.Plain) (hguide : ∀ g ∈ settings.guide?, g.Drawn a b)
    (k : Nat) :
    Pairs (Twins a b) LikeFound
      (round settings (.ofPredicate gen holds) k : Act (Search σ μ α) _)
      (round settings (.ofPredicate gen holds) k) := by
  refine pairs_nextForced.bind_eq fun forced => (pairs_generate holds hgen forced).bind
    fun e e' he => ?_
  refine (pairs_isNew he).bind_eq fun new => ?_
  cases new with
  | false => exact pairs_pure trivial
  | true =>
    refine (pairs_modify fun s s' hs => { hs with used := congrArg (· + 1) hs.used }).bind_eq
      fun _ => ?_
    rw [he.trace]
    refine (pairs_notify _ _ fun g hg => (hguide g hg).newExample e'.trace).bind_eq fun _ => ?_
    refine (pairs_inLab (Property.pairs_examine gen holds he)).bind fun x x' hx => ?_
    obtain ⟨verdict, f⟩ := x
    obtain ⟨_, f'⟩ := x'
    obtain ⟨rfl, hf⟩ := hx
    refine (pairs_notify _ _ fun g hg => (hguide g hg).executed).bind_eq fun _ => ?_
    cases verdict with
    | fails cause => exact pairs_pure ⟨rfl, hf⟩
    | holds =>
      dsimp only
      rw [hf.trace]
      refine (pairs_notify _ _ fun g hg => (hguide g hg).suggest k f'.trace).bind_eq
        fun traces => ?_
      refine (pairs_modify fun s s' hs => ?_).bind_eq fun _ => ?_
      · exact { hs with suggested := congrArg (· ++ traces) hs.suggested }
      · exact (pairs_notify _ _ fun g hg => (hguide g hg).complete).bind_eq fun _ =>
          pairs_pure trivial

theorem pairs_rounds (hgen : gen.sample.Plain) (hguide : ∀ g ∈ settings.guide?, g.Drawn a b)
    (clock : Clock) (left k : Nat) :
    Pairs (Twins a b) LikeFound
      (rounds settings (.ofPredicate gen holds) clock left k : Act (Search σ μ α) _)
      (rounds settings (.ofPredicate gen holds) clock left k) := by
  induction left generalizing k with
  | zero => exact pairs_pure trivial
  | succ left ih =>
    unfold rounds
    split
    · exact pairs_pure trivial
    · refine (pairs_round holds hgen hguide k).bind fun found found' hf => ?_
      match found, found', hf with
      | some _, some _, hf => exact pairs_pure hf
      | none, none, _ => exact ih (k + 1)

theorem pairs_find (hgen : gen.sample.Plain) (hguide : ∀ g ∈ settings.guide?, g.Drawn a b)
    (clock : Clock) :
    Pairs (Twins a b) LikeFound
      (find settings (.ofPredicate gen holds) clock : Act (Search σ μ α) _)
      (find settings (.ofPredicate gen holds) clock) :=
  (pairs_startGuide hguide).bind_eq fun _ => (pairs_findBoundaries holds hgen).bind_eq fun _ =>
    pairs_rounds holds hgen hguide clock settings.rounds 0

theorem pairs_shrinkFound (hgen : gen.sample.Plain) (hp : ∀ t, (propose t).Drawn a b)
    (cause : Option Fault) (he : e.Like e') :
    Pairs (Twins a b) Eq
      (shrinkFound settings (.ofPredicate gen holds) propose cause e : Act (Search σ μ α) _)
      (shrinkFound settings (.ofPredicate gen holds) propose cause e') := by
  intro s s' hs
  have hstart : (Descent.start s.lab e).Twins a b (.start s'.lab e') := by
    refine ⟨hs.lab, he, ?_, rfl, rfl, rfl⟩
    simp only [Descent.start, he.trace]
  have hfirst : ∀ w w', (Property.ofPredicate gen holds).outcome e.value w =
      (Property.ofPredicate gen holds).outcome e'.value w' := fun _ _ => he.value
  obtain ⟨hending, hleft⟩ := Descent.agree_run holds hgen settings.attempts
    (some settings.shrinkCycles) hp settings.shrinkCycles hstart
  unfold shrinkFound Property.shrink
  dsimp only
  rw [hfirst s.lab.world s'.lab.world]
  generalize Descent.run _ _ _ _ _ (Descent.start s.lab e) = x at hending hleft
  generalize Descent.run _ _ _ _ _ (Descent.start s'.lab e') = x' at hending hleft
  obtain ⟨ending, d⟩ := x
  obtain ⟨_, d'⟩ := x'
  cases hending
  dsimp only
  rw [hleft.found, hleft.cause, hs.used]
  split
  · exact .error _ { hs with lab := hleft.lab, used := rfl }
  · exact .ok rfl { hs with lab := hleft.lab, used := rfl }

theorem pairs_findAndShrink (hgen : gen.sample.Plain)
    (hguide : ∀ g ∈ settings.guide?, g.Drawn a b) (hp : ∀ t, (propose t).Drawn a b)
    (clock : Clock) :
    Pairs (Twins a b) Eq
      (findAndShrink settings (.ofPredicate gen holds) clock propose : Act (Search σ μ α) _)
      (findAndShrink settings (.ofPredicate gen holds) clock propose) := by
  refine (pairs_find holds hgen hguide clock).bind fun found found' hf => ?_
  match found, found', hf with
  | some (cause, e), some (_, e'), ⟨rfl, he⟩ => exact pairs_shrinkFound holds hgen hp cause he
  | none, none, _ =>
    refine pairs_get.bind fun s s' hs => ?_
    rw [hs.used]
    exact pairs_pure rfl

/-- Searches that begin with twins find the same. -/
theorem pairs_run (hgen : gen.sample.Plain) (hguide : ∀ g ∈ settings.guide?, g.Drawn a b)
    (hp : ∀ t, (propose t).Drawn a b) (clock : Clock) :
    Pairs (Twins a b) Eq
      (run settings (.ofPredicate gen holds) clock propose : Act (Search σ μ α) _)
      (run settings (.ofPredicate gen holds) clock propose) := by
  intro s s' hs
  have hr := pairs_findAndShrink holds hgen hguide hp clock s s' hs
  unfold run
  generalize findAndShrink settings (.ofPredicate gen holds) clock propose s = r at hr
  generalize findAndShrink settings (.ofPredicate gen holds) clock propose s' = r' at hr
  cases hr with
  | ok hv ht => exact .ok hv ht
  | error fault ht =>
    dsimp only
    rw [ht.used]
    split
    · exact .ok rfl ht
    · exact .error fault ht

end Search

end Refute

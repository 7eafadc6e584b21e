import Refute.Proofs.Boundaries

namespace Refute

/-- A sampler that acts on its world and draws, and asks for draws with these bounds in order,
whatever values they allow it is answered with. Where it acts on its world it may end with one of
the faults given. -/
inductive Sampler.LaidOut (raises : Fault → Prop) {σ α : Type} :
    Sampler σ α → List Bounds → Prop where
  | done (a : α) : LaidOut raises (pure a) []
  | acts {γ : Type} {act : Act σ γ} {next : γ → Sampler σ α} {bs : List Bounds}
      (hact : ∀ w fault w', act w = .error fault w' → raises fault)
      (h : ∀ w a w', act w = .ok a w' → LaidOut raises (next a) bs) :
      LaidOut raises (Sampler.onWorld act >>= next) bs
  | asks {b : Bounds} {next : Int → Sampler σ α} {bs : List Bounds}
      (h : ∀ v, b.allows v = true → LaidOut raises (next v) bs) :
      LaidOut raises (Sampler.draw b >>= next) (b :: bs)

namespace Sampler.LaidOut

variable {raises : Fault → Prop}

theorem bind {body : Sampler σ α} {next : α → Sampler σ β} (h : LaidOut raises body bs)
    (hnext : ∀ a, LaidOut raises (next a) cs) : LaidOut raises (body >>= next) (bs ++ cs) := by
  induction h with
  | done a =>
    rw [pure_bind]
    exact hnext a
  | acts hact _ ih =>
    rw [bind_assoc]
    exact .acts hact ih
  | asks _ ih =>
    rw [bind_assoc]
    exact .asks ih

theorem draw (b : Bounds) : LaidOut raises (Sampler.draw b : Sampler σ Int) [b] := by
  rw [← bind_pure (Sampler.draw b)]
  exact .asks fun v _ => .done v

theorem ofExcept {e : Except Fault α} (h : ∀ fault, e = .error fault → raises fault) :
    LaidOut raises (Act.ofExcept e : Sampler σ α) [] := by
  have he : (Act.ofExcept e : Sampler σ α) = onWorld (Act.ofExcept e) >>= pure := by
    rw [bind_pure]
    cases e <;> rfl
  rw [he]
  refine .acts (fun w fault w' hw => h fault ?_) fun _ a _ _ => .done a
  cases e with
  | ok a => cases hw
  | error other =>
    cases hw
    rfl

/-- Forced values that fit are served for all its draws. Then only its own acts can fail. -/
theorem forced {body : Sampler σ α} (h : LaidOut raises body bs) (hvs : Allowed bs vs)
    {s : Scene σ} (hs : s.source.forced = vs ++ rest) :
    (∃ a world, body s = .ok a { s.serve (drawn bs vs) rest with world }) ∨
      ∃ fault s', body s = .error fault s' ∧ raises fault ∧
        s'.source.random = s.source.random := by
  induction h generalizing vs s with
  | done a =>
    cases hvs
    exact .inl ⟨a, s.world, congrArg (EStateM.Result.ok a) (Scene.serve_nil hs).symm⟩
  | @acts γ act next bs hact _ ih =>
    cases ha : act s.world with
    | ok a world =>
      have hw : onWorld act s = .ok a { s with world } := by
        simp only [onWorld, Act.within, ha]
      rw [Act.bind_ok hw]
      exact ih _ a _ ha hvs hs
    | error fault world =>
      have hw : onWorld act s = .error fault { s with world } := by
        simp only [onWorld, Act.within, ha]
      exact .inr ⟨fault, _, Act.bind_error hw, hact _ _ _ ha, rfl⟩
  | @asks b next bs _ ih =>
    obtain _ | ⟨hv, hvs⟩ := hvs
    rename_i v vs
    have hd : Sampler.draw b s = .ok v (s.serve [⟨b, v⟩] (vs ++ rest)) :=
      onSource_of_ok (Source.next_of_forced hs hv)
    rw [Act.bind_ok hd]
    rcases ih v hv hvs (s := s.serve [⟨b, v⟩] (vs ++ rest)) rfl with
      ⟨a, world, hok⟩ | ⟨fault, s', herror, hraises, hrandom⟩
    · rw [Scene.serve_serve] at hok
      exact .inl ⟨a, world, hok⟩
    · exact .inr ⟨fault, s', herror, hraises, hrandom⟩

/-- Whoever answered, what is recorded has these bounds. -/
theorem bounds {body : Sampler σ α} (h : LaidOut raises body bs) {s s' : Scene σ}
    (hok : body s = .ok a s') : s'.source.trace.bounds = s.source.trace.bounds ++ bs := by
  induction h generalizing s with
  | done a =>
    cases hok
    exact (List.append_nil _).symm
  | acts _ _ ih =>
    obtain ⟨c, s₁, hw, hok⟩ := Act.bind_eq_ok.mp hok
    obtain ⟨hact, hsource⟩ := onWorld_ok hw
    rw [ih _ c _ hact hok, hsource]
  | asks _ ih =>
    obtain ⟨v, s₁, hd, hok⟩ := Act.bind_eq_ok.mp hok
    obtain ⟨hv, random, forced, hs⟩ := Source.next_ok (onSource_ok hd).1
    rw [ih v hv hok, hs, Source.trace_record]
    simp [Trace.bounds, Source.trace]

end Sampler.LaidOut

theorem bounds_drawn (h : Allowed bs vs) : (drawn bs vs).bounds = bs := by
  induction h with
  | nil => rfl
  | cons _ _ ih => exact congrArg _ ih

namespace Gen

variable {raises : Fault → Prop} {g : Gen σ α}

/-- A value made of forced values that fit is made without the generator of random numbers. -/
theorem generate_laidOut (h : g.sample.LaidOut raises bs) (hvs : Allowed bs vs) (attempts : Int)
    (s : Xorshift × σ) :
    (∃ e world, g.generate attempts vs s = .ok e (s.1, world) ∧ e.trace = drawn bs vs ∧
      e.rejected = 0) ∨
    ∃ fault world, g.generate attempts vs s = .error fault (s.1, world) ∧ raises fault := by
  have hforced : (Source.start s.1 vs attempts).forced = vs ++ [] := (List.append_nil vs).symm
  unfold generate
  rcases h.forced hvs (s := ⟨Source.start s.1 vs attempts, s.2⟩) hforced with
    ⟨a, world, hok⟩ | ⟨fault, s', herror, hraises, hrandom⟩
  · rw [hok]
    exact .inl ⟨_, world, rfl, Source.trace_serve (Source.start s.1 vs attempts) _ [], rfl⟩
  · rw [herror]
    refine .inr ⟨fault, s'.world, ?_, hraises⟩
    exact congrArg (fun random => EStateM.Result.error fault (random, s'.world)) hrandom

theorem generate_laidOut_bounds (h : g.sample.LaidOut raises bs) {s s' : Xorshift × σ}
    (hg : g.generate attempts forced s = .ok e s') : e.trace.bounds = bs := by
  unfold generate at hg
  split at hg
  · rename_i hs
    cases hg
    exact h.bounds hs
  · cases hg

end Gen

namespace Search

variable (settings : Settings μ) (p : Property σ α β)

/-- Generates whatever is next, forced or not. -/
def visit : Act (Search σ μ β) (Example α) := do
  let forced ← nextForced
  generate settings p forced

/-- A search after so many values were generated, whatever came of them. -/
def afterVisits : Nat → Search σ μ β → Search σ μ β
  | 0, s => s
  | n + 1, s => ((visit settings p).outcome (afterVisits n s)).2

variable {settings p}

/-- With nothing suggested, the next boundary is forced, or nothing when there are none left. -/
theorem outcome_visit {s : Search σ μ β} (hs : s.suggested = []) :
    (visit settings p).outcome s =
      (((p.generate settings.attempts (s.boundaries.headD [])).outcome s.lab).1,
        { s with
          lab := ((p.generate settings.attempts (s.boundaries.headD [])).outcome s.lab).2
          boundaries := s.boundaries.tail }) := by
  have hn : nextForced s =
      .ok (s.boundaries.headD []) { s with boundaries := s.boundaries.tail } := by
    cases hb : s.boundaries with
    | nil =>
      obtain ⟨lab, memory?, visited, suggested, boundaries, used⟩ := s
      cases hs
      cases hb
      rfl
    | cons vs rest => exact nextForced_boundary hs hb
  exact (Act.outcome_bind_ok (Act.outcome_of_ok hn)).trans (Act.outcome_within ..)

theorem afterVisits_queues (settings : Settings μ) (p : Property σ α β) {s : Search σ μ β}
    (hs : s.suggested = []) (n : Nat) :
    (afterVisits settings p n s).suggested = [] ∧
      (afterVisits settings p n s).boundaries = s.boundaries.drop n := by
  induction n with
  | zero => exact ⟨hs, rfl⟩
  | succ n ih =>
    rw [afterVisits, outcome_visit ih.1]
    exact ⟨ih.1, by rw [ih.2, List.tail_drop]⟩

/-- The values forced one after the other are the boundaries, and then none. -/
theorem outcome_visit_after (settings : Settings μ) (p : Property σ α β) {s : Search σ μ β}
    (hs : s.suggested = []) (n : Nat) :
    ((visit settings p).outcome (afterVisits settings p n s)).1 =
        ((p.generate settings.attempts (s.boundaries[n]?.getD [])).outcome
          (afterVisits settings p n s).lab).1 ∧
      (afterVisits settings p (n + 1) s).lab =
        ((p.generate settings.attempts (s.boundaries[n]?.getD [])).outcome
          (afterVisits settings p n s).lab).2 := by
  obtain ⟨hsuggested, hboundaries⟩ := afterVisits_queues settings p hs n
  have hnext : (afterVisits settings p n s).boundaries.headD [] = s.boundaries[n]?.getD [] := by
    rw [hboundaries, List.headD_eq_head?_getD, List.head?_drop]
  rw [afterVisits, outcome_visit hsuggested, hnext]
  exact ⟨rfl, rfl⟩

theorem replayed_generate (forced : List Int) (lab : Lab σ β) :
    Journal.replayed ((p.generate attempts forced).outcome lab).2.journal =
      forced :: Journal.replayed lab.journal := by
  cases hg : p.generate attempts forced lab with
  | ok e lab' =>
    rw [Act.outcome_of_ok hg, (Property.generate_ok hg).2]
    rfl
  | error fault lab' =>
    rw [Act.outcome_of_error hg, (Property.generate_error hg).2]
    rfl

theorem generate_laidOut {raises : Fault → Prop} (h : p.gen.sample.LaidOut raises bs)
    (hvs : Allowed bs vs) (attempts : Int) (lab : Lab σ β) :
    ((p.generate attempts vs).outcome lab).2.random = lab.random ∧
      ((∃ e, ((p.generate attempts vs).outcome lab).1 = .ok e ∧ e.trace = drawn bs vs ∧
          e.rejected = 0) ∨
        ∃ fault, ((p.generate attempts vs).outcome lab).1 = .error fault ∧ raises fault) := by
  rcases Gen.generate_laidOut h hvs attempts (lab.random, lab.world) with
    ⟨e, world, hok, he⟩ | ⟨fault, world, herror, hraises⟩
  · simp only [Act.outcome, Property.generate, hok]
    exact ⟨rfl, .inl ⟨e, rfl, he⟩⟩
  · simp only [Act.outcome, Property.generate, herror]
    exact ⟨rfl, .inr ⟨fault, rfl, hraises⟩⟩

/-- The values to be forced after a reference example was made are its targets, minima and maxima,
and all of them may be drawn where it drew. They are forced in this order, and after them none.
Where the generator has a fixed layout, each is drawn as it is, and nothing is drawn at random. -/
theorem visits_boundaries (settings : Settings μ) (p : Property σ α β) {s s₀ : Search σ μ β}
    (hs : s.suggested = []) (hb : findBoundaries settings p s = .ok () s₀) :
    (∃ e s₁, generate settings p [] s = .ok e s₁ ∧
      s₀.boundaries = [e.trace.rests, e.trace.minima, e.trace.maxima] ∧
      ∀ vs ∈ s₀.boundaries, Allowed e.trace.bounds vs) ∧
    (∀ n, Journal.replayed (afterVisits settings p (n + 1) s₀).lab.journal =
      s₀.boundaries[n]?.getD [] :: Journal.replayed (afterVisits settings p n s₀).lab.journal) ∧
    ∀ (raises : Fault → Prop) (bs : List Bounds), p.gen.sample.LaidOut raises bs →
      s₀.boundaries = [bs.map Bounds.rest, bs.map Bounds.lo, bs.map Bounds.hi] ∧
      ∀ n vs, s₀.boundaries[n]? = some vs →
        (afterVisits settings p (n + 1) s₀).lab.random =
          (afterVisits settings p n s₀).lab.random ∧
        ((∃ e, ((visit settings p).outcome (afterVisits settings p n s₀)).1 = .ok e ∧
            e.trace.values = vs ∧ e.trace.bounds = bs ∧ e.rejected = 0) ∨
          ∃ fault, ((visit settings p).outcome (afterVisits settings p n s₀)).1 = .error fault ∧
            raises fault) := by
  obtain ⟨e, s₁, hg, rfl⟩ := findBoundaries_ok hb
  have hboundaries := boundaries_eq e.trace
  have hsuggested : s₁.suggested = [] := by
    rw [(inLab_ok hg).2]
    exact hs
  have hvisit := outcome_visit_after settings p (s := { s₁ with boundaries := e.trace.boundaries })
    hsuggested
  refine ⟨⟨e, s₁, hg, rfl, ?_⟩, fun n => ?_, fun raises bs h => ?_⟩
  · intro vs hvs
    exact allowed_boundariesOf e.trace.bounds vs (hboundaries ▸ hvs)
  · rw [(hvisit n).2, replayed_generate]
  · have hbounds : e.trace.bounds = bs := Gen.generate_laidOut_bounds h (generate_ok hg).1
    rw [hbounds] at hboundaries
    refine ⟨hboundaries, fun n vs hn => ?_⟩
    have hvs : Allowed bs vs :=
      allowed_boundariesOf bs vs (hboundaries ▸ List.mem_of_getElem? hn)
    obtain ⟨hout, hlab⟩ := hvisit n
    rw [hout, hlab, hn]
    obtain ⟨hrandom, ⟨e', hok, htrace, hrejected⟩ | hfault⟩ :=
      generate_laidOut h hvs settings.attempts _
    · refine ⟨hrandom, .inl ⟨e', hok, ?_, ?_, hrejected⟩⟩
      · rw [htrace, values_drawn hvs]
      · rw [htrace, bounds_drawn hvs]
    · exact ⟨hrandom, .inr hfault⟩

section Signed

def fiveToTen : Bounds :=
  ⟨5, 10, some 7, by decide, by decide, by decide, by decide⟩

/-- A number whose sign is drawn before it. -/
def signed : Gen Unit Int :=
  Gen.bool.flatMap fun up => (Gen.draw fiveToTen).map fun n => .ok (if up then n else -n)

/-- The bounds of the second draw are the same for both signs. -/
theorem laidOut_signed : signed.sample.LaidOut (fun _ => False) [.bit, fiveToTen] := by
  have hbool : (Gen.bool : Gen Unit Bool).sample.LaidOut (fun _ => False) [.bit] :=
    (Sampler.LaidOut.draw .bit).bind fun _ => .ofExcept nofun
  exact hbool.bind fun up => (Sampler.LaidOut.draw fiveToTen).bind fun n => .ofExcept nofun

def signedProperty : Property Unit Int Int :=
  .ofPredicate signed fun _ => .ok true

/-- Both draws at their targets come first, then both at their minima, then at their maxima. -/
theorem visits_boundaries_signed :
    ∃ s₀ : Search Unit Unit Int,
      findBoundaries (.three 1) signedProperty (.start (.ofSeed 1) ()) = .ok () s₀ ∧
      s₀.boundaries = [[0, 7], [0, 5], [1, 10]] ∧
      ∀ n vs, [[0, 7], [0, 5], [1, 10]][n]? = some vs →
        (afterVisits (.three 1) signedProperty (n + 1) s₀).lab.random =
          (afterVisits (.three 1) signedProperty n s₀).lab.random ∧
        ∃ e, ((visit (.three 1) signedProperty).outcome
            (afterVisits (.three 1) signedProperty n s₀)).1 = .ok e ∧
          e.trace.values = vs ∧ e.trace.bounds = [.bit, fiveToTen] := by
  have hout : ((findBoundaries (.three 1) signedProperty).outcome
      (.start (.ofSeed 1) () : Search Unit Unit Int)).1 = .ok () := by
    decide +kernel
  have hb := Act.of_outcome_ok (Act.outcome_eq hout)
  obtain ⟨-, -, hlaid⟩ := visits_boundaries (.three 1) signedProperty rfl hb
  obtain ⟨hboundaries, hvisits⟩ := hlaid _ _ laidOut_signed
  refine ⟨_, hb, hboundaries, fun n vs hn => ?_⟩
  obtain ⟨hrandom, ⟨e, hok, hvalues, hbounds, -⟩ | ⟨_, -, hfalse⟩⟩ :=
    hvisits n vs (hboundaries ▸ hn)
  · exact ⟨hrandom, e, hok, hvalues, hbounds⟩
  · exact hfalse.elim

end Signed

end Search

end Refute

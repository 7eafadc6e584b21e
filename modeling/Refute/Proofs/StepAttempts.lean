import Refute.Proofs.LongerSearch
import Refute.Proofs.StepReplay
import Refute.Theory

namespace Refute

open Act Sampler

/-- A teardown failed after the attempts had run out. -/
def Fault.hidesExhaustion : Fault → Bool
  | .during earlier _ => earlier.isExhausted
  | _ => false

/-- A run ended in such a fault. -/
def Hides (r : EStateM.Result Fault σ α) : Prop :=
  ∃ fault t, r = .error fault t ∧ fault.hidesExhaustion = true

/-- An example was taken to falsify the property though its attempts had run out, or its teardown
goes on for ever after they had. -/
def Event.hidesExhaustion : Event β → Bool
  | .tested _ (.fails (some fault)) => fault.hidesExhaustion
  | .untested _ fault => fault.isEndless && fault.hidesExhaustion
  | _ => false

namespace Machine

variable {m : Machine τ κ} {I : τ → Prop} {minSteps maxSteps : Int}

/-- The generators found where `I` holds keep to it, and so does finding them. -/
structure Gives (I : τ → Prop) (find : Act τ (Gen τ κ)) : Prop where
  preserves : Preserves I find
  acting : I w → find w = .ok g w' → Acting I g.sample

/-- `I` holds from the end of the initialisation up to the teardown, and lets no generator of steps
notice how many attempts there are. -/
structure Orderly (m : Machine τ κ) (I : τ → Prop) : Prop where
  init : m.init m.fresh = .ok () w → I w
  setup : Preserves I m.setup
  gives : I w → m.setup w = .ok finds w' → ∀ find ∈ finds, Gives I find
  steps : Gives I m.steps
  execute : ∀ step, Preserves I (m.execute step)

theorem Orderly.acting_performStep (h : m.Orderly I) (hf : Gives I find) :
    Acting I (m.performStep find) := by
  refine .bind (.onWorld hf.preserves) fun g _ _ hs hr => ?_
  refine .bind (hf.acting hs (onWorld_ok hr).1) fun step _ _ _ _ => ?_
  exact .onWorld (h.execute step)

theorem Orderly.acting_perform (h : m.Orderly I) (hf : ∀ find ∈ finds, Gives I find) :
    Acting I (m.perform finds) := by
  induction finds with
  | nil => exact .pure true
  | cons find finds ih =>
    refine .bind (h.acting_performStep (hf find List.mem_cons_self)) fun ok _ _ _ _ => ?_
    cases ok with
    | true => exact ih fun other ho => hf other (List.mem_cons_of_mem _ ho)
    | false => exact .pure false

theorem Orderly.acting_performSteps (h : m.Orderly I) (n : Nat) : Acting I (m.performSteps n) := by
  induction n with
  | zero => exact .pure true
  | succ n ih =>
    refine .bind (h.acting_performStep h.steps) fun ok _ _ _ _ => ?_
    cases ok with
    | true => exact ih
    | false => exact .pure false

theorem acting_stepCount : Acting I (stepCount minSteps maxSteps) := by
  refine .bind (.ofExcept _) fun g _ _ _ hr => ?_
  exact (Gen.plain_range (ofExcept_eq_ok.mp hr).1).acting

theorem Orderly.acting_body (h : m.Orderly I) : Acting I (m.body minSteps maxSteps) := by
  refine .bind (.onWorld h.setup) fun finds _ _ hs hr => ?_
  refine .bind (h.acting_perform (h.gives hs (onWorld_ok hr).1)) fun ok _ _ _ _ => ?_
  cases ok with
  | true => exact .bind acting_stepCount fun count _ _ _ _ => h.acting_performSteps count.toNat
  | false => exact .pure false

/-- The last actions see the same world in both runs. Their fault may take the place of another,
though. -/
theorem outlast_andFinally {body : Sampler τ Bool} (last : Act τ Unit) {s s' : Scene τ}
    (h : Outlast (PatientIn I) Eq (body s) (body s')) :
    Hides (body.andFinally (onWorld last) s) ∨
      Outlast Patient Eq (body.andFinally (onWorld last) s)
        (body.andFinally (onWorld last) s') := by
  generalize hr : body s = r at h
  generalize hr' : body s' = r' at h
  cases h with
  | @gaveOut t _ fault hx =>
    have hends := Fault.not_endless_of_exhausted hx
    unfold Act.andFinally
    rw [hr]
    dsimp only
    simp only [hends, Bool.false_eq_true, if_false]
    cases onWorld last t with
    | ok _ u => exact .inr (.gaveOut hx)
    | error later u => exact .inl ⟨_, _, rfl, hx⟩
  | alike h =>
    rw [← hr, ← hr'] at h
    have hbody : Ends Patient Eq (body s) (body s') := h.mono (fun _ _ ht => ht.1) fun _ _ hv => hv
    exact .inr (.alike (hbody.andFinally (pairs_onWorld last)))

theorem Orderly.run_outlasts (h : m.Orderly I) {s s' : Scene τ} (hs : Patient s s')
    (hfresh : s.world = m.fresh) :
    Hides (m.run minSteps maxSteps s) ∨
      Outlast Patient Eq (m.run minSteps maxSteps s) (m.run minSteps maxSteps s') := by
  obtain ⟨source, _⟩ := s
  obtain ⟨source', _⟩ := s'
  obtain ⟨hsource, rfl⟩ := hs
  cases hfresh
  unfold run
  cases hi : m.init m.fresh with
  | error fault w =>
    have hinit (source : Source) : onWorld m.init ⟨source, m.fresh⟩ = .error fault ⟨source, w⟩ := by
      simp only [onWorld, Act.within, hi]
    rw [bind_error (hinit source), bind_error (hinit source')]
    exact .inr (.alike (.error fault ⟨hsource, rfl⟩))
  | ok _ w =>
    have hinit (source : Source) : onWorld m.init ⟨source, m.fresh⟩ = .ok () ⟨source, w⟩ := by
      simp only [onWorld, Act.within, hi]
    rw [bind_ok (hinit source), bind_ok (hinit source')]
    exact outlast_andFinally m.teardown
      (h.acting_body.outlasts ⟨source, w⟩ ⟨source', w⟩ ⟨⟨hsource, rfl⟩, h.init hi⟩)

end Machine

namespace Property

theorem examine_of_fault {p : Property σ α β} {e : Example α} {lab : Lab σ β} {t : Scene σ}
    (h : p.test e.value ⟨{ e.source with random := lab.random }, lab.world⟩ = .error fault t)
    (hx : fault.isExhausted = false) (he : fault.isEndless = false) :
    p.examine e lab = .ok (.fails (some fault), { e with source := t.source })
      ({ lab with random := t.source.random, world := t.world }.note
        (.tested (p.outcome e.value t.world) (.fails (some fault)))) := by
  simp only [examine, h, hx, he, Bool.false_or, Bool.false_eq_true, if_false]

theorem examine_of_untested {p : Property σ α β} {e : Example α} {lab : Lab σ β} {t : Scene σ}
    (h : p.test e.value ⟨{ e.source with random := lab.random }, lab.world⟩ = .error fault t)
    (hx : (fault.isExhausted || fault.isEndless) = true) :
    p.examine e lab = .error fault
      ({ lab with random := t.source.random, world := t.world }.note
        (.untested (p.outcome e.value t.world) fault)) := by
  simp only [examine, h, hx, if_true]

theorem ends_tested (p : Property σ α β) (value : α) (rejected : Nat) (lab : Lab σ β)
    (verdict : Verdict) {t t' : Scene σ} (ht : Patient t t') :
    Ends Eq (fun x x' : Verdict × Example α => x.1 = x'.1 ∧ x.2.Longer x'.2)
      (.ok (verdict, ⟨value, t.source, rejected⟩)
        ({ lab with random := t.source.random, world := t.world }.note
          (.tested (p.outcome value t.world) verdict)))
      (.ok (verdict, ⟨value, t'.source, rejected⟩)
        ({ lab with random := t'.source.random, world := t'.world }.note
          (.tested (p.outcome value t'.world) verdict))) := by
  obtain ⟨⟨more, hmore, hsource⟩, hworld⟩ := ht
  refine .ok ⟨rfl, rfl, ⟨more, hmore, hsource⟩, rfl⟩ ?_
  simp only [hsource, hworld]

theorem ends_untested {V : γ → γ → Prop} (p : Property σ α β) (value : α) (lab : Lab σ β)
    (fault : Fault) {t t' : Scene σ} (ht : Patient t t') :
    Ends Eq V
      (.error fault ({ lab with random := t.source.random, world := t.world }.note
        (.untested (p.outcome value t.world) fault)))
      (.error fault ({ lab with random := t'.source.random, world := t'.world }.note
        (.untested (p.outcome value t'.world) fault))) := by
  obtain ⟨⟨more, hmore, hsource⟩, hworld⟩ := ht
  refine .error fault ?_
  simp only [hsource, hworld]

/-- The property is compared where it is run, in the world of the lab. -/
theorem outlasts_examine (p : Property σ α β) {e e' : Example α} (he : e.Longer e')
    {lab : Lab σ β}
    (h : ∀ s s' : Scene σ, Patient s s' → s.world = lab.world →
      Hides (p.test e.value s) ∨ Outlast Patient Eq (p.test e.value s) (p.test e.value s')) :
    OutlastsAt (Lab.Marked fun event => event.hidesExhaustion = true)
      (fun x x' => x.1 = x'.1 ∧ x.2.Longer x'.2) (p.examine e) (p.examine e') lab := by
  obtain ⟨value, source, rejected⟩ := e
  obtain ⟨_, source', _⟩ := e'
  obtain ⟨rfl, ⟨longer, hle, rfl⟩, rfl⟩ := he
  have htest := h ⟨{ source with random := lab.random }, lab.world⟩
    ⟨{ source with random := lab.random, attempts := longer }, lab.world⟩ ⟨⟨longer, hle, rfl⟩, rfl⟩
    rfl
  rcases htest with ⟨fault, t, hr, hides⟩ | htest
  · cases hx : fault.isExhausted with
    | true =>
      refine .inr ?_
      rw [examine_of_untested hr (by rw [hx, Bool.true_or])]
      exact .gaveOut hx
    | false =>
      refine .inl ?_
      cases hends : fault.isEndless with
      | true =>
        rw [outcome_of_error (examine_of_untested hr (by rw [hends, Bool.or_true]))]
        exact ⟨_, List.mem_cons_self, (Bool.and_eq_true _ _).mpr ⟨hends, hides⟩⟩
      | false =>
        rw [outcome_of_ok (examine_of_fault hr hx hends)]
        exact ⟨_, List.mem_cons_self, hides⟩
  · refine .inr ?_
    unfold examine
    dsimp only at htest ⊢
    generalize p.test value ⟨{ source with random := lab.random }, lab.world⟩ = r at htest
    generalize p.test value
      ⟨{ source with random := lab.random, attempts := longer }, lab.world⟩ = r' at htest
    cases htest with
    | gaveOut hx =>
      simp only [hx, Bool.true_or, if_true]
      exact .gaveOut hx
    | alike htest =>
      cases htest with
      | @ok answer _ t t' hv ht =>
        cases hv
        cases answer with
        | true => exact .alike (ends_tested p value rejected lab .holds ht)
        | false => exact .alike (ends_tested p value rejected lab (.fails none) ht)
      | @error t t' fault ht =>
        dsimp only
        split
        · exact .alike (ends_untested p value lab fault ht)
        · exact .alike (ends_tested p value rejected lab (.fails (some fault)) ht)

end Property

namespace Machine

variable {m : Machine τ κ} {I : τ → Prop}

theorem outlasts_begin : Outlasts Patient Eq m.begin m.begin := by
  refine (outlasts_patient (Acting.draw _).outlasts).bind_eq fun _ => Pairs.outlasts ?_
  exact pairs_modify fun s s' hs => ⟨hs.1, rfl⟩

/-- An example is generated as a machine made anew. -/
theorem generate_fresh {attempts : Int} {lab lab' : Lab τ τ}
    (h : (m.property minSteps maxSteps).generate attempts forced lab = .ok e lab') :
    lab'.world = m.fresh := by
  have hg := (Property.generate_ok h).1
  unfold Gen.generate at hg
  split at hg
  · rename_i hr
    obtain ⟨_, s, -, hm⟩ := bind_eq_ok.mp hr
    cases hm
    exact (congrArg Prod.snd (EStateM.Result.ok.inj hg).2).symm
  · cases hg

theorem Orderly.endures (h : m.Orderly I) (minSteps maxSteps : Int) {attempts more : Int}
    (hle : attempts ≤ more) :
    (m.property minSteps maxSteps).Endures attempts more (· = m.fresh)
      (fun event => event.hidesExhaustion = true) Example.Longer where
  like := Example.Longer.like
  generate := Property.outlasts_generate _ outlasts_begin hle
  world := generate_fresh
  examine he hw := Property.outlasts_examine _ he fun _ _ hs hworld =>
    h.run_outlasts hs (hworld.trans hw)

end Machine

/-- The check ended since the attempts ran out. -/
def Checked.gaveOut (c : Checked σ μ β) : Bool :=
  match c.outcome with
  | .ok (.exhausted _) => true
  | _ => false

theorem Outcome.gaveOut_ofFindings (seed : Int) (found : Findings β)
    (search? : Option (Search σ μ β)) :
    (⟨.ok (.ofFindings seed found), search?⟩ : Checked σ μ β).gaveOut =
      (found.exhausted && !found.isFalsified) := by
  obtain ⟨exhausted, executed, falsifying, cause⟩ := found
  cases falsifying with
  | nil => cases exhausted <;> rfl
  | cons b bs => exact (Bool.and_false exhausted).symm

/-- Attempts that run out while an example is shrunk only end the shrinking. -/
theorem Search.Finish.gaveOut_iff {p : Property σ α β} {s s' : Search σ μ β}
    (h : Finish settings p clock (Shrink.targeted moves) s result s') (seed : Int)
    (search? : Option (Search σ μ β)) :
    (⟨result.map (Outcome.ofFindings seed), search?⟩ : Checked σ μ β).gaveOut = true ↔
      ∃ fault, ((find settings p clock).outcome s).1 = .error fault ∧
        fault.isExhausted = true := by
  cases h with
  | exhausted hf hx =>
    rw [outcome_of_error hf]
    exact iff_of_true rfl ⟨_, rfl, hx⟩
  | failed hf hx =>
    rw [outcome_of_error hf]
    refine iff_of_false nofun ?_
    rintro ⟨_, hfault, hx'⟩
    cases hfault
    rw [hx] at hx'
    cases hx'
  | passed hf | unmade hf =>
    rw [outcome_of_ok hf]
    exact iff_of_false nofun nofun
  | shrunk hf hd =>
    rw [outcome_of_ok hf, Except.map, Outcome.gaveOut_ofFindings]
    exact iff_of_false nofun nofun
  | gaveOut hf hd he hx =>
    rw [(Property.shrink_targeted_fault hd he).not_exhausted] at hx
    cases hx

namespace Property

/-- The search of a check up to the example that it finds, before that is shrunk. -/
def hunt (p : Property σ α β) (settings : Settings μ) (clock : Clock) (world : σ) :
    Except Fault (Option (Option Fault × Example α)) × Search σ μ β :=
  (Search.find settings p clock).outcome (.start settings.random world)

theorem check_gaveOut_iff (p : Property σ α β) (settings : Settings μ) (clock : Clock)
    (world : σ) : (p.check settings clock world).gaveOut = true ↔
      settings.validate = .ok () ∧ ∃ fault, (p.hunt settings clock world).1 = .error fault ∧
        fault.isExhausted = true := by
  have hfinish := Search.run_finish settings p clock (Shrink.targeted Shrink.randomMoves)
    (.start settings.random world)
  unfold check
  cases settings.validate with
  | error fault => exact iff_of_false nofun nofun
  | ok valid =>
    rw [eq_self, true_and]
    generalize hr : Search.run settings p clock (Shrink.targeted Shrink.randomMoves)
      (.start settings.random world) = r at hfinish
    unfold Act.outcome at hfinish
    rw [hr] at hfinish
    cases r with
    | ok found s => exact hfinish.gaveOut_iff settings.seed (some s)
    | error fault s => exact hfinish.gaveOut_iff settings.seed (some s)

variable {W : σ → Prop} {G : Event β → Prop} {V : Example α → Example α → Prop}

/-- A check that does not give out does not give out with more attempts either. -/
theorem check_withMoreAttempts {p : Property σ α β} {settings : Settings μ} {more : Nat}
    (hp : p.Endures settings.attempts more W G V) (clock : Clock) (world : σ)
    (hout : (p.check settings clock world).gaveOut = false)
    (hG : ¬ (p.hunt settings clock world).2.Marked G) :
    (p.check { settings with attempts := more } clock world).gaveOut = false := by
  rw [← Bool.not_eq_true, check_gaveOut_iff] at hout ⊢
  rintro ⟨hvalid, fault, hfault, hx⟩
  refine hout ⟨hvalid, ?_⟩
  rcases Search.endures_find hp (fun _ => rfl) (.start settings.random world) with h | h
  · exact absurd h hG
  · unfold hunt Act.outcome at hfault ⊢
    generalize Search.find settings p clock (.start settings.random world) = r at h ⊢
    generalize Search.find { settings with attempts := more } p clock
      (.start settings.random world) = r' at h hfault
    cases h with
    | gaveOut hx' => exact ⟨_, rfl, hx'⟩
    | alike h =>
      cases h with
      | ok => cases hfault
      | error fault' =>
        cases hfault
        exact ⟨_, rfl, hx⟩

end Property

namespace Machine

variable {m : Machine τ κ} {I : τ → Prop}

/-- The check with the attempts that are configured. -/
def checkAsConfigured (m : Machine τ κ) (settings : Settings μ) (clock : Clock) :
    Checked τ μ τ :=
  (m.property settings.minSteps settings.maxSteps).check settings clock m.fresh

/-- In the check with the attempts that are configured, an example that ran out of them is taken to
falsify. -/
def HidesExhaustion (m : Machine τ κ) (settings : Settings μ) (clock : Clock) : Prop :=
  ((m.property settings.minSteps settings.maxSteps).hunt settings clock m.fresh).2.Marked
    fun event => event.hidesExhaustion = true

instance (m : Machine τ κ) (settings : Settings μ) (clock : Clock) :
    Decidable (m.HidesExhaustion settings clock) :=
  inferInstanceAs (Decidable (∃ event ∈ _, _ = true))

theorem Orderly.withMoreAttempts (h : m.Orderly I) (settings : Settings μ) {more : Nat}
    (hle : settings.attempts ≤ more) (hout : (m.checkAsConfigured settings clock).gaveOut = false)
    (hhides : ¬ m.HidesExhaustion settings clock) :
    (m.checkAsConfigured { settings with attempts := more } clock).gaveOut = false :=
  Property.check_withMoreAttempts
    (h.endures settings.minSteps settings.maxSteps (Int.ofNat_le.mpr hle)) clock m.fresh hout hhides

/-- Where no more attempts are configured than every check of a machine gets, the check gives out no
earlier than configured, unless a failing teardown hides that the configured attempts ran out. Where
more are configured it is the other way round. -/
theorem Orderly.check_outlasts (h : m.Orderly I) (settings : Settings μ) (clock : Clock) :
    (settings.attempts ≤ Machine.attempts → (m.checkAsConfigured settings clock).gaveOut = false →
      ¬ m.HidesExhaustion settings clock → (m.check settings clock).gaveOut = false) ∧
    (Machine.attempts ≤ settings.attempts → (m.check settings clock).gaveOut = false →
      ¬ m.HidesExhaustion settings.forMachine clock →
      (m.checkAsConfigured settings clock).gaveOut = false) :=
  ⟨h.withMoreAttempts settings, h.withMoreAttempts settings.forMachine⟩

end Machine

namespace StepBuilder

/-- Conditions and arguments may do anything to the system. -/
theorem acting_build [Display α] {b : StepBuilder ω α}
    (h : ∀ arg ∈ b.args, ∀ w g w', arg w = .ok g w' → Acting (fun _ => True) g.sample) :
    Acting (fun _ => True) b.build.sample := by
  refine .bind (.onWorld fun _ _ => trivial) fun allowed _ _ _ _ => ?_
  cases allowed with
  | false => exact .pure none
  | true =>
    refine .bind (.onWorld fun _ _ => trivial) fun gens _ _ _ hr => ?_
    have hgens : ∀ body ∈ gens.map Gen.sample, Acting (fun _ => True) body := by
      intro body hb
      obtain ⟨g, hg, rfl⟩ := List.mem_map.mp hb
      obtain ⟨arg, ha, w, w', hw⟩ := Act.sequence_mem (onWorld_ok hr).1 hg
      exact h arg ha w g w' hw
    refine .bind (.sequence hgens) fun values _ _ _ _ => ?_
    exact .bind (.ofExcept _) fun _ _ _ _ _ => .pure _

end StepBuilder

namespace Roster

/-- No registered step notices how many attempts there are. -/
structure Oblivious (r : Roster ω) : Prop where
  setup : ∀ g ∈ r.setup, Sampler.Acting (fun _ => True) g.sample
  steps : ∀ c ∈ r.steps, Sampler.Acting (fun _ => True) c.2.sample

theorem acting_liftGen {g : Gen ω α} (h : Sampler.Acting (fun _ => True) g.sample) :
    Sampler.Acting Oblivious (liftGen g).sample := by
  show Sampler.Acting Oblivious (g.sample.within Roster.system fun system r => { r with system })
  exact .within h (fun _ _ => trivial) fun _ _ hr _ => ⟨hr.setup, hr.steps⟩

theorem Oblivious.choice {r : Roster ω} (h : r.Oblivious) (hg : r.choice = .ok g) :
    Sampler.Acting Oblivious g.sample := by
  obtain ⟨b, chosen, hchosen, hsample⟩ := choice_ok hg
  rw [hsample]
  refine .assuming _ (.bind (.draw b) fun slot _ _ _ _ => ?_)
  obtain ⟨c, hc, hc'⟩ := hchosen slot
  rw [← hc']
  exact acting_liftGen (h.steps c hc)

theorem orderly_machine {system : ω} {initSteps : Act (Roster ω) Unit}
    (h : ∀ r, initSteps (ofSystem system) = .ok () r → r.Oblivious)
    (teardown : Act (Roster ω) Unit) : (machine system initSteps teardown).Orderly Oblivious where
  init hr := h _ hr
  setup _ hr := hr
  gives hr hfinds find hf := by
    cases hfinds
    obtain ⟨g, hg, rfl⟩ := List.mem_map.mp hf
    refine ⟨preserves_pure _, fun _ hfound => ?_⟩
    cases hfound
    exact acting_liftGen (hr.setup g hg)
  steps := by
    refine ⟨fun r hr => ?_, fun hr hg => hr.choice (Act.ofExcept_eq_ok.mp hg).1⟩
    exact preserves_ofExcept r.choice r hr
  execute step r hr := by
    obtain ⟨system, history, hs⟩ := execute_system step r
    show ((execute step).outcome r).2.Oblivious
    rw [hs]
    exact ⟨hr.setup, hr.steps⟩

end Roster

namespace Reluctant

def go : StepBuilder Int Int where
  desc := "go"
  action _ := set (1 : Int)
  args := []
  precondition? := some do return (← get) = 0
  postcondition? := none

def never : StepBuilder Int Int where
  desc := "never"
  action _ := pure ()
  args := []
  precondition? := some (pure false)
  postcondition? := none

/-- Of `weight + 1` choices one is `go`. -/
def register (weight : Int) : Act (Roster Int) Unit := do
  Roster.addStep go.build 1
  Roster.addStep never.build weight

def machine (weight : Int) (teardown : Act (Roster Int) Unit) :
    Machine (Roster Int) (Option (Step Int)) :=
  Roster.machine 0 (register weight) teardown

/-- Fails unless a step was taken. -/
def expectStep : Act (Roster Int) Unit := do
  if (← get).system = 0 then Act.fail (.raised "ValueError" none)

def settings (seed : Int) (attempts steps : Nat) : Settings Unit where
  random := .ofSeed seed
  examples := 2
  shrinkCycles := 0
  attempts
  timeMillis := 0
  minSteps := steps
  maxSteps := steps
  reporter := .raising
  guide? := none
  examples_valid := .inr (by decide)

theorem orderly_machine (weight : Int) (teardown : Act (Roster Int) Unit) :
    (machine weight teardown).Orderly Roster.Oblivious := by
  refine Roster.orderly_machine (fun r h => ?_) teardown
  cases h
  refine ⟨nofun, fun c hc => ?_⟩
  rcases List.mem_cons.mp hc with rfl | hc
  · exact StepBuilder.acting_build nofun
  · cases List.mem_singleton.mp hc
    exact StepBuilder.acting_build nofun

/-- One attempt is too few here. Five are enough, and so are a hundred and a thousand. -/
theorem check_outlasts_five :
    ((machine 1 (pure ())).checkAsConfigured (settings 1 1 1) .stopped).gaveOut = true ∧
    ((machine 1 (pure ())).checkAsConfigured (settings 1 5 1) .stopped).gaveOut = false ∧
    ((machine 1 (pure ())).check (settings 1 5 1) .stopped).gaveOut = false ∧
    ((machine 1 (pure ())).checkAsConfigured (settings 1 1000 1) .stopped).gaveOut = false := by
  obtain ⟨hfew, -⟩ := (orderly_machine 1 (pure ())).check_outlasts (settings 1 5 1) .stopped
  obtain ⟨-, hmany⟩ := (orderly_machine 1 (pure ())).check_outlasts (settings 1 1000 1) .stopped
  have hfive : ((machine 1 (pure ())).checkAsConfigured (settings 1 5 1) .stopped).gaveOut =
      false := by
    decide +kernel
  refine ⟨by decide +kernel, hfive, ?_, ?_⟩
  · exact hfew (by decide) hfive (by decide +kernel)
  · exact hmany (by decide) (by decide +kernel) (by decide +kernel)

/-- A thousand attempts are enough where a hundred are too few. And with one attempt a failing
teardown makes a falsification of what a hundred attempts only put off. -/
theorem configured_outlasts :
    (((machine 199 (pure ())).checkAsConfigured (settings 1 1000 1) .stopped).gaveOut = false ∧
      ((machine 199 (pure ())).check (settings 1 1000 1) .stopped).gaveOut = true) ∧
    ((machine 1 expectStep).checkAsConfigured (settings 1 1 2) .stopped).gaveOut = false ∧
      (machine 1 expectStep).HidesExhaustion (settings 1 1 2) .stopped ∧
      ((machine 1 expectStep).check (settings 1 1 2) .stopped).gaveOut = true := by
  decide +kernel

end Reluctant

end Refute

import Mathlib.Data.List.Forall2
import Refute.Proofs.Endless
import Refute.Proofs.Rerun
import Refute.Stateful.Machine

namespace Refute.Machine

/-- `before` is where the step was generated, and `made` where it was then executed. -/
structure Turn (τ κ : Type) where
  before : Scene τ
  step : κ
  made : Scene τ
  result : Except Fault Bool
  after : Scene τ

/-- The part of a turn that comes before the execution. -/
def generateStep (find : Act τ (Gen τ κ)) : Sampler τ κ := do
  let g ← Sampler.onWorld find
  g.sample

structure Turn.Taken (t : Turn τ κ) (m : Machine τ κ) (find : Act τ (Gen τ κ)) : Prop where
  generated : generateStep find t.before = .ok t.step t.made
  executed : (Sampler.onWorld (m.execute t.step)).outcome t.made = (t.result, t.after)

/-- Turns from a scene on, one for each generator up to the first step that does not succeed or is
not even generated; then how they ended, and where. -/
inductive Turns (m : Machine τ κ) :
    List (Act τ (Gen τ κ)) → Scene τ → List (Turn τ κ) → Except Fault Bool → Scene τ → Prop where
  | done (s : Scene τ) : Turns m [] s [] (.ok true) s
  | ungenerated {find : Act τ (Gen τ κ)} {finds : List (Act τ (Gen τ κ))} {s s' : Scene τ}
      {fault : Fault} : generateStep find s = .error fault s' →
      Turns m (find :: finds) s [] (.error fault) s'
  | stopped {find : Act τ (Gen τ κ)} {finds : List (Act τ (Gen τ κ))} {t : Turn τ κ} :
      t.Taken m find → t.result ≠ .ok true →
      Turns m (find :: finds) t.before [t] t.result t.after
  | next {find : Act τ (Gen τ κ)} {finds : List (Act τ (Gen τ κ))} {t : Turn τ κ}
      {ts : List (Turn τ κ)} {out : Except Fault Bool} {s' : Scene τ} :
      t.Taken m find → t.result = .ok true → Turns m finds t.after ts out s' →
      Turns m (find :: finds) t.before (t :: ts) out s'

/-- A run between its initialisation and its teardown. `count` is the number of steps, once it is
drawn, and `steps` are the turns after the setup. -/
structure Course (τ κ : Type) where
  setup : List (Turn τ κ)
  count : Option Int
  steps : List (Turn τ κ)
  out : Except Fault Bool
  last : Scene τ

def Course.turns (c : Course τ κ) : List (Turn τ κ) :=
  c.setup ++ c.steps

/-- How a run ends that took the course: with the teardown, unless the course goes on for ever. -/
def Course.ended (c : Course τ κ) (teardown : Act τ Unit) : Except Fault Bool × Scene τ :=
  if Act.isEndless c.out then (c.out, c.last)
  else (Act.ended c.out (teardown.outcome c.last.world).1,
    ⟨c.last.source, (teardown.outcome c.last.world).2⟩)

/-- A teardown that does nothing changes nothing. -/
theorem Course.ended_pure (c : Course τ κ) : c.ended (pure ()) = (c.out, c.last) := by
  obtain ⟨setup, count, steps, out, last⟩ := c
  unfold ended
  split
  · rfl
  · cases out <;> rfl

theorem Course.turns_nil (setup : List (Turn τ κ)) (count : Option Int) (out : Except Fault Bool)
    (last : Scene τ) : (Course.mk setup count [] out last).turns = setup :=
  List.append_nil setup

/-- A setup that does not succeed ends the run; otherwise as many steps are to follow as are
drawn, if a number is. -/
inductive Runs (m : Machine τ κ) (minSteps maxSteps : Int) (finds : List (Act τ (Gen τ κ)))
    (s : Scene τ) : Course τ κ → Prop where
  | failed {setup : List (Turn τ κ)} {out : Except Fault Bool} {s' : Scene τ} :
      Turns m finds s setup out s' → out ≠ .ok true →
      Runs m minSteps maxSteps finds s ⟨setup, none, [], out, s'⟩
  | uncounted {setup : List (Turn τ κ)} {s' s'' : Scene τ} {fault : Fault} :
      Turns m finds s setup (.ok true) s' → stepCount minSteps maxSteps s' = .error fault s'' →
      Runs m minSteps maxSteps finds s ⟨setup, none, [], .error fault, s''⟩
  | counted {setup steps : List (Turn τ κ)} {s' s'' last : Scene τ} {count : Int}
      {out : Except Fault Bool} :
      Turns m finds s setup (.ok true) s' → stepCount minSteps maxSteps s' = .ok count s'' →
      Turns m (List.replicate count.toNat m.steps) s'' steps out last →
      Runs m minSteps maxSteps finds s ⟨setup, some count, steps, out, last⟩

variable {m : Machine τ κ}

section Performing

theorem performStep_eq (m : Machine τ κ) (find : Act τ (Gen τ κ)) :
    m.performStep find =
      generateStep find >>= fun step => Sampler.onWorld (m.execute step) := by
  simp only [performStep, generateStep, bind_assoc]

theorem exists_turn (m : Machine τ κ) (h : generateStep find s = .ok step made) :
    ∃ t : Turn τ κ, t.before = s ∧ t.Taken m find :=
  let executed := (Sampler.onWorld (m.execute step)).outcome made
  ⟨⟨s, step, made, executed.1, executed.2⟩, rfl, h, rfl⟩

theorem Turn.Taken.performStep {t : Turn τ κ} (h : t.Taken m find) :
    (m.performStep find).outcome t.before = (t.result, t.after) := by
  rw [performStep_eq, Act.outcome_congr (Act.bind_ok h.generated), h.executed]

theorem perform_ungenerated (h : generateStep find s = .error fault s') :
    (m.perform (find :: finds)).outcome s = (.error fault, s') := by
  refine Act.outcome_bind_error (Act.outcome_of_error ?_)
  rw [performStep_eq, Act.bind_error h]

theorem perform_stopped {t : Turn τ κ} (h : t.Taken m find) (hresult : t.result ≠ .ok true) :
    (m.perform (find :: finds)).outcome t.before = (t.result, t.after) := by
  have hp := h.performStep
  cases hr : t.result with
  | error fault =>
    rw [hr] at hp
    exact Act.outcome_bind_error hp
  | ok succeeded =>
    rw [hr] at hp hresult
    cases succeeded with
    | true => exact absurd rfl hresult
    | false => exact Act.outcome_bind_ok hp

theorem perform_next {t : Turn τ κ} (h : t.Taken m find) (hresult : t.result = .ok true) :
    (m.perform (find :: finds)).outcome t.before = (m.perform finds).outcome t.after := by
  have hp := h.performStep
  rw [hresult] at hp
  exact Act.outcome_bind_ok hp

theorem perform_turns (m : Machine τ κ) (finds : List (Act τ (Gen τ κ))) (s : Scene τ) :
    ∃ ts out s', Turns m finds s ts out s' ∧ (m.perform finds).outcome s = (out, s') := by
  induction finds generalizing s with
  | nil => exact ⟨[], .ok true, s, .done s, rfl⟩
  | cons find finds ih =>
    cases hg : generateStep find s with
    | error fault s' => exact ⟨[], _, _, .ungenerated hg, perform_ungenerated hg⟩
    | ok step made =>
      obtain ⟨t, rfl, ht⟩ := exists_turn m hg
      by_cases hresult : t.result = .ok true
      · obtain ⟨ts, out, s', hts, hperform⟩ := ih t.after
        exact ⟨t :: ts, out, s', .next ht hresult hts, (perform_next ht hresult).trans hperform⟩
      · exact ⟨[t], _, _, .stopped ht hresult, perform_stopped ht hresult⟩

theorem performSteps_eq (m : Machine τ κ) (n : Nat) :
    m.performSteps n = m.perform (List.replicate n m.steps) := by
  induction n with
  | zero => rfl
  | succ n ih => rw [performSteps, List.replicate_succ, perform, ih]

/-- The body of a run from the scene in which the setup is known. -/
theorem body_of_setup (hsetup : m.setup s.world = .ok finds w) (minSteps maxSteps : Int) :
    (m.body minSteps maxSteps).outcome s =
      (m.perform finds >>= fun succeeded =>
        if succeeded then do
          let count ← stepCount minSteps maxSteps
          m.performSteps count.toNat
        else return false).outcome ⟨s.source, w⟩ := by
  have ho := Sampler.outcome_onWorld m.setup s
  rw [Act.outcome_of_ok hsetup] at ho
  exact Act.outcome_bind_ok ho

theorem body_runs (hsetup : m.setup s.world = .ok finds w) (minSteps maxSteps : Int) :
    ∃ c, Runs m minSteps maxSteps finds ⟨s.source, w⟩ c ∧
      (m.body minSteps maxSteps).outcome s = (c.out, c.last) := by
  rw [body_of_setup hsetup]
  obtain ⟨setup, out, s', hturns, hp⟩ := perform_turns m finds ⟨s.source, w⟩
  cases out with
  | error fault => exact ⟨_, .failed hturns nofun, Act.outcome_bind_error hp⟩
  | ok succeeded =>
    rw [Act.outcome_bind_ok hp]
    cases succeeded with
    | false => exact ⟨_, .failed hturns nofun, rfl⟩
    | true =>
      rw [if_pos rfl]
      cases hcount : stepCount minSteps maxSteps s' with
      | error fault s'' =>
        exact ⟨_, .uncounted hturns hcount, Act.outcome_of_error (Act.bind_error hcount)⟩
      | ok count s'' =>
        rw [Act.outcome_congr (Act.bind_ok hcount), performSteps_eq]
        obtain ⟨steps, out, last, hsteps, hp⟩ :=
          perform_turns m (List.replicate count.toNat m.steps) s''
        exact ⟨_, .counted hturns hcount hsteps, hp⟩

/-- Once the initialisation has returned, the teardown acts once, where the course of the run ended,
whatever its end; but a run that goes on for ever does not come to it. -/
theorem run_runs (hinit : m.init s.world = .ok () w) (hsetup : m.setup w = .ok finds w')
    (minSteps maxSteps : Int) :
    ∃ c, Runs m minSteps maxSteps finds ⟨s.source, w'⟩ c ∧
      (m.run minSteps maxSteps).outcome s = c.ended m.teardown := by
  obtain ⟨c, hc, hbody⟩ := body_runs (s := ⟨s.source, w⟩) hsetup minSteps maxSteps
  refine ⟨c, hc, ?_⟩
  have ho := Sampler.outcome_onWorld m.init s
  rw [Act.outcome_of_ok hinit] at ho
  rw [run, Act.outcome_bind_ok ho, Act.outcome_andFinally, hbody, Sampler.outcome_onWorld]
  rfl

end Performing

section StepCount

theorem stepCount_eq {g : Gen τ Int} (h : Gen.range minSteps maxSteps minSteps = .ok g) :
    stepCount minSteps maxSteps = g.sample := by
  rw [stepCount, h]
  rfl

/-- Drawing the number of steps changes nothing but the source. -/
theorem stepCount_world (minSteps maxSteps : Int) (s : Scene τ) :
    ((stepCount minSteps maxSteps).outcome s).2.world = s.world := by
  cases hr : (Gen.range minSteps maxSteps minSteps : Except Fault (Gen τ Int)) with
  | error fault =>
    rw [stepCount, hr]
    rfl
  | ok g =>
    obtain ⟨b, rfl, -⟩ := Gen.range_ok hr
    rw [stepCount_eq hr]
    exact congrArg (Scene.world ∘ Prod.snd) (Sampler.outcome_onSource (Source.next b) s)

theorem stepCount_ok {s s' : Scene τ} (h : stepCount minSteps maxSteps s = .ok count s') :
    minSteps ≤ count ∧ count ≤ maxSteps := by
  obtain ⟨g, s₁, hr, hdrawn⟩ := Act.bind_eq_ok.mp h
  obtain ⟨b, rfl, -, rfl, rfl⟩ := Gen.range_ok (Act.ofExcept_eq_ok.mp hr).1
  exact Bounds.allows_iff.mp (Source.next_ok (Sampler.onSource_ok hdrawn).1).1

/-- The only range of numbers of steps that is too wide for a single output is that of all. -/
theorem stepCount_error {minSteps maxSteps : Nat} (hle : minSteps ≤ maxSteps)
    (hmax : (maxSteps : Int) ≤ Word.greatest) {s s' : Scene τ}
    (h : stepCount minSteps maxSteps s = .error fault s') :
    minSteps = 0 ∧ (maxSteps : Int) = Word.greatest ∧ fault.Endless := by
  have hlow : Word.least ≤ minSteps := by
    simp only [Word.least]
    omega
  obtain ⟨g, hr⟩ : ∃ g : Gen τ Int, Gen.range minSteps maxSteps minSteps = .ok g :=
    Gen.exists_range hlow (by omega) hmax minSteps
  obtain ⟨b, rfl, -, hlo, hhi⟩ := Gen.range_ok hr
  rw [stepCount_eq hr] at h
  obtain ⟨hfits, hendless⟩ := Sampler.draw_endless h
  rw [hlo, hhi] at hfits
  obtain ⟨hzero, hgreatest⟩ := Xorshift.full_of_widthFits (by omega) (by omega) hmax hfits
  exact ⟨by omega, hgreatest, hendless⟩

end StepCount

theorem Turn.exists_taken {ts : List (Turn τ κ)}
    (h : List.Forall₂ (fun find t => t.Taken m find) finds ts) (ht : t ∈ ts) :
    ∃ find ∈ finds, t.Taken m find := by
  induction h with
  | nil => cases ht
  | @cons find t' finds ts htaken _ ih =>
    rcases List.mem_cons.mp ht with rfl | ht
    · exact ⟨find, List.mem_cons_self, htaken⟩
    · obtain ⟨other, ho, htaken⟩ := ih ht
      exact ⟨other, List.mem_cons_of_mem _ ho, htaken⟩

namespace Turns

theorem taken (h : Turns m finds s ts out s') :
    List.Forall₂ (fun find t => t.Taken m find) (finds.take ts.length) ts := by
  induction h with
  | done => exact .nil
  | ungenerated => exact .nil
  | stopped ht => exact .cons ht .nil
  | next ht _ _ ih => exact .cons ht ih

theorem exists_taken (h : Turns m finds s ts out s') (ht : t ∈ ts) :
    ∃ find ∈ finds, t.Taken m find := by
  obtain ⟨find, hfind, htaken⟩ := Turn.exists_taken h.taken ht
  exact ⟨find, List.mem_of_mem_take hfind, htaken⟩

theorem length_le (h : Turns m finds s ts out s') : ts.length ≤ finds.length := by
  induction h with
  | done => exact Nat.le_refl 0
  | ungenerated => exact Nat.zero_le _
  | stopped => exact Nat.succ_le_succ (Nat.zero_le _)
  | next _ _ _ ih => exact Nat.succ_le_succ ih

theorem all_succeeded (h : Turns m finds s ts out s') (hout : out = .ok true) :
    ts.length = finds.length ∧ ∀ t ∈ ts, t.result = .ok true := by
  induction h with
  | done => exact ⟨rfl, nofun⟩
  | ungenerated => cases hout
  | stopped _ hresult => exact absurd hout hresult
  | next _ hresult _ ih =>
    obtain ⟨hlength, hall⟩ := ih hout
    exact ⟨congrArg Nat.succ hlength, List.forall_mem_cons.mpr ⟨hresult, hall⟩⟩

theorem succeeded_of_all (h : Turns m finds s ts out s') (hlength : ts.length = finds.length)
    (hall : ∀ t ∈ ts, t.result = .ok true) : out = .ok true := by
  induction h with
  | done => rfl
  | ungenerated => cases hlength
  | stopped _ hresult => exact absurd (hall _ List.mem_cons_self) hresult
  | next _ _ _ ih =>
    exact ih (Nat.succ.inj hlength) fun t ht => hall t (List.mem_cons_of_mem _ ht)

theorem last_failed (h : Turns m finds s ts out s') (hout : out = .ok false) :
    ∃ t, ts.getLast? = some t ∧ t.result = .ok false := by
  induction h with
  | done => cases hout
  | ungenerated => cases hout
  | @stopped find finds t => exact ⟨t, rfl, hout⟩
  | @next find finds t ts out s' _ _ _ ih =>
    obtain ⟨t', hlast, hresult⟩ := ih hout
    exact ⟨t', by rw [List.getLast?_cons, hlast, Option.getD_some], hresult⟩

/-- A step that did not succeed is the last; its end is that of all turns, and nothing is done
after it. -/
theorem unsuccessful (h : Turns m finds s ts out s') (ht : t ∈ ts) (hresult : t.result ≠ .ok true) :
    ts.getLast? = some t ∧ out = t.result ∧ s' = t.after := by
  induction h with
  | done => cases ht
  | ungenerated => cases ht
  | stopped =>
    obtain rfl := List.mem_singleton.mp ht
    exact ⟨rfl, rfl, rfl⟩
  | @next find finds t' ts out s' _ hsucceeded _ ih =>
    rcases List.mem_cons.mp ht with rfl | ht
    · exact absurd hsucceeded hresult
    · obtain ⟨hlast, hend⟩ := ih ht
      exact ⟨by rw [List.getLast?_cons, hlast, Option.getD_some], hend⟩

end Turns

/-- `I` tells, from the steps executed so far, what holds of the state: what generates a step
keeps it, however that ends, and executing the step adds this step. -/
structure Follows (m : Machine τ κ) (finds : List (Act τ (Gen τ κ))) (I : List κ → τ → Prop) :
    Prop where
  generated : ∀ find ∈ finds, ∀ played s, I played s.world →
    I played ((generateStep find).outcome s).2.world
  executed : ∀ step played w, I played w → I (played ++ [step]) ((m.execute step).outcome w).2

section Follows

variable {I : List κ → τ → Prop}

theorem Follows.taken (h : m.Follows finds I) (hfind : find ∈ finds) {t : Turn τ κ}
    (ht : t.Taken m find) (hb : I played t.before.world) :
    I (played ++ [t.step]) t.after.world := by
  have hmade := h.generated find hfind played t.before hb
  rw [Act.outcome_of_ok ht.generated] at hmade
  have hafter := h.executed t.step played t.made.world hmade
  have hx := ht.executed
  rw [Sampler.outcome_onWorld] at hx
  obtain ⟨-, hx⟩ := Prod.mk.inj hx
  rwa [← hx]

theorem Turns.follow (h : Turns m finds s ts out s') (hI : m.Follows finds I)
    (hs : I played s.world) :
    I (played ++ ts.map Turn.step) s'.world ∧ ∀ t ∈ ts, ∃ earlier, I earlier t.before.world := by
  induction h generalizing played with
  | done => exact ⟨(List.append_nil played).symm ▸ hs, nofun⟩
  | @ungenerated find finds s s' fault hg =>
    have hs' := hI.generated find List.mem_cons_self played s hs
    rw [Act.outcome_of_error hg] at hs'
    exact ⟨by rwa [List.map_nil, List.append_nil], nofun⟩
  | stopped ht =>
    refine ⟨hI.taken List.mem_cons_self ht hs, fun t' ht' => ?_⟩
    obtain rfl := List.mem_singleton.mp ht'
    exact ⟨played, hs⟩
  | @next find finds t ts out s' ht _ _ ih =>
    have htail : m.Follows finds I :=
      ⟨fun other ho => hI.generated other (List.mem_cons_of_mem _ ho), hI.executed⟩
    obtain ⟨hlast, hturns⟩ := ih htail (hI.taken List.mem_cons_self ht hs)
    refine ⟨?_, List.forall_mem_cons.mpr ⟨⟨played, hs⟩, hturns⟩⟩
    rwa [List.append_assoc] at hlast

end Follows

namespace Runs

variable {minSteps maxSteps : Int} {s : Scene τ} {finds : List (Act τ (Gen τ κ))} {c : Course τ κ}

theorem setup_taken (h : Runs m minSteps maxSteps finds s c) :
    List.Forall₂ (fun find t => t.Taken m find) (finds.take c.setup.length) c.setup := by
  cases h with
  | failed hsetup => exact hsetup.taken
  | uncounted hsetup => exact hsetup.taken
  | counted hsetup => exact hsetup.taken

theorem steps_taken (h : Runs m minSteps maxSteps finds s c) :
    ∀ t ∈ c.steps, t.Taken m m.steps := by
  intro t ht
  cases h with
  | failed => cases ht
  | uncounted => cases ht
  | counted _ _ hsteps =>
    obtain ⟨find, hfind, htaken⟩ := hsteps.exists_taken ht
    rwa [List.eq_of_mem_replicate hfind] at htaken

theorem unsuccessful (h : Runs m minSteps maxSteps finds s c) (ht : t ∈ c.turns)
    (hresult : t.result ≠ .ok true) :
    c.turns.getLast? = some t ∧ c.out = t.result ∧ c.last = t.after := by
  cases h with
  | failed hsetup =>
    rw [Course.turns_nil] at ht ⊢
    exact hsetup.unsuccessful ht hresult
  | uncounted hsetup =>
    rw [Course.turns_nil] at ht
    exact absurd ((hsetup.all_succeeded rfl).2 t ht) hresult
  | counted hsetup _ hsteps =>
    rcases List.mem_append.mp ht with ht | ht
    · exact absurd ((hsetup.all_succeeded rfl).2 t ht) hresult
    · obtain ⟨hlast, hend⟩ := hsteps.unsuccessful ht hresult
      exact ⟨by rw [Course.turns, List.getLast?_append, hlast, Option.some_or], hend⟩

theorem last_failed (h : Runs m minSteps maxSteps finds s c) (hout : c.out = .ok false) :
    ∃ t, c.turns.getLast? = some t ∧ t.result = .ok false := by
  cases h with
  | failed hsetup =>
    rw [Course.turns_nil]
    exact hsetup.last_failed hout
  | uncounted => cases hout
  | counted _ _ hsteps =>
    obtain ⟨t, hlast, hresult⟩ := hsteps.last_failed hout
    exact ⟨t, by rw [Course.turns, List.getLast?_append, hlast, Option.some_or], hresult⟩

theorem all_succeeded (h : Runs m minSteps maxSteps finds s c) (hout : c.out = .ok true) :
    (∀ t ∈ c.turns, t.result = .ok true) ∧ c.setup.length = finds.length ∧
      ∃ n, c.count = some n ∧ c.steps.length = n.toNat := by
  cases h with
  | failed _ hfailed => exact absurd hout hfailed
  | uncounted => cases hout
  | counted hsetup _ hsteps =>
    obtain ⟨hlength, hall⟩ := hsetup.all_succeeded rfl
    obtain ⟨hlength', hall'⟩ := hsteps.all_succeeded hout
    rw [List.length_replicate] at hlength'
    exact ⟨List.forall_mem_append.mpr ⟨hall, hall'⟩, hlength, _, rfl, hlength'⟩

theorem counted_of_some (h : Runs m minSteps maxSteps finds s c) (hcount : c.count = some n) :
    minSteps ≤ n ∧ n ≤ maxSteps ∧ c.setup.length = finds.length ∧
      (∀ t ∈ c.setup, t.result = .ok true) ∧ c.steps.length ≤ n.toNat := by
  cases h with
  | failed => cases hcount
  | uncounted => cases hcount
  | counted hsetup hdrawn hsteps =>
    cases hcount
    obtain ⟨hlow, hhigh⟩ := stepCount_ok hdrawn
    obtain ⟨hlength, hall⟩ := hsetup.all_succeeded rfl
    have hsteps_le := hsteps.length_le
    rw [List.length_replicate] at hsteps_le
    exact ⟨hlow, hhigh, hlength, hall, hsteps_le⟩

/-- Where no step of the setup fails, only the draw itself can leave a run without a number of
steps. -/
theorem counted_of_none (h : Runs m minSteps maxSteps finds s c) (hcount : c.count = none) :
    c.steps = [] ∧ (c.setup.length = finds.length → (∀ t ∈ c.setup, t.result = .ok true) →
      ∃ fault u u', stepCount minSteps maxSteps u = .error fault (u' : Scene τ) ∧
        c.out = .error fault) := by
  cases h with
  | failed hsetup hfailed =>
    exact ⟨rfl, fun hlength hall => absurd (hsetup.succeeded_of_all hlength hall) hfailed⟩
  | uncounted _ hdrawn => exact ⟨rfl, fun _ _ => ⟨_, _, _, hdrawn, rfl⟩⟩
  | counted => cases hcount

theorem follow {I : List κ → τ → Prop} (h : Runs m minSteps maxSteps finds s c)
    (hfinds : m.Follows finds I) (hsteps : m.Follows [m.steps] I) (hs : I played s.world) :
    I (played ++ c.turns.map Turn.step) c.last.world ∧
      ∀ t ∈ c.turns, ∃ earlier, I earlier t.before.world := by
  cases h with
  | failed hsetup =>
    rw [Course.turns_nil]
    exact hsetup.follow hfinds hs
  | @uncounted setup s' s'' fault hsetup hdrawn =>
    have hworld := stepCount_world minSteps maxSteps s'
    rw [Act.outcome_of_error hdrawn] at hworld
    obtain ⟨hs', hearlier⟩ := hsetup.follow hfinds hs
    rw [Course.turns_nil]
    exact ⟨hworld.symm ▸ hs', hearlier⟩
  | @counted setup steps s' s'' last count out hsetup hdrawn hturns =>
    have hworld := stepCount_world minSteps maxSteps s'
    rw [Act.outcome_of_ok hdrawn] at hworld
    obtain ⟨hs', hearlier⟩ := hsetup.follow hfinds hs
    have hfollows : m.Follows (List.replicate count.toNat m.steps) I :=
      ⟨fun find hf => hsteps.generated find (by simp [List.eq_of_mem_replicate hf]),
        hsteps.executed⟩
    obtain ⟨hlast, hlater⟩ := hturns.follow hfollows (hworld.symm ▸ hs')
    refine ⟨?_, List.forall_mem_append.mpr ⟨hearlier, hlater⟩⟩
    rwa [Course.turns, List.map_append, ← List.append_assoc]

end Runs

/-- The shape of a run's course, whatever the machine does in it: the setup in order, then as many
steps as are drawn, but nothing after a step that does not succeed. -/
structure Course.Shape (c : Course τ κ) (m : Machine τ κ) (minSteps maxSteps : Nat)
    (finds : List (Act τ (Gen τ κ))) : Prop where
  setup : List.Forall₂ (fun find t => t.Taken m find) (finds.take c.setup.length) c.setup
  steps : ∀ t ∈ c.steps, t.Taken m m.steps
  unsuccessful : ∀ t ∈ c.turns, t.result ≠ .ok true →
    c.turns.getLast? = some t ∧ c.out = t.result ∧ c.last = t.after
  counted : ∀ n, c.count = some n → minSteps ≤ n ∧ n ≤ maxSteps ∧
    c.setup.length = finds.length ∧ (∀ t ∈ c.setup, t.result = .ok true) ∧
    c.steps.length ≤ n
  /-- The draw of a number among all words that are not negative may go on for ever. -/
  uncounted : c.count = none → c.steps = [] ∧
    (c.setup.length = finds.length → (∀ t ∈ c.setup, t.result = .ok true) →
      minSteps = 0 ∧ (maxSteps : Int) = Word.greatest ∧
        ∃ fault, c.out = .error fault ∧ fault.Endless)
  verdict : ∀ b, c.out = .ok b → (b = true ↔ ∀ t ∈ c.turns, t.result = .ok true)
  length : c.out = .ok true →
    c.setup.length = finds.length ∧ ∃ n : Nat, c.count = some (n : Int) ∧ c.steps.length = n

theorem Runs.shape {minSteps maxSteps : Nat} (hle : minSteps ≤ maxSteps)
    (hmax : (maxSteps : Int) ≤ Word.greatest) {s : Scene τ} {c : Course τ κ}
    (h : Runs m minSteps maxSteps finds s c) : c.Shape m minSteps maxSteps finds where
  setup := h.setup_taken
  steps := h.steps_taken
  unsuccessful _ := h.unsuccessful
  counted := by
    intro n hcount
    obtain ⟨hlow, hhigh, hlength, hall, hsteps⟩ := h.counted_of_some hcount
    exact ⟨hlow, hhigh, hlength, hall, by omega⟩
  uncounted := by
    intro hcount
    obtain ⟨hsteps, hfault⟩ := h.counted_of_none hcount
    refine ⟨hsteps, fun hlength hall => ?_⟩
    obtain ⟨fault, u, u', hdrawn, hout⟩ := hfault hlength hall
    obtain ⟨hzero, hgreatest, hendless⟩ := stepCount_error hle hmax hdrawn
    exact ⟨hzero, hgreatest, fault, hout, hendless⟩
  verdict := by
    intro b hout
    cases b with
    | true => exact iff_of_true rfl (h.all_succeeded hout).1
    | false =>
      obtain ⟨t, hlast, hresult⟩ := h.last_failed hout
      refine iff_of_false nofun fun hall => ?_
      rw [hall t (List.mem_of_getLast? hlast)] at hresult
      cases hresult
  length := by
    intro hout
    obtain ⟨-, hlength, n, hcount, hsteps⟩ := h.all_succeeded hout
    obtain ⟨hlow, -⟩ := h.counted_of_some hcount
    exact ⟨hlength, n.toNat, by rw [hcount, Int.toNat_of_nonneg (by omega)], hsteps⟩

end Refute.Machine

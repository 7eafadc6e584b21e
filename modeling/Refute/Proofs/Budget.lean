import Refute.Proofs.Endless
import Refute.Proofs.Plans
import Refute.Proofs.Rerun

namespace Refute

namespace Source

/-- The rejection that ends the generation. The first one does if no attempts were granted. -/
def budget (s : Source) : Int :=
  max 1 s.attempts

/-- Fewer values were rejected than end the generation. -/
def Solvent (s : Source) : Prop :=
  s.rejected < s.budget

theorem solvent_start (random : Xorshift) (forced : List Int) (attempts : Int) :
    (start random forced attempts).Solvent :=
  Int.lt_of_lt_of_le Int.zero_lt_one (Int.le_max_left 1 attempts)

theorem rollback_counts (h : rollback mark s = .ok () s') :
    s'.attempts = s.attempts ∧ s'.rejected = s.rejected := by
  unfold rollback at h
  split at h
  · cases h
    exact ⟨rfl, rfl⟩
  · cases h

end Source

namespace Sampler

theorem rollback_counts {s t : Scene σ} (h : rollback place s = .ok () t) :
    t.source.attempts = s.source.attempts ∧ t.source.rejected = s.source.rejected :=
  Source.rollback_counts (onSource_ok h).1

theorem retry_rejected {body : Sampler σ α} {s s' t : Scene σ} (hb : body s = .ok a s')
    (ha : accept a = .ok false) (hback : rollback s.source.recorded.length s' = .ok () t)
    (fuel : Nat) :
    retry body accept (fuel + 1) s = (reject >>= fun _ => retry body accept fuel) t := by
  have hm : mark s = .ok s.source.recorded.length s := rfl
  have hc : (Act.ofExcept (accept a) : Sampler σ Bool) s' = .ok false s' := by
    rw [ha]
    rfl
  exact (Act.bind_ok hm).trans ((Act.bind_ok hb).trans ((Act.bind_ok hc).trans
    (Act.bind_ok hback)))

theorem retry_failed {body : Sampler σ α} {s s' : Scene σ} (hb : body s = .error fault s')
    (fuel : Nat) : retry body accept (fuel + 1) s = .error fault s' := by
  have hm : mark s = .ok s.source.recorded.length s := rfl
  exact (Act.bind_ok hm).trans (Act.bind_error hb)

end Sampler

namespace Plan

/-- The source tells the run as its account does. -/
structure Accounted (s : Scene σ) (account : Account) (s' : Scene σ) : Prop where
  attempts : s'.source.attempts = s.source.attempts
  rejected : s'.source.rejected = s.source.rejected + account.rejections
  trace : s'.source.trace = s.source.trace ++ account.kept
  verdicts : ∀ verdict ∈ account.verdicts, verdict = true

/-- What the source says when a run stops so. A filter that gives up leaves the trace as it found
it. -/
def Stop.Justified : Stop → Source → Prop
  | exhausted entry, s => s.rejected = s.budget ∧ s.trace = entry
  | endless b h, s => s.Solvent ∧ (Fault.unreachableRange b.lo b.hi h).Endless

def Ended {α : Type} : Except Stop α → Source → Prop
  | .ok _, s => s.Solvent
  | .error stop, s => stop.Justified s

/-- How the run ends for the sampler. -/
def Stop.fault : Stop → Source → Fault
  | exhausted _, s => .exhausted s.rejected
  | endless b h, _ => .unreachableRange b.lo b.hi h

namespace Accounted

theorem nothing {s s' : Scene σ} (h : s'.source = s.source) : Accounted s .nothing s' := by
  refine ⟨by rw [h], by rw [h]; rfl, ?_, nofun⟩
  rw [h]
  exact (List.append_nil _).symm

theorem append {s t s' : Scene σ} (h : Accounted s first t) (h' : Accounted t later s') :
    Accounted s (first ++ later) s' where
  attempts := h'.attempts.trans h.attempts
  rejected := by rw [h'.rejected, h.rejected, Account.rejections_append, Nat.add_assoc]
  trace := by rw [h'.trace, h.trace, Account.kept_append, List.append_assoc]
  verdicts := by
    rw [Account.verdicts_append]
    exact List.forall_mem_append.mpr ⟨h.verdicts, h'.verdicts⟩

theorem drew {s : Scene σ} (h : Source.next b s.source = .ok v source) :
    Accounted s (.drew ⟨b, v⟩ .nothing) { s with source } := by
  obtain ⟨-, random, forced, rfl⟩ := Source.next_ok h
  exact ⟨rfl, rfl, Source.trace_record .., nofun⟩

theorem returned (s : Scene σ) : Accounted s (.returned true .nothing) s :=
  ⟨rfl, rfl, (List.append_nil _).symm, fun _ h => List.mem_singleton.mp h⟩

/-- Rolled back, an attempt leaves but the rejections within it. The rejection of its own value is
counted after that. -/
theorem rejected_step {s s' t t' : Scene σ} (h : Accounted s account s')
    (hback : Sampler.rollback s.source.recorded.length s' = .ok () t)
    (ht : t' = { t with source.rejected := t.source.rejected + 1 }) :
    Accounted s (.rejected account .nothing) t' ∧ t'.source.trace = s.source.trace := by
  obtain ⟨u, hu, htrace, -⟩ := Sampler.rollback_grown h.trace
  cases hback.symm.trans hu
  obtain ⟨hattempts, hrejected⟩ := Sampler.rollback_counts hback
  subst ht
  refine ⟨⟨hattempts.trans h.attempts, ?_, ?_, ?_⟩, htrace⟩
  · show t.source.rejected + 1 = _
    rw [hrejected, h.rejected]
    rfl
  · exact htrace.trans (List.append_nil _).symm
  · simpa [Account.verdicts] using h.verdicts

end Accounted

/-- Of every run from a source with attempts left, the account and the end can be trusted. -/
def AllAccounted {α : Type} (runs : Scene σ → Account → Except Stop α → Scene σ → Prop) : Prop :=
  ∀ s account ending s', runs s account ending s' → s.source.Solvent →
    Accounted s account s' ∧ Ended ending s'.source

/-- After a rejection that was not the last the filter is back where it began, with fewer attempts
left. -/
theorem again_step {s s' t t' : Scene σ} (h : Accounted s account s')
    (hback : Sampler.rollback s.source.recorded.length s' = .ok () t)
    (hr : Sampler.reject t = .ok () t') :
    Accounted s (.rejected account .nothing) t' ∧ t'.source.trace = s.source.trace ∧
      t'.source.Solvent ∧ t'.source.patience < s.source.patience := by
  obtain ⟨hlt, ht⟩ := Sampler.reject_eq_ok hr
  obtain ⟨hacc, htrace⟩ := h.rejected_step hback ht
  have hattempts := hacc.attempts
  have hrejected := hacc.rejected
  subst ht
  simp only [Account.rejections] at hattempts hrejected
  refine ⟨hacc, htrace, ?_, ?_⟩
  · simp only [Source.Solvent, Source.budget]
    omega
  · simp only [Source.patience]
    omega

/-- The last rejection leaves the trace that the filter found. -/
theorem exhausted_step {s s' t t' : Scene σ} (h : Accounted s account s')
    (hs' : s'.source.Solvent) (hback : Sampler.rollback s.source.recorded.length s' = .ok () t)
    (hr : Sampler.reject t = .error fault t') :
    Accounted s (.rejected account .nothing) t' ∧
      (Stop.exhausted s.source.trace).Justified t'.source ∧
      fault = .exhausted t'.source.rejected := by
  obtain ⟨hle, hfault, ht⟩ := Sampler.reject_eq_error hr
  obtain ⟨hacc, htrace⟩ := h.rejected_step hback ht
  obtain ⟨hattempts, hrejected⟩ := Sampler.rollback_counts hback
  subst ht
  refine ⟨hacc, ⟨?_, htrace⟩, hfault⟩
  simp only [Source.Solvent, Source.budget] at hs' ⊢
  omega

section Tries

variable {attempt : Scene σ → Account → Except Stop α → Scene σ → Prop} {accept : α → Bool}

/-- What holds of every attempt holds of the filter. -/
theorem Tries.accounted (hattempt : AllAccounted attempt) {s s' : Scene σ}
    (h : Tries attempt accept entry s account ending s') (hs : s.source.Solvent)
    (hentry : s.source.trace = entry) : Accounted s account s' ∧ Ended ending s'.source := by
  induction h with
  | accepted ha hv =>
    obtain ⟨hacc, hended⟩ := hattempt _ _ _ _ ha hs
    rw [hv]
    exact ⟨hacc.append (.returned _), hended⟩
  | stopped ha => exact hattempt _ _ _ _ ha hs
  | exhausted ha _ hback hr =>
    obtain ⟨hacc, hended⟩ := hattempt _ _ _ _ ha hs
    obtain ⟨hacc, hjustified, -⟩ := exhausted_step hacc hended hback hr
    rw [hentry] at hjustified
    exact ⟨hacc, hjustified⟩
  | again ha _ hback hr _ ih =>
    obtain ⟨hacc, -⟩ := hattempt _ _ _ _ ha hs
    obtain ⟨hacc, htrace, hsolvent, -⟩ := again_step hacc hback hr
    obtain ⟨hlater, hended⟩ := ih hsolvent (htrace.trans hentry)
    exact ⟨hacc.append hlater, hended⟩

/-- The loop of a filter ends: with each further attempt the source has less patience. -/
theorem exists_tries (hattempt : AllAccounted attempt)
    (hexists : ∀ s : Scene σ, s.source.Solvent → ∃ account ending s', attempt s account ending s')
    (entry : Trace) (s : Scene σ) (hs : s.source.Solvent) :
    ∃ account ending s', Tries attempt accept entry s account ending s' := by
  induction hn : s.source.patience using Nat.strongRecOn generalizing s with
  | ind n ih =>
    obtain ⟨account, ending, s', ha⟩ := hexists s hs
    cases ending with
    | error stop => exact ⟨_, _, _, .stopped ha⟩
    | ok a =>
      cases hv : accept a with
      | true => exact ⟨_, _, _, .accepted ha hv⟩
      | false =>
        obtain ⟨hacc, -⟩ := hattempt _ _ _ _ ha hs
        obtain ⟨t, hback, -, -⟩ := Sampler.rollback_grown hacc.trace
        cases hr : Sampler.reject t with
        | error fault t' => exact ⟨_, _, _, .exhausted ha hv hback hr⟩
        | ok _ t' =>
          obtain ⟨-, -, hsolvent, hpatience⟩ := again_step hacc hback hr
          obtain ⟨_, _, _, hlater⟩ := ih _ (hn ▸ hpatience) t' hsolvent rfl
          exact ⟨_, _, _, .again ha hv hback hr hlater⟩

/-- The fuel of the loop is never spent. -/
theorem Tries.outcome {body : Sampler σ α} (hattempt : AllAccounted attempt)
    (hbody : ∀ {s account ending s'}, attempt s account ending s' → s.source.Solvent →
      body.outcome s = (ending.mapError (Stop.fault · s'.source), s'))
    {s s' : Scene σ} (h : Tries attempt accept entry s account ending s')
    (hs : s.source.Solvent) (hfuel : s.source.patience ≤ fuel) :
    (Sampler.retry body (fun a => .ok (accept a)) (fuel + 1)).outcome s =
      (ending.mapError (Stop.fault · s'.source), s') := by
  induction h generalizing fuel with
  | accepted ha hv =>
    have hb := Act.of_outcome_ok (hbody ha hs)
    exact Act.outcome_of_ok (Sampler.retry_accepted hb (congrArg _ hv) fuel)
  | stopped ha =>
    have hb := Act.of_outcome_error (hbody ha hs)
    exact Act.outcome_of_error (Sampler.retry_failed hb fuel)
  | exhausted ha hv hback hr =>
    have hb := Act.of_outcome_ok (hbody ha hs)
    obtain ⟨hacc, hended⟩ := hattempt _ _ _ _ ha hs
    obtain ⟨-, -, rfl⟩ := exhausted_step hacc hended hback hr
    rw [Act.outcome_congr (Sampler.retry_rejected hb (congrArg _ hv) hback fuel)]
    exact Act.outcome_bind_error (Act.outcome_of_error hr)
  | again ha hv hback hr _ ih =>
    have hb := Act.of_outcome_ok (hbody ha hs)
    obtain ⟨hacc, -⟩ := hattempt _ _ _ _ ha hs
    obtain ⟨-, -, hsolvent, hpatience⟩ := again_step hacc hback hr
    obtain ⟨fuel, rfl⟩ := Nat.exists_eq_add_one_of_ne_zero
      (Nat.ne_zero_of_lt (Nat.lt_of_lt_of_le hpatience hfuel))
    rw [Act.outcome_congr (Sampler.retry_rejected hb (congrArg _ hv) hback (fuel + 1)),
      Act.outcome_bind_ok (Act.outcome_of_ok hr)]
    exact ih hsolvent (by omega)

end Tries

/-- By induction on the plan; a filter adds the induction over its attempts. -/
theorem Runs.accounted {p : Plan σ α} {s s' : Scene σ} (h : p.Runs s account ending s')
    (hs : s.source.Solvent) : Accounted s account s' ∧ Ended ending s'.source := by
  induction p generalizing s account s' with
  | pure a =>
    obtain ⟨rfl, rfl, rfl⟩ := h
    exact ⟨.nothing rfl, hs⟩
  | act f =>
    obtain ⟨rfl, rfl, rfl⟩ := h
    exact ⟨.nothing rfl, hs⟩
  | draw b =>
    obtain ⟨v, source, hn, rfl, rfl, rfl⟩ | ⟨endless, source, hn, rfl, rfl, rfl⟩ := h
    · have hacc := Accounted.drew hn
      obtain ⟨-, random, forced, rfl⟩ := Source.next_ok hn
      exact ⟨hacc, hs⟩
    · obtain ⟨-, random, rfl⟩ := Source.next_stuck hn
      exact ⟨⟨rfl, rfl, (List.append_nil _).symm, nofun⟩, hs,
        Fault.endless_unreachableRange endless⟩
  | bind body next ih ih' =>
    obtain ⟨a, first, t, later, hfirst, hlater, rfl⟩ | ⟨stop, hstop, rfl⟩ := h
    · obtain ⟨hacc, hsolvent⟩ := ih hfirst hs
      obtain ⟨hacc', hended⟩ := ih' a hlater hsolvent
      exact ⟨hacc.append hacc', hended⟩
    · exact ih hstop hs
  | assuming body accept ih => exact Tries.accounted (fun _ _ _ _ => ih) h hs rfl

theorem exists_runs (p : Plan σ α) (s : Scene σ) (hs : s.source.Solvent) :
    ∃ account ending s', p.Runs s account ending s' := by
  induction p generalizing s with
  | pure a => exact ⟨_, _, _, rfl, rfl, rfl⟩
  | act f => exact ⟨_, _, _, rfl, rfl, rfl⟩
  | draw b =>
    cases hn : Source.next b s.source with
    | ok v source => exact ⟨_, _, _, .inl ⟨v, source, hn, rfl, rfl, rfl⟩⟩
    | error fault source =>
      obtain ⟨⟨endless, rfl⟩, -⟩ := Source.next_stuck hn
      exact ⟨_, _, _, .inr ⟨endless, source, hn, rfl, rfl, rfl⟩⟩
  | bind body next ih ih' =>
    obtain ⟨first, ending, t, hfirst⟩ := ih s hs
    cases ending with
    | error stop => exact ⟨_, _, _, .inr ⟨stop, hfirst, rfl⟩⟩
    | ok a =>
      obtain ⟨later, ending, s', hlater⟩ := ih' a t (hfirst.accounted hs).2
      exact ⟨_, _, _, .inl ⟨a, first, t, later, hfirst, hlater, rfl⟩⟩
  | assuming body accept ih =>
    exact exists_tries (fun _ _ _ _ => Runs.accounted) ih s.source.trace s hs

theorem Runs.outcome {p : Plan σ α} {s s' : Scene σ} (h : p.Runs s account ending s')
    (hs : s.source.Solvent) :
    p.sampler.outcome s = (ending.mapError (Stop.fault · s'.source), s') := by
  induction p generalizing s account s' with
  | pure a =>
    obtain ⟨rfl, rfl, rfl⟩ := h
    rfl
  | act f =>
    obtain ⟨rfl, rfl, rfl⟩ := h
    rfl
  | draw b =>
    obtain ⟨v, source, hn, rfl, rfl, rfl⟩ | ⟨endless, source, hn, rfl, rfl, rfl⟩ := h
    · exact Act.outcome_of_ok (Sampler.onSource_of_ok hn)
    · exact Act.outcome_of_error (Sampler.onSource_of_error hn)
  | bind body next ih ih' =>
    obtain ⟨a, first, t, later, hfirst, hlater, rfl⟩ | ⟨stop, hstop, rfl⟩ := h
    · have hsolvent := (hfirst.accounted hs).2
      exact (Act.outcome_bind_ok (ih hfirst hs)).trans (ih' a hlater hsolvent)
    · exact Act.outcome_bind_error (ih hstop hs)
  | assuming body accept ih =>
    exact Tries.outcome (fun _ _ _ _ => Runs.accounted) ih h hs (Nat.le_refl _)

end Plan

/-- Where the generation of one value begins. -/
def Scene.start (before : Xorshift × σ) (forced : List Int) (attempts : Int) : Scene σ :=
  ⟨.start before.1 forced attempts, before.2⟩

namespace Gen

/-- A planned generator comes to an end, whatever its filters reject: to a value before the
rejections reach the budget, else to a filter that gives up the moment they do. The account of the
run says what was kept. Draws are supposed to end; one that does not goes on for ever. -/
theorem generate_within_budget {g : Gen σ α} {p : Plan σ α} (hg : g.Planned p) (attempts : Int)
    (forced : List Int) (before : Xorshift × σ) :
    (∃ account ending s, p.Runs (.start before forced attempts) account ending s) ∧
    ∀ account ending s, p.Runs (.start before forced attempts) account ending s →
      s.source.rejected = account.rejections ∧ s.source.trace = account.kept ∧
      (∀ verdict ∈ account.verdicts, verdict = true) ∧
      match ending with
      | .ok a =>
        g.generate attempts forced before =
          .ok ⟨a, s.source, account.rejections⟩ (s.source.random, s.world) ∧
        account.rejections < max 1 attempts
      | .error (.exhausted entry) =>
        g.sample (.start before forced attempts) = .error (.exhausted account.rejections) s ∧
        g.generate attempts forced before =
          .error (.exhausted account.rejections) (s.source.random, s.world) ∧
        account.rejections = max 1 attempts ∧ s.source.trace = entry
      | .error (.endless b h) =>
        g.generate attempts forced before =
          .error (.unreachableRange b.lo b.hi h) (s.source.random, s.world) ∧
        account.rejections < max 1 attempts ∧ (Fault.unreachableRange b.lo b.hi h).Endless := by
  have hsolvent : (Scene.start before forced attempts).source.Solvent :=
    Source.solvent_start before.1 forced attempts
  refine ⟨p.exists_runs _ hsolvent, fun account ending s h => ?_⟩
  obtain ⟨hacc, hended⟩ := h.accounted hsolvent
  have hrejected : s.source.rejected = account.rejections := hacc.rejected.trans (Nat.zero_add _)
  have hbudget : s.source.budget = max 1 attempts := congrArg (max 1) hacc.attempts
  have hsample := h.outcome hsolvent
  rw [← hg.sample_eq] at hsample
  refine ⟨hrejected, hacc.trace, hacc.verdicts, ?_⟩
  rw [← hrejected, ← hbudget]
  cases ending with
  | ok a =>
    refine ⟨?_, hended⟩
    have hok := Act.of_outcome_ok hsample
    unfold Scene.start at hok
    simp only [generate, hok]
  | error stop =>
    have herror := Act.of_outcome_error hsample
    cases stop with
    | exhausted entry =>
      refine ⟨herror, ?_, hended⟩
      unfold Scene.start at herror
      simp only [generate, herror, Plan.Stop.fault]
    | endless b h =>
      refine ⟨?_, hended⟩
      unfold Scene.start at herror
      simp only [generate, herror, Plan.Stop.fault]

/-- A filter in a drawn choice in a filter: a number of the parity that was drawn before it, but
not one. -/
def notOne : Gen Unit Int :=
  ofDrawnParity.assuming fun a => .ok (a ≠ 1)

def notOnePlan : Plan Unit Int :=
  .assuming
    (.bind (.draw .bit) fun n => .assuming (.draw .percent) fun a => decide (a % 2 = n))
    fun a => decide (a ≠ 1)

theorem planned_notOne : notOne.Planned notOnePlan :=
  .assuming _ (.flatMap (.draw .bit) fun _ => .assuming _ (.draw .percent))

/-- The inner filter rejects four, the outer one rejects one and takes back both draws. With one
attempt the inner filter gives up, and leaves the draw before it in the trace. -/
theorem generate_within_budget_notOne :
    (∃ account s, notOnePlan.Runs (.start (.ofSeed 1, ()) [1, 4, 1, 0, 2] 3) account (.ok 2) s ∧
      account.rejections = 2 ∧ account.kept.values = [0, 2]) ∧
    ∃ account s, notOnePlan.Runs (.start (.ofSeed 1, ()) [1, 4, 1, 0, 2] 1) account
        (.error (.exhausted [⟨.bit, 1⟩])) s ∧
      account.rejections = 1 := by
  have hvalue : (((notOne.generate 3 [1, 4, 1, 0, 2]).outcome (.ofSeed 1, ())).1.map
      fun e => (e.value, e.trace.values, e.rejected)) = .ok (2, [0, 2], 2) := by
    decide +kernel
  have hfault : (((notOne.generate 1 [1, 4, 1, 0, 2]).outcome (.ofSeed 1, ())).1.map
      Example.value) = .error (.exhausted 1) := by
    decide +kernel
  have hleft : (notOne.sample.outcome
      (.start (.ofSeed 1, ()) [1, 4, 1, 0, 2] 1)).2.source.trace = [⟨.bit, 1⟩] := by
    decide +kernel
  constructor
  · obtain ⟨⟨account, ending, s, h⟩, hall⟩ :=
      generate_within_budget planned_notOne 3 [1, 4, 1, 0, 2] (.ofSeed 1, ())
    obtain ⟨-, htrace, -, hend⟩ := hall _ _ _ h
    match ending, hend with
    | .ok a, ⟨hok, _⟩ =>
      rw [Act.outcome_of_ok hok] at hvalue
      simp only [Except.map, Except.ok.injEq, Prod.mk.injEq] at hvalue
      obtain ⟨rfl, hkept, hrejections⟩ := hvalue
      exact ⟨account, s, h, hrejections, htrace ▸ hkept⟩
    | .error (.exhausted _), ⟨_, herror, _⟩ =>
      rw [Act.outcome_of_error herror] at hvalue
      cases hvalue
    | .error (.endless _ _), ⟨herror, _⟩ =>
      rw [Act.outcome_of_error herror] at hvalue
      cases hvalue
  · obtain ⟨⟨account, ending, s, h⟩, hall⟩ :=
      generate_within_budget planned_notOne 1 [1, 4, 1, 0, 2] (.ofSeed 1, ())
    obtain ⟨-, -, -, hend⟩ := hall _ _ _ h
    match ending, hend with
    | .ok _, ⟨hok, _⟩ =>
      rw [Act.outcome_of_ok hok] at hfault
      cases hfault
    | .error (.exhausted entry), ⟨hsample, _, hrejections, hentry⟩ =>
      rw [Act.outcome_of_error hsample, hentry] at hleft
      subst hleft
      exact ⟨account, s, h, by omega⟩
    | .error (.endless _ _), ⟨herror, _⟩ =>
      rw [Act.outcome_of_error herror] at hfault
      cases hfault

end Gen

end Refute

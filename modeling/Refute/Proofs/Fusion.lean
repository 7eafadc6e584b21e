import Refute.Proofs.Budget
import Refute.Theory

namespace Refute

/-- Further on in the same generation: draws were added and attempts used up. -/
structure Source.Onward (s s' : Source) : Prop where
  trace : s.trace <+: s'.trace
  attempts : s'.attempts = s.attempts
  rejected : s.rejected ≤ s'.rejected

namespace Source.Onward

theorem refl (s : Source) : Onward s s :=
  ⟨List.prefix_rfl, rfl, Nat.le_refl _⟩

theorem trans {s t u : Source} (h : Onward s t) (h' : Onward t u) : Onward s u :=
  ⟨h.trace.trans h'.trace, h'.attempts.trans h.attempts, h.rejected.trans h'.rejected⟩

theorem next {s s' : Source} (h : Source.next b s = .ok v s') : Onward s s' := by
  obtain ⟨-, random, forced, rfl⟩ := Source.next_ok h
  refine ⟨?_, rfl, Nat.le_refl _⟩
  rw [Source.trace_record]
  exact List.prefix_append ..

end Source.Onward

namespace Sampler

/-- A body that comes to a value has taken its source further on. -/
def Advances (body : Sampler σ α) : Prop :=
  ∀ s a s', body s = .ok a s' → Source.Onward s.source s'.source

/-- Rolled back after an attempt, a source with another attempt left is where the attempt began, but
has less patience. -/
theorem turned_back {s s' t t' : Scene σ} (h : Source.Onward s.source s'.source)
    (hback : rollback s.source.recorded.length s' = .ok () t) (hr : reject t = .ok () t') :
    t'.source.trace = s.source.trace ∧ t'.source.patience < s.source.patience ∧
      Source.Onward s.source t'.source := by
  obtain ⟨ds, hds⟩ := h.trace
  obtain ⟨u, hu, htrace, -⟩ := rollback_grown hds.symm
  cases hback.symm.trans hu
  obtain ⟨hattempts, hrejected⟩ := rollback_counts hback
  obtain ⟨hlt, rfl⟩ := reject_eq_ok hr
  have hattempts := hattempts.trans h.attempts
  have hgrown := h.rejected
  refine ⟨htrace, ?_, htrace ▸ List.prefix_rfl, hattempts, ?_⟩
  · simp only [Source.patience]
    omega
  · dsimp only
    omega

theorem Advances.exists_rollback {body : Sampler σ α} (hb : Advances body) {s s' : Scene σ}
    (h : body s = .ok a s') : ∃ t, rollback s.source.recorded.length s' = .ok () t := by
  obtain ⟨ds, hds⟩ := (hb s a s' h).trace
  obtain ⟨t, ht, -⟩ := rollback_grown hds.symm
  exact ⟨t, ht⟩

section Filter

variable {body : Sampler σ α} {accept : α → Except Fault Bool}

/-- From fuel that lasts as long as the source's patience on, more makes no difference. -/
theorem retry_fuel (hb : Advances body) {s : Scene σ} (h : s.source.patience ≤ fuel)
    (h' : s.source.patience ≤ fuel') :
    retry body accept (fuel + 1) s = retry body accept (fuel' + 1) s := by
  induction hn : s.source.patience using Nat.strongRecOn generalizing s fuel fuel' with
  | ind n ih =>
    rw [retry_succ, retry_succ]
    cases ha : attempt body accept s with
    | error fault s' => rw [Act.bind_error ha, Act.bind_error ha]
    | ok attempted s' =>
      obtain ⟨a, accepted⟩ := attempted
      rw [Act.bind_ok ha, Act.bind_ok ha]
      cases accepted with
      | true => rfl
      | false =>
        have hbody := (attempt_ok ha).1
        obtain ⟨t, hback⟩ := hb.exists_rollback hbody
        simp only [Bool.false_eq_true, if_false]
        rw [Act.bind_ok hback, Act.bind_ok hback]
        cases hr : reject t with
        | error fault t' => rw [Act.bind_error hr, Act.bind_error hr]
        | ok _ t' =>
          rw [Act.bind_ok hr, Act.bind_ok hr]
          obtain ⟨-, hlt, -⟩ := turned_back (hb s a s' hbody) hback hr
          obtain ⟨fuel, rfl⟩ := Nat.exists_eq_add_one_of_ne_zero (n := fuel) (by omega)
          obtain ⟨fuel', rfl⟩ := Nat.exists_eq_add_one_of_ne_zero (n := fuel') (by omega)
          exact ih _ (hn ▸ hlt) (by omega) (by omega) rfl

/-- What a filter does depends on what its body does and on where to roll back to. -/
theorem retry_congr {s s' : Scene σ} (h : body s = body s')
    (hmark : s.source.recorded.length = s'.source.recorded.length) (fuel : Nat) :
    retry body accept (fuel + 1) s = retry body accept (fuel + 1) s' := by
  have ha : attempt body accept s = attempt body accept s' := by
    simp only [attempt, Act.bind_apply, h]
  rw [retry_succ, retry_succ, hmark, Act.bind_apply, ha, Act.bind_apply]

theorem retry_unanswered {s s' : Scene σ} (h : body s = .ok a s')
    (ha : accept a = .error fault) (fuel : Nat) :
    retry body accept (fuel + 1) s = .error fault s' := by
  have hattempt : attempt body accept s = .error fault s' := by
    rw [attempt, Act.bind_ok h, ha]
    rfl
  rw [retry_succ, Act.bind_error hattempt]

/-- A rejected value leaves the whole filter to do again from where it began. -/
theorem assuming_rejected (hb : Advances body) {s s' t : Scene σ} (h : body s = .ok a s')
    (ha : accept a = .ok false) (hback : rollback s.source.recorded.length s' = .ok () t) :
    body.assuming accept s = (reject >>= fun _ => body.assuming accept) t := by
  rw [Sampler.assuming, retry_rejected h ha hback, Act.bind_apply, Act.bind_apply]
  cases hr : reject t with
  | error fault t' => rfl
  | ok _ t' =>
    obtain ⟨-, hlt, -⟩ := turned_back (hb s a s' h) hback hr
    obtain ⟨fuel, hfuel⟩ := Nat.exists_eq_add_one_of_ne_zero (Nat.ne_zero_of_lt hlt)
    dsimp only
    rw [hfuel]
    exact retry_fuel hb (by omega) (Nat.le_refl _)

/-- Where its body does the same, a filter may as well begin later with less patience. -/
theorem assuming_moved (hb : Advances body) {s t : Scene σ} (h : body s = body t)
    (htrace : t.source.trace = s.source.trace) (hlt : t.source.patience < s.source.patience) :
    body.assuming accept s = body.assuming accept t := by
  have hmark : s.source.recorded.length = t.source.recorded.length := by
    rw [← Source.length_trace, ← Source.length_trace, htrace]
  exact (retry_congr h hmark _).trans (retry_fuel hb hlt.le (Nat.le_refl _))

theorem Advances.retry (hb : Advances body) (accept : α → Except Fault Bool) (fuel : Nat) :
    Advances (retry body accept fuel) := by
  induction fuel with
  | zero => exact nofun
  | succ fuel ih =>
    intro s a s' h
    rw [retry_succ] at h
    obtain ⟨⟨b, accepted⟩, s₁, ha, h⟩ := Act.bind_eq_ok.mp h
    have hbody := (attempt_ok ha).1
    cases accepted with
    | true =>
      cases h
      exact hb s a s' hbody
    | false =>
      obtain ⟨_, t, hback, h⟩ := Act.bind_eq_ok.mp h
      obtain ⟨_, t', hr, h⟩ := Act.bind_eq_ok.mp h
      exact (turned_back (hb s b s₁ hbody) hback hr).2.2.trans (ih t' a s' h)

end Filter

theorem Plain.advances {body : Sampler σ α} (h : body.Plain) : Advances body := by
  induction h with
  | ofExcept e =>
    intro s a s' hs
    obtain ⟨-, rfl⟩ := Act.ofExcept_eq_ok.mp hs
    exact .refl s.source
  | draw b => exact fun s v s' hs => .next (onSource_ok hs).1
  | bind _ _ ih ih' =>
    intro s b s' hs
    obtain ⟨a, t, ha, hs⟩ := Act.bind_eq_ok.mp hs
    exact (ih s a t ha).trans (ih' a t b s' hs)
  | assuming accept _ ih => exact fun s => ih.retry accept _ s

/-- What both predicates say of a value; the second is not asked where the first does not hold. -/
def both (accept accept' : α → Except Fault Bool) (a : α) : Except Fault Bool :=
  match accept a with
  | .ok true => accept' a
  | other => other

/-- The inner filter begins again where the outer one rejects, and a value that the inner one
rejects leaves both where they began. So one filter does step by step what two do. By induction on
the patience of the source. -/
theorem assuming_assuming {body : Sampler σ α} (hb : Advances body)
    (accept accept' : α → Except Fault Bool) :
    (body.assuming accept).assuming accept' = body.assuming (both accept accept') := by
  have hinner : Advances (body.assuming accept) := fun s => hb.retry accept _ s
  funext s
  induction hn : s.source.patience using Nat.strongRecOn generalizing s with
  | ind n ih =>
    cases h : body s with
    | error fault s' =>
      have hi : body.assuming accept s = .error fault s' := retry_failed h _
      exact (retry_failed hi _).trans (retry_failed h _).symm
    | ok a s' =>
      obtain ⟨t, hback⟩ := hb.exists_rollback h
      cases ha : accept a with
      | error fault =>
        have hi : body.assuming accept s = .error fault s' := retry_unanswered h ha _
        have hboth : both accept accept' a = .error fault := by rw [both, ha]
        exact (retry_failed hi _).trans (retry_unanswered h hboth _).symm
      | ok accepted =>
        cases accepted with
        | false =>
          have hboth : both accept accept' a = .ok false := by rw [both, ha]
          have hi := assuming_rejected hb h ha hback
          rw [assuming_rejected hb h hboth hback, Act.bind_apply]
          rw [Act.bind_apply] at hi
          cases hr : reject t with
          | error fault t' =>
            rw [hr] at hi
            exact retry_failed hi _
          | ok _ t' =>
            rw [hr] at hi
            obtain ⟨htrace, hlt, -⟩ := turned_back (hb s a s' h) hback hr
            exact (assuming_moved hinner hi htrace hlt).trans (ih _ (hn ▸ hlt) t' rfl)
        | true =>
          have hi : body.assuming accept s = .ok a s' := retry_accepted h ha _
          have hboth : both accept accept' a = accept' a := by rw [both, ha]
          cases ha' : accept' a with
          | error fault =>
            exact (retry_unanswered hi ha' _).trans (retry_unanswered h (hboth.trans ha') _).symm
          | ok accepted' =>
            cases accepted' with
            | true =>
              exact (retry_accepted hi ha' _).trans (retry_accepted h (hboth.trans ha') _).symm
            | false =>
              rw [assuming_rejected hinner hi ha' hback,
                assuming_rejected hb h (hboth.trans ha') hback, Act.bind_apply, Act.bind_apply]
              cases hr : reject t with
              | error fault t' => rfl
              | ok _ t' =>
                obtain ⟨-, hlt, -⟩ := turned_back (hb s a s' h) hback hr
                exact ih _ (hn ▸ hlt) t' rfl

/-- A filter that takes every value is none. -/
theorem assuming_true (body : Sampler σ α) : (body.assuming fun _ => .ok true) = body := by
  funext s
  cases h : body s with
  | ok a s' => exact retry_accepted h rfl _
  | error fault s' => exact retry_failed h _

/-- Any number of filters, the first in the list innermost. -/
theorem foldl_assuming {body : Sampler σ α} (hb : Advances body) (accepts : List (α → Bool)) :
    accepts.foldl (fun body accept => body.assuming fun a => .ok (accept a)) body =
      body.assuming fun a => .ok (accepts.all fun accept => accept a) := by
  induction accepts generalizing body with
  | nil => exact (assuming_true body).symm
  | cons accept accepts ih =>
    have hfirst : Advances (body.assuming fun a => .ok (accept a)) := fun s => hb.retry _ _ s
    have hboth : (fun a => .ok ((accept :: accepts).all fun accept => accept a)) =
        both (fun a => .ok (accept a)) fun a => .ok (accepts.all fun accept => accept a) := by
      funext a
      rw [List.all_cons]
      cases h : accept a <;> simp [both, h]
    rw [List.foldl_cons, ih hfirst, assuming_assuming hb, hboth]

end Sampler

/-- Assumptions that always answer hold together where each of them does. -/
theorem ForAll.allHold_total (accepts : List (List α → Bool)) (values : List α) :
    allHold (accepts.map fun accept values => .ok (accept values)) values =
      .ok (accepts.all fun accept => accept values) := by
  induction accepts with
  | nil => rfl
  | cons accept accepts ih =>
    rw [List.map_cons, allHold, List.all_cons]
    cases accept values with
    | true => exact ih
    | false => rfl

namespace Gen

/-- A generator with one filter put on it after the other, the first in the list innermost. -/
def assumingEach (g : Gen σ α) (accepts : List (α → Bool)) : Gen σ α :=
  accepts.foldl (fun g accept => g.assuming fun a => .ok (accept a)) g

theorem sample_assumingEach (g : Gen σ α) (accepts : List (α → Bool)) :
    (g.assumingEach accepts).sample =
      accepts.foldl (fun body accept => body.assuming fun a => .ok (accept a)) g.sample := by
  induction accepts generalizing g with
  | nil => rfl
  | cons accept accepts ih => exact ih _

theorem describe?_assumingEach (g : Gen σ α) (accepts : List (α → Bool)) :
    (g.assumingEach accepts).describe? = g.describe? := by
  induction accepts generalizing g with
  | nil => rfl
  | cons accept accepts ih => exact ih _

theorem assumingEach_of_perm {g : Gen σ α} (hg : g.Composed) {accepts order : List (α → Bool)}
    (h : order.Perm accepts) :
    g.assumingEach order = g.assuming fun a => .ok (accepts.all fun accept => accept a) := by
  have hsample := (sample_assumingEach g order).trans
    (Sampler.foldl_assuming hg.plain.advances order)
  have hall : ∀ a, (order.all fun accept => accept a) = accepts.all fun accept => accept a :=
    fun a => h.all_eq
  simp only [hall] at hsample
  exact congrArg₂ Gen.mk hsample (describe?_assumingEach g order)

/-- Filters put on a composed generator one after the other, in whatever order, make the generator
that one filter makes which asks for all of them at once: from every scene it comes to the same
value, or to the same fault where attempts give out, and leaves the same source. That one filter is
what the assumptions of a theory become. -/
theorem assumingEach_fused {σ : Type} :
    (∀ {α : Type} {g : Gen σ α} {accepts order : List (α → Bool)}, g.Composed →
      order.Perm accepts →
      g.assumingEach order = g.assuming fun a => .ok (accepts.all fun accept => accept a)) ∧
    ∀ {μ α : Type} [Display α] {f : ForAll μ σ α} {accepts order : List (List α → Bool)},
      (∀ g ∈ f.gens, g.Composed) →
      f.assumptions = (accepts.map fun accept values => .ok (accept values)) →
      order.Perm accepts → (tuplesOf f.gens).assumingEach order = f.gen := by
  refine ⟨fun hg h => assumingEach_of_perm hg h, ?_⟩
  intro μ α _ f accepts order hg hf h
  rw [ForAll.gen, hf, List.isEmpty_map]
  cases accepts with
  | nil =>
    rw [List.perm_nil.mp h]
    rfl
  | cons accept accepts =>
    rw [assumingEach_of_perm (.tuplesOf hg) h]
    simp only [List.isEmpty_cons, Bool.false_eq_true, if_false]
    exact congrArg _ (funext fun values => (ForAll.allHold_total _ values).symm)

/-- Neither one nor more than four. -/
def smallOnes : List (Int → Bool) :=
  [fun a => a ≠ 1, fun a => a < 5]

/-- A filter within rejects four, those around it reject one and seven, in whatever order they are
put. Three attempts are too few for that, also where the filters are assumptions of a theory. -/
theorem assumingEach_fused_small :
    ((((ofDrawnParity.assumingEach smallOnes.reverse).generate 5
        [1, 4, 1, 1, 7, 0, 2]).outcome (.ofSeed 1, ())).1.map
          fun e => (e.value, e.trace.values, e.rejected)) = .ok (2, [0, 2], 3) ∧
      ((((ofDrawnParity.assuming fun a => .ok (smallOnes.all fun accept => accept a)).generate 5
        [1, 4, 1, 1, 7, 0, 2]).outcome (.ofSeed 1, ())).1.map
          fun e => (e.value, e.trace.values, e.rejected)) = .ok (2, [0, 2], 3) ∧
    ∀ f : ForAll Unit Unit Int, f.gens = [ofDrawnParity] →
      f.assumptions = [fun as => .ok (as ≠ [1]), fun as => .ok (as.all (· < 5))] →
      ((f.gen.generate 3 [1, 4, 1, 1, 7, 0, 2]).outcome (.ofSeed 1, ())).1.map Example.value =
        .error (.exhausted 3) := by
  have hrun : ((((ofDrawnParity.assumingEach smallOnes.reverse).generate 5
      [1, 4, 1, 1, 7, 0, 2]).outcome (.ofSeed 1, ())).1.map
        fun e => (e.value, e.trace.values, e.rejected)) = .ok (2, [0, 2], 3) := by
    decide +kernel
  have hfused := (assumingEach_fused (σ := Unit)).1 composed_ofDrawnParity
    (List.reverse_perm smallOnes)
  refine ⟨hrun, hfused ▸ hrun, ?_⟩
  intro f hgens hassumptions
  have hcomposed : ∀ g ∈ f.gens, g.Composed := by
    intro g hg
    rw [hgens, List.mem_singleton] at hg
    exact hg ▸ composed_ofDrawnParity
  have hmapped : f.assumptions =
      [fun as => decide (as ≠ [1]), fun as => as.all (· < 5)].map
        fun accept values => .ok (accept values) := hassumptions
  have htheory := (assumingEach_fused (σ := Unit)).2 hcomposed hmapped (List.Perm.swap ..)
  rw [← htheory, hgens]
  decide +kernel

end Gen

end Refute

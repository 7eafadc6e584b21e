import Refute.Proofs.Replay

namespace Refute

/-- The source gave out, if only before another fault took the place of this one. -/
def Fault.Starved : Fault → Prop
  | .exhausted _ => True
  | .unreachableRange _ _ _ => True
  | .during earlier later => earlier.Starved ∨ later.Starved
  | _ => False

/-- An end that did not come of the source giving out. -/
def Settled (out : Except Fault α) : Prop :=
  ∀ fault, out = .error fault → ¬ fault.Starved

theorem settled_ok (a : α) : Settled (.ok a) :=
  nofun

theorem settled_error (h : Settled (.error fault : Except Fault α)) :
    Settled (.error fault : Except Fault β) := by
  intro other ho
  cases ho
  exact h fault rfl

namespace Act

/-- Asks without changing anything. -/
def ReadOnly (act : Act σ α) : Prop :=
  ∀ s, (act.outcome s).2 = s

theorem ReadOnly.eq_of_ok {act : Act σ α} (h : act.ReadOnly) (ho : act s = .ok a s') : s' = s := by
  have hs := h s
  rwa [outcome_of_ok ho] at hs

/-- How two acts end of which the second runs however the first ends. -/
def ended : Except Fault α → Except Fault Unit → Except Fault α
  | out, .ok _ => out
  | .ok _, .error fault => .error fault
  | .error fault, .error later => .error (.during fault later)

/-- Whether an act that ends so goes on for ever. -/
def isEndless : Except Fault α → Bool
  | .ok _ => false
  | .error fault => fault.isEndless

theorem outcome_andFinally (act : Act σ α) (last : Act σ Unit) (s : σ) :
    (act.andFinally last).outcome s =
      if isEndless (act.outcome s).1 then act.outcome s
      else (ended (act.outcome s).1 (last.outcome (act.outcome s).2).1,
        (last.outcome (act.outcome s).2).2) := by
  cases h : act s with
  | ok a s₁ =>
    rw [outcome_of_ok h]
    show _ = (ended (.ok a) (last.outcome s₁).1, (last.outcome s₁).2)
    cases hl : last s₁ with
    | ok _ s₂ =>
      rw [outcome_of_ok hl]
      exact outcome_of_ok (by simp only [andFinally, h, hl])
    | error fault s₂ =>
      rw [outcome_of_error hl]
      exact outcome_of_error (by simp only [andFinally, h, hl])
  | error fault s₁ =>
    rw [outcome_of_error h]
    show _ = if fault.isEndless = true then (.error fault, s₁)
      else (ended (.error fault) (last.outcome s₁).1, (last.outcome s₁).2)
    split
    · rename_i hends
      exact outcome_of_error (by simp only [andFinally, h, if_pos hends])
    · rename_i hends
      cases hl : last s₁ with
      | ok _ s₂ =>
        rw [outcome_of_ok hl]
        exact outcome_of_error (by simp only [andFinally, h, hl, if_neg hends])
      | error later s₂ =>
        rw [outcome_of_error hl]
        exact outcome_of_error (by simp only [andFinally, h, hl, if_neg hends])

end Act

theorem Settled.of_ended {out : Except Fault α} {last : Except Fault Unit}
    (h : Settled (Act.ended out last)) : Settled out := by
  intro fault ho hs
  subst ho
  cases last with
  | ok _ => exact h fault rfl hs
  | error later => exact h _ rfl (.inl hs)

namespace Sampler

/-- A run from `s` that ended so and recorded `ds` ends so again in the same world, wherever these
values come first among those forced. -/
structure Reruns (body : Sampler τ α) (s : Scene τ) (out : Except Fault α) (s' : Scene τ)
    (ds : Trace) : Prop where
  trace : s'.source.trace = s.source.trace ++ ds
  again : ∀ (u : Scene τ) (rest : List Int), u.world = s.world →
    u.source.forced = ds.values ++ rest →
    body.outcome u = (out, ⟨u.source.serve ds rest, s'.world⟩)

/-- From `s` on, whatever end the body comes to can be come to again. -/
def Steady (body : Sampler τ α) (s : Scene τ) : Prop :=
  ∀ out s', body.outcome s = (out, s') → Settled out → ∃ ds, Reruns body s out s' ds

theorem serve_of_forced {s : Source} (h : s.forced = rest) : s.serve [] rest = s := by
  subst h
  rfl

theorem Reruns.of_same {body : Sampler τ α} {s s' : Scene τ} (hs : s'.source = s.source)
    (h : ∀ u : Scene τ, u.world = s.world → body.outcome u = (out, ⟨u.source, s'.world⟩)) :
    Reruns body s out s' [] := by
  refine ⟨by rw [hs, List.append_nil], fun u rest hu hf => ?_⟩
  have hserve : u.source.serve [] rest = u.source := serve_of_forced hf
  rw [hserve]
  exact h u hu

theorem steady_ofExcept (e : Except Fault α) (s : Scene τ) : Steady (Act.ofExcept e) s := by
  intro out s' ho _
  refine ⟨[], .of_same ?_ fun u hu => ?_⟩
  · cases e <;> cases ho <;> rfl
  · cases e <;> cases ho <;> exact congrArg (_, ·) (congrArg (Scene.mk _) hu)

/-- What is done to the world draws nothing. -/
theorem steady_onWorld (act : Act τ α) (s : Scene τ) : Steady (onWorld act) s := by
  intro out s' ho _
  rw [outcome_onWorld] at ho
  cases ho
  refine ⟨[], .of_same rfl fun u hu => ?_⟩
  rw [outcome_onWorld, hu]

theorem steady_draw (b : Bounds) (s : Scene τ) : Steady (draw b) s := by
  intro out s' ho hout
  cases hd : draw b s with
  | ok v s₁ =>
    rw [Act.outcome_of_ok hd] at ho
    cases ho
    have hr := replays_draw hd
    refine ⟨_, hr.trace, fun u rest hu hf => ?_⟩
    rw [Act.outcome_of_ok (hr.again u rest hf), hr.world, ← hu]
    rfl
  | error fault s₁ =>
    rw [Act.outcome_of_error hd] at ho
    cases ho
    obtain ⟨endless, rfl⟩ := draw_stuck hd
    exact absurd trivial (hout _ rfl)

theorem Reruns.bind {body : Sampler τ α} {next : α → Sampler τ β}
    (h : Reruns body s (.ok a) s₁ ds) (h' : Reruns (next a) s₁ out s' es) :
    Reruns (body >>= next) s out s' (ds ++ es) := by
  refine ⟨by rw [h'.trace, h.trace, List.append_assoc], fun u rest hu hf => ?_⟩
  have hds : u.source.forced = ds.values ++ (es.values ++ rest) := by simpa using hf
  have hes := h'.again ⟨u.source.serve ds (es.values ++ rest), s₁.world⟩ rest rfl rfl
  rw [Act.outcome_bind_ok (h.again u _ hu hds), hes]
  simp [Source.serve]

theorem Reruns.bind_error {body : Sampler τ α} (next : α → Sampler τ β)
    (h : Reruns body s (.error fault) s' ds) :
    Reruns (body >>= next) s (.error fault) s' ds :=
  ⟨h.trace, fun u rest hu hf => Act.outcome_bind_error (h.again u rest hu hf)⟩

theorem Steady.bind {body : Sampler τ α} {next : α → Sampler τ β} (h : Steady body s)
    (h' : ∀ a s', body s = .ok a s' → Steady (next a) s') : Steady (body >>= next) s := by
  intro out s' ho hout
  cases hb : body s with
  | ok a s₁ =>
    have hs := Act.outcome_of_ok hb
    rw [Act.outcome_bind_ok hs] at ho
    obtain ⟨ds, hds⟩ := h _ _ hs (settled_ok a)
    obtain ⟨es, hes⟩ := h' a s₁ hb out s' ho hout
    exact ⟨ds ++ es, hds.bind hes⟩
  | error fault s₁ =>
    have hs := Act.outcome_of_error hb
    rw [Act.outcome_bind_error hs] at ho
    cases ho
    obtain ⟨ds, hds⟩ := h _ _ hs (settled_error hout)
    exact ⟨ds, hds.bind_error next⟩

theorem reject_error {s t : Scene τ} (h : reject s = .error fault t) : fault.Starved := by
  obtain ⟨-, rfl, -⟩ := reject_eq_error h
  exact trivial

/-- One attempt of a filter, and whether what it gave is accepted. -/
def attempt (body : Sampler τ α) (accept : α → Except Fault Bool) : Sampler τ (α × Bool) := do
  let a ← body
  let accepted ← Act.ofExcept (accept a)
  return (a, accepted)

section Retry

variable {body : Sampler τ α} {accept : α → Except Fault Bool}

theorem retry_succ (body : Sampler τ α) (accept : α → Except Fault Bool) (fuel : Nat)
    (s : Scene τ) :
    retry body accept (fuel + 1) s = (attempt body accept >>= fun (a, accepted) => do
      if accepted then return a
      rollback s.source.recorded.length
      reject
      retry body accept fuel) s := by
  have hm : mark s = .ok s.source.recorded.length s := rfl
  rw [retry, Act.bind_ok hm, attempt]
  simp only [bind_assoc, pure_bind]

theorem Steady.attempt {s : Scene τ} (h : Steady body s) (accept : α → Except Fault Bool) :
    Steady (attempt body accept) s :=
  h.bind fun a s' _ => (steady_ofExcept (accept a) s').bind fun accepted s' _ =>
    steady_ofExcept (.ok (a, accepted)) s'

theorem attempt_ok (h : attempt body accept s = .ok (a, accepted) s') :
    body s = .ok a s' ∧ accept a = .ok accepted := by
  obtain ⟨b, s₁, hb, h⟩ := Act.bind_eq_ok.mp h
  obtain ⟨c, s₂, hc, h⟩ := Act.bind_eq_ok.mp h
  obtain ⟨ha, rfl⟩ := Act.ofExcept_eq_ok.mp hc
  cases h
  exact ⟨hb, ha⟩

theorem retry_accepted_outcome {s : Scene τ}
    (h : (attempt body accept).outcome s = (.ok (a, true), s')) (fuel : Nat) :
    (retry body accept (fuel + 1)).outcome s = (.ok a, s') := by
  rw [Act.outcome_congr (retry_succ body accept fuel s), Act.outcome_bind_ok h]
  rfl

theorem retry_failed_outcome {s : Scene τ}
    (h : (attempt body accept).outcome s = (.error fault, s')) (fuel : Nat) :
    (retry body accept (fuel + 1)).outcome s = (.error fault, s') := by
  rw [Act.outcome_congr (retry_succ body accept fuel s), Act.outcome_bind_error h]

/-- A filter that does not end for want of attempts ends with its last attempt, which begins where
the filter began; a replay goes through that attempt alone. -/
theorem retry_steady {w : τ} (hb : ∀ t : Scene τ, t.world = w → Steady body t)
    (hw : ∀ (t : Scene τ) a t', t.world = w → body t = .ok a t' → t'.world = w)
    {s : Scene τ} (hs : s.world = w) (ho : (retry body accept fuel).outcome s = (out, s'))
    (hout : Settled out) :
    ∃ ds, s'.source.trace = s.source.trace ++ ds ∧
      ∀ (fuel : Nat) (u : Scene τ) (rest : List Int), u.world = w →
        u.source.forced = ds.values ++ rest →
        (retry body accept (fuel + 1)).outcome u = (out, ⟨u.source.serve ds rest, s'.world⟩) := by
  induction fuel generalizing s with
  | zero =>
    cases ho
    exact absurd trivial (hout _ rfl)
  | succ fuel ih =>
    have hsteady := (hb s hs).attempt accept
    cases ha : attempt body accept s with
    | error fault s₁ =>
      have he := Act.outcome_of_error ha
      rw [retry_failed_outcome he] at ho
      cases ho
      obtain ⟨ds, hds⟩ := hsteady _ _ he (settled_error hout)
      refine ⟨ds, hds.trace, fun fuel u rest hu hf => ?_⟩
      exact retry_failed_outcome (hds.again u rest (hu.trans hs.symm) hf) fuel
    | ok attempted s₁ =>
      obtain ⟨a, accepted⟩ := attempted
      have he := Act.outcome_of_ok ha
      obtain ⟨ds, hds⟩ := hsteady _ _ he (settled_ok _)
      cases accepted with
      | true =>
        rw [retry_accepted_outcome he] at ho
        cases ho
        refine ⟨ds, hds.trace, fun fuel u rest hu hf => ?_⟩
        exact retry_accepted_outcome (hds.again u rest (hu.trans hs.symm) hf) fuel
      | false =>
        rw [Act.outcome_congr (retry_succ body accept fuel s), Act.outcome_bind_ok he] at ho
        obtain ⟨t, hback, htrace, hworld⟩ := rollback_grown hds.trace
        simp only [Bool.false_eq_true, if_false] at ho
        rw [Act.outcome_bind_ok (Act.outcome_of_ok hback)] at ho
        cases hr : reject t with
        | error fault t' =>
          rw [Act.outcome_bind_error (Act.outcome_of_error hr)] at ho
          cases ho
          exact absurd (reject_error hr) (hout _ rfl)
        | ok _ t' =>
          rw [Act.outcome_bind_ok (Act.outcome_of_ok hr)] at ho
          obtain ⟨htrace', hworld'⟩ := reject_ok hr
          have hw' : t'.world = w := by
            rw [hworld', hworld]
            exact hw s a s₁ hs (attempt_ok ha).1
          rw [htrace.symm.trans htrace'.symm]
          exact ih hw' ho

theorem retry_world (hw : ∀ (t : Scene τ) a t', body t = .ok a t' → t'.world = t.world)
    {s s' : Scene τ} (h : retry body accept fuel s = .ok a s') : s'.world = s.world := by
  induction fuel generalizing s with
  | zero => cases h
  | succ fuel ih =>
    rw [retry_succ] at h
    obtain ⟨⟨b, accepted⟩, s₁, ha, h⟩ := Act.bind_eq_ok.mp h
    have hs₁ := hw s b s₁ (attempt_ok ha).1
    cases accepted with
    | true =>
      cases h
      exact hs₁
    | false =>
      obtain ⟨_, s₂, hback, h⟩ := Act.bind_eq_ok.mp h
      obtain ⟨_, s₃, hr, h⟩ := Act.bind_eq_ok.mp h
      exact (ih h).trans ((onSource_ok hr).2.trans ((onSource_ok hback).2.trans hs₁))

theorem Steady.assuming {s : Scene τ} (hb : ∀ t : Scene τ, t.world = s.world → Steady body t)
    (hw : ∀ (t : Scene τ) a t', t.world = s.world → body t = .ok a t' → t'.world = s.world)
    (accept : α → Except Fault Bool) : Steady (body.assuming accept) s := by
  intro out s' ho hout
  obtain ⟨ds, htrace, hagain⟩ := retry_steady hb hw rfl ho hout
  exact ⟨ds, htrace, fun u rest hu hf => hagain u.source.patience u rest hu hf⟩

end Retry

theorem outcome_lens (get : τ → ω) (put : ω → τ → τ) (body : Sampler ω α) (s : Scene τ) :
    (body.within get put).outcome s = ((body.outcome ⟨s.source, get s.world⟩).1,
      ⟨(body.outcome ⟨s.source, get s.world⟩).2.source,
        put (body.outcome ⟨s.source, get s.world⟩).2.world s.world⟩) :=
  Act.outcome_within ..

theorem Steady.within {body : Sampler ω α} {get : τ → ω} {s : Scene τ}
    (h : Steady body ⟨s.source, get s.world⟩) (put : ω → τ → τ) :
    Steady (body.within get put) s := by
  intro out s' ho hout
  rw [outcome_lens] at ho
  cases ho
  obtain ⟨ds, hds⟩ := h _ _ rfl hout
  refine ⟨ds, hds.trace, fun u rest hu hf => ?_⟩
  rw [outcome_lens, hds.again ⟨u.source, get u.world⟩ rest (congrArg get hu) hf, hu]
  rfl

/-- The last act is on the world, so it draws nothing, whatever it ends with. -/
theorem Steady.andFinally {body : Sampler τ α} {s : Scene τ} (h : Steady body s)
    (last : Act τ Unit) : Steady (Act.andFinally body (onWorld last)) s := by
  intro out s' ho hout
  rw [Act.outcome_andFinally, outcome_onWorld] at ho
  generalize hb : body.outcome s = first at ho
  obtain ⟨first, t⟩ := first
  dsimp only at ho
  by_cases hends : Act.isEndless first = true
  · rw [if_pos hends] at ho
    cases ho
    obtain ⟨ds, hds⟩ := h _ _ hb hout
    refine ⟨ds, hds.trace, fun u rest hu hf => ?_⟩
    rw [Act.outcome_andFinally, hds.again u rest hu hf, if_pos hends]
  · rw [if_neg hends] at ho
    cases ho
    obtain ⟨ds, hds⟩ := h _ _ hb hout.of_ended
    refine ⟨ds, hds.trace, fun u rest hu hf => ?_⟩
    rw [Act.outcome_andFinally, outcome_onWorld, hds.again u rest hu hf, if_neg hends]

end Sampler

end Refute

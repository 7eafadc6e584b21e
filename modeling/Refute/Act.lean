import Refute.Fault

namespace Refute

/-- What an action did to its state before a fault stays done. -/
abbrev Act (σ : Type) := EStateM Fault σ

namespace Act

def fail (fault : Fault) : Act σ α :=
  throw fault

def ofExcept : Except Fault α → Act σ α
  | .ok a => pure a
  | .error fault => fail fault

/-- Runs an action on one part of a larger state. -/
def within (get : σ → τ) (put : τ → σ → σ) (act : Act τ α) : Act σ α := fun s =>
  match act (get s) with
  | .ok a t => .ok a (put t s)
  | .error fault t => .error fault (put t s)

/-- The results of actions done in order. -/
def sequence : List (Act σ α) → Act σ (List α)
  | [] => pure []
  | act :: acts => do
    let a ← act
    let rest ← sequence acts
    return a :: rest

/-- Runs `last` however `act` ends, if it does. A fault in `last` takes the place of the outcome of
`act`; a fault of `act` is remembered with it. -/
def andFinally (act : Act σ α) (last : Act σ Unit) : Act σ α := fun s =>
  match act s with
  | .ok a s =>
    match last s with
    | .ok _ s => .ok a s
    | .error fault s => .error fault s
  | .error fault s =>
    if fault.isEndless then .error fault s
    else
      match last s with
      | .ok _ s => .error fault s
      | .error later s => .error (.during fault later) s

/-- The outcome beside the state it left. -/
def outcome (act : Act σ α) (s : σ) : Except Fault α × σ :=
  match act s with
  | .ok a s => (.ok a, s)
  | .error fault s => (.error fault, s)

@[simp] theorem pure_apply (a : α) (s : σ) : (pure a : Act σ α) s = .ok a s := rfl

theorem get_apply (s : σ) : (get : Act σ σ) s = .ok s s := rfl

@[simp] theorem fail_apply (fault : Fault) (s : σ) :
    (fail fault : Act σ α) s = .error fault s := rfl

theorem bind_apply (act : Act σ α) (next : α → Act σ β) (s : σ) :
    (act >>= next) s =
      match act s with
      | .ok a s => next a s
      | .error fault s => .error fault s := by
  simp only [bind, EStateM.bind]
  cases act s <;> rfl

theorem bind_ok {act : Act σ α} {next : α → Act σ β} (h : act s = .ok a s') :
    (act >>= next) s = next a s' := by
  rw [bind_apply, h]

theorem bind_error {act : Act σ α} {next : α → Act σ β} (h : act s = .error fault s') :
    (act >>= next) s = .error fault s' := by
  rw [bind_apply, h]

theorem bind_eq_ok {act : Act σ α} {next : α → Act σ β} :
    (act >>= next) s = .ok b s'' ↔ ∃ a s', act s = .ok a s' ∧ next a s' = .ok b s'' := by
  rw [bind_apply]
  cases h : act s with
  | ok a s' => exact ⟨fun e => ⟨a, s', rfl, e⟩, fun ⟨_, _, e, e'⟩ => by cases e; exact e'⟩
  | error fault s' => exact ⟨nofun, fun ⟨_, _, e, _⟩ => nomatch e⟩

theorem bind_eq_error {act : Act σ α} {next : α → Act σ β} :
    (act >>= next) s = .error fault s'' ↔
      act s = .error fault s'' ∨ ∃ a s', act s = .ok a s' ∧ next a s' = .error fault s'' := by
  cases h : act s with
  | ok a s' =>
    rw [bind_ok h]
    refine ⟨fun e => .inr ⟨a, s', rfl, e⟩, ?_⟩
    rintro (e | ⟨_, _, e, e'⟩)
    · cases e
    · cases e
      exact e'
  | error other s' =>
    rw [bind_error h]
    constructor
    · intro e
      cases e
      exact .inl rfl
    · rintro (e | ⟨_, _, e, _⟩)
      · cases e
        rfl
      · cases e

theorem outcome_of_ok {act : Act σ α} (h : act s = .ok a s') : act.outcome s = (.ok a, s') := by
  simp only [outcome, h]

theorem outcome_of_error {act : Act σ α} (h : act s = .error fault s') :
    act.outcome s = (.error fault, s') := by
  simp only [outcome, h]

theorem of_outcome_ok {act : Act σ α} (h : act.outcome s = (.ok a, s')) : act s = .ok a s' := by
  cases hs : act s with
  | ok b t =>
    rw [outcome_of_ok hs] at h
    cases h
    rfl
  | error fault t =>
    rw [outcome_of_error hs] at h
    cases h

theorem of_outcome_error {act : Act σ α} (h : act.outcome s = (.error fault, s')) :
    act s = .error fault s' := by
  cases hs : act s with
  | ok b t =>
    rw [outcome_of_ok hs] at h
    cases h
  | error other t =>
    rw [outcome_of_error hs] at h
    cases h
    rfl

theorem outcome_eq {act : Act σ α} (h : (act.outcome s).1 = out) :
    act.outcome s = (out, (act.outcome s).2) := by
  subst h
  rfl

theorem outcome_congr {act act' : Act σ α} (h : act s = act' s') :
    act.outcome s = act'.outcome s' := by
  unfold outcome
  rw [h]

theorem outcome_bind_ok {act : Act σ α} {next : α → Act σ β} (h : act.outcome s = (.ok a, s')) :
    (act >>= next).outcome s = (next a).outcome s' :=
  outcome_congr (bind_ok (of_outcome_ok h))

theorem outcome_bind_error {act : Act σ α} {next : α → Act σ β}
    (h : act.outcome s = (.error fault, s')) : (act >>= next).outcome s = (.error fault, s') :=
  outcome_of_error (bind_error (of_outcome_error h))

theorem outcome_within (get : σ → τ) (put : τ → σ → σ) (act : Act τ α) (s : σ) :
    (within get put act).outcome s =
      ((act.outcome (get s)).1, put (act.outcome (get s)).2 s) := by
  cases h : act (get s) with
  | ok a t =>
    rw [outcome_of_ok h]
    exact outcome_of_ok (by simp only [within, h])
  | error fault t =>
    rw [outcome_of_error h]
    exact outcome_of_error (by simp only [within, h])

theorem outcome_map (f : α → β) (act : Act σ α) (s : σ) :
    (f <$> act).outcome s = ((act.outcome s).1.map f, (act.outcome s).2) := by
  simp only [outcome, Functor.map, EStateM.map]
  cases act s <;> rfl

/-- What holds however the first action ends, and then however the second ends, holds of both. -/
theorem bind_ends {P : Except Fault β → σ → Prop} {act : Act σ α} {next : α → Act σ β}
    (error : ∀ fault s', act s = .error fault s' → P (.error fault) s')
    (ok : ∀ a s', act s = .ok a s' → P ((next a).outcome s').1 ((next a).outcome s').2) :
    P ((act >>= next).outcome s).1 ((act >>= next).outcome s).2 := by
  cases h : act s with
  | ok a s' =>
    rw [outcome_congr (bind_ok h)]
    exact ok a s' h
  | error fault s' =>
    rw [outcome_of_error (bind_error h)]
    exact error fault s' h

theorem ofExcept_eq_ok {e : Except Fault α} :
    (ofExcept e : Act σ α) s = .ok a s' ↔ e = .ok a ∧ s = s' := by
  cases e <;> simp [ofExcept]

/-- What holds before the action holds after it, however it ends. -/
def Preserves (X : σ → Prop) (act : Act σ α) : Prop :=
  ∀ s, X s → X (act.outcome s).2

section Preserves

variable {X : σ → Prop}

theorem Preserves.bind {act : Act σ α} {next : α → Act σ β} (h : Preserves X act)
    (h' : ∀ a, Preserves X (next a)) : Preserves X (act >>= next) := by
  intro s hs
  have hact := h s hs
  refine bind_ends (P := fun _ t => X t) (fun fault t hr => ?_) fun a t hr => h' a t ?_
  · rwa [outcome_of_error hr] at hact
  · rwa [outcome_of_ok hr] at hact

theorem preserves_pure (a : α) : Preserves X (pure a) := fun _ hs => hs

theorem preserves_ofExcept (e : Except Fault α) : Preserves X (ofExcept e) := by
  intro s hs
  cases e <;> exact hs

theorem preserves_modify {f : σ → σ} (h : ∀ s, X s → X (f s)) :
    Preserves X (modify f : Act σ PUnit) :=
  h

end Preserves

end Act

theorem Except.bind_eq_ok {e : Except ε α} {f : α → Except ε β} :
    (e >>= f) = .ok b ↔ ∃ a, e = .ok a ∧ f a = .ok b := by
  cases e with
  | ok a => exact ⟨fun h => ⟨a, rfl, h⟩, fun ⟨_, ha, h⟩ => by cases ha; exact h⟩
  | error fault => exact ⟨nofun, fun ⟨_, ha, _⟩ => nomatch ha⟩

theorem Except.bind_eq_error {e : Except ε α} {f : α → Except ε β} :
    (e >>= f) = .error fault ↔ e = .error fault ∨ ∃ a, e = .ok a ∧ f a = .error fault := by
  cases e with
  | ok a =>
    refine ⟨fun h => .inr ⟨a, rfl, h⟩, ?_⟩
    rintro (ha | ⟨_, ha, h⟩)
    · cases ha
    · cases ha
      exact h
  | error other =>
    refine ⟨fun h => .inl (by cases h; rfl), ?_⟩
    rintro (ha | ⟨_, ha, -⟩)
    · cases ha
      rfl
    · cases ha

theorem eq_ok_of_toOption {e : Except Fault α} (h : e.toOption = some a) : e = .ok a := by
  cases e with
  | ok b =>
    cases h
    rfl
  | error fault => cases h

end Refute

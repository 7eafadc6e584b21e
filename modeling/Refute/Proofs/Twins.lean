import Refute.Proofs.Composed
import Refute.Property

namespace Refute

namespace Act

/-- Ends of one kind, with values related by `V` and states by `R`. -/
inductive Ends (R : σ → σ → Prop) (V : α → β → Prop) :
    EStateM.Result Fault σ α → EStateM.Result Fault σ β → Prop where
  | ok (hv : V a b) (hs : R s s') : Ends R V (.ok a s) (.ok b s')
  | error (fault : Fault) (hs : R s s') : Ends R V (.error fault s) (.error fault s')

def Pairs (R : σ → σ → Prop) (V : α → β → Prop) (act : Act σ α) (act' : Act σ β) : Prop :=
  ∀ s s', R s s' → Ends R V (act s) (act' s')

variable {R : σ → σ → Prop}

theorem Pairs.bind {act : Act σ α} {act' : Act σ β} {next : α → Act σ γ} {next' : β → Act σ δ}
    (h : Pairs R V act act') (h' : ∀ a b, V a b → Pairs R W (next a) (next' b)) :
    Pairs R W (act >>= next) (act' >>= next') := by
  intro s s' hs
  have ha := h s s' hs
  rw [bind_apply, bind_apply]
  generalize act s = r at ha
  generalize act' s' = r' at ha
  cases ha with
  | ok hv ht => exact h' _ _ hv _ _ ht
  | error fault ht => exact .error fault ht

/-- The case in which both give the same value. -/
theorem Pairs.bind_eq {act act' : Act σ α} {next : α → Act σ γ} {next' : α → Act σ δ}
    (h : Pairs R Eq act act') (h' : ∀ a, Pairs R W (next a) (next' a)) :
    Pairs R W (act >>= next) (act' >>= next') :=
  h.bind fun a _ hab => hab ▸ h' a

theorem pairs_pure (hv : V a b) : Pairs R V (pure a) (pure b) := fun _ _ hs =>
  .ok hv hs

theorem pairs_ofExcept (e : Except Fault α) : Pairs R Eq (ofExcept e) (ofExcept e) := by
  intro s s' hs
  cases e with
  | ok a => exact .ok rfl hs
  | error fault => exact .error fault hs

theorem Pairs.within {Q : τ → τ → Prop} {get : τ → σ} {put : σ → τ → τ} {act : Act σ α}
    {act' : Act σ β} (h : Pairs R V act act') (hget : ∀ s s', Q s s' → R (get s) (get s'))
    (hput : ∀ s s' t t', Q s s' → R t t' → Q (put t s) (put t' s')) :
    Pairs Q V (within get put act) (within get put act') := by
  intro s s' hs
  have ha := h _ _ (hget s s' hs)
  unfold Act.within
  generalize act (get s) = r at ha
  generalize act' (get s') = r' at ha
  cases ha with
  | ok hv ht => exact .ok hv (hput _ _ _ _ hs ht)
  | error fault ht => exact .error fault (hput _ _ _ _ hs ht)

end Act

open Act

/-- The generators began with the seeds `a` and `b`, and give the same from now on. Their states
need not be the same before their next step. -/
structure Xorshift.Twins (a b : Word) (r r' : Xorshift) : Prop where
  left : r.seed = a
  right : r'.seed = b
  step : r.step.state = r'.step.state

namespace Xorshift

theorem Twins.next {r r' : Xorshift} (h : r.Twins a b r') :
    r.next.1 = r'.next.1 ∧ r.next.2.Twins a b r'.next.2 :=
  ⟨congrArg output h.step, h.left, h.right, congrArg scramble h.step⟩

/-- Twins skip the same outputs. -/
theorem twins_firstWithin (lo hi : Int) (fuel : Nat) {r r' : Xorshift} (h : r.Twins a b r') :
    firstWithin lo hi fuel r = none ∧ firstWithin lo hi fuel r' = none ∨
      ∃ v s s', firstWithin lo hi fuel r = some (v, s) ∧
        firstWithin lo hi fuel r' = some (v, s') ∧ s.Twins a b s' := by
  induction fuel generalizing r r' with
  | zero => exact .inl ⟨rfl, rfl⟩
  | succ fuel ih =>
    obtain ⟨hout, ht⟩ := h.next
    unfold firstWithin
    dsimp only
    rw [hout]
    split
    · exact .inr ⟨_, _, _, rfl, rfl, ht⟩
    · exact ih ht

theorem pairs_between (lo hi : Int) : Pairs (Twins a b) Eq (between lo hi) (between lo hi) := by
  intro r r' h
  obtain ⟨hout, ht⟩ := h.next
  unfold between
  split
  · exact .error _ h
  · split
    · rw [hout]
      exact .ok rfl ht
    · rcases twins_firstWithin lo hi cycleBound h with ⟨hn, hn'⟩ | ⟨v, s, s', hs, hs', ht'⟩
      · rw [skip_of_none hn, skip_of_none hn']
        exact .error _ ht
      · rw [skip_of_some hs, skip_of_some hs']
        exact .ok rfl ht'

end Xorshift

namespace Source

/-- Alike but for their generators, which are twins. -/
def Twins (a b : Word) (s s' : Source) : Prop :=
  ∃ random, s.random.Twins a b random ∧ s' = { s with random }

variable {a b : Word}

theorem pairs_drawFresh (bounds : Bounds) :
    Pairs (Twins a b) Eq (drawFresh bounds) (drawFresh bounds) := by
  rintro s _ ⟨random, h, rfl⟩
  have hb := Xorshift.pairs_between bounds.lo bounds.hi _ _ h
  unfold drawFresh
  dsimp only
  generalize Xorshift.between bounds.lo bounds.hi s.random = r at hb
  generalize Xorshift.between bounds.lo bounds.hi random = r' at hb
  cases hb with
  | ok hv ht =>
    cases hv
    exact .ok rfl ⟨_, ht, rfl⟩
  | error fault ht => exact .error fault ⟨_, ht, rfl⟩

theorem pairs_next (bounds : Bounds) :
    Pairs (Twins a b) Eq (next bounds) (next bounds) := by
  rintro ⟨left, forced, attempts, rejected, recorded⟩ _ ⟨right, h, rfl⟩
  have hfresh := pairs_drawFresh bounds ⟨left, forced, attempts, rejected, recorded⟩ _
    ⟨right, h, rfl⟩
  unfold next
  cases forced with
  | nil => exact hfresh
  | cons v forced =>
    dsimp only
    split
    · exact .ok rfl ⟨right, h, rfl⟩
    · exact hfresh

theorem pairs_rollback (mark : Nat) :
    Pairs (Twins a b) Eq (rollback mark) (rollback mark) := by
  rintro s _ ⟨random, h, rfl⟩
  unfold rollback
  dsimp only
  split
  · exact .ok rfl ⟨random, h, rfl⟩
  · exact .error _ ⟨random, h, rfl⟩

theorem pairs_reject : Pairs (Twins a b) Eq reject reject := by
  rintro s _ ⟨random, h, rfl⟩
  unfold reject
  dsimp only
  split
  · exact .error _ ⟨random, h, rfl⟩
  · exact .ok rfl ⟨random, h, rfl⟩

end Source

namespace Sampler

/-- The worlds do not count. -/
def Twins (a b : Word) (s s' : Scene σ) : Prop :=
  s.source.Twins a b s'.source

variable {a b : Word}

theorem pairs_onSource {act : Act Source α} (h : Pairs (Source.Twins a b) V act act) :
    Pairs (Twins a b) V (onSource act : Sampler σ α) (onSource act) :=
  h.within (fun _ _ hs => hs) fun _ _ _ _ _ ht => ht

theorem pairs_mark : Pairs (Twins a b) Eq (mark : Sampler σ Nat) mark := by
  rintro s s' ⟨random, h, hs⟩
  have hmark : s'.source.recorded.length = s.source.recorded.length := by rw [hs]
  unfold mark
  rw [hmark]
  exact .ok rfl ⟨random, h, hs⟩

theorem pairs_retry {body : Sampler σ α} (h : Pairs (Twins a b) Eq body body)
    (accept : α → Except Fault Bool) (fuel : Nat) :
    Pairs (Twins a b) Eq (retry body accept fuel) (retry body accept fuel) := by
  induction fuel with
  | zero =>
    rintro s s' ⟨random, ht, hs⟩
    have hrejected : s'.source.rejected = s.source.rejected := by rw [hs]
    unfold retry
    rw [hrejected]
    exact .error _ ⟨random, ht, hs⟩
  | succ fuel ih =>
    refine pairs_mark.bind_eq fun start => h.bind_eq fun value => ?_
    refine (pairs_ofExcept (accept value)).bind_eq fun accepted => ?_
    cases accepted with
    | true => exact pairs_pure rfl
    | false =>
      refine (pairs_onSource (Source.pairs_rollback start)).bind_eq fun _ => ?_
      exact (pairs_onSource Source.pairs_reject).bind_eq fun _ => ih

theorem pairs_assuming {body : Sampler σ α} (h : Pairs (Twins a b) Eq body body)
    (accept : α → Except Fault Bool) :
    Pairs (Twins a b) Eq (body.assuming accept) (body.assuming accept) := by
  rintro s s' ⟨random, ht, hs⟩
  have hpatience : s'.source.patience = s.source.patience := by rw [hs]; rfl
  unfold assuming
  rw [hpatience]
  exact pairs_retry h accept _ s s' ⟨random, ht, hs⟩

/-- The induction over what a sampler is made of. -/
theorem Plain.pairs {body : Sampler σ α} (h : body.Plain) : Pairs (Twins a b) Eq body body := by
  induction h with
  | ofExcept e => exact pairs_ofExcept e
  | draw bounds => exact pairs_onSource (Source.pairs_next bounds)
  | bind _ _ ih ih' => exact ih.bind_eq ih'
  | assuming accept _ ih => exact pairs_assuming ih accept

end Sampler

end Refute

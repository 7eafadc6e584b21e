import Refute.Proofs.Draws
import Refute.Proofs.TwinSearch

namespace Refute

namespace Act

/-- Related ends, unless the first action gave out. -/
inductive Outlast (R : σ → σ → Prop) (V : α → β → Prop) :
    EStateM.Result Fault σ α → EStateM.Result Fault σ β → Prop where
  | gaveOut {fault : Fault} (hx : fault.isExhausted = true) : Outlast R V (.error fault s) r
  | alike (h : Ends R V r r') : Outlast R V r r'

def Outlasts (R : σ → σ → Prop) (V : α → β → Prop) (act : Act σ α) (act' : Act σ β) : Prop :=
  ∀ s s', R s s' → Outlast R V (act s) (act' s')

variable {R : σ → σ → Prop}

theorem Ends.mono {Q : σ → σ → Prop} (h : Ends R V r r') (hs : ∀ s s', R s s' → Q s s')
    (hv : ∀ a b, V a b → W a b) : Ends Q W r r' := by
  cases h with
  | ok hvalue hstate => exact .ok (hv _ _ hvalue) (hs _ _ hstate)
  | error fault hstate => exact .error fault (hs _ _ hstate)

theorem Ends.andFinally {body : Act σ α} {body' : Act σ β} {last : Act σ Unit}
    (h : Ends R V (body s) (body' s')) (hlast : Pairs R Eq last last) :
    Ends R V (body.andFinally last s) (body'.andFinally last s') := by
  unfold Act.andFinally
  generalize body s = r at h
  generalize body' s' = r' at h
  cases h with
  | @ok _ _ t t' hv ht =>
    have hl := hlast t t' ht
    dsimp only
    generalize last t = q at hl
    generalize last t' = q' at hl
    cases hl with
    | ok _ hu => exact .ok hv hu
    | error later hu => exact .error later hu
  | @error t t' fault ht =>
    dsimp only
    split
    · exact .error fault ht
    · have hl := hlast t t' ht
      generalize last t = q at hl
      generalize last t' = q' at hl
      cases hl with
      | ok _ hu => exact .error fault hu
      | error later hu => exact .error _ hu

theorem Outlast.mono {Q : σ → σ → Prop} (h : Outlast R V r r') (hs : ∀ s s', R s s' → Q s s')
    (hv : ∀ a b, V a b → W a b) : Outlast Q W r r' := by
  cases h with
  | gaveOut hx => exact .gaveOut hx
  | alike h => exact .alike (h.mono hs hv)

theorem Pairs.outlasts {act : Act σ α} {act' : Act σ β} (h : Pairs R V act act') :
    Outlasts R V act act' := fun s s' hs =>
  .alike (h s s' hs)

theorem pairs_self (act : Act σ α) : Pairs Eq Eq act act := by
  rintro s _ rfl
  cases act s with
  | ok a s' => exact .ok rfl rfl
  | error fault s' => exact .error fault rfl

/-- What follows matters only for values that the first action gives. -/
theorem Outlast.bind {act : Act σ α} {act' : Act σ β} {next : α → Act σ γ} {next' : β → Act σ δ}
    (h : Outlast R V (act s) (act' s'))
    (h' : ∀ a b t t', V a b → R t t' → act s = .ok a t → Outlast R W (next a t) (next' b t')) :
    Outlast R W ((act >>= next) s) ((act' >>= next') s') := by
  rw [bind_apply, bind_apply]
  generalize hr : act s = r at h
  generalize act' s' = r' at h
  cases h with
  | gaveOut hx => exact .gaveOut hx
  | alike h =>
    cases h with
    | ok hv ht => exact h' _ _ _ _ hv ht hr
    | error fault ht => exact .alike (.error fault ht)

theorem Outlasts.bind {act : Act σ α} {act' : Act σ β} {next : α → Act σ γ} {next' : β → Act σ δ}
    (h : Outlasts R V act act') (h' : ∀ a b, V a b → Outlasts R W (next a) (next' b)) :
    Outlasts R W (act >>= next) (act' >>= next') := fun s s' hs =>
  (h s s' hs).bind fun a b _ _ hv ht _ => h' a b hv _ _ ht

theorem Outlasts.bind_given {act act' : Act σ α} {next : α → Act σ γ} {next' : α → Act σ δ}
    (h : Outlasts R Eq act act')
    (h' : ∀ a s s' t, R s s' → act s = .ok a t → Outlasts R W (next a) (next' a)) :
    Outlasts R W (act >>= next) (act' >>= next') := fun s s' hs =>
  (h s s' hs).bind fun a _ t _ hv ht hr => hv ▸ h' a s s' t hs hr _ _ ht

/-- The case in which both give the same value. -/
theorem Outlasts.bind_eq {act act' : Act σ α} {next : α → Act σ γ} {next' : α → Act σ δ}
    (h : Outlasts R Eq act act') (h' : ∀ a, Outlasts R W (next a) (next' a)) :
    Outlasts R W (act >>= next) (act' >>= next') :=
  h.bind_given fun a _ _ _ _ _ => h' a

theorem Outlast.within {Q : τ → τ → Prop} {get : τ → σ} {put : σ → τ → τ} {act : Act σ α}
    {act' : Act σ β} (h : Outlast R V (act (get s)) (act' (get s')))
    (hput : ∀ t t', R t t' → Q (put t s) (put t' s')) :
    Outlast Q V (within get put act s) (within get put act' s') := by
  unfold Act.within
  generalize act (get s) = r at h
  generalize act' (get s') = r' at h
  cases h with
  | gaveOut hx => exact .gaveOut hx
  | alike h =>
    cases h with
    | ok hv ht => exact .alike (.ok hv (hput _ _ ht))
    | error fault ht => exact .alike (.error fault (hput _ _ ht))

theorem Outlasts.within {Q : τ → τ → Prop} {get : τ → σ} {put : σ → τ → τ} {act : Act σ α}
    {act' : Act σ β} (h : Outlasts R V act act') (hget : ∀ s s', Q s s' → R (get s) (get s'))
    (hput : ∀ s s' t t', Q s s' → R t t' → Q (put t s) (put t' s')) :
    Outlasts Q V (within get put act) (within get put act') := fun s s' hs =>
  (h _ _ (hget s s' hs)).within fun t t' => hput s s' t t' hs

/-- The second action, from the same state, comes to the same end as the first, unless that gives
out or leaves behind what `X` holds of. -/
def OutlastsAt (X : σ → Prop) (V : α → β → Prop) (act : Act σ α) (act' : Act σ β) (s : σ) : Prop :=
  X (act.outcome s).2 ∨ Outlast Eq V (act s) (act' s)

theorem OutlastsAt.follow {act : Act σ α} {act' : Act σ β} {next : α → Act σ γ}
    {next' : β → Act σ δ} (h : Outlast Eq V (act s) (act' s))
    (h' : ∀ a b t, V a b → act s = .ok a t → OutlastsAt X W (next a) (next' b) t) :
    OutlastsAt X W (act >>= next) (act' >>= next') s := by
  generalize hr : act s = r at h
  generalize hr' : act' s = r' at h
  unfold OutlastsAt
  cases h with
  | gaveOut hx =>
    rw [bind_error hr]
    exact .inr (.gaveOut hx)
  | alike h =>
    cases h with
    | ok hv ht =>
      cases ht
      rw [outcome_congr (bind_ok hr), bind_ok hr, bind_ok hr']
      exact h' _ _ _ hv hr
    | error fault ht =>
      cases ht
      rw [bind_error hr, bind_error hr']
      exact .inr (.alike (.error fault rfl))

theorem OutlastsAt.bind {act : Act σ α} {act' : Act σ β} {next : α → Act σ γ}
    {next' : β → Act σ δ} (h : OutlastsAt X V act act' s) (hX : ∀ a, Preserves X (next a))
    (h' : ∀ a b t, V a b → act s = .ok a t → OutlastsAt X W (next a) (next' b) t) :
    OutlastsAt X W (act >>= next) (act' >>= next') s := by
  rcases h with hx | h
  · refine .inl (bind_ends (P := fun _ t => X t) (fun fault t hr => ?_) fun a t hr => hX a t ?_)
    · rwa [outcome_of_error hr] at hx
    · rwa [outcome_of_ok hr] at hx
  · exact .follow h h'

end Act

open Act

namespace Source

/-- Alike but for the attempts, which are no fewer in the second. -/
def Patient (s s' : Source) : Prop :=
  ∃ attempts, s.attempts ≤ attempts ∧ s' = { s with attempts }

theorem Patient.patience_le {s s' : Source} (h : s.Patient s') : s.patience ≤ s'.patience := by
  obtain ⟨attempts, hle, rfl⟩ := h
  unfold patience
  dsimp only
  omega

theorem patient_drawFresh (bounds : Bounds) :
    Pairs Patient Eq (drawFresh bounds) (drawFresh bounds) := by
  rintro s _ ⟨attempts, hle, rfl⟩
  unfold drawFresh
  dsimp only
  cases Xorshift.between bounds.lo bounds.hi s.random with
  | ok v random => exact .ok rfl ⟨attempts, hle, rfl⟩
  | error fault random => exact .error fault ⟨attempts, hle, rfl⟩

theorem patient_next (bounds : Bounds) : Pairs Patient Eq (next bounds) (next bounds) := by
  rintro ⟨random, forced, few, rejected, recorded⟩ _ ⟨attempts, hle, rfl⟩
  have hfresh := patient_drawFresh bounds ⟨random, forced, few, rejected, recorded⟩ _
    ⟨attempts, hle, rfl⟩
  unfold next
  cases forced with
  | nil => exact hfresh
  | cons v forced =>
    dsimp only
    split
    · exact .ok rfl ⟨attempts, hle, rfl⟩
    · exact hfresh

theorem patient_rollback (mark : Nat) : Pairs Patient Eq (rollback mark) (rollback mark) := by
  rintro s _ ⟨attempts, hle, rfl⟩
  unfold rollback
  dsimp only
  split
  · exact .ok rfl ⟨attempts, hle, rfl⟩
  · exact .error _ ⟨attempts, hle, rfl⟩

/-- Where a rejection does not take the last attempt, it does not take the last of more. -/
theorem patient_reject : Outlasts Patient Eq reject reject := by
  rintro s _ ⟨attempts, hle, rfl⟩
  unfold reject
  dsimp only
  split
  · exact .gaveOut rfl
  · rw [if_neg (by omega)]
    exact .alike (.ok rfl ⟨attempts, hle, rfl⟩)

end Source

namespace Sampler

def Patient (s s' : Scene σ) : Prop :=
  s.source.Patient s'.source ∧ s.world = s'.world

/-- Patient, in a world that `I` holds of. -/
def PatientIn (I : σ → Prop) (s s' : Scene σ) : Prop :=
  Patient s s' ∧ I s.world

section PatientIn

variable {I : σ → Prop}

theorem patient_onSource {act : Act Source α} (h : Outlasts Source.Patient V act act) :
    Outlasts (PatientIn I) V (onSource act : Sampler σ α) (onSource act) :=
  h.within (fun _ _ hs => hs.1.1) fun _ _ _ _ hs ht => ⟨⟨ht, hs.1.2⟩, hs.2⟩

theorem patient_onWorld {act : Act σ α} (h : Preserves I act) :
    Pairs (PatientIn I) Eq (onWorld act) (onWorld act) := by
  rintro ⟨source, w⟩ ⟨source', _⟩ ⟨⟨hs, rfl⟩, hw⟩
  have hafter := h w hw
  unfold onWorld Act.within
  cases hr : act w with
  | ok a w' =>
    rw [outcome_of_ok hr] at hafter
    exact .ok rfl ⟨⟨hs, rfl⟩, hafter⟩
  | error fault w' =>
    rw [outcome_of_error hr] at hafter
    exact .error fault ⟨⟨hs, rfl⟩, hafter⟩

theorem patient_mark : Pairs (PatientIn I) Eq (mark : Sampler σ Nat) mark := by
  rintro s s' ⟨⟨⟨attempts, hle, hs⟩, hw⟩, hi⟩
  have hmark : s'.source.recorded.length = s.source.recorded.length := by rw [hs]
  unfold mark
  rw [hmark]
  exact .ok rfl ⟨⟨⟨attempts, hle, hs⟩, hw⟩, hi⟩

/-- With more attempts comes more fuel. -/
theorem patient_retry {body : Sampler σ α} (h : Outlasts (PatientIn I) Eq body body)
    (accept : α → Except Fault Bool) (hfuel : fuel ≤ fuel') :
    Outlasts (PatientIn I) Eq (retry body accept fuel) (retry body accept fuel') := by
  induction fuel generalizing fuel' with
  | zero => exact fun s s' _ => .gaveOut rfl
  | succ fuel ih =>
    obtain ⟨more, rfl⟩ : ∃ more, fuel' = more + 1 := ⟨fuel' - 1, by omega⟩
    refine patient_mark.outlasts.bind_eq fun start => h.bind_eq fun value => ?_
    refine (pairs_ofExcept (accept value)).outlasts.bind_eq fun accepted => ?_
    cases accepted with
    | true => exact (pairs_pure rfl).outlasts
    | false =>
      refine (patient_onSource (Source.patient_rollback start).outlasts).bind_eq fun _ => ?_
      exact (patient_onSource Source.patient_reject).bind_eq fun _ => ih (by omega)

theorem patient_assuming {body : Sampler σ α} (h : Outlasts (PatientIn I) Eq body body)
    (accept : α → Except Fault Bool) :
    Outlasts (PatientIn I) Eq (body.assuming accept) (body.assuming accept) := fun s s' hs =>
  patient_retry h accept (Nat.succ_le_succ hs.1.1.patience_le) s s' hs

theorem patient_within {J : τ → Prop} {body : Sampler σ α}
    (h : Outlasts (PatientIn I) Eq body body) {get : τ → σ} {put : σ → τ → τ}
    (hget : ∀ w, J w → I (get w)) (hput : ∀ v w, J w → I v → J (put v w)) :
    Outlasts (PatientIn J) Eq (body.within get put) (body.within get put) :=
  Outlasts.within h (fun _ _ hs => ⟨⟨hs.1.1, congrArg get hs.1.2⟩, hget _ hs.2⟩)
    fun _ _ _ _ hs ht => ⟨⟨ht.1.1, by rw [ht.1.2, hs.1.2]⟩, hput _ _ hs.2 ht.2⟩

/-- Computations, draws, rejections, filters and work on the world, which `I` is not broken by, one
after the other. Nothing that is listed goes on after a fault, so none notices how many attempts
there are before they run out. -/
inductive Acting : {σ : Type} → (I : σ → Prop) → {α : Type} → Sampler σ α → Prop where
  | ofExcept {σ α : Type} {I : σ → Prop} (e : Except Fault α) : Acting I (Act.ofExcept e)
  | draw {σ : Type} {I : σ → Prop} (b : Bounds) : Acting I (Sampler.draw b)
  | reject {σ : Type} {I : σ → Prop} : Acting I Sampler.reject
  | mark {σ : Type} {I : σ → Prop} : Acting I Sampler.mark
  | rollback {σ : Type} {I : σ → Prop} (n : Nat) : Acting I (Sampler.rollback n)
  | onWorld {σ α : Type} {I : σ → Prop} {act : Act σ α} :
      Preserves I act → Acting I (Sampler.onWorld act)
  | bind {σ α β : Type} {I : σ → Prop} {body : Sampler σ α} {next : α → Sampler σ β} :
      Acting I body → (∀ a s s', I s.world → body s = .ok a s' → Acting I (next a)) →
      Acting I (body >>= next)
  | assuming {σ α : Type} {I : σ → Prop} {body : Sampler σ α} (accept : α → Except Fault Bool) :
      Acting I body → Acting I (body.assuming accept)
  | within {σ τ α : Type} {I : σ → Prop} {J : τ → Prop} {body : Sampler σ α} {get : τ → σ}
      {put : σ → τ → τ} : Acting I body → (∀ w, J w → I (get w)) →
      (∀ v w, J w → I v → J (put v w)) → Acting J (body.within get put)

namespace Acting

/-- The induction over what a sampler is made of. -/
theorem outlasts {body : Sampler σ α} (h : Acting I body) :
    Outlasts (PatientIn I) Eq body body := by
  induction h with
  | ofExcept e => exact (pairs_ofExcept e).outlasts
  | draw bounds => exact patient_onSource (Source.patient_next bounds).outlasts
  | reject => exact patient_onSource Source.patient_reject
  | mark => exact patient_mark.outlasts
  | rollback n => exact patient_onSource (Source.patient_rollback n).outlasts
  | onWorld hact => exact (patient_onWorld hact).outlasts
  | bind _ _ ih ih' => exact ih.bind_given fun a s _ s' hs hb => ih' a s s' hs.2 hb
  | assuming accept _ ih => exact patient_assuming ih accept
  | within _ hget hput ih => exact patient_within ih hget hput

theorem pure (a : α) : Acting I (Pure.pure a : Sampler σ α) :=
  .ofExcept (.ok a)

theorem sequence {bodies : List (Sampler σ α)} (h : ∀ body ∈ bodies, Acting I body) :
    Acting I (Act.sequence bodies) := by
  induction bodies with
  | nil => exact .pure []
  | cons body bodies ih =>
    refine .bind (h body List.mem_cons_self) fun a _ _ _ _ => ?_
    refine .bind (ih fun b hb => h b (List.mem_cons_of_mem _ hb)) fun rest _ _ _ _ => ?_
    exact .pure (a :: rest)

end Acting

/-- Plain samplers leave the world alone. -/
theorem Plain.acting {body : Sampler σ α} (h : body.Plain) : Acting I body := by
  induction h with
  | ofExcept e => exact .ofExcept e
  | draw bounds => exact .draw bounds
  | bind _ _ ih ih' => exact .bind ih fun a _ _ _ _ => ih' a
  | assuming accept _ ih => exact .assuming accept ih

end PatientIn

theorem outlasts_patient {body body' : Sampler σ α}
    (h : Outlasts (PatientIn fun _ => True) Eq body body') : Outlasts Patient Eq body body' :=
  fun s s' hs => (h s s' ⟨hs, trivial⟩).mono (fun _ _ ht => ht.1) fun _ _ hv => hv

theorem pairs_onWorld (act : Act σ α) : Pairs Patient Eq (onWorld act) (onWorld act) :=
  fun s s' hs => (patient_onWorld (I := fun _ => True) (fun _ _ => trivial) s s' ⟨hs, trivial⟩).mono
    (fun _ _ ht => ht.1) fun _ _ hv => hv

theorem Plain.patient {body : Sampler σ α} (h : body.Plain) : Outlasts Patient Eq body body :=
  outlasts_patient h.acting.outlasts

end Sampler

/-- Alike but for the attempts of the source, which are no fewer in the second. -/
structure Example.Longer (e e' : Example α) : Prop where
  value : e.value = e'.value
  source : e.source.Patient e'.source
  rejected : e.rejected = e'.rejected

theorem Example.Longer.like {e e' : Example α} (h : e.Longer e') : e.Like e' := by
  refine ⟨h.value, ?_, h.rejected⟩
  obtain ⟨_, _, hsource⟩ := h.source
  simp only [Example.trace, Source.trace, hsource]

theorem Gen.outlasts_generate {g : Gen σ α} (h : Outlasts Sampler.Patient Eq g.sample g.sample)
    {attempts more : Int} (hle : attempts ≤ more) (forced : List Int) :
    Outlasts Eq Example.Longer (g.generate attempts forced) (g.generate more forced) := by
  rintro s _ rfl
  have hg := h ⟨Source.start s.1 forced attempts, s.2⟩ ⟨Source.start s.1 forced more, s.2⟩
    ⟨⟨more, hle, rfl⟩, rfl⟩
  unfold generate
  generalize g.sample ⟨Source.start s.1 forced attempts, s.2⟩ = r at hg
  generalize g.sample ⟨Source.start s.1 forced more, s.2⟩ = r' at hg
  cases hg with
  | gaveOut hx => exact .gaveOut hx
  | alike hg =>
    cases hg with
    | ok hv ht =>
      obtain ⟨⟨longer, hmore, hsource⟩, hworld⟩ := ht
      refine .alike (.ok ⟨hv, ⟨longer, hmore, hsource⟩, ?_⟩ ?_)
      · simp only [hsource]
      · simp only [hsource, hworld]
    | error fault ht =>
      obtain ⟨⟨_, _, hsource⟩, hworld⟩ := ht
      refine .alike (.error fault ?_)
      simp only [hsource, hworld]

/-- An event of the kind `G` was noted. -/
def Lab.Marked (G : Event β → Prop) (lab : Lab σ β) : Prop :=
  ∃ event ∈ lab.journal, G event

namespace Property

/-- Examples related by `V` are alike, and the property does with the second what it does with the
first. With `more` attempts it gives an example like the one it gives with `attempts`, if it gives
one with these. -/
structure Outlives (p : Property σ α β) (attempts more : Int)
    (V : Example α → Example α → Prop) : Prop where
  like : V e e' → e.Like e'
  generate : ∀ forced, Outlasts Eq V (p.generate attempts forced) (p.generate more forced)
  examine : V e e' → Pairs Eq (fun x x' => x.1 = x'.1 ∧ V x.2 x'.2) (p.examine e) (p.examine e')

variable {attempts more : Int}

/-- As `Outlives`, but the property is compared only in worlds that generation leads to, of which
`W` holds, and only where no event of the kind `G` is noted. -/
structure Endures (p : Property σ α β) (attempts more : Int) (W : σ → Prop)
    (G : Event β → Prop) (V : Example α → Example α → Prop) : Prop where
  like : V e e' → e.Like e'
  generate : ∀ forced, Outlasts Eq V (p.generate attempts forced) (p.generate more forced)
  world : p.generate attempts forced lab = .ok e lab' → W lab'.world
  examine : V e e' → W lab.world →
    OutlastsAt (Lab.Marked G) (fun x x' => x.1 = x'.1 ∧ V x.2 x'.2) (p.examine e) (p.examine e') lab

theorem Outlives.endures {p : Property σ α β} (h : p.Outlives attempts more V) :
    p.Endures attempts more (fun _ => True) (fun _ => False) V where
  like := h.like
  generate := h.generate
  world _ := trivial
  examine he _ := .inr ((h.examine he).outlasts _ _ rfl)

/-- As many attempts as before change nothing. -/
theorem outlives_self (p : Property σ α β) (attempts : Int) : p.Outlives attempts attempts Eq where
  like h := h ▸ ⟨rfl, rfl, rfl⟩
  generate forced := (pairs_self _).outlasts
  examine := by
    rintro e _ rfl s _ rfl
    cases p.examine e s with
    | ok x s' => exact .ok ⟨rfl, rfl⟩ rfl
    | error fault s' => exact .error fault rfl

theorem outlasts_generate (p : Property σ α β)
    (h : Outlasts Sampler.Patient Eq p.gen.sample p.gen.sample) (hle : attempts ≤ more)
    (forced : List Int) :
    Outlasts Eq Example.Longer (p.generate attempts forced) (p.generate more forced) := by
  rintro lab _ rfl
  have hg := Gen.outlasts_generate h hle forced (lab.random, lab.world) _ rfl
  unfold Property.generate
  generalize p.gen.generate attempts forced (lab.random, lab.world) = r at hg
  generalize p.gen.generate more forced (lab.random, lab.world) = r' at hg
  cases hg with
  | gaveOut hx => exact .gaveOut hx
  | alike hg =>
    cases hg with
    | ok hv ht =>
      cases ht
      refine .alike (.ok hv ?_)
      simp only [hv.value, hv.like.trace, hv.rejected]
    | error fault ht =>
      cases ht
      exact .alike (.error fault rfl)

theorem outlives_ofPredicate {gen : Gen σ α} (holds : α → Except Fault Bool) (h : gen.sample.Plain)
    (hle : attempts ≤ more) : (ofPredicate gen holds).Outlives attempts more Example.Like where
  like := id
  generate forced s s' hs :=
    (outlasts_generate (ofPredicate gen holds) h.patient hle forced s s' hs).mono
      (fun _ _ ht => ht) fun _ _ he => he.like
  examine := by
    rintro e e' he lab _ rfl
    unfold Property.examine ofPredicate
    dsimp only
    rw [← he.value]
    cases holds e.value with
    | ok answer => cases answer <;> exact .ok ⟨rfl, rfl, he.trace, he.rejected⟩ rfl
    | error fault =>
      simp only [Act.ofExcept, Act.fail_apply]
      split
      · exact .error fault rfl
      · exact .ok ⟨rfl, rfl, he.trace, he.rejected⟩ rfl

end Property

end Refute

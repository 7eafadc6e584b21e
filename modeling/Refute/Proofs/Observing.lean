import Refute.Proofs.Rerun

namespace Refute.Sampler

/-- Leads from worlds that `I` holds of to such worlds, and can be rerun from any of them. -/
structure Keeps (I : τ → Prop) (body : Sampler τ α) : Prop where
  world : ∀ {s a s'}, I s.world → body s = .ok a s' → I s'.world
  steady : ∀ {s}, I s.world → Steady body s

/-- Reads its world, but leaves it as it is. -/
def Observes (body : Sampler τ α) : Prop :=
  ∀ w, Keeps (· = w) body

section Keeps

variable {I : τ → Prop}

theorem Keeps.bind {body : Sampler τ α} {next : α → Sampler τ β} (h : Keeps I body)
    (h' : ∀ a s s', I s.world → body s = .ok a s' → Keeps I (next a)) :
    Keeps I (body >>= next) where
  world := by
    intro s b s'' hs hr
    obtain ⟨a, s', hb, hn⟩ := Act.bind_eq_ok.mp hr
    exact (h' a s s' hs hb).world (h.world hs hb) hn
  steady {s} hs := (h.steady hs).bind fun a s' hb => (h' a s s' hs hb).steady (h.world hs hb)

theorem keeps_ofExcept (e : Except Fault α) : Keeps I (Act.ofExcept e) where
  world hs hr := (Act.ofExcept_eq_ok.mp hr).2 ▸ hs
  steady _ := steady_ofExcept e _

theorem keeps_pure (a : α) : Keeps I (pure a) :=
  keeps_ofExcept (.ok a)

theorem keeps_draw (b : Bounds) : Keeps I (draw b) where
  world hs hr := (onSource_ok hr).2.symm ▸ hs
  steady _ := steady_draw b _

theorem keeps_onWorld {act : Act τ α} (h : ∀ w a w', I w → act w = .ok a w' → I w') :
    Keeps I (onWorld act) where
  world hs hr := h _ _ _ hs (onWorld_ok hr).1
  steady _ := steady_onWorld act _

theorem Observes.keeps {body : Sampler τ α} (h : Observes body) : Keeps I body where
  world {s} _ _ hs hr := ((h s.world).world rfl hr).symm ▸ hs
  steady {s} _ := (h s.world).steady rfl

end Keeps

theorem observes_ask {act : Act τ α} (h : act.ReadOnly) : Observes (onWorld act) := fun _ =>
  keeps_onWorld fun _ _ _ hw hr => (h.eq_of_ok hr).trans hw

theorem Observes.assuming {body : Sampler τ α} (h : Observes body)
    (accept : α → Except Fault Bool) : Observes (body.assuming accept) := fun _ =>
  { world := fun hs hr => (retry_world (fun t _ _ hb => (h t.world).world rfl hb) hr).trans hs
    steady := fun {s} _ =>
      .assuming (fun _ ht => (h s.world).steady ht) (fun _ _ _ ht hb => (h s.world).world ht hb)
        accept }

theorem Observes.within {body : Sampler ω α} (h : Observes body) {get : τ → ω} {put : ω → τ → τ}
    (hput : ∀ w, put (get w) w = w) : Observes (body.within get put) := fun _ =>
  { world := by
      intro s a s' hs hr
      have ho := outcome_lens get put body s
      rw [Act.outcome_of_ok hr] at ho
      obtain ⟨ha, rfl⟩ := Prod.mk.inj ho
      have hb := (h (get s.world)).world rfl (Act.of_outcome_ok (Prod.ext ha.symm rfl))
      exact (congrArg (put · s.world) hb).trans ((hput s.world).trans hs)
    steady := fun {s} _ => ((h (get s.world)).steady rfl).within put }

/-- Draws, questions that change nothing, computations and filters, one after the other. What
follows a part matters only for what that part can give. -/
inductive Observing {τ : Type} : {α : Type} → Sampler τ α → Prop where
  | ofExcept {α : Type} (e : Except Fault α) : Observing (Act.ofExcept e)
  | draw (b : Bounds) : Observing (Sampler.draw b)
  | ask {α : Type} {act : Act τ α} : act.ReadOnly → Observing (onWorld act)
  | bind {α β : Type} {body : Sampler τ α} {next : α → Sampler τ β} :
      Observing body → (∀ a s s', body s = .ok a s' → Observing (next a)) →
      Observing (body >>= next)
  | assuming {α : Type} {body : Sampler τ α} (accept : α → Except Fault Bool) :
      Observing body → Observing (body.assuming accept)

namespace Observing

/-- The induction over what a sampler is made of. -/
theorem observes {body : Sampler τ α} (h : body.Observing) : Observes body := by
  induction h with
  | ofExcept e => exact fun _ => keeps_ofExcept e
  | draw b => exact fun _ => keeps_draw b
  | ask hact => exact observes_ask hact
  | bind _ _ ih ih' => exact fun w => (ih w).bind fun a s s' _ hb => ih' a s s' hb w
  | assuming accept _ ih => exact ih.assuming accept

theorem pure (a : α) : Observing (Pure.pure a : Sampler τ α) :=
  .ofExcept (.ok a)

theorem sequence {bodies : List (Sampler τ α)} (h : ∀ body ∈ bodies, Observing body) :
    Observing (Act.sequence bodies) := by
  induction bodies with
  | nil => exact .pure []
  | cons body bodies ih =>
    refine .bind (h body List.mem_cons_self) fun a _ _ _ => ?_
    refine .bind (ih fun b hb => h b (List.mem_cons_of_mem _ hb)) fun rest _ _ _ => ?_
    exact .pure (a :: rest)

end Observing

/-- Plain samplers do not even ask. -/
theorem Plain.observing {body : Sampler τ α} (h : body.Plain) : body.Observing := by
  induction h with
  | ofExcept e => exact .ofExcept e
  | draw b => exact .draw b
  | bind _ _ ih ih' => exact .bind ih fun a _ _ _ => ih' a
  | assuming accept _ ih => exact .assuming accept ih

end Refute.Sampler

import Refute.Proofs.Composed

namespace Refute

/-- What was done in a run, in order. -/
inductive Account where
  | nothing
  | drew (d : Draw) (rest : Account)
  /-- A filter returned a value, of which its predicate says this. -/
  | returned (verdict : Bool) (rest : Account)
  /-- A filter rejected the value of an attempt in which all this was done. -/
  | rejected (attempt rest : Account)

namespace Account

def append : Account → Account → Account
  | nothing, later => later
  | drew d rest, later => drew d (rest.append later)
  | returned verdict rest, later => returned verdict (rest.append later)
  | rejected attempt rest, later => rejected attempt (rest.append later)

instance : Append Account :=
  ⟨append⟩

/-- The draws outside rejected attempts. -/
def kept : Account → Trace
  | nothing => []
  | drew d rest => d :: rest.kept
  | returned _ rest => rest.kept
  | rejected _ rest => rest.kept

/-- All rejected attempts, also those within others. -/
def rejections : Account → Nat
  | nothing => 0
  | drew _ rest => rest.rejections
  | returned _ rest => rest.rejections
  | rejected attempt rest => attempt.rejections + 1 + rest.rejections

/-- What was said of the values that filters returned, also within rejected attempts. -/
def verdicts : Account → List Bool
  | nothing => []
  | drew _ rest => rest.verdicts
  | returned verdict rest => verdict :: rest.verdicts
  | rejected attempt rest => attempt.verdicts ++ rest.verdicts

@[simp] theorem kept_append (account later : Account) :
    (account ++ later).kept = account.kept ++ later.kept := by
  show (account.append later).kept = _
  induction account with
  | nothing => rfl
  | drew d rest ih => simp only [append, kept, ih, List.cons_append]
  | returned verdict rest ih => exact ih
  | rejected attempt rest _ ih => exact ih

@[simp] theorem rejections_append (account later : Account) :
    (account ++ later).rejections = account.rejections + later.rejections := by
  show (account.append later).rejections = _
  induction account with
  | nothing => exact (Nat.zero_add _).symm
  | drew d rest ih => exact ih
  | returned verdict rest ih => exact ih
  | rejected attempt rest _ ih => simp only [append, rejections, ih, Nat.add_assoc]

@[simp] theorem verdicts_append (account later : Account) :
    (account ++ later).verdicts = account.verdicts ++ later.verdicts := by
  show (account.append later).verdicts = _
  induction account with
  | nothing => rfl
  | drew d rest ih => exact ih
  | returned verdict rest ih => simp only [append, verdicts, ih, List.cons_append]
  | rejected attempt rest _ ih => simp only [append, verdicts, ih, List.append_assoc]

end Account

/-- How a sampler is put together. None of the functions fails, rejects anything or settles views
of the source; some act on a world of their own. -/
inductive Plan (σ : Type) : Type → Type 1 where
  | pure {α : Type} (a : α) : Plan σ α
  | act {α : Type} (f : σ → α × σ) : Plan σ α
  | draw (b : Bounds) : Plan σ Int
  | bind {α β : Type} (body : Plan σ α) (next : α → Plan σ β) : Plan σ β
  | assuming {α : Type} (body : Plan σ α) (accept : α → Bool) : Plan σ α

namespace Plan

def sampler {α : Type} : Plan σ α → Sampler σ α
  | pure a => Pure.pure a
  | act f => Sampler.onWorld fun world => .ok (f world).1 (f world).2
  | draw b => Sampler.draw b
  | bind body next => body.sampler >>= fun a => (next a).sampler
  | assuming body accept => body.sampler.assuming fun a => .ok (accept a)

/-- Why a run comes to no value. -/
inductive Stop where
  /-- A filter gave up that was entered with this trace. -/
  | exhausted (entry : Trace)
  /-- A draw within these bounds goes on for ever. -/
  | endless (b : Bounds) (h : Xorshift.Unreachable b.lo b.hi)

/-- The loop of a filter that was entered with the trace `entry`. What an attempt did is rolled back
before its rejection is counted. -/
inductive Tries (attempt : Scene σ → Account → Except Stop α → Scene σ → Prop) (accept : α → Bool)
    (entry : Trace) : Scene σ → Account → Except Stop α → Scene σ → Prop where
  | accepted {s s' : Scene σ} : attempt s account (.ok a) s' → accept a = true →
      Tries attempt accept entry s (account ++ .returned (accept a) .nothing) (.ok a) s'
  | stopped {s s' : Scene σ} : attempt s account (.error stop) s' →
      Tries attempt accept entry s account (.error stop) s'
  | exhausted {s s' t t' : Scene σ} : attempt s account (.ok a) s' → accept a = false →
      Sampler.rollback s.source.recorded.length s' = .ok () t →
      Sampler.reject t = .error fault t' →
      Tries attempt accept entry s (.rejected account .nothing) (.error (.exhausted entry)) t'
  | again {s s' t t' last : Scene σ} : attempt s account (.ok a) s' → accept a = false →
      Sampler.rollback s.source.recorded.length s' = .ok () t → Sampler.reject t = .ok () t' →
      Tries attempt accept entry t' later ending last →
      Tries attempt accept entry s (.rejected account later) ending last

/-- A run from one scene to another, with its account and how it ended. -/
def Runs {α : Type} : Plan σ α → Scene σ → Account → Except Stop α → Scene σ → Prop
  | pure a => fun s account ending s' => account = .nothing ∧ ending = .ok a ∧ s' = s
  | act f => fun s account ending s' =>
    account = .nothing ∧ ending = .ok (f s.world).1 ∧ s' = { s with world := (f s.world).2 }
  | draw b => fun s account ending s' =>
    (∃ v source, Source.next b s.source = .ok v source ∧
      account = .drew ⟨b, v⟩ .nothing ∧ ending = .ok v ∧ s' = { s with source }) ∨
    ∃ h source, Source.next b s.source = .error (.unreachableRange b.lo b.hi h) source ∧
      account = .nothing ∧ ending = .error (.endless b h) ∧ s' = { s with source }
  | bind body next => fun s account ending s' =>
    (∃ a first t later, body.Runs s first (.ok a) t ∧ (next a).Runs t later ending s' ∧
      account = first ++ later) ∨
    ∃ stop, body.Runs s account (.error stop) s' ∧ ending = .error stop
  | assuming body accept => fun s => Tries body.Runs accept s.source.trace s

def map {α β : Type} (body : Plan σ α) (f : α → β) : Plan σ β :=
  body.bind fun a => .pure (f a)

def replicate {α : Type} (body : Plan σ α) : Nat → Plan σ (List α)
  | 0 => .pure []
  | n + 1 => body.bind fun a => (body.replicate n).map (a :: ·)

def sequence {α : Type} : List (Plan σ α) → Plan σ (List α)
  | [] => .pure []
  | body :: bodies => body.bind fun a => (sequence bodies).map (a :: ·)

theorem sampler_replicate {α : Type} (body : Plan σ α) (n : Nat) :
    (body.replicate n).sampler = body.sampler.replicate n := by
  induction n with
  | zero => rfl
  | succ n ih => simp only [replicate, map, sampler, Sampler.replicate, ih]

theorem sampler_sequence {α : Type} (bodies : List (Plan σ α)) :
    (sequence bodies).sampler = Act.sequence (bodies.map sampler) := by
  induction bodies with
  | nil => rfl
  | cons body bodies ih => simp only [sequence, map, sampler, Act.sequence, List.map_cons, ih]

end Plan

/-- What generators are composed of, each with its plan. The functions given to them always give a
value; the function of `mutate` may go on in any planned way. A constant that is called for its
value may change the world. -/
inductive Gen.Planned {σ : Type} : {α : Type} → Gen σ α → Plan σ α → Prop where
  | constant {α : Type} (a : α) : Planned (Gen.constant a) (.pure a)
  | called {α : Type} (f : σ → α × σ) :
      Planned (.of (Sampler.onWorld fun world => .ok (f world).1 (f world).2)) (.act f)
  | draw (b : Bounds) : Planned (Gen.draw b) (.draw b)
  | range {g : Gen σ Int} : Gen.range lo hi target = .ok g → Bounds.between lo hi = .ok b →
      Planned g (.draw (b.towards target))
  | rangeTargetless {g : Gen σ Int} : Gen.rangeTargetless lo hi = .ok g →
      Bounds.between lo hi = .ok b → Planned g (.draw b.targetless)
  | pick {α : Type} {first : α} {others : List α} {g : Gen σ α} :
      Gen.pick (first :: others) = .ok g → Gen.positions (others.length + 1) = .ok b →
      Planned g ((Plan.draw b).map fun i => (first :: others)[i.toNat]?.getD first)
  | pickTargetless {α : Type} {first : α} {others : List α} {g : Gen σ α} :
      Gen.pickTargetless (first :: others) = .ok g → Gen.positions (others.length + 1) = .ok b →
      Planned g ((Plan.draw b.targetless).map fun i => (first :: others)[i.toNat]?.getD first)
  | bool : Planned Gen.bool ((Plan.draw .bit).map fun i => decide (i ≠ 0))
  | oneOf {α : Type} {first : Gen σ α} {others : List (Gen σ α)} {g : Gen σ α}
      {plan : Int → Plan σ α} :
      (∀ i, Planned ((first :: others)[i.toNat]?.getD first) (plan i)) →
      Gen.oneOf first others = .ok g → Gen.positions (others.length + 1) = .ok b →
      Planned g ((Plan.draw b).bind plan)
  | frequency {α : Type} {choices : List (Int × Gen σ α)} {g : Gen σ α} {w : Weighted (Gen σ α)}
      {plan : Int → Plan σ α} :
      (∀ slot, Planned (w.choose slot) (plan slot)) → Gen.frequency choices = .ok g →
      Weighted.ofList choices = .ok w → w.bounds = .ok b → Planned g ((Plan.draw b).bind plan)
  | frequencyTargetless {α : Type} {choices : List (Int × Gen σ α)} {g : Gen σ α}
      {w : Weighted (Gen σ α)} {plan : Int → Plan σ α} :
      (∀ slot, Planned (w.choose slot) (plan slot)) → Gen.frequencyTargetless choices = .ok g →
      Weighted.ofList choices = .ok w → w.bounds = .ok b →
      Planned g ((Plan.draw b.targetless).bind plan)
  | listsOf {α : Type} [Display α] {items : Gen σ α} {sizes : Gen σ Int} {p : Plan σ α}
      {q : Plan σ Int} :
      Planned items p → Planned sizes q →
      Planned (Gen.listsOf items sizes) (q.bind fun size => p.replicate size.toNat)
  | tuplesOf {α : Type} [Display α] {parts : List (Gen σ α × Plan σ α)} :
      (∀ part ∈ parts, Planned part.1 part.2) →
      Planned (Gen.tuplesOf (parts.map Prod.fst)) (Plan.sequence (parts.map Prod.snd))
  | map {α β : Type} {g : Gen σ α} {p : Plan σ α} (f : α → β) :
      Planned g p → Planned (g.map fun a => .ok (f a)) (p.map f)
  | map2 {α β : Type} {g : Gen σ α} {p : Plan σ α} (f : α → α → β) :
      Planned g p → Planned (g.map2 fun a b => .ok (f a b)) (p.bind fun a => p.map (f a))
  | map3 {α β : Type} {g : Gen σ α} {p : Plan σ α} (f : α → α → α → β) :
      Planned g p → Planned (g.map3 fun a b c => .ok (f a b c))
        (p.bind fun a => p.bind fun b => p.map (f a b))
  | mutate {α β : Type} {g : Gen σ α} {p : Plan σ α} {f : α → Sampler σ β}
      {next : α → Plan σ β} :
      Planned g p → (∀ a, f a = (next a).sampler) → Planned (g.mutate f) (p.bind next)
  | flatMap {α β : Type} {g : Gen σ α} {p : Plan σ α} {f : α → Gen σ β} {next : α → Plan σ β} :
      Planned g p → (∀ a, Planned (f a) (next a)) → Planned (g.flatMap f) (p.bind next)
  | zip {α β γ : Type} {g : Gen σ α} {h : Gen σ β} {p : Plan σ α} {q : Plan σ β}
      (f : α → β → γ) :
      Planned g p → Planned h q →
      Planned (g.zip h fun a b => .ok (f a b)) (p.bind fun a => q.map (f a))
  | zip3 {α β γ δ : Type} {g : Gen σ α} {h : Gen σ β} {i : Gen σ γ} {p : Plan σ α} {q : Plan σ β}
      {r : Plan σ γ} (f : α → β → γ → δ) :
      Planned g p → Planned h q → Planned i r →
      Planned (g.zip3 h i fun a b c => .ok (f a b c))
        (p.bind fun a => q.bind fun b => r.map (f a b))
  | assuming {α : Type} {g : Gen σ α} {p : Plan σ α} (accept : α → Bool) :
      Planned g p → Planned (g.assuming fun a => .ok (accept a)) (p.assuming accept)
  | mix {α : Type} {g h : Gen σ α} {p q : Plan σ α} :
      Planned g p → Planned h q →
      Planned (g.mix h) ((Plan.draw .bit).bind fun side => if side = 0 then p else q)
  | mixWeighted {α : Type} {g h : Gen σ α} {p q : Plan σ α} (weight : Int) :
      Planned g p → Planned h q → Planned (g.mixWeighted h weight)
        ((Plan.draw .percentage).bind fun picked => if picked < weight then q else p)
  | optional {α : Type} {g : Gen σ α} {p : Plan σ α} (percentEmpty : Int) :
      Planned g p → Planned (g.optional percentEmpty) (p.bind fun a =>
        (Plan.draw .percent).map fun picked => if picked < percentEmpty then none else some a)
  | describedAs {α : Type} {g : Gen σ α} {p : Plan σ α} (describe : α → Except Fault Value) :
      Planned g p → Planned (g.describedAs describe) p

/-- A planned generator draws and filters as its plan says. -/
theorem Gen.Planned.sample_eq {g : Gen σ α} {p : Plan σ α} (h : g.Planned p) :
    g.sample = p.sampler := by
  induction h with
  | constant a => rfl
  | called f => rfl
  | draw b => rfl
  | range h hb =>
    rw [Gen.range, hb] at h
    cases h
    rfl
  | rangeTargetless h hb =>
    rw [Gen.rangeTargetless, hb] at h
    cases h
    rfl
  | pick h hb =>
    rw [Gen.pick, hb] at h
    cases h
    rfl
  | pickTargetless h hb =>
    rw [Gen.pickTargetless, hb] at h
    cases h
    rfl
  | bool => rfl
  | oneOf _ h hb ih =>
    rw [Gen.oneOf, hb] at h
    cases h
    exact (sample_among ..).trans (congrArg _ (funext ih))
  | frequency _ h hw hb ih =>
    obtain ⟨w', hw', h⟩ := Except.bind_eq_ok.mp h
    cases hw.symm.trans hw'
    rw [hb] at h
    cases h
    exact congrArg (Sampler.draw _ >>= ·) (funext ih)
  | frequencyTargetless _ h hw hb ih =>
    obtain ⟨w', hw', h⟩ := Except.bind_eq_ok.mp h
    cases hw.symm.trans hw'
    rw [hb] at h
    cases h
    exact congrArg (Sampler.draw _ >>= ·) (funext ih)
  | listsOf _ _ items sizes =>
    simp only [Gen.listsOf, Plan.sampler, Plan.sampler_replicate, items, sizes]
  | tuplesOf _ ih =>
    simp only [Gen.tuplesOf, Plan.sampler_sequence, List.map_map]
    exact congrArg _ (List.map_congr_left ih)
  | map f _ g => simp only [Gen.map, Gen.of, Plan.map, Plan.sampler, Act.ofExcept, g]
  | map2 f _ g => simp only [Gen.map2, Gen.of, Plan.map, Plan.sampler, Act.ofExcept, g]
  | map3 f _ g => simp only [Gen.map3, Gen.of, Plan.map, Plan.sampler, Act.ofExcept, g]
  | mutate _ f g => simp only [Gen.mutate, Gen.of, Plan.sampler, g, ← f]
  | flatMap _ _ g f => simp only [Gen.flatMap, Gen.mutate, Gen.of, Plan.sampler, g, f]
  | zip f _ _ g h => simp only [Gen.zip, Gen.of, Plan.map, Plan.sampler, Act.ofExcept, g, h]
  | zip3 f _ _ _ g h i =>
    simp only [Gen.zip3, Gen.of, Plan.map, Plan.sampler, Act.ofExcept, g, h, i]
  | assuming accept _ g => simp only [Gen.assuming, Plan.sampler, g]
  | mix _ _ g h =>
    simp only [Gen.mix, Gen.of, Plan.sampler, g, h, apply_ite Plan.sampler]
  | mixWeighted weight _ _ g h =>
    simp only [Gen.mixWeighted, Gen.of, Plan.sampler, g, h, apply_ite Plan.sampler]
  | optional percentEmpty _ g =>
    simp only [Gen.optional, Gen.mutate, Gen.of, Plan.map, Plan.sampler, g]
    refine congrArg _ (funext fun a => congrArg _ (funext fun picked => ?_))
    split <;> rfl
  | describedAs describe _ g => exact g

end Refute

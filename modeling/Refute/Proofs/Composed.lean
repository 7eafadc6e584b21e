import Refute.Gen.Choice

namespace Refute

/-- Computations, draws and filters, one after the other. Such a sampler acts on its source only. -/
inductive Sampler.Plain {σ : Type} : {α : Type} → Sampler σ α → Prop where
  | ofExcept {α : Type} (e : Except Fault α) : Plain (Act.ofExcept e)
  | draw (b : Bounds) : Plain (Sampler.draw b)
  | bind {α β : Type} {body : Sampler σ α} {next : α → Sampler σ β} :
      Plain body → (∀ a, Plain (next a)) → Plain (body >>= next)
  | assuming {α : Type} {body : Sampler σ α} (accept : α → Except Fault Bool) :
      Plain body → Plain (body.assuming accept)

/-- What generators are composed of, and how. Functions given to them may fail, but only compute;
the function of `mutate` may also draw. -/
inductive Gen.Composed {σ : Type} : {α : Type} → Gen σ α → Prop where
  | constant {α : Type} (a : α) : Composed (Gen.constant a)
  | draw (b : Bounds) : Composed (Gen.draw b)
  | range {g : Gen σ Int} : Gen.range lo hi target = .ok g → Composed g
  | rangeTargetless {g : Gen σ Int} : Gen.rangeTargetless lo hi = .ok g → Composed g
  | pick {α : Type} {values : List α} {g : Gen σ α} : Gen.pick values = .ok g → Composed g
  | pickTargetless {α : Type} {values : List α} {g : Gen σ α} :
      Gen.pickTargetless values = .ok g → Composed g
  | bool : Composed Gen.bool
  | oneOf {α : Type} {first : Gen σ α} {others : List (Gen σ α)} {g : Gen σ α} :
      (∀ h ∈ first :: others, Composed h) → Gen.oneOf first others = .ok g → Composed g
  | frequency {α : Type} {choices : List (Int × Gen σ α)} {g : Gen σ α} :
      (∀ c ∈ choices, Composed c.2) → Gen.frequency choices = .ok g → Composed g
  | frequencyTargetless {α : Type} {choices : List (Int × Gen σ α)} {g : Gen σ α} :
      (∀ c ∈ choices, Composed c.2) → Gen.frequencyTargetless choices = .ok g → Composed g
  | listsOf {α : Type} [Display α] {items : Gen σ α} {sizes : Gen σ Int} :
      Composed items → Composed sizes → Composed (Gen.listsOf items sizes)
  | tuplesOf {α : Type} [Display α] {gens : List (Gen σ α)} :
      (∀ g ∈ gens, Composed g) → Composed (Gen.tuplesOf gens)
  | map {α β : Type} {g : Gen σ α} (f : α → Except Fault β) : Composed g → Composed (g.map f)
  | map2 {α β : Type} {g : Gen σ α} (f : α → α → Except Fault β) :
      Composed g → Composed (g.map2 f)
  | map3 {α β : Type} {g : Gen σ α} (f : α → α → α → Except Fault β) :
      Composed g → Composed (g.map3 f)
  | mutate {α β : Type} {g : Gen σ α} {f : α → Sampler σ β} :
      Composed g → (∀ a, (f a).Plain) → Composed (g.mutate f)
  | flatMap {α β : Type} {g : Gen σ α} {f : α → Gen σ β} :
      Composed g → (∀ a, Composed (f a)) → Composed (g.flatMap f)
  | zip {α β γ : Type} {g : Gen σ α} {h : Gen σ β} (f : α → β → Except Fault γ) :
      Composed g → Composed h → Composed (g.zip h f)
  | zip3 {α β γ δ : Type} {g : Gen σ α} {h : Gen σ β} {i : Gen σ γ}
      (f : α → β → γ → Except Fault δ) :
      Composed g → Composed h → Composed i → Composed (g.zip3 h i f)
  | assuming {α : Type} {g : Gen σ α} (accept : α → Except Fault Bool) :
      Composed g → Composed (g.assuming accept)
  | mix {α : Type} {g h : Gen σ α} : Composed g → Composed h → Composed (g.mix h)
  | mixWeighted {α : Type} {g h : Gen σ α} (weight : Int) :
      Composed g → Composed h → Composed (g.mixWeighted h weight)
  | optional {α : Type} {g : Gen σ α} (percentEmpty : Int) :
      Composed g → Composed (g.optional percentEmpty)
  | describedAs {α : Type} {g : Gen σ α} (describe : α → Except Fault Value) :
      Composed g → Composed (g.describedAs describe)

namespace Sampler.Plain

theorem pure (a : α) : Plain (Pure.pure a : Sampler σ α) :=
  .ofExcept (.ok a)

theorem replicate {body : Sampler σ α} (h : Plain body) (n : Nat) : Plain (body.replicate n) := by
  induction n with
  | zero => exact .pure []
  | succ n ih => exact .bind h fun a => .bind ih fun rest => .pure (a :: rest)

theorem sequence {bodies : List (Sampler σ α)} (h : ∀ body ∈ bodies, Plain body) :
    Plain (Act.sequence bodies) := by
  induction bodies with
  | nil => exact .pure []
  | cons body bodies ih =>
    refine .bind (h body List.mem_cons_self) fun a => ?_
    exact .bind (ih fun b hb => h b (List.mem_cons_of_mem _ hb)) fun rest => .pure (a :: rest)

end Sampler.Plain

namespace Weighted

theorem mem_positive (h : c ∈ positive choices) : ∃ weight, (weight, c.2) ∈ choices := by
  obtain ⟨⟨weight, a⟩, hm, hc⟩ := List.mem_filterMap.mp h
  split at hc
  · cases hc
    exact ⟨weight, hm⟩
  · cases hc

theorem ofList_mem (h : ofList choices = .ok w) (hc : c ∈ w.toList) :
    ∃ weight, (weight, c.2) ∈ choices := by
  unfold ofList at h
  split at h
  · cases h
  · split at h
    · cases h
    · rename_i first others hp
      cases h
      exact mem_positive (hp ▸ hc)

theorem owner_mem (h : owner? choices slot = some a) : ∃ share, (share, a) ∈ choices := by
  induction choices generalizing slot with
  | nil => cases h
  | cons c choices ih =>
    obtain ⟨share, b⟩ := c
    simp only [owner?] at h
    split at h
    · cases h
      exact ⟨share, List.mem_cons_self⟩
    · obtain ⟨other, hm⟩ := ih h
      exact ⟨other, List.mem_cons_of_mem _ hm⟩

/-- Slots that no one owns fall to the first choice, so what is chosen is always a choice. -/
theorem choose_mem (w : Weighted α) (slot : Int) :
    ∃ weight, (weight, w.choose slot) ∈ w.toList := by
  cases ho : owner? w.shares slot.toNat with
  | none => exact ⟨w.first.1, by simp [choose, ho, toList]⟩
  | some a =>
    obtain ⟨share, hm⟩ := owner_mem ho
    obtain ⟨⟨weight, b⟩, hb, he⟩ := List.mem_map.mp hm
    cases he
    exact ⟨weight, by simpa [choose, ho] using hb⟩

end Weighted

namespace Gen

theorem sample_among (first : Gen σ α) (others : List (Gen σ α)) (b : Bounds) :
    (among first others b).sample =
      Sampler.draw b >>= fun i => ((first :: others)[i.toNat]?.getD first).sample := by
  funext s
  cases hd : Sampler.draw b s with
  | ok i s' =>
    rw [Act.bind_ok hd]
    exact Act.bind_ok (Act.bind_ok hd)
  | error fault s' =>
    rw [Act.bind_error hd]
    exact Act.bind_error (Act.bind_error hd)

theorem plain_among {first : Gen σ α} {others : List (Gen σ α)}
    (h : ∀ g ∈ first :: others, g.sample.Plain) (b : Bounds) :
    (among first others b).sample.Plain := by
  rw [sample_among]
  refine .bind (.draw b) fun i => ?_
  cases hg : (first :: others)[i.toNat]? with
  | none => exact h first List.mem_cons_self
  | some g => exact h g (List.mem_of_getElem? hg)

theorem plain_ofPositions (first : α) (others : List α) (b : Bounds) :
    (ofPositions first others b : Gen σ α).sample.Plain :=
  .bind (.draw b) fun _ => .ofExcept _

theorem plain_ofWeighted {w : Weighted (Gen σ α)} (h : ∀ c ∈ w.toList, c.2.sample.Plain)
    (b : Bounds) : (ofWeighted w b).sample.Plain := by
  refine .bind (.draw b) fun slot => ?_
  obtain ⟨weight, hm⟩ := w.choose_mem slot
  exact h _ hm

theorem range_ok {g : Gen σ Int} (h : range lo hi target = .ok g) :
    ∃ b, g = draw b ∧ b.rest = Bounds.clamp lo hi target ∧ b.lo = lo ∧ b.hi = hi := by
  obtain ⟨b, hb, hg⟩ := Except.bind_eq_ok.mp h
  cases hg
  unfold Bounds.between Bounds.make at hb
  split at hb
  · split at hb
    · cases hb
      exact ⟨_, rfl, rfl, rfl, rfl⟩
    · cases hb
  · cases hb

theorem exists_range {lo hi : Int} (low : Word.least ≤ lo) (hle : lo ≤ hi)
    (high : hi ≤ Word.greatest) (target : Int) :
    ∃ g : Gen σ Int, range lo hi target = .ok g := by
  unfold range Bounds.between Bounds.make
  rw [dif_pos hle, dif_pos ⟨low, high⟩]
  exact ⟨_, rfl⟩

theorem plain_range {g : Gen σ Int} (h : range lo hi target = .ok g) : g.sample.Plain := by
  obtain ⟨b, rfl, -⟩ := range_ok h
  exact .draw b

theorem plain_rangeTargetless {g : Gen σ Int} (h : rangeTargetless lo hi = .ok g) :
    g.sample.Plain := by
  obtain ⟨b, _, hb⟩ := Except.bind_eq_ok.mp h
  cases hb
  exact .draw _

theorem plain_pick {g : Gen σ α} (h : pick values = .ok g) : g.sample.Plain := by
  cases values with
  | nil => cases h
  | cons first others =>
    obtain ⟨b, _, hb⟩ := Except.bind_eq_ok.mp h
    cases hb
    exact plain_ofPositions first others b

theorem plain_pickTargetless {g : Gen σ α} (h : pickTargetless values = .ok g) :
    g.sample.Plain := by
  cases values with
  | nil => cases h
  | cons first others =>
    obtain ⟨b, _, hb⟩ := Except.bind_eq_ok.mp h
    cases hb
    exact plain_ofPositions first others b.targetless

theorem plain_oneOf {first : Gen σ α} (hc : ∀ c ∈ first :: others, c.sample.Plain)
    (h : oneOf first others = .ok g) : g.sample.Plain := by
  obtain ⟨b, _, hb⟩ := Except.bind_eq_ok.mp h
  cases hb
  exact plain_among hc b

theorem plain_ofList {choices : List (Int × Gen σ α)} (hc : ∀ c ∈ choices, c.2.sample.Plain)
    (hw : Weighted.ofList choices = .ok w) (b : Bounds) : (ofWeighted w b).sample.Plain := by
  refine plain_ofWeighted (fun c hm => ?_) b
  obtain ⟨weight, hm⟩ := Weighted.ofList_mem hw hm
  exact hc _ hm

theorem plain_frequency {choices : List (Int × Gen σ α)}
    (hc : ∀ c ∈ choices, c.2.sample.Plain) (h : frequency choices = .ok g) : g.sample.Plain := by
  obtain ⟨w, hw, h⟩ := Except.bind_eq_ok.mp h
  obtain ⟨b, _, hb⟩ := Except.bind_eq_ok.mp h
  cases hb
  exact plain_ofList hc hw b

theorem plain_frequencyTargetless {choices : List (Int × Gen σ α)}
    (hc : ∀ c ∈ choices, c.2.sample.Plain) (h : frequencyTargetless choices = .ok g) :
    g.sample.Plain := by
  obtain ⟨w, hw, h⟩ := Except.bind_eq_ok.mp h
  obtain ⟨b, _, hb⟩ := Except.bind_eq_ok.mp h
  cases hb
  exact plain_ofList hc hw b.targetless

/-- Every composed generator is a plain sampler with a way of writing its values. -/
theorem Composed.plain {g : Gen σ α} (h : g.Composed) : g.sample.Plain := by
  induction h with
  | constant a => exact .pure a
  | draw b => exact .draw b
  | range h => exact plain_range h
  | rangeTargetless h => exact plain_rangeTargetless h
  | pick h => exact plain_pick h
  | pickTargetless h => exact plain_pickTargetless h
  | bool => exact .bind (.draw _) fun _ => .ofExcept _
  | oneOf _ h ih => exact plain_oneOf ih h
  | frequency _ h ih => exact plain_frequency ih h
  | frequencyTargetless _ h ih => exact plain_frequencyTargetless ih h
  | listsOf _ _ items sizes => exact .bind sizes fun size => items.replicate size.toNat
  | tuplesOf _ ih =>
    refine .sequence fun body hb => ?_
    obtain ⟨g, hg, rfl⟩ := List.mem_map.mp hb
    exact ih g hg
  | map f _ g => exact .bind g fun _ => .ofExcept _
  | map2 f _ g => exact .bind g fun _ => .bind g fun _ => .ofExcept _
  | map3 f _ g => exact .bind g fun _ => .bind g fun _ => .bind g fun _ => .ofExcept _
  | mutate _ f g => exact .bind g f
  | flatMap _ _ g f => exact .bind g f
  | zip f _ _ g h => exact .bind g fun _ => .bind h fun _ => .ofExcept _
  | zip3 f _ _ _ g h i =>
    exact .bind g fun _ => .bind h fun _ => .bind i fun _ => .ofExcept _
  | assuming accept _ g => exact .assuming accept g
  | mix _ _ g h =>
    refine .bind (.draw _) fun side => ?_
    by_cases hs : side = 0
    · rw [if_pos hs]
      exact g
    · rw [if_neg hs]
      exact h
  | mixWeighted weight _ _ g h =>
    refine .bind (.draw _) fun picked => ?_
    by_cases hp : picked < weight
    · rw [if_pos hp]
      exact h
    · rw [if_neg hp]
      exact g
  | optional percentEmpty _ g =>
    refine .bind g fun a => .bind (.draw _) fun picked => ?_
    by_cases hp : picked < percentEmpty
    · rw [if_pos hp]
      exact .pure none
    · rw [if_neg hp]
      exact .pure (some a)
  | describedAs describe _ g => exact g

end Gen

end Refute

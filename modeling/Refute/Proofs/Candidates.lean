import Mathlib.Data.List.Forall2
import Refute.Proofs.Minimality
import Refute.Proofs.Moves

namespace Refute

namespace Draw

/-- A value on the way from that of the draw to its target, or anywhere within the bounds where
there is none. -/
structure Admits (d : Draw) (v : Int) : Prop where
  allowed : d.bounds.allows v
  between : ∀ target ∈ d.bounds.target, min d.value target ≤ v ∧ v ≤ max d.value target

theorem admits_value {d : Draw} (h : d.isLegal) : d.Admits d.value :=
  ⟨h, fun _ _ => ⟨Int.min_le_left .., Int.le_max_left ..⟩⟩

/-- On the way from a value on the way, wherever within the bounds that leads if there is no
target. -/
theorem Admits.onward {d : Draw} (h : d.Admits v) (hallowed : d.bounds.allows target)
    (htarget : ∀ t ∈ d.bounds.target, t = target) (low : min v target ≤ w)
    (high : w ≤ max v target) : d.Admits w := by
  obtain ⟨hv, hbetween⟩ := h
  rw [Bounds.allows_iff] at hv hallowed
  refine ⟨Bounds.allows_iff.mpr (by omega), fun t ht => ?_⟩
  have hway := hbetween t ht
  cases htarget t ht
  omega

end Draw

/-- The trace gets shorter, or its values are such as its draws admit. -/
inductive Trace.Leads (t : Trace) (c : List Int) : Prop where
  | shorter : c <+: t.values → c.length < t.length → Leads t c
  | moved : List.Forall₂ Draw.Admits t c → Leads t c

theorem forall₂_set {R : α → β → Prop} {as : List α} {bs : List β} (h : List.Forall₂ R as bs)
    {i : Nat} (hv : ∀ a, as[i]? = some a → R a v) : List.Forall₂ R as (bs.set i v) := by
  induction h generalizing i with
  | nil => exact .nil
  | cons hab hrest ih =>
    cases i with
    | zero => exact .cons (hv _ rfl) hrest
    | succ i => exact .cons hab (ih hv)

theorem Trace.admits_values {t : Trace} (h : ∀ d ∈ t, d.isLegal) :
    List.Forall₂ Draw.Admits t t.values := by
  induction t with
  | nil => exact .nil
  | cons d t ih =>
    obtain ⟨hd, ht⟩ := List.forall_mem_cons.mp h
    exact .cons (Draw.admits_value hd) (ih ht)

namespace Shrink

theorem destination_ok (h : destination b r = .ok target r') :
    b.allows target ∧ ∀ t ∈ b.target, t = target := by
  unfold destination at h
  cases hb : b.target with
  | some t =>
    rw [hb] at h
    cases h
    exact ⟨Bounds.allows_iff.mpr (b.target_mem target hb), fun _ ht => (Option.some.inj ht).symm⟩
  | none =>
    rw [hb] at h
    refine ⟨Bounds.allows_iff.mpr (Xorshift.between_mem h), fun t ht => ?_⟩
    cases ht

/-- Where a random move begins and where it may lead: one value is moved towards its destination. -/
theorem randomMove_eq_ok {t : Trace} (h : randomMove t values r = .ok moved r') :
    moved = values ∨ ∃ i d target w r₁ r₂, t[i]? = some d ∧ i < values.length ∧
      destination d.bounds r₁ = .ok target r₂ ∧ min (values.getD i 0) target ≤ w ∧
      w ≤ max (values.getD i 0) target ∧ moved = values.set i w := by
  obtain ⟨index, r₁, hi, h⟩ := Act.bind_eq_ok.mp h
  obtain ⟨d, r₂, hd, h⟩ := Act.bind_eq_ok.mp h
  obtain ⟨target, r₃, ht, h⟩ := Act.bind_eq_ok.mp h
  split at h
  · cases h
    exact .inl rfl
  · obtain ⟨w, r₄, hw, h⟩ := Act.bind_eq_ok.mp h
    cases h
    have hindex := Xorshift.between_mem hi
    obtain ⟨i, rfl⟩ := Int.eq_ofNat_of_zero_le hindex.1
    have hway := Xorshift.between_mem hw
    refine .inr ⟨i, d, target, w, _, _, ?_, by omega, ht, hway.1, hway.2, rfl⟩
    obtain ⟨hget, -⟩ := Act.ofExcept_eq_ok.mp hd
    simp only [Trace.get, itemAt?_natCast] at hget
    split at hget
    · rename_i hsome
      cases hget
      exact hsome
    · cases hget

theorem randomMove_admits {t : Trace} (hv : List.Forall₂ Draw.Admits t values)
    (h : randomMove t values r = .ok moved r') : List.Forall₂ Draw.Admits t moved := by
  obtain rfl | ⟨i, d, target, w, r₁, r₂, hd, hi, htarget, hlow, hhigh, rfl⟩ := randomMove_eq_ok h
  · exact hv
  · refine forall₂_set hv fun a ha => ?_
    cases hd.symm.trans ha
    obtain ⟨hallowed, hwhere⟩ := destination_ok htarget
    have hcurrent : d.Admits (values.getD i 0) := by
      obtain ⟨hlt, rfl⟩ := List.getElem?_eq_some_iff.mp hd
      rw [List.getD_eq_getElem?_getD, List.getElem?_eq_getElem hi]
      exact hv.get hlt hi
    exact hcurrent.onward hallowed hwhere hlow hhigh

theorem changedMove_admits {t : Trace} (ht : ∀ d ∈ t, d.isLegal)
    (h : changedMove t r = .ok moved r') : List.Forall₂ Draw.Admits t moved := by
  obtain ⟨once, r₁, honce, h⟩ := Act.bind_eq_ok.mp h
  have hfirst := randomMove_admits (Trace.admits_values ht) honce
  split at h
  · cases h
    exact hfirst
  · obtain ⟨twice, r₂, htwice, h⟩ := Act.bind_eq_ok.mp h
    exact randomMove_admits (randomMove_admits hfirst htwice) h

theorem tdiv_two (n : Int) : n.tdiv 2 = if 0 ≤ n then n / 2 else -(-n / 2) := by
  split
  · rename_i hn
    exact Int.tdiv_eq_ediv_of_nonneg hn
  · rename_i hn
    rw [← Int.tdiv_eq_ediv_of_nonneg (by omega), Int.neg_tdiv, Int.neg_neg]

theorem closer_nearer {value target v : Int} (h : v ∈ closer value target) :
    (v - target).natAbs < (value - target).natAbs ∧ min value target ≤ v ∧
      v ≤ max value target := by
  have hne : value ≠ target := by
    rintro rfl
    simp [closer] at h
  rcases (mem_closer hne).mp h with rfl | rfl | rfl
  · omega
  · rw [tdiv_two]
    split <;> omega
  · split <;> omega

/-- Every edit that shortens nothing puts one value nearer to its target. -/
theorem exists_of_mem_moves {t : Trace} (h : e ∈ (t.mapIdx movesAt).flatten) :
    ∃ i d target v, t[i]? = some d ∧ d.bounds.target = some target ∧
      v ∈ closer d.value target ∧ e = .put i v := by
  obtain ⟨es, hes, he⟩ := List.mem_flatten.mp h
  obtain ⟨i, hi, rfl⟩ := List.mem_mapIdx.mp hes
  unfold movesAt at he
  cases htarget : t[i].bounds.target with
  | none =>
    rw [htarget] at he
    cases he
  | some target =>
    rw [htarget] at he
    obtain ⟨v, hv, rfl⟩ := List.mem_map.mp he
    exact ⟨i, t[i], target, v, List.getElem?_eq_getElem hi, htarget, hv, rfl⟩

theorem beginning_of_mem_shortenings {t : Trace} (hne : t ≠ []) (h : e ∈ shortenings t.length) :
    e.apply t.values <+: t.values ∧ (e.apply t.values).length < t.length := by
  have hl : 0 < t.length := List.length_pos_iff.mpr hne
  have hkeep : ∃ n < t.length, e = .keep n := by
    unfold shortenings at h
    split at h
    · rcases List.mem_pair.mp h with rfl | rfl
      · exact ⟨_, by omega, rfl⟩
      · exact ⟨_, by omega, rfl⟩
    · obtain rfl := List.mem_singleton.mp h
      exact ⟨_, by omega, rfl⟩
  obtain ⟨n, hn, rfl⟩ := hkeep
  refine ⟨List.take_prefix .., ?_⟩
  rw [Edit.apply, List.length_take, Trace.length_values]
  omega

theorem leads_edit {t : Trace} (ht : ∀ d ∈ t, d.isLegal) (he : e ∈ edits t) (hne : t ≠ []) :
    t.Leads (e.apply t.values) := by
  rcases List.mem_append.mp he with he | he
  · obtain ⟨hbeginning, hlength⟩ := beginning_of_mem_shortenings hne he
    exact .shorter hbeginning hlength
  · obtain ⟨i, d, target, v, hd, htarget, hv, rfl⟩ := exists_of_mem_moves he
    refine .moved (forall₂_set (Trace.admits_values ht) fun a ha => ?_)
    cases hd.symm.trans ha
    obtain ⟨-, hlow, hhigh⟩ := closer_nearer hv
    have hallowed := Bounds.allows_iff.mpr (d.bounds.target_mem target htarget)
    exact (Draw.admits_value (ht d (List.mem_of_getElem? hd))).onward hallowed
      (fun _ h => Option.some.inj (h.symm.trans htarget)) hlow hhigh

end Shrink

namespace Proposals

theorem offers_ofEdits (h : (ofEdits values es after).Offers asked c random) :
    (∃ e ∈ es, c = e.apply values) ∨ after.Offers asked c random := by
  induction es with
  | nil => exact .inr h
  | cons e es ih =>
    cases h with
    | here hp =>
      cases hp
      exact .inl ⟨e, List.mem_cons_self, rfl⟩
    | later _ h =>
      rcases ih h with ⟨e', he', hc⟩ | hafter
      · exact .inl ⟨e', List.mem_cons_of_mem _ he', hc⟩
      · exact .inr hafter

theorem offers_repeated (h : (repeated propose n).Offers asked c random) :
    propose asked = .ok c random := by
  induction n with
  | zero => cases h
  | succ n ih =>
    cases h with
    | here hp => exact hp
    | later _ h => exact ih h

/-- Whatever is drawn before the turn of a candidate comes. -/
theorem leads_of_offers {t : Trace} (ht : ∀ d ∈ t, d.isLegal)
    (h : (Shrink.targeted moves t).Offers asked c random) : t.Leads c := by
  by_cases hne : t = []
  · subst hne
    cases h
  · rw [Shrink.targeted_of_ne_nil hne] at h
    rcases offers_ofEdits h with ⟨e, he, rfl⟩ | h
    · exact Shrink.leads_edit ht he hne
    · exact .moved (Shrink.changedMove_admits ht (offers_repeated h))

/-- All candidates of a cycle, one after the other, where the generator may be drawn from before
each of them. -/
inductive Yields : Proposals → List (List Int) → Prop where
  | done : Yields .done []
  | next {propose : Act Xorshift (List Int)} {rest : Xorshift → Proposals} (before : Xorshift) :
      propose asked = .ok c random → Yields (rest before) cs →
      Yields (.next propose rest) (c :: cs)

theorem Yields.offers {ps : Proposals} (h : ps.Yields cs) (hc : c ∈ cs) :
    ∃ asked random, ps.Offers asked c random := by
  induction h with
  | done => cases hc
  | next before hp _ ih =>
    rcases List.mem_cons.mp hc with rfl | hc
    · exact ⟨_, _, .here hp⟩
    · obtain ⟨asked, random, ho⟩ := ih hc
      exact ⟨asked, random, .later before ho⟩

theorem yields_ofList (h : (ofList candidates after).Yields cs) :
    ∃ others, cs = candidates ++ others ∧ after.Yields others := by
  induction candidates generalizing cs with
  | nil => exact ⟨cs, rfl, h⟩
  | cons candidate candidates ih =>
    cases h with
    | next _ hp h =>
      cases hp
      obtain ⟨others, rfl, hothers⟩ := ih h
      exact ⟨others, rfl, hothers⟩

theorem yields_repeated (h : (repeated propose n).Yields cs) : cs.length = n := by
  induction n generalizing cs with
  | zero =>
    cases h
    rfl
  | succ n ih =>
    cases h with
    | next _ _ h => exact congrArg (· + 1) (ih h)

/-- With nothing drawn in between, either the candidates are made or a fault ends it that a
candidate may end in. -/
theorem collect_ends {P : Fault → Prop} {ps : Proposals} (h : ps.FailsOnly P) (r : Xorshift) :
    (∃ cs r', ps.collect r = .ok cs r' ∧ ps.Yields cs) ∨
      ∃ fault r', ps.collect r = .error fault r' ∧ P fault := by
  induction ps generalizing r with
  | done => exact .inl ⟨[], r, rfl, .done⟩
  | next propose rest ih =>
    cases hp : propose r with
    | error fault r₁ => exact .inr ⟨fault, r₁, Act.bind_error hp, h.1 _ _ _ hp⟩
    | ok c r₁ =>
      rcases ih r (h.2 r) r₁ with ⟨cs, r₂, hcs, hyields⟩ | ⟨fault, r₂, hfault, hP⟩
      · exact .inl ⟨c :: cs, r₂, (Act.bind_ok hp).trans (Act.bind_ok hcs), .next r hp hyields⟩
      · exact .inr ⟨fault, r₂, (Act.bind_ok hp).trans (Act.bind_error hfault), hP⟩

end Proposals

namespace Shrink

/-- What comes of the edits that shorten nothing: one value is changed, and is nearer to its target
than it was. -/
def Nudged (t : Trace) (c : List Int) : Prop :=
  ∃ i d target v, t[i]? = some d ∧ d.bounds.target = some target ∧ v ≠ d.value ∧
    (v - target).natAbs < d.distance ∧ c = t.values.set i v

theorem nudged_of_mem_moves {t : Trace} (h : e ∈ (t.mapIdx movesAt).flatten) :
    Nudged t (e.apply t.values) := by
  obtain ⟨i, d, target, v, hd, htarget, hv, rfl⟩ := exists_of_mem_moves h
  have hnearer := (closer_nearer hv).1
  have hdistance : d.distance = (d.value - target).natAbs := by rw [Draw.distance, htarget]
  refine ⟨i, d, target, v, hd, htarget, ?_, by omega, rfl⟩
  rintro rfl
  exact Nat.lt_irrefl _ hnearer

/-- The candidates for a trace within its bounds. Each is a beginning of the trace, or a trace of
values that its draws admit, whatever was drawn before its turn. Made one after the other they come
to an end, unless a draw goes on for ever. If the trace has draws, first come beginnings of it; then
traces with one value nearer to its target, among them for every value away from its target the
trace with that value at the target, and with it one step closer; then as many as there are random
moves. -/
theorem targeted_leads {t : Trace} (ht : ∀ d ∈ t, d.isLegal) (moves : Nat) :
    (∀ asked c random, (targeted moves t).Offers asked c random → t.Leads c) ∧
    (∀ r, (∃ cs r', (targeted moves t).collect r = .ok cs r' ∧ (targeted moves t).Yields cs) ∨
      ∃ fault r', (targeted moves t).collect r = .error fault r' ∧ fault.Endless) ∧
    ∀ cs, (targeted moves t).Yields cs →
      (∀ c ∈ cs, t.Leads c) ∧
      (t = [] → cs = []) ∧
      (t ≠ [] → ∃ beginnings nudged random, cs = beginnings ++ nudged ++ random ∧
        (∀ c ∈ beginnings, c <+: t.values ∧ c.length < t.length) ∧
        (∀ c ∈ nudged, Nudged t c) ∧
        (∀ i d target, t[i]? = some d → d.bounds.target = some target → d.value ≠ target →
          t.values.set i target ∈ nudged ∧
          t.values.set i (if target < d.value then d.value - 1 else d.value + 1) ∈ nudged) ∧
        random.length = moves) := by
  refine ⟨fun asked c random => Proposals.leads_of_offers ht,
    Proposals.collect_ends (Proposals.targeted_failsOnly moves t), fun cs h => ⟨?_, ?_, ?_⟩⟩
  · intro c hc
    obtain ⟨_, _, ho⟩ := h.offers hc
    exact Proposals.leads_of_offers ht ho
  · rintro rfl
    cases h
    rfl
  · intro hne
    rw [targeted_eq, if_neg (by simpa using hne)] at h
    obtain ⟨random, rfl, hrandom⟩ := Proposals.yields_ofList h
    refine ⟨(shortenings t.length).map (Edit.apply t.values),
      (t.mapIdx movesAt).flatten.map (Edit.apply t.values), random, ?_, ?_, ?_, ?_, ?_⟩
    · rw [fixed, edits, List.map_append]
    · intro c hc
      obtain ⟨e, he, rfl⟩ := List.mem_map.mp hc
      exact beginning_of_mem_shortenings hne he
    · intro c hc
      obtain ⟨e, he, rfl⟩ := List.mem_map.mp hc
      exact nudged_of_mem_moves he
    · intro i d target hd htarget hv
      constructor
      · exact List.mem_map_of_mem
          (mem_moves_of_closer hd htarget ((mem_closer hv).mpr (.inl rfl)))
      · exact List.mem_map_of_mem
          (mem_moves_of_closer hd htarget ((mem_closer hv).mpr (.inr (.inr rfl))))
    · exact Proposals.yields_repeated hrandom

/-- One value goes to zero, the other may go anywhere. -/
def sevenAndFifty : Trace :=
  [⟨.percent, 7⟩, ⟨Bounds.percentage.targetless, 50⟩]

def sevenAndFiftyCandidates : List (List Int) :=
  [[7], [7], [0, 50], [3, 50], [6, 50], [7, 38], [7, 43]]

/-- Half of two draws is all but the last, so that the first candidate comes twice. -/
theorem targeted_leads_sevenAndFifty :
    (∀ d ∈ sevenAndFifty, d.isLegal) ∧
      ∃ random, (targeted 2 sevenAndFifty).collect (.ofSeed 1) =
          .ok sevenAndFiftyCandidates random ∧
        (∀ c ∈ sevenAndFiftyCandidates, sevenAndFifty.Leads c) ∧
        ∃ beginnings nudged moved, sevenAndFiftyCandidates = beginnings ++ nudged ++ moved ∧
          [0, 50] ∈ nudged ∧ [6, 50] ∈ nudged ∧ moved.length = 2 := by
  have hlegal : ∀ d ∈ sevenAndFifty, d.isLegal := by decide
  obtain ⟨-, hends, hyields⟩ := targeted_leads hlegal 2
  have houtcome : ((targeted 2 sevenAndFifty).collect.outcome (.ofSeed 1)).1 =
      .ok sevenAndFiftyCandidates := by decide +kernel
  rcases hends (.ofSeed 1) with ⟨cs, random, hcs, hy⟩ | ⟨fault, random, hfault, -⟩
  · rw [Act.outcome_of_ok hcs] at houtcome
    cases houtcome
    obtain ⟨hleads, -, hmany⟩ := hyields _ hy
    obtain ⟨beginnings, nudged, moved, happend, -, -, hclosest, hmoved⟩ := hmany nofun
    obtain ⟨htarget, hstep⟩ := hclosest 0 ⟨.percent, 7⟩ 0 rfl rfl (by decide)
    exact ⟨hlegal, random, hcs, hleads, beginnings, nudged, moved, happend, htarget, hstep, hmoved⟩
  · rw [Act.outcome_of_error hfault] at houtcome
    cases houtcome

end Shrink

end Refute

import Mathlib.Algebra.Order.BigOperators.Group.List
import Mathlib.Algebra.Order.Ring.Int
import Mathlib.Algebra.Order.Ring.Nat
import Mathlib.Data.Nat.ModEq
import Mathlib.Order.Interval.Finset.Nat
import Refute.Proofs.Composed

namespace Refute

namespace Weighted

/-- The choices with a positive weight. -/
def eligible (choices : List (Int × α)) : List (Int × α) :=
  choices.filter fun c => 0 < c.1

def weights (choices : List (Int × α)) : List Nat :=
  choices.map fun c => c.1.toNat

/-- The greatest common divisor: what divides all weights divides it, and nothing else does. -/
def IsDivisor (d : Nat) (choices : List (Int × α)) : Prop :=
  ∀ k : Nat, k ∣ d ↔ ∀ w ∈ weights choices, k ∣ w

/-- What is left of the weights after division. -/
def sharesBy (d : Nat) (choices : List (Int × α)) : List Nat :=
  (weights choices).map (· / d)

/-- As many slots as its share, from where those of the choices before it end. -/
def slots (shares : List Nat) (i : Nat) : Finset Nat :=
  Finset.Ico (shares.take i).sum (shares.take (i + 1)).sum

theorem mem_slots {shares : List Nat} :
    slot ∈ slots shares i ↔ (shares.take i).sum ≤ slot ∧ slot < (shares.take (i + 1)).sum :=
  Finset.mem_Ico

theorem card_slots {shares : List Nat} (h : shares[i]? = some share) :
    (slots shares i).card = share := by
  obtain ⟨hi, rfl⟩ := List.getElem?_eq_some_iff.mp h
  rw [slots, Nat.card_Ico, List.sum_take_succ shares i hi]
  omega

/-- What lies in a range lies in none that follows. -/
theorem not_mem_slots_of_lt {shares : List Nat} (h : slot ∈ slots shares i) (hlt : i < j) :
    slot ∉ slots shares j := by
  have hstart : (shares.take (i + 1)).sum ≤ (shares.take j).sum :=
    List.monotone_sum_take shares hlt
  rw [mem_slots] at h ⊢
  omega

theorem slots_unique {shares : List Nat} (h : slot ∈ slots shares i) (h' : slot ∈ slots shares j) :
    i = j := by
  rcases Nat.lt_trichotomy i j with hlt | heq | hlt
  · exact absurd h' (not_mem_slots_of_lt h hlt)
  · exact heq
  · exact absurd h (not_mem_slots_of_lt h' hlt)

theorem exists_slots {shares : List Nat} (h : slot < shares.sum) :
    ∃ i < shares.length, slot ∈ slots shares i := by
  induction shares generalizing slot with
  | nil => cases h
  | cons share shares ih =>
    by_cases hs : slot < share
    · exact ⟨0, Nat.succ_pos _, mem_slots.mpr (by simpa using hs)⟩
    · rw [List.sum_cons] at h
      have hleft : slot - share < shares.sum := by omega
      obtain ⟨i, hlength, hi⟩ := ih hleft
      rw [mem_slots] at hi
      refine ⟨i + 1, Nat.succ_lt_succ hlength, mem_slots.mpr ?_⟩
      simp only [List.take_succ_cons, List.sum_cons]
      omega

/-- Counting on from choice to choice leads to the one whose range the slot is in. -/
theorem owner?_of_mem_slots {choices : List (Nat × α)} (hc : choices[i]? = some c)
    (h : slot ∈ slots (choices.map Prod.fst) i) : owner? choices slot = some c.2 := by
  induction choices generalizing i slot with
  | nil => cases hc
  | cons first choices ih =>
    obtain ⟨share, a⟩ := first
    rw [mem_slots] at h
    cases i with
    | zero =>
      cases hc
      exact if_pos (by simpa using h.2)
    | succ i =>
      simp only [List.map_cons, List.take_succ_cons, List.sum_cons] at h
      rw [owner?, if_neg (by omega)]
      exact ih hc (mem_slots.mpr (by omega))

theorem total_eq_sum (choices : List (Nat × α)) : total choices = (choices.map Prod.fst).sum := by
  rw [total, List.sum_eq_foldl, List.foldl_map]

/-- Where the slots of each choice start. -/
def starts (next : Nat) : List (Nat × α) → List Nat
  | [] => []
  | (share, _) :: rest => next :: starts (next + share) rest

theorem le_of_mem_starts {choices : List (Nat × α)} (h : start ∈ starts next choices) :
    next ≤ start := by
  induction choices generalizing next with
  | nil => cases h
  | cons c choices ih =>
    rcases List.mem_cons.mp h with rfl | h
    · exact Nat.le_refl _
    · exact Nat.le_trans (Nat.le_add_right _ _) (ih h)

theorem starts_sorted (next : Nat) (choices : List (Nat × α)) :
    (starts next choices).Pairwise (· ≤ ·) := by
  induction choices generalizing next with
  | nil => exact .nil
  | cons c choices ih =>
    exact .cons (fun _ h => Nat.le_trans (Nat.le_add_right _ _) (le_of_mem_starts h)) (ih _)

/-- Where a number is put into a sorted list: behind all that are not larger. -/
def bisectRight (sorted : List Nat) (x : Nat) : Nat :=
  (sorted.takeWhile (· ≤ x)).length

theorem bisectRight_cons_of_le (h : y ≤ x) (sorted : List Nat) :
    bisectRight (y :: sorted) x = bisectRight sorted x + 1 := by
  simp [bisectRight, h]

theorem bisectRight_cons_of_lt (h : x < y) (sorted : List Nat) :
    bisectRight (y :: sorted) x = 0 := by
  simp [bisectRight, h]

theorem lt_bisectRight_iff {sorted : List Nat} (h : sorted.Pairwise (· ≤ ·))
    (hy : sorted[i]? = some y) : i < bisectRight sorted x ↔ y ≤ x := by
  induction sorted generalizing i with
  | nil => cases hy
  | cons first sorted ih =>
    obtain ⟨hfirst, hsorted⟩ := List.pairwise_cons.mp h
    by_cases hle : first ≤ x
    · rw [bisectRight_cons_of_le hle]
      cases i with
      | zero =>
        cases hy
        simp [hle]
      | succ i => rw [Nat.add_lt_add_iff_right, ih hsorted hy]
    · rw [bisectRight_cons_of_lt (Nat.lt_of_not_le hle)]
      have hy' : first ≤ y := by
        cases i with
        | zero => exact (Option.some.inj hy).le
        | succ i => exact hfirst y (List.mem_of_getElem? hy)
      omega

/-- Bisecting leaves the choices that start at the slot or before it. -/
theorem lt_bisectRight_starts {choices : List (Nat × α)}
    (h : (starts next choices)[i]? = some start) :
    i < bisectRight (starts next choices) slot ↔ start ≤ slot :=
  lt_bisectRight_iff (starts_sorted next choices) h

/-- The last choice that starts at a slot or before it owns the slot, wherever counting began. -/
theorem owner?_sub_eq {choices : List (Nat × α)} (hnext : next ≤ slot)
    (h : slot < next + total choices) :
    owner? choices (slot - next) =
      choices[bisectRight (starts next choices) slot - 1]?.map Prod.snd := by
  induction choices generalizing next with
  | nil => exact absurd h (Nat.not_lt_of_le hnext)
  | cons c choices ih =>
    obtain ⟨share, a⟩ := c
    simp only [total_eq_sum, List.map_cons, List.sum_cons] at h ih
    rw [starts, bisectRight_cons_of_le hnext, Nat.add_sub_cancel, owner?]
    by_cases hslot : slot - next < share
    · have hbehind : bisectRight (starts (next + share) choices) slot = 0 := by
        cases choices with
        | nil => rfl
        | cons c choices => exact bisectRight_cons_of_lt (by omega) _
      rw [if_pos hslot, hbehind]
      rfl
    · have hahead : 0 < bisectRight (starts (next + share) choices) slot := by
        cases choices with
        | nil =>
          simp only [List.map_nil, List.sum_nil] at h
          omega
        | cons c choices =>
          rw [starts, bisectRight_cons_of_le (by omega)]
          exact Nat.succ_pos _
      obtain ⟨i, hi⟩ := Nat.exists_eq_succ_of_ne_zero hahead.ne'
      rw [if_neg hslot, Nat.sub_sub, ih (by omega) (by omega), hi]
      rfl

theorem exists_owner {choices : List (Nat × α)} (h : slot < total choices) :
    ∃ a, owner? choices slot = some a := by
  rw [total_eq_sum] at h
  obtain ⟨i, hlength, hslot⟩ := exists_slots h
  rw [List.length_map] at hlength
  exact ⟨_, owner?_of_mem_slots (List.getElem?_eq_getElem hlength) hslot⟩

/-- The choice of a slot is looked up by bisecting the starts. -/
theorem choose_eq {w : Weighted α} (h : slot < total w.shares) :
    w.toList[bisectRight (starts 0 w.shares) slot - 1]?.map Prod.snd = some (w.choose slot) := by
  obtain ⟨a, ha⟩ := exists_owner h
  have hsnd : w.shares.map Prod.snd = w.toList.map Prod.snd := by
    simp only [shares, List.map_map, Function.comp_def]
  rw [← List.getElem?_map, ← hsnd, List.getElem?_map,
    ← owner?_sub_eq (Nat.zero_le slot) (by omega), Nat.sub_zero, choose, Int.toNat_natCast, ha]
  rfl

theorem dvd_divisor {choices : List (Nat × α)} :
    k ∣ divisor choices ↔ ∀ w ∈ choices.map Prod.fst, k ∣ w := by
  have hfold : ∀ d, k ∣ choices.foldl (fun d c => Nat.gcd d c.1) d ↔
      k ∣ d ∧ ∀ w ∈ choices.map Prod.fst, k ∣ w := by
    induction choices with
    | nil => simp
    | cons c choices ih =>
      intro d
      rw [List.foldl_cons, ih, Nat.dvd_gcd_iff, List.map_cons, List.forall_mem_cons, and_assoc]
  exact (hfold 0).trans (and_iff_right (Nat.dvd_zero k))

theorem positive_eq (choices : List (Int × α)) :
    positive choices = (eligible choices).map fun c => (c.1.toNat, c.2) := by
  induction choices with
  | nil => rfl
  | cons c choices ih =>
    unfold positive eligible at ih ⊢
    by_cases h : 0 < c.1
    · simp [h, ih]
    · simp [h, ih]

theorem pos_of_mem_eligible {choices : List (Int × α)} (h : c ∈ eligible choices) : 0 < c.1 := by
  simpa using (List.mem_filter.mp h).2

theorem ofList_ok {choices : List (Int × α)} (h : eligible choices ≠ []) :
    ∃ w, ofList choices = .ok w ∧ w.toList = positive choices := by
  have hne : positive choices ≠ [] := by
    rw [positive_eq]
    simpa using h
  have hempty : ¬ choices.isEmpty := by
    rw [List.isEmpty_iff]
    rintro rfl
    exact h rfl
  obtain ⟨first, others, hp⟩ := List.exists_cons_of_ne_nil hne
  refine ⟨⟨first, others⟩, ?_, hp.symm⟩
  rw [ofList, if_neg hempty, hp]

/-- The choices with their shares. -/
def reduced (choices : List (Int × α)) : List (Nat × α) :=
  (positive choices).map fun c => (c.1 / divisor (positive choices), c.2)

theorem shares_eq_reduced {w : Weighted α} (h : w.toList = positive choices) :
    w.shares = reduced choices := by
  simp only [shares, h, reduced]

theorem map_fst_positive (choices : List (Int × α)) :
    (positive choices).map Prod.fst = weights (eligible choices) := by
  rw [positive_eq, List.map_map]
  rfl

theorem divisor_eq {choices : List (Int × α)} (hd : IsDivisor d (eligible choices)) :
    divisor (positive choices) = d := by
  refine Nat.dvd_left_iff_eq.mp fun k => ?_
  rw [dvd_divisor, map_fst_positive]
  exact (hd k).symm

theorem map_fst_reduced {choices : List (Int × α)} (hd : IsDivisor d (eligible choices)) :
    (reduced choices).map Prod.fst = sharesBy d (eligible choices) := by
  rw [reduced, divisor_eq hd, List.map_map, sharesBy, ← map_fst_positive, List.map_map]
  rfl

theorem getElem?_reduced {choices : List (Int × α)} {i : Nat} {c : Int × α}
    (hc : (eligible choices)[i]? = some c) :
    ∃ share, (reduced choices)[i]? = some (share, c.2) := by
  unfold reduced
  rw [positive_eq, List.getElem?_map, List.getElem?_map, hc]
  exact ⟨_, rfl⟩

theorem sum_sharesBy {choices : List (Int × α)} (hd : IsDivisor d choices) :
    (sharesBy d choices).sum = (weights choices).sum / d := by
  have hdvd := (hd d).mp (Nat.dvd_refl d)
  unfold sharesBy
  generalize weights choices = ws at hdvd ⊢
  induction ws with
  | nil => exact (Nat.zero_div d).symm
  | cons w ws ih =>
    rw [List.forall_mem_cons] at hdvd
    rw [List.map_cons, List.sum_cons, List.sum_cons, ih hdvd.2, Nat.add_div_of_dvd_right hdvd.1]

theorem sum_sharesBy_pos {choices : List (Int × α)} (hd : IsDivisor d (eligible choices))
    (h : eligible choices ≠ []) : 0 < (sharesBy d (eligible choices)).sum := by
  obtain ⟨c, hc⟩ := List.exists_mem_of_ne_nil _ h
  have hw : c.1.toNat ∈ weights (eligible choices) := List.mem_map_of_mem hc
  have hpos := pos_of_mem_eligible hc
  have hdvd : d ∣ c.1.toNat := (hd d).mp (Nat.dvd_refl d) _ hw
  have hshare : 0 < c.1.toNat / d :=
    Nat.div_pos (Nat.le_of_dvd (by omega) hdvd) (Nat.pos_of_dvd_of_pos hdvd (by omega))
  exact hshare.trans_le (List.le_sum_of_mem (List.mem_map_of_mem hw))

theorem first_of_shares {w : Weighted α} (h : w.shares = (share, a) :: rest) : w.first.2 = a := by
  simp only [shares, toList, List.map_cons, List.cons.injEq, Prod.mk.injEq] at h
  exact h.1.2

/-- The slots are numbered from zero, and shrink towards it. -/
theorem bounds_ok {w : Weighted α} (hpos : 0 < total w.shares) (hfit : total w.shares ≤ 2 ^ 63) :
    ∃ b, w.bounds = .ok b ∧ b.lo = 0 ∧ b.hi = total w.shares - 1 ∧ b.target = some 0 := by
  have hle : (0 : Int) ≤ total w.shares - 1 := by omega
  have hword : Word.least ≤ 0 ∧ (total w.shares - 1 : Int) ≤ Word.greatest := by
    simp only [Word.least, Word.greatest]
    omega
  unfold bounds Bounds.between Bounds.make
  rw [dif_pos hle, dif_pos hword]
  exact ⟨_, rfl, rfl, rfl, congrArg some (Bounds.clamp_of_mem (Int.le_refl 0) hle)⟩

end Weighted

namespace Gen

/-- The shares are all that a choice by weight depends on. -/
theorem ofWeighted_congr {w w' : Weighted (Gen σ α)} (h : w.shares = w'.shares) (b : Bounds) :
    ofWeighted w b = ofWeighted w' b := by
  have hfirst : w.first.2 = w'.first.2 := Weighted.first_of_shares h
  simp only [ofWeighted, Weighted.choose, h, hfirst]

theorem frequency_eq {choices : List (Int × Gen σ α)} (h : Weighted.ofList choices = .ok w) :
    frequency choices = w.bounds.map (ofWeighted w) ∧
      frequencyTargetless choices = w.bounds.map fun b => ofWeighted w b.targetless := by
  unfold frequency frequencyTargetless
  rw [h]
  show (w.bounds >>= fun b => pure (ofWeighted w b)) = _ ∧
    (w.bounds >>= fun b => pure (ofWeighted w b.targetless)) = _
  cases w.bounds <;> exact ⟨rfl, rfl⟩

theorem frequency_congr {choices choices' : List (Int × Gen σ α)}
    (hne : Weighted.eligible choices ≠ []) (hne' : Weighted.eligible choices' ≠ [])
    (h : Weighted.reduced choices = Weighted.reduced choices') :
    frequency choices = frequency choices' ∧
      frequencyTargetless choices = frequencyTargetless choices' := by
  obtain ⟨w, hw, hlist⟩ := Weighted.ofList_ok hne
  obtain ⟨w', hw', hlist'⟩ := Weighted.ofList_ok hne'
  have hshares : w.shares = w'.shares := by
    rw [Weighted.shares_eq_reduced hlist, Weighted.shares_eq_reduced hlist', h]
  have hbounds : w.bounds = w'.bounds := by simp only [Weighted.bounds, hshares]
  rw [(frequency_eq hw).1, (frequency_eq hw).2, (frequency_eq hw').1, (frequency_eq hw').2,
    hbounds, funext (ofWeighted_congr hshares)]
  exact ⟨rfl, rfl⟩

/-- Goes on, after a slot was drawn, as the choice that has it. -/
def DelegatesTo (g : Gen σ α) (b : Bounds) (shares : List Nat) (owners : List (Gen σ α)) : Prop :=
  ∃ pick : Nat → Gen σ α,
    g.sample = (Sampler.draw b >>= fun slot => (pick slot.toNat).sample) ∧
    ∀ i owner, owners[i]? = some owner → ∀ slot ∈ Weighted.slots shares i, pick slot = owner

theorem delegatesTo_ofWeighted {choices : List (Int × Gen σ α)} {w : Weighted (Gen σ α)}
    (hlist : w.toList = Weighted.positive choices)
    (hd : Weighted.IsDivisor d (Weighted.eligible choices)) (b : Bounds) :
    (ofWeighted w b).DelegatesTo b (Weighted.sharesBy d (Weighted.eligible choices))
      ((Weighted.eligible choices).map Prod.snd) := by
  refine ⟨fun slot => w.choose slot, ?_, ?_⟩
  · simp only [ofWeighted, Weighted.choose, Int.toNat_natCast]
  · intro i owner ho slot hslot
    rw [List.getElem?_map] at ho
    obtain ⟨c, hc, rfl⟩ := Option.map_eq_some_iff.mp ho
    obtain ⟨share, hshare⟩ := Weighted.getElem?_reduced hc
    rw [← Weighted.map_fst_reduced hd] at hslot
    have howner := Weighted.owner?_of_mem_slots hshare hslot
    simp only [Weighted.choose, Weighted.shares_eq_reduced hlist, Int.toNat_natCast, howner,
      Option.getD_some]

end Gen

namespace Weighted

theorem eligible_scaled (choices : List (Int × α)) {k : Int} (hk : 0 < k) :
    eligible (choices.map fun c => (k * c.1, c.2)) =
      (eligible choices).map fun c => (k * c.1, c.2) := by
  simp only [eligible, List.filter_map, Function.comp_def, mul_pos_iff_of_pos_left hk]

theorem divisor_scaled (choices : List (Nat × α)) (k : Nat) :
    divisor (choices.map fun c => (k * c.1, c.2)) = k * divisor choices := by
  have hfold : ∀ d, (choices.map fun c => (k * c.1, c.2)).foldl (fun d c => Nat.gcd d c.1) (k * d) =
      k * choices.foldl (fun d c => Nat.gcd d c.1) d := by
    induction choices with
    | nil => exact fun _ => rfl
    | cons c choices ih =>
      intro d
      rw [List.map_cons, List.foldl_cons, List.foldl_cons, Nat.gcd_mul_left, ih]
  exact hfold 0

/-- Weights in proportion have the same shares. -/
theorem reduced_scaled (choices : List (Int × α)) {k : Int} (hk : 0 < k) :
    reduced (choices.map fun c => (k * c.1, c.2)) = reduced choices := by
  have hk' : 0 < k.toNat := by omega
  have hpositive : positive (choices.map fun c => (k * c.1, c.2)) =
      (positive choices).map fun c => (k.toNat * c.1, c.2) := by
    rw [positive_eq, positive_eq, eligible_scaled choices hk, List.map_map, List.map_map]
    refine List.map_congr_left fun c hc => ?_
    exact congrArg (·, c.2) (Int.toNat_mul hk.le (pos_of_mem_eligible hc).le)
  simp only [reduced, hpositive, divisor_scaled, List.map_map, Function.comp_def,
    Nat.mul_div_mul_left _ _ hk']

theorem reduced_of_eligible {choices choices' : List (Int × α)}
    (h : eligible choices = eligible choices') : reduced choices = reduced choices' := by
  simp only [reduced, positive_eq, h]

theorem eligible_equal {k : Int} (hk : 0 < k) (a : α) (as : List α) :
    eligible ((a :: as).map (k, ·)) = (a :: as).map (k, ·) := by
  simp [eligible, hk]

/-- Equal weights leave one slot to each choice. -/
theorem reduced_equal {k : Int} (hk : 0 < k) (a : α) (as : List α) :
    reduced ((a :: as).map (k, ·)) = (a :: as).map (1, ·) := by
  have hpositive : positive ((a :: as).map (k, ·)) = (a :: as).map (k.toNat, ·) := by
    rw [positive_eq, eligible_equal hk, List.map_map]
    rfl
  have hdivisor : divisor ((a :: as).map (k.toNat, ·)) = k.toNat := by
    refine Nat.dvd_left_iff_eq.mp fun d => ?_
    simp +contextual [dvd_divisor]
  have hshare : k.toNat / k.toNat = 1 := Nat.div_self (by omega)
  rw [reduced, hpositive, hdivisor, List.map_map]
  simp only [Function.comp_def, hshare]

theorem owner?_equal (as : List α) (slot : Nat) : owner? (as.map (1, ·)) slot = as[slot]? := by
  induction as generalizing slot with
  | nil => rfl
  | cons a as ih =>
    cases slot with
    | zero => rfl
    | succ slot => exact (ih slot)

end Weighted

namespace Gen

/-- Among choices of equal weight one is drawn by its position. -/
theorem frequency_equal {k : Int} (hk : 0 < k) (first : Gen σ α) (others : List (Gen σ α))
    (hfit : others.length + 1 ≤ 2 ^ 63) :
    ∃ g h, frequency ((first :: others).map (k, ·)) = .ok g ∧ oneOf first others = .ok h ∧
      g.sample = h.sample := by
  have hne : Weighted.eligible ((first :: others).map (k, ·)) ≠ [] := by
    simp [Weighted.eligible, hk]
  obtain ⟨w, hw, hlist⟩ := Weighted.ofList_ok hne
  have hshares := (Weighted.shares_eq_reduced hlist).trans (Weighted.reduced_equal hk first others)
  have htotal : Weighted.total w.shares = others.length + 1 := by
    rw [Weighted.total_eq_sum, hshares, List.map_map]
    simp [Function.comp_def, Nat.add_comm]
  obtain ⟨b, hb, -⟩ := Weighted.bounds_ok (w := w) (by omega) (by omega)
  have hpositions : positions (others.length + 1) = .ok b := by
    rw [← hb, Weighted.bounds, htotal]
    rfl
  refine ⟨ofWeighted w b, among first others b, ?_, ?_, ?_⟩
  · rw [(frequency_eq hw).1, hb]
    rfl
  · rw [oneOf, hpositions]
    rfl
  · have hfirst : w.first.2 = first := Weighted.first_of_shares hshares
    simp only [sample_among, ofWeighted, Weighted.choose, hshares, hfirst, Weighted.owner?_equal]

theorem frequency_delegates {choices : List (Int × Gen σ α)}
    (hne : Weighted.eligible choices ≠ [])
    (hd : Weighted.IsDivisor d (Weighted.eligible choices))
    (hfit : (Weighted.weights (Weighted.eligible choices)).sum / d ≤ 2 ^ 63) :
    ∃ b g h, frequency choices = .ok g ∧ frequencyTargetless choices = .ok h ∧ b.lo = 0 ∧
      b.hi = ((Weighted.weights (Weighted.eligible choices)).sum / d : Nat) - (1 : Int) ∧
      b.target = some 0 ∧
      g.DelegatesTo b (Weighted.sharesBy d (Weighted.eligible choices))
        ((Weighted.eligible choices).map Prod.snd) ∧
      h.DelegatesTo b.targetless (Weighted.sharesBy d (Weighted.eligible choices))
        ((Weighted.eligible choices).map Prod.snd) := by
  obtain ⟨w, hw, hlist⟩ := Weighted.ofList_ok hne
  have htotal : Weighted.total w.shares =
      (Weighted.weights (Weighted.eligible choices)).sum / d := by
    rw [Weighted.total_eq_sum, Weighted.shares_eq_reduced hlist, Weighted.map_fst_reduced hd,
      Weighted.sum_sharesBy hd]
  have hpos := Weighted.sum_sharesBy_pos hd hne
  rw [Weighted.sum_sharesBy hd] at hpos
  obtain ⟨b, hb, hlo, hhi, htarget⟩ := Weighted.bounds_ok (w := w) (by omega) (by omega)
  rw [htotal] at hhi
  refine ⟨b, ofWeighted w b, ofWeighted w b.targetless, ?_, ?_, hlo, hhi, htarget,
    delegatesTo_ofWeighted hlist hd b, delegatesTo_ofWeighted hlist hd b.targetless⟩
  · rw [(frequency_eq hw).1, hb]
    rfl
  · rw [(frequency_eq hw).2, hb]
    rfl

/-- A choice by weight draws one slot, of as many as the positive weights come to after division
by their greatest common divisor, and goes on as the owner of the slot. The owners are the choices
with positive weights, in order; each owns as many slots in a row as its weight comes to after the
division, and every slot has one owner. So weights in proportion, or choices without a positive
weight among the others, make no difference, and where the weights are equal an owner is drawn as
one of several generators is. -/
theorem frequency_slots {choices : List (Int × Gen σ α)} (hpos : ∃ c ∈ choices, 0 < c.1)
    (hd : Weighted.IsDivisor d (Weighted.eligible choices))
    (hfit : (Weighted.weights (Weighted.eligible choices)).sum / d ≤ 2 ^ 63) :
    (∃ b g h, frequency choices = .ok g ∧ frequencyTargetless choices = .ok h ∧ b.lo = 0 ∧
      b.hi = ((Weighted.weights (Weighted.eligible choices)).sum / d : Nat) - (1 : Int) ∧
      b.target = some 0 ∧
      g.DelegatesTo b (Weighted.sharesBy d (Weighted.eligible choices))
        ((Weighted.eligible choices).map Prod.snd) ∧
      h.DelegatesTo b.targetless (Weighted.sharesBy d (Weighted.eligible choices))
        ((Weighted.eligible choices).map Prod.snd)) ∧
    (∀ i c, (Weighted.eligible choices)[i]? = some c →
      (Weighted.slots (Weighted.sharesBy d (Weighted.eligible choices)) i).card =
        c.1.toNat / d) ∧
    (∀ slot < (Weighted.weights (Weighted.eligible choices)).sum / d,
      ∃! i, i < (Weighted.eligible choices).length ∧
        slot ∈ Weighted.slots (Weighted.sharesBy d (Weighted.eligible choices)) i) ∧
    (∀ k, 0 < k →
      frequency (choices.map fun c => (k * c.1, c.2)) = frequency choices ∧
      frequencyTargetless (choices.map fun c => (k * c.1, c.2)) = frequencyTargetless choices) ∧
    (∀ choices', Weighted.eligible choices' = Weighted.eligible choices →
      frequency choices' = frequency choices ∧
      frequencyTargetless choices' = frequencyTargetless choices) ∧
    ∀ k first others, Weighted.eligible choices = (first :: others).map (k, ·) →
      ∃ g h, frequency choices = .ok g ∧ oneOf first others = .ok h ∧ g.sample = h.sample := by
  have hne : Weighted.eligible choices ≠ [] := by
    obtain ⟨c, hc, hw⟩ := hpos
    exact List.ne_nil_of_mem (List.mem_filter.mpr ⟨hc, decide_eq_true hw⟩)
  refine ⟨frequency_delegates hne hd hfit, ?_, ?_, ?_, ?_, ?_⟩
  · intro i c hc
    refine Weighted.card_slots ?_
    rw [Weighted.sharesBy, Weighted.weights, List.getElem?_map, List.getElem?_map, hc]
    rfl
  · intro slot hslot
    rw [← Weighted.sum_sharesBy hd] at hslot
    obtain ⟨i, hi, hmem⟩ := Weighted.exists_slots hslot
    have hlength : (Weighted.sharesBy d (Weighted.eligible choices)).length =
        (Weighted.eligible choices).length := by
      simp only [Weighted.sharesBy, Weighted.weights, List.length_map]
    exact ⟨i, ⟨hlength ▸ hi, hmem⟩, fun j hj => Weighted.slots_unique hj.2 hmem⟩
  · intro k hk
    refine frequency_congr ?_ hne (Weighted.reduced_scaled choices hk)
    rw [Weighted.eligible_scaled choices hk]
    simpa using hne
  · intro choices' h
    exact frequency_congr (h ▸ hne) hne (Weighted.reduced_of_eligible h)
  · intro k first others h
    have hk : 0 < k := by
      have hfirst : (k, first) ∈ Weighted.eligible choices := by
        rw [h]
        exact List.mem_cons_self
      exact Weighted.pos_of_mem_eligible hfirst
    have hequal := h.trans (Weighted.eligible_equal hk first others).symm
    have hreduced := Weighted.reduced_of_eligible hequal
    rw [← Weighted.sum_sharesBy hd, ← Weighted.map_fst_reduced hd, hreduced,
      Weighted.reduced_equal hk] at hfit
    have hlength : others.length + 1 ≤ 2 ^ 63 := by
      simpa [Function.comp_def, Nat.add_comm] using hfit
    rw [(frequency_congr hne (hequal ▸ hne) hreduced).1]
    exact frequency_equal hk first others hlength

/-- Four to six, with two choices between them that are never made. -/
def fourToSix : List (Int × Gen Unit Int) :=
  [(4, constant 200), (0, constant 300), (-6, constant 400), (6, draw .percent)]

/-- Of five slots the second choice with a positive weight owns the last three. -/
theorem frequency_slots_fourToSix :
    (∃ c ∈ fourToSix, 0 < c.1) ∧ Weighted.IsDivisor 2 (Weighted.eligible fourToSix) ∧
    (Weighted.weights (Weighted.eligible fourToSix)).sum / 2 ≤ 2 ^ 63 ∧
    (∃ b g, frequency fourToSix = .ok g ∧ b.hi = 4 ∧
      g.DelegatesTo b [2, 3] [constant 200, draw .percent]) ∧
    (Weighted.slots [2, 3] 1).card = 3 ∧ (∃! i, i < 2 ∧ 2 ∈ Weighted.slots [2, 3] i) ∧
    frequency [(12, constant 200), (0, constant 300), (-18, constant 400), (18, draw .percent)] =
      frequency fourToSix ∧
    frequency [(4, constant 200), (6, draw .percent)] = frequency fourToSix := by
  have hpos : ∃ c ∈ fourToSix, 0 < c.1 := ⟨_, List.mem_cons_self, by decide⟩
  have hd : Weighted.IsDivisor 2 (Weighted.eligible fourToSix) := by
    intro k
    have hgcd := Nat.dvd_gcd_iff (k := k) (m := 4) (n := 6)
    simpa [fourToSix, Weighted.eligible, Weighted.weights] using hgcd
  have hfit : (Weighted.weights (Weighted.eligible fourToSix)).sum / 2 ≤ 2 ^ 63 := by decide
  obtain ⟨⟨b, g, h, hg, -, -, hhi, -, hdelegates, -⟩, hcard, howner, hscaled, hothers, -⟩ :=
    frequency_slots hpos hd hfit
  exact ⟨hpos, hd, hfit, ⟨b, g, hg, hhi, hdelegates⟩, hcard 1 _ rfl, howner 2 (by decide),
    (hscaled 3 (by decide)).1, (hothers _ rfl).1⟩

end Gen

end Refute

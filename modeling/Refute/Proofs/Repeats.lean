import Mathlib.Tactic.ByContra

namespace Refute

theorem length_eraseDups_le [BEq α] (as : List α) : as.eraseDups.length ≤ as.length := by
  match as with
  | [] => exact Nat.le_refl 0
  | a :: as =>
    have hfilter := List.length_filter_le (fun b => !b == a) as
    have hothers := length_eraseDups_le (as.filter fun b => !b == a)
    rw [List.eraseDups_cons]
    exact Nat.succ_le_succ (Nat.le_trans hothers hfilter)
termination_by as.length

variable [BEq α] {a b c : α} {as : List α}

theorem idxOf_lt_cons (ha : (c == a) = false) (hb : (c == b) = false)
    (h : as.idxOf a < as.idxOf b) : (c :: as).idxOf a < (c :: as).idxOf b := by
  rw [List.idxOf_cons, List.idxOf_cons, ha, hb]
  exact Nat.succ_lt_succ h

variable [EquivBEq α]

theorem contains_filter_ne (as : List α) (h : (b == a) = false) :
    (as.filter fun c => !(c == a)).contains b = as.contains b := by
  induction as with
  | nil => rfl
  | cons c as ih =>
    rw [List.filter_cons]
    cases hc : c == a with
    | false => simp only [Bool.not_false, if_true, List.contains_cons, ih]
    | true =>
      have hbc : (b == c) = false := (BEq.congr_right hc).trans h
      simp [List.contains_cons, hbc, ih]

theorem contains_eraseDups (as : List α) (b : α) :
    as.eraseDups.contains b = as.contains b := by
  induction h : as.length using Nat.strongRecOn generalizing as with
  | ind n ih =>
    cases as with
    | nil => rfl
    | cons a as =>
      have hlt : (as.filter fun c => !(c == a)).length < n := by
        have := List.length_filter_le (fun c => !(c == a)) as
        rw [List.length_cons] at h
        omega
      rw [List.eraseDups_cons, List.contains_cons, List.contains_cons, ih _ hlt _ rfl]
      cases hb : b == a with
      | true => rfl
      | false => rw [contains_filter_ne as hb]

theorem idxOf_congr (h : (a == b) = true) (as : List α) : as.idxOf a = as.idxOf b := by
  induction as with
  | nil => rfl
  | cons c as ih => rw [List.idxOf_cons, List.idxOf_cons, BEq.congr_right h, ih]

/-- What a list contains differs from what it does not. -/
theorem differ_of_contains (ha : as.contains a = true) (hb : as.contains b = false) :
    (a == b) = false := by
  obtain ⟨c, hc, hac⟩ := List.contains_iff_exists_mem_beq.mp ha
  by_contra h
  have hab : (a == b) = true := Bool.of_not_eq_false h
  have hbc : as.contains b = true :=
    List.contains_iff_exists_mem_beq.mpr ⟨c, hc, BEq.trans (BEq.symm hab) hac⟩
  cases hb.symm.trans hbc

end Refute

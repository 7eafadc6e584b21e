import Mathlib.Data.List.Induction
import Refute.Act
import Refute.Proofs.Repeats
import Refute.Report.Basic

namespace Refute

namespace Report

section Unlisted

variable [BEq δ] {u v w : δ} {known ws : List δ}

/-- Of these descriptions, in order, those that are equal neither to one known before nor to an
earlier one. -/
def unlisted (known descriptions : List δ) : List δ :=
  (descriptions.filter fun words => !known.contains words).eraseDups

theorem unlisted_cons (known : List δ) (w : δ) (ws : List δ) :
    unlisted known (w :: ws) =
      if known.contains w then unlisted known ws else w :: unlisted (w :: known) ws := by
  cases hw : known.contains w with
  | true => simp [unlisted, hw]
  | false => simp [unlisted, hw, List.eraseDups_cons, List.filter_filter]

/-- What is kept is one of the descriptions, and equal to none known before. -/
theorem mem_unlisted (hv : v ∈ unlisted known ws) : v ∈ ws ∧ known.contains v = false := by
  induction ws generalizing known with
  | nil => cases hv
  | cons w ws ih =>
    rw [unlisted_cons] at hv
    split at hv
    · exact (ih hv).imp_left (List.mem_cons_of_mem w)
    · rename_i hw
      rcases List.mem_cons.mp hv with rfl | hv
      · exact ⟨List.mem_cons_self, Bool.eq_false_iff.mpr hw⟩
      · obtain ⟨hv, unknown⟩ := ih hv
        rw [List.contains_cons, Bool.or_eq_false_iff] at unknown
        exact ⟨List.mem_cons_of_mem w hv, unknown.2⟩

variable [EquivBEq δ]

/-- Nothing is lost: a description is equal to one that was known or to one of those kept. -/
theorem unlisted_covers (hw : w ∈ ws) :
    known.contains w = true ∨ ∃ v ∈ unlisted known ws, (w == v) = true := by
  cases hk : known.contains w with
  | true => exact .inl rfl
  | false =>
    have unknown : w ∈ ws.filter fun words => !known.contains words :=
      List.mem_filter.mpr ⟨hw, by rw [hk, Bool.not_false]⟩
    have kept : (unlisted known ws).contains w = true := by
      rw [unlisted, contains_eraseDups, List.contains_iff_exists_mem_beq]
      exact ⟨w, unknown, BEq.rfl⟩
    exact .inr (List.contains_iff_exists_mem_beq.mp kept)

/-- What is kept comes in the order of first occurrence. -/
theorem unlisted_ordered (known ws : List δ) :
    (unlisted known ws).Pairwise fun v w => ws.idxOf v < ws.idxOf w := by
  induction ws generalizing known with
  | nil => exact .nil
  | cons u ws ih =>
    -- Nothing kept of the rest is equal to the first, so all their places move on by one.
    have differ {known : List δ} (hu : known.contains u = true) {v : δ}
        (hv : v ∈ unlisted known ws) : (u == v) = false :=
      differ_of_contains hu (mem_unlisted hv).2
    have rest {known : List δ} (hu : known.contains u = true) :
        (unlisted known ws).Pairwise fun v w => (u :: ws).idxOf v < (u :: ws).idxOf w :=
      (ih known).imp_of_mem fun hv hw => idxOf_lt_cons (differ hu hv) (differ hu hw)
    rw [unlisted_cons]
    split
    · exact rest ‹_›
    · have hu : (u :: known).contains u = true := by rw [List.contains_cons, BEq.rfl, Bool.true_or]
      refine List.pairwise_cons.mpr ⟨fun v hv => ?_, rest hu⟩
      rw [List.idxOf_cons, List.idxOf_cons, BEq.rfl, differ hu hv]
      exact Nat.succ_pos _

theorem unlisted_different (known ws : List δ) :
    (unlisted known ws).Pairwise fun v w => (v == w) = false :=
  (unlisted_ordered known ws).imp fun h =>
    Bool.eq_false_iff.mpr fun hvw => Nat.ne_of_lt h (idxOf_congr hvw ws)

end Unlisted

section KeepNew

variable [BEq δ] {w : δ} {seen kept shown : List δ} {describe : β → Except Fault δ} {words : β → δ}
  {limit : Int} {smallest : β} {bs others before : List β}

theorem keepNew_of_full (h : limit ≤ kept.length) :
    keepNew describe limit bs seen kept = .ok kept := by
  cases bs with
  | nil => rfl
  | cons b bs => exact if_pos h

/-- Where all values can be described, the unlisted descriptions fill the places left. -/
theorem keepNew_described (h : ∀ b ∈ bs, describe b = .ok (words b)) :
    keepNew describe limit bs seen kept =
      .ok (kept ++ (unlisted seen (bs.map words)).take (limit - kept.length).toNat) := by
  induction bs generalizing seen kept with
  | nil => exact congrArg Except.ok (by simp [unlisted])
  | cons b bs ih =>
    obtain ⟨hb, hbs⟩ := List.forall_mem_cons.mp h
    by_cases full : limit ≤ kept.length
    · rw [keepNew_of_full full, Int.toNat_of_nonpos (Int.sub_nonpos_of_le full), List.take_zero,
        List.append_nil]
    · rw [keepNew, if_neg full, hb, List.map_cons, unlisted_cons]
      dsimp only
      split
      · exact ih hbs
      · have places :
            (limit - kept.length).toNat = (limit - (kept ++ [words b]).length).toNat + 1 := by
          rw [List.length_append, List.length_singleton]
          omega
        rw [ih hbs, places, List.take_succ_cons, List.append_assoc, List.singleton_append]

/-- To go through values is to go through some of them and then through the rest, having seen the
first description of all and those kept, the newest first. -/
theorem keepNew_append (w : δ) (before after : List β) (kept : List δ) :
    keepNew describe limit (before ++ after) (kept.reverse ++ [w]) kept =
      keepNew describe limit before (kept.reverse ++ [w]) kept >>= fun kept =>
        keepNew describe limit after (kept.reverse ++ [w]) kept := by
  induction before generalizing kept with
  | nil => rfl
  | cons b before ih =>
    by_cases full : limit ≤ kept.length
    · rw [keepNew_of_full full, keepNew_of_full full]
      exact (keepNew_of_full full).symm
    · rw [List.cons_append, keepNew, keepNew, if_neg full, if_neg full]
      cases describe b with
      | error fault => rfl
      | ok words =>
        have grown : words :: (kept.reverse ++ [w]) = (kept ++ [words]).reverse ++ [w] := by simp
        dsimp only
        split
        · exact ih kept
        · rw [grown]
          exact ih (kept ++ [words])

theorem distinctOthers_of_described (hw : describe smallest = .ok w) (others : List β) :
    distinctOthers describe limit smallest others = keepNew describe limit others [w] [] := by
  rw [distinctOthers, hw]
  rfl

theorem distinctOthers_of_error (hw : describe smallest = .error fault) (others : List β) :
    distinctOthers describe limit smallest others = .error fault := by
  rw [distinctOthers, hw]
  rfl

theorem distinctOthers_append (hw : describe smallest = .ok w) (before after : List β) :
    distinctOthers describe limit smallest (before ++ after) =
      distinctOthers describe limit smallest before >>= fun shown =>
        keepNew describe limit after (shown.reverse ++ [w]) shown := by
  rw [distinctOthers_of_described hw, distinctOthers_of_described hw]
  exact keepNew_append w before after []

/-- Once the places are filled nothing more is looked at. -/
theorem distinctOthers_append_of_full
    (hb : distinctOthers describe limit smallest before = .ok shown) (full : limit ≤ shown.length)
    (after : List β) :
    distinctOthers describe limit smallest (before ++ after) = .ok shown := by
  cases hw : describe smallest with
  | error fault => cases (distinctOthers_of_error hw before).symm.trans hb
  | ok w =>
    rw [distinctOthers_append hw, hb]
    exact keepNew_of_full full

/-- Describing one of the others faults while places are left. -/
def Interrupted (describe : β → Except Fault δ) (limit : Int) (smallest : β) (others : List β)
    (fault : Fault) : Prop :=
  ∃ before b after shown, others = before ++ b :: after ∧
    distinctOthers describe limit smallest before = .ok shown ∧ shown.length < limit ∧
    describe b = .error fault

theorem keepNew_singleton_error (h : keepNew describe limit [b] seen kept = .error fault) :
    kept.length < limit ∧ describe b = .error fault := by
  by_cases full : limit ≤ kept.length
  · cases (keepNew_of_full full).symm.trans h
  · rw [keepNew, if_neg full] at h
    refine ⟨Int.not_le.mp full, ?_⟩
    cases hb : describe b with
    | error f =>
      rw [hb] at h
      cases h
      rfl
    | ok words =>
      rw [hb] at h
      dsimp only at h
      split at h <;> cases h

theorem interrupted_of_error (hw : describe smallest = .ok w)
    (h : distinctOthers describe limit smallest others = .error fault) :
    Interrupted describe limit smallest others fault := by
  induction others using List.reverseRecOn with
  | nil => cases (distinctOthers_of_described hw []).symm.trans h
  | append_singleton others b ih =>
    cases hb : distinctOthers describe limit smallest others with
    | error f =>
      rw [distinctOthers_append hw, hb] at h
      cases h
      obtain ⟨before, c, after, shown, rfl, hc⟩ := ih hb
      exact ⟨before, c, after ++ [b], shown, by simp, hc⟩
    | ok shown =>
      rw [distinctOthers_append hw, hb] at h
      exact ⟨others, b, [], shown, rfl, hb, keepNew_singleton_error h⟩

theorem distinctOthers_error_iff :
    distinctOthers describe limit smallest others = .error fault ↔
      describe smallest = .error fault ∨ Interrupted describe limit smallest others fault := by
  constructor
  · intro h
    cases hw : describe smallest with
    | error f =>
      cases (distinctOthers_of_error hw others).symm.trans h
      exact .inl rfl
    | ok w => exact .inr (interrupted_of_error hw h)
  · rintro (hw | ⟨before, b, after, shown, rfl, hb, free, hf⟩)
    · exact distinctOthers_of_error hw others
    · cases hw : describe smallest with
      | error f => cases (distinctOthers_of_error hw before).symm.trans hb
      | ok w =>
        rw [distinctOthers_append hw, hb]
        change keepNew describe limit (b :: after) (shown.reverse ++ [w]) shown = .error fault
        rw [keepNew, if_neg (Int.not_le.mpr free), hf]

/-- What a report lists of these descriptions, where it has so many places. -/
structure Listing (limit : Int) (smallest : δ) (descriptions shown : List δ) : Prop where
  firsts : shown = (unlisted [smallest] descriptions).take limit.toNat
  different : shown.Pairwise fun v w => (v == w) = false
  among : ∀ w ∈ shown, w ∈ descriptions
  apart : ∀ w ∈ shown, (w == smallest) = false
  ordered : shown.Pairwise fun v w => descriptions.idxOf v < descriptions.idxOf w
  complete : shown.length < limit →
    ∀ w ∈ descriptions, (w == smallest) = true ∨ ∃ v ∈ shown, (w == v) = true

theorem listing_take [EquivBEq δ] (limit : Int) (smallest : δ) (descriptions : List δ) :
    Listing limit smallest descriptions
      ((unlisted [smallest] descriptions).take limit.toNat) where
  firsts := rfl
  different := (unlisted_different [smallest] descriptions).sublist (List.take_sublist ..)
  among _ hw := (mem_unlisted (List.mem_of_mem_take hw)).1
  apart _ hw := by simpa using (mem_unlisted (List.mem_of_mem_take hw)).2
  ordered := (unlisted_ordered [smallest] descriptions).sublist (List.take_sublist ..)
  complete short w hw := by
    have all : (unlisted [smallest] descriptions).take limit.toNat =
        unlisted [smallest] descriptions := by
      rw [List.length_take] at short
      exact List.take_of_length_le (by omega)
    rw [all]
    exact (unlisted_covers hw).imp_left fun h => by simpa using h

/-- Where all values can be described, the first so many different descriptions are listed, without
the smallest value's. A fault is that of describing the smallest value, or one of the others while
places are left; what comes after the last place is filled does not matter. -/
theorem distinctOthers_first [EquivBEq δ] (describe : β → Except Fault δ) (limit : Int)
    (smallest : β) (others : List β) :
    (∀ words : β → δ, (∀ b ∈ smallest :: others, describe b = .ok (words b)) →
      ∃ shown, distinctOthers describe limit smallest others = .ok shown ∧
        Listing limit (words smallest) (others.map words) shown) ∧
    (∀ fault, distinctOthers describe limit smallest others = .error fault ↔
      describe smallest = .error fault ∨ Interrupted describe limit smallest others fault) ∧
    (∀ before after shown, others = before ++ after →
      distinctOthers describe limit smallest before = .ok shown → limit ≤ shown.length →
      distinctOthers describe limit smallest others = .ok shown) := by
  refine ⟨fun words h => ?_, fun fault => distinctOthers_error_iff, ?_⟩
  · obtain ⟨hw, hothers⟩ := List.forall_mem_cons.mp h
    refine ⟨_, ?_, listing_take limit (words smallest) (others.map words)⟩
    rw [distinctOthers_of_described hw, keepNew_described hothers]
    simp
  · rintro before after shown rfl hb full
    exact distinctOthers_append_of_full hb full after

end KeepNew

/-- Tells a number by its last digit. -/
def digit (n : Int) : Value :=
  .text (toString (n % 10))

/-- Complains of negative numbers. -/
def lastDigit (n : Int) : Except Fault Value :=
  if n < 0 then .error .illTyped else .ok (digit n)

/-- Two of three places are filled, as the rest is told like these or like the smallest. A single
place is filled before the negative number is looked at, and two are not. -/
theorem distinctOthers_first_lastDigit :
    (distinctOthers lastDigit 3 4 [14, 5, 15, 24, 6] = .ok [digit 5, digit 6] ∧
      Listing 3 (digit 4) ([14, 5, 15, 24, 6].map digit) [digit 5, digit 6]) ∧
    distinctOthers lastDigit 1 4 [14, 5, -1, 6] = .ok [digit 5] ∧
    distinctOthers lastDigit 2 4 [14, 5, -1, 6] = .error .illTyped := by
  have natural : ∀ n ∈ [4, 14, 5, 15, 24, 6], ¬ n < (0 : Int) := by decide
  have hfirsts : (unlisted [digit 4] ([14, 5, 15, 24, 6].map digit)).take 3 =
      [digit 5, digit 6] := by
    decide +kernel
  obtain ⟨shown, hshown, hlisting⟩ := (distinctOthers_first lastDigit 3 4 [14, 5, 15, 24, 6]).1
    digit fun n hn => if_neg (natural n hn)
  obtain rfl : shown = [digit 5, digit 6] := hlisting.firsts.trans hfirsts
  refine ⟨⟨hshown, hlisting⟩, ?_, ?_⟩
  · have hbefore : distinctOthers lastDigit 1 4 [14, 5] = .ok [digit 5] :=
      eq_ok_of_toOption (by decide +kernel)
    exact (distinctOthers_first lastDigit 1 4 [14, 5, -1, 6]).2.2 [14, 5] [-1, 6] [digit 5] rfl
      hbefore (by decide)
  · have hbefore : distinctOthers lastDigit 2 4 [14, 5] = .ok [digit 5] :=
      eq_ok_of_toOption (by decide +kernel)
    exact ((distinctOthers_first lastDigit 2 4 [14, 5, -1, 6]).2.1 _).mpr
      (.inr ⟨[14, 5], -1, [6], [digit 5], rfl, hbefore, by decide, rfl⟩)

end Report

end Refute

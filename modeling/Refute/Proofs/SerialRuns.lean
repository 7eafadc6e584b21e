import Mathlib.Data.List.Perm.Basic
import Mathlib.Logic.Relation
import Refute.Model.Parallel
import Refute.Proofs.Repeats

namespace Refute

theorem mem_of_mapM_ok {f : α → Except ε β} (h : List.mapM f as = .ok bs) :
    b ∈ bs ↔ ∃ a ∈ as, f a = .ok b := by
  induction as generalizing bs with
  | nil =>
    cases h
    simp
  | cons a as ih =>
    rw [List.mapM_cons] at h
    obtain ⟨c, hc, h⟩ := Except.bind_eq_ok.mp h
    obtain ⟨cs, hcs, h⟩ := Except.bind_eq_ok.mp h
    cases h
    rw [List.mem_cons, ih hcs]
    simp only [List.mem_cons, exists_eq_or_imp, hc, Except.ok.injEq, @eq_comm _ c b]

theorem exists_of_mapM_error {f : α → Except ε β} (h : List.mapM f as = .error fault) :
    ∃ a ∈ as, f a = .error fault := by
  induction as with
  | nil => cases h
  | cons a as ih =>
    rw [List.mapM_cons] at h
    rcases Except.bind_eq_error.mp h with ha | ⟨_, -, h⟩
    · exact ⟨a, List.mem_cons_self, ha⟩
    · rcases Except.bind_eq_error.mp h with has | ⟨_, -, h⟩
      · obtain ⟨a', hmem, ha'⟩ := ih has
        exact ⟨a', List.mem_cons_of_mem a hmem, ha'⟩
      · cases h

theorem ok_of_mapM_ok {f : α → Except ε β} (h : List.mapM f as = .ok bs) (ha : a ∈ as) :
    ∃ b, f a = .ok b := by
  induction as generalizing bs with
  | nil => cases ha
  | cons a' as ih =>
    rw [List.mapM_cons] at h
    obtain ⟨b, hb, h⟩ := Except.bind_eq_ok.mp h
    obtain ⟨bs, hbs, -⟩ := Except.bind_eq_ok.mp h
    rcases List.mem_cons.mp ha with rfl | ha
    · exact ⟨b, hb⟩
    · exact ih hbs ha

namespace Parallel

open Relation (ReflTransGen)

variable {S M : Type}

theorem mem_picks {as : List α} : p ∈ picks as ↔ ∃ i, as[i]? = some p.1 ∧ as.eraseIdx i = p.2 := by
  induction as generalizing p with
  | nil => simp [picks]
  | cons a as ih =>
    rw [picks, List.mem_cons, List.mem_map]
    constructor
    · rintro (rfl | ⟨q, hq, rfl⟩)
      · exact ⟨0, rfl, rfl⟩
      · obtain ⟨i, hi, hrest⟩ := ih.mp hq
        exact ⟨i + 1, hi, congrArg (a :: ·) hrest⟩
    · rintro ⟨i, hi, hrest⟩
      cases i with
      | zero =>
        cases hi
        cases hrest
        exact .inl rfl
      | succ i => exact .inr ⟨(p.1, as.eraseIdx i), ih.mpr ⟨i, hi, rfl⟩, Prod.ext rfl hrest⟩

/-- The commands that have not been taken, and the state of the model. -/
structure Stand (S M : Type) where
  left : List (Command S M)
  state : M

/-- Any command that is left may be the next, picked by its place. -/
inductive Takes : Stand S M → Stand S M → Prop where
  | take {commands : List (Command S M)} {i : Nat} (hc : commands[i]? = some c)
      (hn : c.next state = .ok state') : Takes ⟨commands, state⟩ ⟨commands.eraseIdx i, state'⟩

/-- Some run of all commands goes from one state to the other. -/
def Run (commands : List (Command S M)) (initial final : M) : Prop :=
  ReflTransGen Takes ⟨commands, initial⟩ ⟨[], final⟩

/-- Some run comes to a command that has no next state. -/
def Faults (commands : List (Command S M)) (initial : M) : Prop :=
  ∃ stand c fault, ReflTransGen Takes ⟨commands, initial⟩ stand ∧ c ∈ stand.left ∧
    c.next stand.state = .error fault

theorem takes_iff {commands : List (Command S M)} :
    Takes ⟨commands, state⟩ stand ↔
      ∃ p ∈ picks commands, p.2 = stand.left ∧ p.1.next state = .ok stand.state := by
  constructor
  · rintro ⟨hc, hn⟩
    exact ⟨(_, _), mem_picks.mpr ⟨_, hc, rfl⟩, rfl, hn⟩
  · rintro ⟨⟨c, _⟩, hp, rfl, hn⟩
    obtain ⟨i, hc, hrest⟩ := mem_picks.mp hp
    cases stand
    cases hrest
    exact .take hc hn

theorem not_takes_nil : ¬ Takes (S := S) (M := M) ⟨[], state⟩ stand := by
  intro h
  obtain ⟨p, hp, -⟩ := takes_iff.mp h
  cases hp

theorem run_nil : Run (S := S) (M := M) [] initial final ↔ initial = final := by
  refine ⟨fun h => ?_, fun h => h ▸ .refl⟩
  rcases h.cases_head with h | ⟨_, h, -⟩
  · cases h
    rfl
  · exact (not_takes_nil h).elim

theorem not_faults_nil : ¬ Faults (S := S) (M := M) [] initial := by
  rintro ⟨stand, c, fault, hreach, hc, -⟩
  rcases hreach.cases_head with rfl | ⟨_, h, -⟩
  · cases hc
  · exact not_takes_nil h

theorem run_iff {commands : List (Command S M)} (hne : commands ≠ []) :
    Run commands initial final ↔
      ∃ p ∈ picks commands, ∃ state, p.1.next initial = .ok state ∧ Run p.2 state final := by
  constructor
  · intro h
    rcases h.cases_head with h | ⟨stand, ht, h⟩
    · cases h
      exact (hne rfl).elim
    · obtain ⟨p, hp, hleft, hn⟩ := takes_iff.mp ht
      refine ⟨p, hp, stand.state, hn, ?_⟩
      rw [hleft]
      exact h
  · rintro ⟨p, hp, state, hn, h⟩
    exact .head (takes_iff.mpr ⟨p, hp, rfl, hn⟩) h

theorem faults_iff {commands : List (Command S M)} :
    Faults commands initial ↔
      ∃ p ∈ picks commands, (∃ fault, p.1.next initial = .error fault) ∨
        ∃ state, p.1.next initial = .ok state ∧ Faults p.2 state := by
  constructor
  · rintro ⟨stand, c, fault, hreach, hc, hfault⟩
    rcases hreach.cases_head with rfl | ⟨stand', ht, hreach⟩
    · obtain ⟨i, hi⟩ := List.mem_iff_getElem?.mp hc
      exact ⟨(c, _), mem_picks.mpr ⟨i, hi, rfl⟩, .inl ⟨fault, hfault⟩⟩
    · obtain ⟨p, hp, hleft, hn⟩ := takes_iff.mp ht
      refine ⟨p, hp, .inr ⟨stand'.state, hn, ?_⟩⟩
      rw [hleft]
      exact ⟨stand, c, fault, hreach, hc, hfault⟩
  · rintro ⟨p, hp, ⟨fault, hfault⟩ | ⟨state, hn, stand, c, fault, hreach, hc, hfault⟩⟩
    · obtain ⟨i, hi, -⟩ := mem_picks.mp hp
      exact ⟨_, p.1, fault, .refl, List.mem_of_getElem? hi, hfault⟩
    · exact ⟨stand, c, fault, .head (takes_iff.mpr ⟨p, hp, rfl, hn⟩) hreach, hc, hfault⟩

theorem length_of_mem_picks {as : List α} (h : p ∈ picks as) : as.length = p.2.length + 1 := by
  obtain ⟨i, hi, hrest⟩ := mem_picks.mp h
  obtain ⟨hlt, -⟩ := List.getElem?_eq_some_iff.mp hi
  rw [← hrest, List.length_eraseIdx_of_lt hlt]
  omega

theorem perm_of_mem_picks {as : List α} (h : p ∈ picks as) : (p.1 :: p.2).Perm as := by
  obtain ⟨i, hi, hrest⟩ := mem_picks.mp h
  obtain ⟨hlt, heq⟩ := List.getElem?_eq_some_iff.mp hi
  rw [← hrest, ← heq]
  exact List.getElem_cons_eraseIdx_perm hlt

theorem endings_of_ne {commands : List (Command S M)} (hne : commands ≠ []) :
    endings (fuel + 1) commands state = do
      let branches ← (picks commands).mapM fun p => do endings fuel p.2 (← p.1.next state)
      return branches.flatten := by
  rw [endings, if_neg]
  rwa [List.isEmpty_iff]

/-- The orders of the elements, by the place of the first, then by that of the second among the
others, and so on. -/
def orderings : Nat → List α → List (List α)
  | 0, _ => [[]]
  | fuel + 1, as =>
    if as.isEmpty then [[]]
    else (picks as).flatMap fun p => (orderings fuel p.2).map (p.1 :: ·)

theorem orderings_of_ne {as : List α} (hne : as ≠ []) :
    orderings (fuel + 1) as =
      (picks as).flatMap fun p => (orderings fuel p.2).map (p.1 :: ·) := by
  rw [orderings, if_neg]
  rwa [List.isEmpty_iff]

theorem orderings_ne_nil (fuel : Nat) (as : List α) : orderings fuel as ≠ [] := by
  induction fuel generalizing as with
  | zero => exact List.cons_ne_nil _ _
  | succ fuel ih =>
    cases as with
    | nil => exact List.cons_ne_nil _ _
    | cons a as =>
      rw [orderings_of_ne (List.cons_ne_nil a as), picks, List.flatMap_cons]
      exact List.append_ne_nil_of_left_ne_nil (mt List.map_eq_nil_iff.mp (ih as)) _

/-- Every order of the elements is among them, and nothing else is. -/
theorem mem_orderings {as bs : List α} (hfuel : as.length = fuel) :
    bs ∈ orderings fuel as ↔ bs.Perm as := by
  induction fuel generalizing as bs with
  | zero =>
    cases List.length_eq_zero_iff.mp hfuel
    rw [orderings, List.mem_singleton, List.perm_nil]
  | succ fuel ih =>
    rw [orderings_of_ne (List.ne_nil_of_length_eq_add_one hfuel), List.mem_flatMap]
    constructor
    · rintro ⟨p, hp, hbs⟩
      obtain ⟨cs, hcs, rfl⟩ := List.mem_map.mp hbs
      have hlen := length_of_mem_picks hp
      have hperm : cs.Perm p.2 := (ih (by omega)).mp hcs
      exact (hperm.cons p.1).trans (perm_of_mem_picks hp)
    · intro hperm
      cases bs with
      | nil => cases hfuel.symm.trans (congrArg List.length hperm.nil_eq.symm)
      | cons b bs =>
        obtain ⟨i, hi⟩ := List.mem_iff_getElem?.mp (hperm.subset List.mem_cons_self)
        have hp : (b, as.eraseIdx i) ∈ picks as := mem_picks.mpr ⟨i, hi, rfl⟩
        have hlen := length_of_mem_picks hp
        have hrest : bs.Perm (as.eraseIdx i) :=
          (hperm.trans (perm_of_mem_picks hp).symm).cons_inv
        exact ⟨_, hp, List.mem_map_of_mem ((ih (Nat.succ.inj (hlen.symm.trans hfuel))).mpr hrest)⟩

theorem mapM_flatMap (f : α → List β) (g : β → Except ε γ) (as : List α) :
    (as.flatMap f).mapM g = do return (← as.mapM fun a => (f a).mapM g).flatten := by
  induction as with
  | nil => rfl
  | cons a as ih =>
    rw [List.flatMap_cons, List.mapM_append, ih, List.mapM_cons]
    simp only [bind_assoc, pure_bind, List.flatten_cons]

/-- What comes first in all of them is done once. -/
theorem mapM_after (first : Except ε β) (next : β → α → Except ε γ) {as : List α} (hne : as ≠ []) :
    (as.mapM fun a => first >>= fun b => next b a) = first >>= fun b => as.mapM (next b) := by
  cases first with
  | ok b => rfl
  | error fault =>
    cases as with
    | nil => exact (hne rfl).elim
    | cons a as =>
      rw [List.mapM_cons]
      rfl

/-- The enumeration goes through the orders one after the other, and in each through the commands
from the first to the last. -/
theorem endings_eq (fuel : Nat) (commands : List (Command S M)) (state : M) :
    endings fuel commands state =
      (orderings fuel commands).mapM (List.foldlM (fun state c => c.next state) state) := by
  induction fuel generalizing commands state with
  | zero => rfl
  | succ fuel ih =>
    by_cases hne : commands = []
    · subst hne
      rfl
    · rw [endings_of_ne hne, orderings_of_ne hne, mapM_flatMap]
      congr
      funext p
      rw [List.mapM_map]
      simp only [ih]
      exact (mapM_after _ _ (orderings_ne_nil fuel p.2)).symm

/-- Where the enumeration comes to an end, no run faults, and it has found the ends of all runs. -/
theorem endings_ok {commands : List (Command S M)} (hfuel : commands.length = fuel)
    (h : endings fuel commands initial = .ok states) :
    ¬ Faults commands initial ∧ ∀ final, final ∈ states ↔ Run commands initial final := by
  induction fuel generalizing commands initial states with
  | zero =>
    cases List.length_eq_zero_iff.mp hfuel
    cases h
    refine ⟨not_faults_nil, fun final => ?_⟩
    rw [run_nil, List.mem_singleton, eq_comm]
  | succ fuel ih =>
    have hne : commands ≠ [] := List.ne_nil_of_length_eq_add_one hfuel
    rw [endings_of_ne hne] at h
    obtain ⟨branches, hbranches, h⟩ := Except.bind_eq_ok.mp h
    cases h
    have hlen : ∀ p ∈ picks commands, p.2.length = fuel := fun p hp => by
      have := length_of_mem_picks hp
      omega
    constructor
    · rw [faults_iff]
      rintro ⟨p, hp, hfault⟩
      obtain ⟨branch, hbranch⟩ := ok_of_mapM_ok hbranches hp
      obtain ⟨state, hn, hbranch⟩ := Except.bind_eq_ok.mp hbranch
      rw [hn] at hfault
      rcases hfault with ⟨_, h⟩ | ⟨_, h, hfault⟩
      · cases h
      · cases h
        exact (ih (hlen p hp) hbranch).1 hfault
    · intro final
      rw [run_iff hne, List.mem_flatten]
      constructor
      · rintro ⟨branch, hmem, hfinal⟩
        obtain ⟨p, hp, hbranch⟩ := (mem_of_mapM_ok hbranches).mp hmem
        obtain ⟨state, hn, hbranch⟩ := Except.bind_eq_ok.mp hbranch
        exact ⟨p, hp, state, hn, ((ih (hlen p hp) hbranch).2 final).mp hfinal⟩
      · rintro ⟨p, hp, state, hn, hrun⟩
        obtain ⟨branch, hbranch⟩ := ok_of_mapM_ok hbranches hp
        refine ⟨branch, (mem_of_mapM_ok hbranches).mpr ⟨p, hp, hbranch⟩, ?_⟩
        rw [hn] at hbranch
        exact ((ih (hlen p hp) hbranch).2 final).mpr hrun

/-- A fault of the enumeration is met by some run. -/
theorem endings_error {commands : List (Command S M)} (hfuel : commands.length = fuel)
    (h : endings fuel commands initial = .error fault) : Faults commands initial := by
  induction fuel generalizing commands initial with
  | zero => cases h
  | succ fuel ih =>
    rw [endings_of_ne (List.ne_nil_of_length_eq_add_one hfuel)] at h
    rcases Except.bind_eq_error.mp h with h | ⟨_, -, h⟩
    · obtain ⟨p, hp, h⟩ := exists_of_mapM_error h
      have := length_of_mem_picks hp
      refine faults_iff.mpr ⟨p, hp, ?_⟩
      rcases Except.bind_eq_error.mp h with hn | ⟨state, hn, h⟩
      · exact .inl ⟨fault, hn⟩
      · exact .inr ⟨state, hn, ih (by omega) h⟩
    · cases h

theorem serialEndings_ok {commands : List (Command S M)}
    (h : serialEndings initial commands = .ok states) :
    final ∈ states ↔ Run commands initial final :=
  (endings_ok rfl h).2 final

theorem serialEndings_ok_iff {commands : List (Command S M)} :
    (∃ states, serialEndings initial commands = .ok states) ↔ ¬ Faults commands initial := by
  constructor
  · rintro ⟨states, h⟩
    exact (endings_ok rfl h).1
  · intro hno
    cases h : serialEndings initial commands with
    | ok states => exact ⟨states, rfl⟩
    | error fault => exact (hno (endings_error rfl h)).elim

/-- What commands can do next does not depend on their order. -/
theorem Takes.perm (h : Takes (S := S) (M := M) x y) (hp : l.Perm x.left) :
    ∃ l', Takes ⟨l, x.state⟩ ⟨l', y.state⟩ ∧ l'.Perm y.left := by
  cases h with
  | @take c state state' commands i hc hn =>
    obtain ⟨j, hj⟩ := List.mem_iff_getElem?.mp (hp.mem_iff.mpr (List.mem_of_getElem? hc))
    exact ⟨_, .take hj hn, (List.perm_eraseIdx_of_getElem?_eq (hj.trans hc.symm)).mpr hp⟩

theorem reaches_perm {x y : Stand S M} (h : ReflTransGen Takes x y) (hp : l.Perm x.left) :
    ∃ l', ReflTransGen Takes ⟨l, x.state⟩ ⟨l', y.state⟩ ∧ l'.Perm y.left := by
  induction h with
  | refl => exact ⟨l, .refl, hp⟩
  | tail _ ht ih =>
    obtain ⟨l', hreach, hp'⟩ := ih
    obtain ⟨l'', ht', hp''⟩ := ht.perm hp'
    exact ⟨l'', hreach.tail ht', hp''⟩

theorem Run.perm {commands commands' : List (Command S M)} (h : Run commands initial final)
    (hp : commands'.Perm commands) : Run commands' initial final := by
  obtain ⟨l, hreach, hnil⟩ := reaches_perm h hp
  cases hnil.eq_nil
  exact hreach

theorem Faults.perm {commands commands' : List (Command S M)} (h : Faults commands initial)
    (hp : commands'.Perm commands) : Faults commands' initial := by
  obtain ⟨stand, c, fault, hreach, hc, hfault⟩ := h
  obtain ⟨l, hreach', hp'⟩ := reaches_perm hreach hp
  exact ⟨_, c, fault, hreach', hp'.mem_iff.mpr hc, hfault⟩

/-- Commands done one after the other, from the first to the last, are one of the runs. -/
theorem run_of_foldlM {commands : List (Command S M)}
    (h : commands.foldlM (fun state c => c.next state) initial = .ok final) :
    Run commands initial final := by
  induction commands generalizing initial with
  | nil =>
    cases h
    exact .refl
  | cons c commands ih =>
    rw [List.foldlM_cons] at h
    obtain ⟨state, hn, h⟩ := Except.bind_eq_ok.mp h
    exact .head (.take (i := 0) rfl hn) (ih h)

section Equality

variable [BEq M]

theorem endStates_eq_ok {commands : List (Command S M)} :
    endStates initial commands = .ok states ↔
      ∃ reached, serialEndings initial commands = .ok reached ∧ reached.eraseDups = states := by
  unfold endStates
  rw [Except.bind_eq_ok]
  simp only [pure, Except.pure, Except.ok.injEq]

theorem contains_serialEndings {commands : List (Command S M)}
    (h : serialEndings initial commands = .ok states) :
    states.contains s = true ↔ ∃ final, Run commands initial final ∧ (s == final) = true := by
  rw [List.contains_iff_exists_mem_beq]
  exact exists_congr fun final => and_congr_left fun _ => serialEndings_ok h

/-- The states found are those that runs end in, up to equality of states. -/
theorem contains_endStates [EquivBEq M] {commands : List (Command S M)}
    (h : endStates initial commands = .ok states) :
    states.contains s = true ↔ ∃ final, Run commands initial final ∧ (s == final) = true := by
  obtain ⟨reached, hreached, rfl⟩ := endStates_eq_ok.mp h
  rw [contains_eraseDups, contains_serialEndings hreached]

theorem endStates_ok_iff {commands : List (Command S M)} :
    (∃ states, endStates initial commands = .ok states) ↔ ¬ Faults commands initial := by
  rw [← serialEndings_ok_iff]
  constructor
  · rintro ⟨states, h⟩
    obtain ⟨reached, hreached, -⟩ := endStates_eq_ok.mp h
    exact ⟨reached, hreached⟩
  · rintro ⟨reached, h⟩
    exact ⟨_, endStates_eq_ok.mpr ⟨reached, h, rfl⟩⟩

/-- In whatever order the commands are listed, the same states are found. -/
theorem endStates_perm [EquivBEq M] {commands commands' : List (Command S M)}
    (h : endStates initial commands = .ok states) (hp : commands'.Perm commands) :
    ∃ states', endStates initial commands' = .ok states' ∧
      ∀ s, states'.contains s = states.contains s := by
  have hno := endStates_ok_iff.mp ⟨states, h⟩
  obtain ⟨states', h'⟩ := endStates_ok_iff.mpr fun hf : Faults commands' initial =>
    hno (hf.perm hp.symm)
  refine ⟨states', h', fun s => ?_⟩
  rw [Bool.eq_iff_iff, contains_endStates h, contains_endStates h']
  exact exists_congr fun final => and_congr_left fun _ =>
    ⟨fun hr => hr.perm hp.symm, fun hr => hr.perm hp⟩

end Equality

end Parallel

end Refute

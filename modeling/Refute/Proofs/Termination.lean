import Refute.Proofs.Descent
import Refute.Proofs.Simpler

namespace Refute

/-- Some candidate cannot be made, whatever was drawn before its turn came. -/
inductive Proposals.Breaks : Proposals → Fault → Prop where
  | here {propose : Act Xorshift (List Int)} {rest : Xorshift → Proposals} :
      propose asked = .error fault random → Breaks (.next propose rest) fault
  | later {propose : Act Xorshift (List Int)} {rest : Xorshift → Proposals} (before : Xorshift) :
      Breaks (rest before) fault → Breaks (.next propose rest) fault

namespace Descent

variable {p : Property σ α β} {attempts : Int}

theorem Pass.breaks {d d' : Descent σ α β}
    (h : Pass p attempts budget ps d (some (.fault fault)) d') : ps.Breaks fault := by
  generalize hr : some (Ending.fault fault) = result at h
  induction h with
  | done | spent | accepted | exhausted | endless => cases hr
  | unmade _ hp =>
    cases hr
    exact .here hp
  | tried _ _ _ _ ih => exact .later _ (ih hr)
  | discarded _ _ _ _ _ ih => exact .later _ (ih hr)

theorem Course.breaks {d d' : Descent σ α β}
    (h : Course p attempts propose budget n d (.fault fault) d') :
    ∃ t, (propose t).Breaks fault := by
  generalize hr : Ending.fault fault = ending at h
  induction h with
  | outOfCycles | spent | trivial => cases hr
  | last _ _ _ hp =>
    subst hr
    exact ⟨_, hp.breaks⟩
  | more _ _ _ _ ih => exact ih hr

theorem Pass.ne_spent {d d' : Descent σ α β} (h : Pass p attempts none ps d result d') :
    result ≠ some .spent := by
  induction h with
  | spent _ _ hb => cases hb
  | done | unmade | accepted | exhausted | endless => nofun
  | tried _ _ _ _ ih => exact ih
  | discarded _ _ _ _ _ ih => exact ih

/-- The relation between a descent and what an accepting cycle makes of it goes down in the order of
traces, even if the generator is set anew before each cycle. -/
theorem accepting_wellFounded (p : Property σ α β) (attempts : Int)
    (propose : Trace → Proposals) :
    WellFounded fun d' d : Descent σ α β =>
      ∃ random, cycle p attempts none (propose d.current.trace) (d.reseed random) = (none, d') := by
  refine Subrelation.wf ?_ (InvImage.wf (fun d => d.current.trace) Trace.simplerThan_wellFounded)
  intro d' d ⟨random, hc⟩
  exact (pass_of_cycle hc).simpler

/-- By induction on the trace of the current example. -/
theorem exists_run_eq (p : Property σ α β) (attempts : Int) (propose : Trace → Proposals)
    (d : Descent σ α β) :
    ∃ n ending d', ending ≠ .spent ∧
      ∀ m, n ≤ m → run p attempts propose none m d = (ending, d') := by
  generalize ht : d.current.trace = t
  induction t using Trace.simplerThan_wellFounded.induction generalizing d with
  | h t ih =>
    subst ht
    by_cases he : d.current.trace = []
    · refine ⟨1, .trivial, d, nofun, fun m hm => ?_⟩
      obtain ⟨k, rfl⟩ := Nat.exists_eq_add_of_le' hm
      simp [run, Budget.spent, he]
    · rcases hc : cycle p attempts none (propose d.current.trace) d with ⟨result, d₁⟩
      have hp := pass_of_cycle hc
      cases result with
      | some ending =>
        have hs : ending ≠ .spent := fun h => hp.ne_spent (congrArg some h)
        refine ⟨1, ending, d₁, hs, fun m hm => ?_⟩
        obtain ⟨k, rfl⟩ := Nat.exists_eq_add_of_le' hm
        simp [run, Budget.spent, he, hc]
      | none =>
        obtain ⟨n, ending, d', hs, hn⟩ := ih _ hp.simpler d₁ rfl
        refine ⟨n + 1, ending, d', hs, fun m hm => ?_⟩
        obtain ⟨k, rfl⟩ := Nat.exists_eq_add_of_le' (Nat.le_of_add_left_le hm)
        simpa [run, Budget.spent, he, hc] using hn k (by omega)

/-- The order of traces has no cycles and no endless way down, so that a descent without a budget
comes to a cycle without a better candidate or to a trace without draws, unless attempts give out,
a candidate cannot be made, or the generator or the property never ends on one. From some number of
cycles on, more of them make no difference. -/
theorem unbudgeted_run_ends :
    (∀ t : Trace, ¬ t.simplerThan t) ∧
    (∀ t u v : Trace, t.simplerThan u → u.simplerThan v → t.simplerThan v) ∧
    (WellFounded fun t u : Trace => t.simplerThan u = true) ∧
    ∀ (σ α β : Type) (p : Property σ α β) (attempts : Int) (propose : Trace → Proposals),
      (WellFounded fun d' d : Descent σ α β => ∃ random,
        cycle p attempts none (propose d.current.trace) (d.reseed random) = (none, d')) ∧
      ∀ d : Descent σ α β, ∃ n ending d',
        (∀ m, n ≤ m → run p attempts propose none m d = (ending, d')) ∧
        (ending = .minimal ∨ ending = .trivial ∨ ending = .exhausted ∨
          (∃ fault t, ending = .fault fault ∧ (propose t).Breaks fault) ∨
          ∃ fault, ending = .endless fault ∧ fault.isEndless = true) := by
  refine ⟨Trace.simplerThan_irrefl, fun _ _ _ => Trace.simplerThan_trans,
    Trace.simplerThan_wellFounded, ?_⟩
  intro σ α β p attempts propose
  refine ⟨accepting_wellFounded p attempts propose, fun d => ?_⟩
  obtain ⟨n, ending, d', hs, hn⟩ := exists_run_eq p attempts propose d
  refine ⟨n, ending, d', hn, ?_⟩
  cases ending with
  | minimal => exact .inl rfl
  | trivial => exact .inr (.inl rfl)
  | spent => exact absurd rfl hs
  | exhausted => exact .inr (.inr (.inl rfl))
  | fault fault =>
    obtain ⟨t, ht⟩ := (course_of_run (hn n (Nat.le_refl n))).breaks
    exact .inr (.inr (.inr (.inl ⟨fault, t, rfl, ht⟩)))
  | endless fault =>
    obtain ⟨c, d₁, ho⟩ := (course_of_run (hn n (Nat.le_refl n))).outcome_of_endless
    have he := ho.isEndless
    exact .inr (.inr (.inr (.inr ⟨fault, rfl, he⟩)))

end Descent

end Refute

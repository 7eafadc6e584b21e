import Refute.Proofs.Trials
import Refute.Shrink.Descent
import Std.Data.TreeSet.Lemmas

namespace Refute

/-- `ps.Offers asked c random`: with the generator at `asked` when its turn comes, `c` is proposed
and the generator is left at `random`. -/
inductive Proposals.Offers : Proposals → Xorshift → List Int → Xorshift → Prop where
  | here {propose : Act Xorshift (List Int)} {rest : Xorshift → Proposals} :
      propose asked = .ok c random → Offers (.next propose rest) asked c random
  | later {propose : Act Xorshift (List Int)} {rest : Xorshift → Proposals} (before : Xorshift) :
      Offers (rest before) asked c random → Offers (.next propose rest) asked c random

namespace Reply

theorem ofFault_exhausted {fault : Fault} (h : fault.isExhausted = true) :
    ofFault fault = .exhausted :=
  if_pos h

theorem ofFault_endless {fault : Fault} (h : fault.isEndless = true) :
    ofFault fault = .endless fault := by
  rw [ofFault, Fault.not_exhausted_of_endless h, if_neg Bool.false_ne_true, if_pos h]

theorem ofFault_other {fault : Fault} (hx : fault.isExhausted = false)
    (he : fault.isEndless = false) : ofFault fault = .discarded := by
  rw [ofFault, hx, he, if_neg Bool.false_ne_true, if_neg Bool.false_ne_true]

/-- The replay did not come to an end of its own. -/
def brokenOff : Reply → Bool
  | exhausted | endless _ => true
  | accepted | discarded => false

end Reply

/-- The last replay did not come to an end of its own. -/
def Ending.brokenOff : Ending → Bool
  | exhausted | endless _ => true
  | _ => false

namespace Descent

/-- A candidate was taken up and left the lab behind. -/
def spend (d : Descent σ α β) (candidate : List Int) (lab : Lab σ β) : Descent σ α β :=
  { d with lab, tried := d.tried.insert candidate, replays := d.replays + 1 }

def reseed (d : Descent σ α β) (random : Xorshift) : Descent σ α β :=
  { d with lab := { d.lab with random } }

variable {p : Property σ α β} {attempts : Int}

/-- The ways in which the replay of a candidate can end. -/
inductive Outcome (p : Property σ α β) (attempts : Int) (c : List Int) (d : Descent σ α β) :
    Reply → Descent σ α β → Prop where
  /-- The generator fails on the candidate, but not for want of attempts. -/
  | failed (hg : p.generate attempts c d.lab = .error fault lab₁) (hf : fault.isExhausted = false)
      (he : fault.isEndless = false) : Outcome p attempts c d .discarded (d.spend c lab₁)
  | exhausted (hg : p.generate attempts c d.lab = .error fault lab₁)
      (hf : fault.isExhausted = true) : Outcome p attempts c d .exhausted (d.spend c lab₁)
  | endless (hg : p.generate attempts c d.lab = .error fault lab₁)
      (he : fault.isEndless = true) : Outcome p attempts c d (.endless fault) (d.spend c lab₁)
  | rejected (hg : p.generate attempts c d.lab = .ok e lab₁)
      (hr : d.current.rejected < e.rejected) :
      Outcome p attempts c d .discarded (d.spend c lab₁)
  | untested (hg : p.generate attempts c d.lab = .ok e lab₁)
      (hr : e.rejected ≤ d.current.rejected) (ht : p.examine e lab₁ = .error fault lab₂)
      (hf : fault.isExhausted = true) : Outcome p attempts c d .exhausted (d.spend c lab₂)
  | unfinished (hg : p.generate attempts c d.lab = .ok e lab₁)
      (hr : e.rejected ≤ d.current.rejected) (ht : p.examine e lab₁ = .error fault lab₂)
      (he : fault.isEndless = true) : Outcome p attempts c d (.endless fault) (d.spend c lab₂)
  | holds (hg : p.generate attempts c d.lab = .ok e lab₁)
      (hr : e.rejected ≤ d.current.rejected) (ht : p.examine e lab₁ = .ok (.holds, e') lab₂) :
      Outcome p attempts c d .discarded (d.spend c lab₂)
  | notSimpler (hg : p.generate attempts c d.lab = .ok e lab₁)
      (hr : e.rejected ≤ d.current.rejected)
      (ht : p.examine e lab₁ = .ok (.fails raised, e') lab₂)
      (hs : ¬ e'.trace.simplerThan d.current.trace) :
      Outcome p attempts c d .discarded (d.spend c lab₂)
  | accepted (hg : p.generate attempts c d.lab = .ok e lab₁)
      (hr : e.rejected ≤ d.current.rejected)
      (ht : p.examine e lab₁ = .ok (.fails raised, e') lab₂)
      (hs : e'.trace.simplerThan d.current.trace) :
      Outcome p attempts c d .accepted
        { d.spend c lab₂ with
          current := e'
          found := p.outcome e'.value lab₂.world :: d.found
          cause := raised }

theorem replay_outcome (p : Property σ α β) (attempts : Int) (c : List Int)
    (d : Descent σ α β) :
    Outcome p attempts c d (replay p attempts c d).1 (replay p attempts c d).2 := by
  unfold replay
  dsimp only
  split
  · rename_i fault lab hg
    cases hf : fault.isExhausted with
    | true =>
      rw [Reply.ofFault_exhausted hf]
      exact .exhausted hg hf
    | false =>
      cases he : fault.isEndless with
      | true =>
        rw [Reply.ofFault_endless he]
        exact .endless hg he
      | false =>
        rw [Reply.ofFault_other hf he]
        exact .failed hg hf he
  · rename_i e lab hg
    by_cases hr : d.current.rejected < e.rejected
    · rw [if_pos hr]
      exact .rejected hg hr
    · rw [if_neg hr]
      have hr : e.rejected ≤ d.current.rejected := Nat.le_of_not_lt hr
      split
      · rename_i ht
        rcases (Property.examine_error ht).1 with hf | he
        · rw [Reply.ofFault_exhausted hf]
          exact .untested hg hr ht hf
        · rw [Reply.ofFault_endless he]
          exact .unfinished hg hr ht he
      · rename_i verdict e' lab' ht
        unfold judge
        split
        · exact .holds hg hr ht
        · rename_i cause
          by_cases hs : e'.trace.simplerThan d.current.trace
          · rw [if_pos hs]
            exact .accepted hg hr ht hs
          · rw [if_neg hs]
            exact .notSimpler hg hr ht hs

/-- Only an accepted candidate changes what was found. -/
theorem Outcome.found_eq {d d' : Descent σ α β} (h : Outcome p attempts c d reply d')
    (hr : reply ≠ .accepted) :
    d'.current = d.current ∧ d'.found = d.found ∧ d'.cause = d.cause := by
  cases h with
  | accepted => exact absurd rfl hr
  | failed | exhausted | endless | rejected | untested | unfinished | holds | notSimpler =>
    exact ⟨rfl, rfl, rfl⟩

theorem Outcome.tried_eq {d d' : Descent σ α β} (h : Outcome p attempts c d reply d') :
    d'.tried = d.tried.insert c := by
  cases h <;> rfl

theorem Outcome.replays_eq {d d' : Descent σ α β} (h : Outcome p attempts c d reply d') :
    d'.replays = d.replays + 1 := by
  cases h <;> rfl

/-- Every replay is one generation in the journal, forced by the candidate, and one run of the
property at most. -/
theorem Outcome.journal {d d' : Descent σ α β} (h : Outcome p attempts c d reply d') :
    ∃ news, d'.lab.journal = news ++ d.lab.journal ∧ Journal.replayed news = [c] ∧
      (Journal.testedValues news).length ≤ 1 := by
  cases h with
  | failed hg | exhausted hg | endless hg =>
    have hj := (Property.generate_error hg).2
    exact ⟨[_], hj, rfl, Nat.zero_le 1⟩
  | rejected hg =>
    have hj := (Property.generate_ok hg).2
    exact ⟨[_], hj, rfl, Nat.zero_le 1⟩
  | untested hg _ ht | unfinished hg _ ht =>
    have hj := (Property.generate_ok hg).2
    have hj' := (Property.examine_error ht).2
    rw [hj] at hj'
    exact ⟨[_, _], hj', rfl, Nat.le_refl 1⟩
  | holds hg _ ht | notSimpler hg _ ht | accepted hg _ ht =>
    have hj := (Property.generate_ok hg).2
    have hj' := (Property.examine_ok ht).1
    rw [hj] at hj'
    exact ⟨[_, _], hj', rfl, Nat.le_refl 1⟩

theorem contains_insert (tried : Std.TreeSet (List Int)) (c c' : List Int) :
    (tried.insert c).contains c' = true ↔ c' = c ∨ tried.contains c' = true := by
  rw [Std.TreeSet.contains_insert, Bool.or_eq_true, beq_iff_eq,
    Std.LawfulEqCmp.compare_eq_iff_eq, eq_comm]

/-- How one cycle goes through its candidates, and what it comes to. -/
inductive Pass (p : Property σ α β) (attempts : Int) (budget : Budget) :
    Proposals → Descent σ α β → Option Ending → Descent σ α β → Prop where
  | done (d : Descent σ α β) : Pass p attempts budget .done d (some .minimal) d
  | unmade (rest : Xorshift → Proposals) (hp : propose d.lab.random = .error fault random) :
      Pass p attempts budget (.next propose rest) d (some (.fault fault)) (d.reseed random)
  | spent (rest : Xorshift → Proposals) (hp : propose d.lab.random = .ok c random)
      (hb : budget.spent d.replays = true) :
      Pass p attempts budget (.next propose rest) d (some .spent) (d.reseed random)
  | tried (hp : propose d.lab.random = .ok c random) (hb : budget.spent d.replays = false)
      (ht : d.tried.contains c = true)
      (hn : Pass p attempts budget (rest d.lab.random) (d.reseed random) result d') :
      Pass p attempts budget (.next propose rest) d result d'
  | accepted (rest : Xorshift → Proposals) (hp : propose d.lab.random = .ok c random)
      (hb : budget.spent d.replays = false) (ht : d.tried.contains c = false)
      (ho : Outcome p attempts c (d.reseed random) .accepted d') :
      Pass p attempts budget (.next propose rest) d none d'
  | discarded (hp : propose d.lab.random = .ok c random) (hb : budget.spent d.replays = false)
      (ht : d.tried.contains c = false)
      (ho : Outcome p attempts c (d.reseed random) .discarded d₁)
      (hn : Pass p attempts budget (rest d.lab.random) d₁ result d') :
      Pass p attempts budget (.next propose rest) d result d'
  | exhausted (rest : Xorshift → Proposals) (hp : propose d.lab.random = .ok c random)
      (hb : budget.spent d.replays = false) (ht : d.tried.contains c = false)
      (ho : Outcome p attempts c (d.reseed random) .exhausted d') :
      Pass p attempts budget (.next propose rest) d (some .exhausted) d'
  | endless (rest : Xorshift → Proposals) (hp : propose d.lab.random = .ok c random)
      (hb : budget.spent d.replays = false) (ht : d.tried.contains c = false)
      (ho : Outcome p attempts c (d.reseed random) (.endless fault) d') :
      Pass p attempts budget (.next propose rest) d (some (.endless fault)) d'

theorem cycle_pass (p : Property σ α β) (attempts : Int) (budget : Budget) (ps : Proposals)
    (d : Descent σ α β) :
    Pass p attempts budget ps d (cycle p attempts budget ps d).1
      (cycle p attempts budget ps d).2 := by
  induction ps generalizing d with
  | done => exact .done d
  | next propose rest ih =>
    unfold cycle
    split
    · rename_i hp
      exact .unmade rest hp
    · rename_i c random hp
      dsimp only
      cases hb : budget.spent d.replays with
      | true => exact .spent rest hp hb
      | false =>
        cases ht : d.tried.contains c with
        | true => exact .tried hp hb ht (ih _ _)
        | false =>
          have ho := replay_outcome p attempts c (d.reseed random)
          simp only [Bool.false_eq_true, if_false]
          split
          all_goals
            rename_i d₁ hr
            change replay p attempts c (d.reseed random) = _ at hr
            rw [hr] at ho
          · exact .accepted rest hp hb ht ho
          · exact .discarded hp hb ht ho (ih _ _)
          · exact .exhausted rest hp hb ht ho
          · exact .endless rest hp hb ht ho

theorem pass_of_cycle {d d' : Descent σ α β} (h : cycle p attempts budget ps d = (result, d')) :
    Pass p attempts budget ps d result d' := by
  have hp := cycle_pass p attempts budget ps d
  rwa [h] at hp

/-- How a descent goes from cycle to cycle, with so many cycles to go at most. -/
inductive Course (p : Property σ α β) (attempts : Int) (propose : Trace → Proposals)
    (budget : Budget) : Nat → Descent σ α β → Ending → Descent σ α β → Prop where
  | outOfCycles (d : Descent σ α β) : Course p attempts propose budget 0 d .spent d
  | spent (n : Nat) (hb : budget.spent d.replays = true) :
      Course p attempts propose budget (n + 1) d .spent d
  | trivial (n : Nat) (hb : budget.spent d.replays = false) (ht : d.current.trace = []) :
      Course p attempts propose budget (n + 1) d .trivial d
  | last (n : Nat) (hb : budget.spent d.replays = false) (ht : d.current.trace ≠ [])
      (hp : Pass p attempts budget (propose d.current.trace) d (some ending) d') :
      Course p attempts propose budget (n + 1) d ending d'
  | more (hb : budget.spent d.replays = false) (ht : d.current.trace ≠ [])
      (hp : Pass p attempts budget (propose d.current.trace) d none d₁)
      (hn : Course p attempts propose budget n d₁ ending d') :
      Course p attempts propose budget (n + 1) d ending d'

theorem run_course (p : Property σ α β) (attempts : Int) (propose : Trace → Proposals)
    (budget : Budget) (n : Nat) (d : Descent σ α β) :
    Course p attempts propose budget n d (run p attempts propose budget n d).1
      (run p attempts propose budget n d).2 := by
  induction n generalizing d with
  | zero => exact .outOfCycles d
  | succ n ih =>
    unfold run
    cases hb : budget.spent d.replays with
    | true => exact .spent n hb
    | false =>
      simp only [Bool.false_eq_true, if_false, List.isEmpty_iff]
      by_cases ht : d.current.trace = []
      · rw [if_pos ht]
        exact .trivial n hb ht
      · rw [if_neg ht]
        split
        · rename_i hc
          exact .last n hb ht (pass_of_cycle hc)
        · rename_i hc
          exact .more hb ht (pass_of_cycle hc) (ih _)

theorem course_of_run {d d' : Descent σ α β}
    (h : run p attempts propose budget n d = (ending, d')) :
    Course p attempts propose budget n d ending d' := by
  have hc := run_course p attempts propose budget n d
  rwa [h] at hc

/-- What moving the generator on and replaying candidates keep: `P` while replays come to an end of
their own, and `Q` of what is left when one was broken off. -/
structure Keeps (p : Property σ α β) (attempts : Int) (propose : Trace → Proposals)
    (P Q : Descent σ α β → Prop) : Prop where
  reseed : ∀ {d : Descent σ α β} (random : Xorshift), P d → P (d.reseed random)
  replay : ∀ {d d' : Descent σ α β} {c : List Int} {asked : Xorshift} {reply : Reply}, P d →
    d.tried.contains c = false → (propose d.current.trace).Offers asked c d.lab.random →
    Outcome p attempts c d reply d' → if reply.brokenOff then Q d' else P d'

theorem Keeps.offered {P Q : Descent σ α β → Prop} (hk : Keeps p attempts propose P Q)
    {d d' : Descent σ α β} (hd : P d) (ht : d.tried.contains c = false)
    (hc : (propose d.current.trace).Offers asked c random)
    (hr : Outcome p attempts c (d.reseed random) reply d') :
    if reply.brokenOff then Q d' else P d' :=
  hk.replay (hk.reseed random hd) ht hc hr

/-- The candidates still to come in a cycle are among those proposed for the current trace, which
stays the same until one is accepted. -/
theorem Pass.keeps {P Q : Descent σ α β → Prop} (hk : Keeps p attempts propose P Q)
    {d d' : Descent σ α β} (h : Pass p attempts budget ps d result d') (hd : P d)
    (ho : ∀ asked c random, ps.Offers asked c random →
      (propose d.current.trace).Offers asked c random) :
    if result.any Ending.brokenOff then Q d' else P d' := by
  induction h with
  | done d => exact hd
  | unmade | spent => exact hk.reseed _ hd
  | tried _ _ _ _ ih =>
    exact ih (hk.reseed _ hd) fun asked c random hc => ho asked c random (.later _ hc)
  | accepted _ hp _ ht hr => exact hk.offered hd ht (ho _ _ _ (.here hp)) hr
  | discarded hp _ ht hr _ ih =>
    refine ih (hk.offered hd ht (ho _ _ _ (.here hp)) hr) ?_
    intro asked c random hc
    rw [(hr.found_eq nofun).1]
    exact ho asked c random (.later _ hc)
  | exhausted _ hp _ ht hr | endless _ hp _ ht hr =>
    exact hk.offered hd ht (ho _ _ _ (.here hp)) hr

theorem Course.keeps {P Q : Descent σ α β → Prop} (hk : Keeps p attempts propose P Q)
    {d d' : Descent σ α β} (h : Course p attempts propose budget n d ending d') (hd : P d) :
    if ending.brokenOff then Q d' else P d' := by
  induction h with
  | outOfCycles | spent | trivial => exact hd
  | last _ _ _ hp => exact hp.keeps hk hd fun _ _ _ => id
  | more _ _ hp _ ih => exact ih (hp.keeps hk hd fun _ _ _ => id)

/-- A cycle that accepts a candidate has a simpler trace to go on with. -/
theorem Pass.simpler {d d' : Descent σ α β} (h : Pass p attempts budget ps d none d') :
    d'.current.trace.simplerThan d.current.trace := by
  generalize hr : (none : Option Ending) = result at h
  induction h with
  | done | unmade | spent | exhausted | endless => cases hr
  | tried _ _ _ _ ih => exact ih hr
  | accepted _ _ _ _ ho =>
    cases ho with
    | accepted _ _ _ hs => exact hs
  | discarded _ _ _ ho _ ih =>
    have hd := ih hr
    rw [(ho.found_eq nofun).1] at hd
    exact hd

theorem Pass.current_eq {d d' : Descent σ α β}
    (h : Pass p attempts budget ps d (some ending) d') : d'.current = d.current := by
  generalize hr : some ending = result at h
  induction h with
  | done | unmade | spent => rfl
  | accepted => cases hr
  | tried _ _ _ _ ih => exact ih hr
  | discarded _ _ _ ho _ ih => exact (ih hr).trans (ho.found_eq nofun).1
  | exhausted _ _ _ _ ho | endless _ _ _ _ ho => exact (ho.found_eq nofun).1

theorem Pass.tried_mono {d d' : Descent σ α β} (h : Pass p attempts budget ps d result d')
    (hc : d.tried.contains c = true) : d'.tried.contains c = true := by
  induction h with
  | done | unmade | spent => exact hc
  | tried _ _ _ _ ih => exact ih hc
  | accepted _ _ _ _ ho | exhausted _ _ _ _ ho | endless _ _ _ _ ho =>
    rw [ho.tried_eq, contains_insert]
    exact .inr hc
  | discarded _ _ _ ho _ ih =>
    refine ih ?_
    rw [ho.tried_eq, contains_insert]
    exact .inr hc

/-- A cycle that accepts a candidate has replayed it at least. -/
theorem Pass.replays_lt {d d' : Descent σ α β} (h : Pass p attempts budget ps d none d') :
    d.replays < d'.replays := by
  generalize hr : (none : Option Ending) = result at h
  induction h with
  | done | unmade | spent | exhausted | endless => cases hr
  | tried _ _ _ _ ih => exact ih hr
  | accepted _ _ _ _ ho => exact ho.replays_eq ▸ Nat.lt_succ_self _
  | discarded _ _ _ ho _ ih =>
    have hd := ih hr
    rw [ho.replays_eq] at hd
    exact Nat.lt_of_succ_lt hd

theorem Pass.spent_replays {d d' : Descent σ α β}
    (h : Pass p attempts (some limit) ps d (some .spent) d') : limit ≤ d'.replays := by
  generalize hr : some Ending.spent = result at h
  induction h with
  | done | unmade | accepted | exhausted | endless => cases hr
  | spent _ _ hb => exact of_decide_eq_true hb
  | tried _ _ _ _ ih => exact ih hr
  | discarded _ _ _ _ _ ih => exact ih hr

/-- With a cycle for each replay, cycles do not run out before replays do. -/
theorem Course.spent_replays {d d' : Descent σ α β}
    (h : Course p attempts propose (some limit) n d .spent d') (hn : limit ≤ n + d.replays) :
    limit ≤ d'.replays := by
  generalize hr : Ending.spent = ending at h
  induction h with
  | outOfCycles => simpa using hn
  | spent _ hb => exact of_decide_eq_true hb
  | trivial => cases hr
  | last _ _ _ hp =>
    subst hr
    exact hp.spent_replays
  | more _ _ hp _ ih =>
    have hl := hp.replays_lt
    exact ih (by omega) hr

/-- A descent that was not cut short ends where there is nothing left to draw, or with a cycle
that accepts no candidate. -/
theorem Course.last_pass {d d' : Descent σ α β}
    (h : Course p attempts propose budget n d ending d') (hs : ending ≠ .spent) :
    d'.current.trace = [] ∨
      ∃ d₁, Pass p attempts budget (propose d₁.current.trace) d₁ (some ending) d' := by
  induction h with
  | outOfCycles | spent => exact absurd rfl hs
  | trivial _ _ ht => exact .inl ht
  | last _ _ _ hp => exact .inr ⟨_, hp⟩
  | more _ _ _ _ ih => exact ih hs

/-- Only a replay that never ends breaks a cycle off so. -/
theorem Pass.outcome_of_endless {d d' : Descent σ α β}
    (h : Pass p attempts budget ps d (some (.endless fault)) d') :
    ∃ c d₁, Outcome p attempts c d₁ (.endless fault) d' := by
  generalize hr : some (Ending.endless fault) = result at h
  induction h with
  | done | spent | accepted | exhausted | unmade => cases hr
  | endless _ _ _ _ ho =>
    cases hr
    exact ⟨_, _, ho⟩
  | tried _ _ _ _ ih | discarded _ _ _ _ _ ih => exact ih hr

theorem Course.outcome_of_endless {d d' : Descent σ α β}
    (h : Course p attempts propose budget n d (.endless fault) d') :
    ∃ c d₁, Outcome p attempts c d₁ (.endless fault) d' := by
  generalize hr : Ending.endless fault = ending at h
  induction h with
  | outOfCycles | spent | trivial => cases hr
  | last _ _ _ hp =>
    subst hr
    exact hp.outcome_of_endless
  | more _ _ _ _ ih => exact ih hr

theorem Outcome.isEndless {d d' : Descent σ α β} (h : Outcome p attempts c d (.endless fault) d') :
    fault.isEndless = true := by
  cases h with
  | endless _ he | unfinished _ _ _ he => exact he

end Descent

end Refute

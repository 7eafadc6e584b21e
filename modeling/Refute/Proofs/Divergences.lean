import Refute.Proofs.Workers

namespace Refute

variable {S M : Type}

/-- Neither running the command nor asking for the next state faults. -/
structure Command.Returns (c : Command S M) : Prop where
  run : ∀ system, ∃ system', c.run system = .ok () system'
  next : ∀ state, ∃ state', c.next state = .ok state'

/-- Neither building a system nor asking for its state faults. -/
structure Modelled.Returns (m : Modelled S M) : Prop where
  build : ∀ state, ∃ system, m.build state = .ok system
  observe : ∀ system, ∃ shown, m.observe system = .ok shown

/-- What a system shows after the command is what comes next after what it showed before. -/
def Modelled.Commutes (m : Modelled S M) (c : Command S M) : Prop :=
  ∀ system system', c.run system = .ok () system' →
    m.observe system' = (m.observe system >>= c.next)

namespace Sequential

def runAll : List (Command S M) → Act S Unit
  | [] => pure ()
  | c :: cs => do
    c.run
    runAll cs

def nextAll (commands : List (Command S M)) (state : M) : Except Fault M :=
  commands.foldlM (fun state c => c.next state) state

/-- A system built for `initial` shows `shown` when the commands have run, and the model says that
the state is `expected`. -/
structure Shows (m : Modelled S M) (initial : M) (commands : List (Command S M))
    (shown expected : M) : Prop where
  system : ∃ built system, m.build initial = .ok built ∧
    runAll commands built = .ok () system ∧ m.observe system = .ok shown
  model : nextAll commands initial = .ok expected

/-- After the command at place `k` the system shows another state than the model's. -/
def Disagrees [BEq M] (m : Modelled S M) (initial : M) (commands : List (Command S M)) (k : Nat) :
    Prop :=
  k < commands.length ∧ ∃ shown expected,
    Shows m initial (commands.take (k + 1)) shown expected ∧ (shown == expected) = false

/-- One command on the system and on the model. -/
structure Step (observe : S → Except Fault M) (c : Command S M) (system : S) (state : M)
    (system' : S) (state' shown : M) : Prop where
  run : c.run system = .ok () system'
  next : c.next state = .ok state'
  observe : observe system' = .ok shown

/-- Commands after each of which the system shows the model's state. -/
inductive Agreed [BEq M] (observe : S → Except Fault M) :
    List (Command S M) → S → M → List M → S → M → Prop where
  | nil : Agreed observe [] system state [] system state
  | cons (step : Step observe c system state system' state' shown)
      (same : (shown == state') = true)
      (rest : Agreed observe cs system' state' states system'' state'') :
      Agreed observe (c :: cs) system state (shown :: states) system'' state''

/-- A command that agreed commands lead to, and what it brings about. -/
inductive Reaches [BEq M] (observe : S → Except Fault M) (commands : List (Command S M))
    (system : S) (state : M) (before : List (Command S M)) (c : Command S M) (shown expected : M) :
    Prop where
  | intro (split : commands = before ++ c :: after)
      (agreed : Agreed observe before system state states system₁ state₁)
      (step : Step observe c system₁ state₁ system₂ expected shown)

section Steps

variable {m : Modelled S M} {c : Command S M} {cs others : List (Command S M)}
  {observe : S → Except Fault M} {system system' : S} {state state' shown : M} {states : List M}

theorem exists_step (hm : m.Returns) (hc : c.Returns) (system : S) (state : M) :
    ∃ system' state' shown, Step m.observe c system state system' state' shown := by
  obtain ⟨system', hrun⟩ := hc.run system
  obtain ⟨state', hnext⟩ := hc.next state
  obtain ⟨shown, hobserve⟩ := hm.observe system'
  exact ⟨system', state', shown, hrun, hnext, hobserve⟩

theorem Step.goOn [BEq M] (h : Step observe c system state system' state' shown) :
    goOn observe (c :: cs) system state completed =
      if shown == state' then
        .after shown (Sequential.goOn observe cs system' state' (completed + 1))
      else ⟨[shown], .diverges ⟨shown, state', c.name, completed⟩⟩ := by
  simp only [Sequential.goOn, h.run, h.next, h.observe]

theorem Step.commutes (h : Step m.observe c system state system' state' shown)
    (hc : m.Commutes c) (hs : m.observe system = .ok state) : shown = state' := by
  have hshown := hc system system' h.run
  rw [h.observe, hs] at hshown
  exact Except.ok.inj (hshown.trans h.next)

variable [BEq M]

theorem Agreed.length (h : Agreed observe cs system state states system' state') :
    states.length = cs.length := by
  induction h with
  | nil => rfl
  | cons _ _ _ ih => exact congrArg (· + 1) ih

/-- What comes after agreed commands is checked from where they led. -/
theorem Agreed.goOn (h : Agreed observe cs system state states system' state') :
    goOn observe (cs ++ others) system state completed =
      { goOn observe others system' state' (completed + cs.length) with
        states := states ++
          (Sequential.goOn observe others system' state' (completed + cs.length)).states } := by
  induction h generalizing completed with
  | nil => rfl
  | cons step same _ ih =>
    rw [List.cons_append, step.goOn, if_pos same, ih, List.length_cons, Nat.add_right_comm,
      Nat.add_assoc]
    rfl

theorem Agreed.runAll (h : Agreed observe cs system state states system' state') :
    runAll (cs ++ others) system = runAll others system' := by
  induction h with
  | nil => rfl
  | cons step _ _ ih => exact (Act.bind_ok step.run).trans ih

theorem Agreed.nextAll (h : Agreed observe cs system state states system' state') :
    nextAll (cs ++ others) state = nextAll others state' := by
  induction h with
  | nil => rfl
  | cons step _ _ ih =>
    rw [List.cons_append, Sequential.nextAll, List.foldlM_cons, step.next]
    exact ih

/-- A system that shows the model's state still shows it after commands it commutes with. -/
theorem Agreed.shows (h : Agreed m.observe cs system state states system' state')
    (hc : ∀ c ∈ cs, m.Commutes c) (hs : m.observe system = .ok state) :
    m.observe system' = .ok state' := by
  induction h with
  | nil => exact hs
  | cons step _ _ ih =>
    obtain ⟨hc, hcs⟩ := List.forall_mem_cons.mp hc
    exact ih hcs (step.observe.trans (congrArg _ (step.commutes hc hs)))

theorem Reaches.cons (step : Step observe c system state system' state' shown)
    (same : (shown == state') = true)
    (h : Reaches observe cs system' state' before c' shown' expected) :
    Reaches observe (c :: cs) system state (c :: before) c' shown' expected := by
  obtain ⟨rfl, agreed, step'⟩ := h
  exact ⟨rfl, .cons step same agreed, step'⟩

/-- Each of the agreed commands is led to by those before it, and brings about no difference. -/
theorem Agreed.reaches (h : Agreed observe cs system state states system' state')
    (hk : k < cs.length) :
    ∃ before c shown expected, before.length = k ∧
      Reaches observe cs system state before c shown expected ∧ (shown == expected) = true := by
  induction h generalizing k with
  | nil => exact absurd hk (Nat.not_lt_zero k)
  | cons step same rest ih =>
    cases k with
    | zero => exact ⟨[], _, _, _, rfl, ⟨rfl, .nil, step⟩, same⟩
    | succ k =>
      obtain ⟨before, c, shown, expected, hlength, hreaches, same'⟩ :=
        ih (Nat.lt_of_succ_lt_succ hk)
      exact ⟨_ :: before, c, shown, expected, congrArg (· + 1) hlength,
        hreaches.cons step same, same'⟩

/-- Either all commands are agreed, or those before the first one that is not. -/
theorem agreed_or_not (hm : m.Returns) (hc : ∀ c ∈ cs, c.Returns) (system : S) (state : M) :
    (∃ states system' state', Agreed m.observe cs system state states system' state') ∨
    ∃ before c shown expected, Reaches m.observe cs system state before c shown expected ∧
      (shown == expected) = false := by
  induction cs generalizing system state with
  | nil => exact .inl ⟨[], system, state, .nil⟩
  | cons c cs ih =>
    obtain ⟨hc, hcs⟩ := List.forall_mem_cons.mp hc
    obtain ⟨system', state', shown, step⟩ := exists_step hm hc system state
    cases same : shown == state' with
    | false => exact .inr ⟨[], c, shown, state', ⟨rfl, .nil, step⟩, same⟩
    | true =>
      rcases ih hcs system' state' with ⟨_, _, _, agreed⟩ | ⟨before, c', _, _, hreaches, differ⟩
      · exact .inl ⟨_, _, _, .cons step same agreed⟩
      · exact .inr ⟨c :: before, c', _, _, hreaches.cons step same, differ⟩

theorem Reaches.place (h : Reaches observe cs system state before c shown expected) :
    cs[before.length]? = some c ∧ before.length < cs.length ∧
      cs.take (before.length + 1) = before ++ [c] := by
  obtain ⟨rfl, -, -⟩ := h
  simp [List.take_append, List.take_of_length_le (Nat.le_succ before.length)]

/-- Where the two differ, the check ends, whatever commands are left. -/
theorem Reaches.goOn (h : Reaches observe cs system state before c shown expected)
    (differ : (shown == expected) = false) (completed : Nat) :
    ∃ states, states.length = before.length ∧ ∀ others,
      goOn observe (before ++ c :: others) system state completed =
        ⟨states ++ [shown], .diverges ⟨shown, expected, c.name, completed + before.length⟩⟩ := by
  obtain ⟨-, agreed, step⟩ := h
  refine ⟨_, agreed.length, fun others => ?_⟩
  rw [agreed.goOn, step.goOn, differ]
  rfl

/-- The state shown and the expected one are those after the commands so far. -/
theorem Reaches.shows (h : Reaches m.observe cs built initial before c shown expected)
    (hbuild : m.build initial = .ok built) :
    Shows m initial (before ++ [c]) shown expected := by
  obtain ⟨-, agreed, step⟩ := h
  refine ⟨⟨built, _, hbuild, ?_, step.observe⟩, ?_⟩
  · rw [agreed.runAll]
    exact Act.bind_ok step.run
  · rw [agreed.nextAll, Sequential.nextAll, List.foldlM_cons, step.next]
    rfl

/-- Commands that a system commutes with bring about no difference. -/
theorem Reaches.same [ReflBEq M] (h : Reaches m.observe cs system state before c shown expected)
    (hc : ∀ c ∈ cs, m.Commutes c) (hs : m.observe system = .ok state) :
    (shown == expected) = true := by
  obtain ⟨rfl, agreed, step⟩ := h
  have hshows := agreed.shows (fun c' hc' => hc c' (List.mem_append_left _ hc')) hs
  rw [step.commutes (hc c (List.mem_append_right _ List.mem_cons_self)) hshows]
  exact BEq.rfl

end Steps

theorem Shows.unique {m : Modelled S M} (h : Shows m initial commands shown expected)
    (h' : Shows m initial commands shown' expected') : shown = shown' ∧ expected = expected' := by
  obtain ⟨⟨built, system, hbuild, hrun, hobserve⟩, hmodel⟩ := h
  obtain ⟨⟨built', system', hbuild', hrun', hobserve'⟩, hmodel'⟩ := h'
  cases hbuild.symm.trans hbuild'
  cases hrun.symm.trans hrun'
  cases hobserve.symm.trans hobserve'
  cases hmodel.symm.trans hmodel'
  exact ⟨rfl, rfl⟩

section Check

variable [BEq M] {m : Modelled S M} {commands : List (Command S M)}

/-- The system disagrees after a command that was reached just if what it shows then differs. -/
theorem Reaches.disagrees_iff (h : Reaches m.observe commands built initial before c shown expected)
    (hbuild : m.build initial = .ok built) :
    Disagrees m initial commands before.length ↔ (shown == expected) = false := by
  obtain ⟨-, hlt, htake⟩ := h.place
  have hshows := h.shows hbuild
  rw [← htake] at hshows
  constructor
  · rintro ⟨-, shown', expected', hshows', differ⟩
    obtain ⟨rfl, rfl⟩ := hshows.unique hshows'
    exact differ
  · exact fun differ => ⟨hlt, shown, expected, hshows, differ⟩

/-- A system disagrees at no place among commands that are agreed. -/
theorem Agreed.not_disagrees
    (h : Agreed m.observe commands built initial states system state)
    (hbuild : m.build initial = .ok built) : ¬ Disagrees m initial commands k := by
  intro hk
  obtain ⟨before, c, shown, expected, rfl, hreaches, same⟩ := h.reaches hk.1
  rw [(hreaches.disagrees_iff hbuild).mp hk] at same
  cases same

theorem Reaches.not_disagrees_before
    (h : Reaches m.observe commands built initial before c shown expected)
    (hbuild : m.build initial = .ok built) (hk : k < before.length) :
    ¬ Disagrees m initial commands k := by
  obtain ⟨rfl, agreed, -⟩ := h
  rintro ⟨-, hshows⟩
  rw [List.take_append_of_le_length hk] at hshows
  exact agreed.not_disagrees hbuild ⟨hk, hshows⟩

end Check

/-- Where nothing faults, a check fails just if the system disagrees with the model somewhere. It
fails at the first such place, says so, and runs nothing after it. A system that shows the initial
state when it is built, and commutes with all commands, passes. -/
theorem check_decides [BEq M] [Display M] {m : Modelled S M}
    {commands : List (Command S M)} (hm : m.Returns) (hc : ∀ c ∈ commands, c.Returns)
    (initial : M) :
    ((∃ d, (check m initial commands).result = .diverges d) ↔
      ∃ k, Disagrees m initial commands k) ∧
    ((check m initial commands).result = .agrees ↔ ∀ k, ¬ Disagrees m initial commands k) ∧
    (∀ d, (check m initial commands).result = .diverges d →
      (∀ k < d.completed, ¬ Disagrees m initial commands k) ∧
      Disagrees m initial commands d.completed ∧
      Shows m initial (commands.take (d.completed + 1)) d.observed d.expected ∧
      (∃ c, commands[d.completed]? = some c ∧ d.command = c.name) ∧
      d.text = "Expected " ++ display d.observed ++ " to be " ++ display d.expected ++ " after " ++
        d.command ++ s!"\n Ran {d.completed} steps before failure." ∧
      (check m initial commands).states.length = d.completed + 1 ∧
      ∀ others, check m initial (commands.take (d.completed + 1) ++ others) =
        check m initial commands) ∧
    (ReflBEq M → (∀ built, m.build initial = .ok built → m.observe built = .ok initial) →
      (∀ c ∈ commands, m.Commutes c) → (check m initial commands).result = .agrees) := by
  obtain ⟨built, hbuild⟩ := hm.build initial
  have hcheck : ∀ commands, check m initial commands =
      goOn m.observe commands built initial 0 := fun commands => by rw [check, hbuild]
  simp only [hcheck]
  rcases agreed_or_not hm hc built initial with
    ⟨states, system, state, agreed⟩ | ⟨before, c, shown, expected, hreaches, differ⟩
  · have hresult : (goOn m.observe commands built initial 0).result = .agrees := by
      rw [← List.append_nil commands, agreed.goOn]
      rfl
    have hnone : ∀ k, ¬ Disagrees m initial commands k := fun k => agreed.not_disagrees hbuild
    simp [hresult, hnone]
  · obtain ⟨states, hlength, hgoOn⟩ := hreaches.goOn differ 0
    obtain ⟨hplace, -, htake⟩ := hreaches.place
    have hdisagrees := (hreaches.disagrees_iff hbuild).mpr differ
    have hall : goOn m.observe commands built initial 0 =
        ⟨states ++ [shown], .diverges ⟨shown, expected, c.name, 0 + before.length⟩⟩ := by
      obtain ⟨rfl, -, -⟩ := hreaches
      exact hgoOn _
    rw [Nat.zero_add] at hall
    simp only [hall]
    refine ⟨⟨fun _ => ⟨_, hdisagrees⟩, fun _ => ⟨_, rfl⟩⟩, ⟨fun hagrees => ?_,
      fun hnone => (hnone _ hdisagrees).elim⟩, ?_, ?_⟩
    · cases hagrees
    · rintro _ ⟨rfl⟩
      refine ⟨fun k hk => hreaches.not_disagrees_before hbuild hk, hdisagrees, ?_,
        ⟨c, hplace, rfl⟩, rfl, by simp [hlength], fun others => ?_⟩
      · rw [htake]
        exact hreaches.shows hbuild
      · rw [htake, List.append_assoc]
        simpa using hgoOn others
    · intro _ hinitial hcommutes
      rw [hreaches.same hcommutes (hinitial built hbuild)] at differ
      cases differ

section Counters

open Parallel

/-- Doubles the number that the model has, and adds three to the one in the counter. -/
def timesTwoAstray : Command Int Int where
  name := "TIMES_2"
  run := modify (· + 3)
  next n := .ok (n * 2)

theorem counter_returns : counter.Returns :=
  ⟨fun state => ⟨state, rfl⟩, fun system => ⟨system, rfl⟩⟩

theorem onCounter_returns (name : String) (next work : Int → Int) :
    (onCounter name next work).Returns :=
  ⟨fun system => ⟨next system, rfl⟩, fun state => ⟨next state, rfl⟩⟩

theorem onCounter_commutes (name : String) (next work : Int → Int) :
    counter.Commutes (onCounter name next work).toCommand := by
  rintro system _ ⟨rfl⟩
  rfl

/-- The second of three commands goes astray, and the third is not run. With a doubling in its
place all of them pass. -/
theorem check_decides_astray :
    ((check counter 0 [plusOne.toCommand, timesTwoAstray, plusOne.toCommand]).result =
        .diverges ⟨4, 2, "TIMES_2", 1⟩ ∧
      Disagrees counter 0 [plusOne.toCommand, timesTwoAstray, plusOne.toCommand] 1 ∧
      ¬ Disagrees counter 0 [plusOne.toCommand, timesTwoAstray, plusOne.toCommand] 0 ∧
      ∀ others, check counter 0 ([plusOne.toCommand, timesTwoAstray] ++ others) =
        check counter 0 [plusOne.toCommand, timesTwoAstray, plusOne.toCommand]) ∧
    (check counter 0 [plusOne.toCommand, timesTwo.toCommand, plusOne.toCommand]).result =
      .agrees := by
  have hresult : (check counter 0
      [plusOne.toCommand, timesTwoAstray, plusOne.toCommand]).result =
      .diverges ⟨4, 2, "TIMES_2", 1⟩ := rfl
  have hastray : ∀ c ∈ [plusOne.toCommand, timesTwoAstray, plusOne.toCommand], c.Returns := by
    intro c hc
    simp only [List.mem_cons, List.not_mem_nil, or_false] at hc
    rcases hc with rfl | rfl | rfl
    · exact onCounter_returns ..
    · exact ⟨fun n => ⟨n + 3, rfl⟩, fun n => ⟨n * 2, rfl⟩⟩
    · exact onCounter_returns ..
  have hdoubling : ∀ c ∈ [plusOne.toCommand, timesTwo.toCommand, plusOne.toCommand],
      c.Returns ∧ counter.Commutes c := by
    intro c hc
    simp only [List.mem_cons, List.not_mem_nil, or_false] at hc
    rcases hc with rfl | rfl | rfl <;>
      exact ⟨onCounter_returns .., onCounter_commutes _ _ _⟩
  obtain ⟨-, -, hfails, -⟩ := check_decides counter_returns hastray 0
  obtain ⟨hfirst, hdisagrees, -, -, -, -, hothers⟩ := hfails _ hresult
  obtain ⟨-, -, -, hpasses⟩ := check_decides counter_returns (fun c hc => (hdoubling c hc).1) 0
  exact ⟨⟨hresult, hdisagrees, hfirst 0 Nat.zero_lt_one, hothers⟩,
    hpasses inferInstance (fun _ hbuild => by rw [Except.ok.inj hbuild]; rfl)
      fun c hc => (hdoubling c hc).2⟩

/-- A counter that is one ahead when it is built. -/
def aheadOfOne : Modelled Int Int :=
  ⟨fun n => .ok (n + 1), .ok⟩

/-- To commute with all commands is not enough: the system must show the initial state. -/
theorem check_fails_commuting :
    aheadOfOne.Returns ∧ plusOne.toCommand.Returns ∧ aheadOfOne.Commutes plusOne.toCommand ∧
      (check aheadOfOne 0 [plusOne.toCommand]).result = .diverges ⟨2, 1, "PLUS_1", 0⟩ := by
  refine ⟨⟨fun n => ⟨n + 1, rfl⟩, fun n => ⟨n, rfl⟩⟩, onCounter_returns .., ?_, rfl⟩
  rintro system _ ⟨rfl⟩
  rfl

end Counters

end Sequential

end Refute

import Refute.Proofs.SerialRuns

namespace Refute.Parallel

open Relation (ReflTransGen)

variable {S M : Type}

theorem filterMap_range_getElem? (as : List α) :
    ((List.range as.length).filterMap fun place => as[place]?) = as := by
  induction as with
  | nil => rfl
  | cons a as ih =>
    rw [List.length_cons, List.range_succ_eq_map, List.filterMap_cons, List.filterMap_map]
    exact congrArg (a :: ·) ih

/-- The commands in the order in which workers come to them, each with its place. -/
def scheduled (commands : List (WorkerCommand S M)) (schedule : List Nat) :
    List (Nat × WorkerCommand S M) :=
  schedule.filterMap fun place => commands[place]?.map fun c => (place, c)

theorem scheduled_perm {commands : List (WorkerCommand S M)}
    (h : schedule.Perm (List.range commands.length)) :
    ((scheduled commands schedule).map Prod.snd).Perm commands := by
  have hall : (scheduled commands (List.range commands.length)).map Prod.snd = commands := by
    simp only [scheduled, List.map_filterMap, Option.map_map, Function.comp_def, Option.map_id']
    exact filterMap_range_getElem? commands
  have hp := (h.filterMap fun place => commands[place]?.map fun c => (place, c)).map Prod.snd
  exact hp.trans (.of_eq hall)

/-- Each command is done on the system at once, by itself and by a worker, and without a fault, as
its next state says. What `shows` relates is a system and the state it is in. -/
structure Atomic [BEq M] (m : Modelled S M) (initial : M) (commands : List (WorkerCommand S M))
    (shows : S → M → Prop) : Prop where
  build : ∃ system, m.build initial = .ok system ∧ shows system initial
  observe : shows system state → ∃ shown, m.observe system = .ok shown ∧ (shown == state) = true
  next : c ∈ commands → shows system state → ∃ state', c.next state = .ok state'
  run : c ∈ commands → shows system state → c.next state = .ok state' →
    ∃ system', c.run system = .ok () system' ∧ shows system' state'
  work : c ∈ commands → shows system state → c.next state = .ok state' →
    ∃ system', c.work system = (.done, system') ∧ shows system' state'

/-- All commands complete, one by one and by the workers; in the end the system shows `final`. -/
structure Completes [BEq M] (m : Modelled S M) (initial : M) (commands : List (WorkerCommand S M))
    (schedule : List Nat) (final : M) : Prop where
  alone : ∀ fault, (Sequential.check m initial (commands.map (·.toCommand))).result ≠ .fault fault
  model : ¬ Faults (commands.map (·.toCommand)) initial
  workers : ∃ system results system', m.build initial = .ok system ∧
    work (scheduled commands schedule) system = (results, system') ∧
    (∀ result ∈ results, result.2 = .done) ∧ m.observe system' = .ok final

theorem firstFailure?_of_done {results : List (Nat × WorkerResult)}
    (h : ∀ result ∈ results, result.2 = .done) :
    firstFailure? (M := M) results timeout left place = none := by
  induction left generalizing place with
  | zero => rfl
  | succ left ih =>
    rw [firstFailure?]
    split
    · rename_i fault hl
      obtain ⟨before, later, rfl, -⟩ := List.lookup_eq_some_iff.mp hl
      cases h (place, .raised fault) (by simp)
    · rename_i hl
      obtain ⟨before, later, rfl, -⟩ := List.lookup_eq_some_iff.mp hl
      cases h (place, .blocked) (by simp)
    · exact ih

section Check

variable [BEq M] {m : Modelled S M} {commands : List (WorkerCommand S M)} {shows : S → M → Prop}

/-- When all commands complete, only the state that the system shows in the end is judged. -/
theorem Completes.concurrently (h : Completes m initial commands schedule final)
    (hthreads : 1 ≤ threads) (timeout : Seconds) :
    ∃ reached, serialEndings initial (commands.map (·.toCommand)) = .ok reached ∧
      concurrently m initial commands schedule threads timeout =
        if reached.contains final then none else some (.unreachable final reached.eraseDups) := by
  obtain ⟨reached, hreached⟩ := serialEndings_ok_iff.mpr h.model
  obtain ⟨system, results, system', hbuild, hwork, hdone, hobserve⟩ := h.workers
  refine ⟨reached, hreached, ?_⟩
  unfold scheduled at hwork
  unfold Parallel.concurrently
  simp only [hbuild, hreached, if_neg (Int.not_lt.mpr hthreads), hwork, firstFailure?_of_done hdone,
    hobserve]

/-- When all commands complete, the check passes if each command did what the model says and the
final state is one in which a serial run ends. All that can be wrong is a state. -/
theorem Completes.check (h : Completes m initial commands schedule final) (hthreads : 1 ≤ threads)
    (htimeout : timeout.isPositive = true) :
    (check m initial commands schedule threads timeout = none ↔
      (Sequential.check m initial (commands.map (·.toCommand))).result = .agrees ∧
        ∃ reached, Run (commands.map (·.toCommand)) initial reached ∧ (final == reached) = true) ∧
    ∀ failure, check m initial commands schedule threads timeout = some failure →
      failure.kind = "AssertionError" := by
  obtain ⟨reached, hreached, hconc⟩ := h.concurrently hthreads timeout
  rw [← contains_serialEndings hreached, Parallel.check, htimeout]
  cases hs : (Sequential.check m initial (commands.map (·.toCommand))).result with
  | fault fault => exact (h.alone fault hs).elim
  | diverges d => simp [Failure.kind]
  | agrees =>
    simp only [Bool.not_true, Bool.false_eq_true, if_false, hconc]
    cases reached.contains final <;> simp [Failure.kind]

/-- On such a system the commands agree with the model, one by one. -/
theorem Atomic.goOn {cs : List (WorkerCommand S M)} (h : Atomic m initial commands shows)
    (hcs : ∀ c ∈ cs, c ∈ commands) (hs : shows system state) :
    (Sequential.goOn m.observe (cs.map (·.toCommand)) system state completed).result =
      .agrees := by
  induction cs generalizing system state completed with
  | nil => rfl
  | cons c cs ih =>
    have hc : c ∈ commands := hcs c List.mem_cons_self
    obtain ⟨state', hn⟩ := h.next hc hs
    obtain ⟨system', hr, hs'⟩ := h.run hc hs hn
    obtain ⟨shown, ho, heq⟩ := h.observe hs'
    simp only [List.map_cons, Sequential.goOn, hr, hn, ho, heq, if_true]
    exact ih (fun c' hc' => hcs c' (List.mem_cons_of_mem c hc')) hs'

/-- What workers do to such a system, the model does in the same order. -/
theorem Atomic.work_scheduled {entries : List (Nat × WorkerCommand S M)}
    (h : Atomic m initial commands shows) (hcs : ∀ entry ∈ entries, entry.2 ∈ commands)
    (hs : shows system state) :
    ∃ results system' state', Parallel.work entries system = (results, system') ∧
      (∀ result ∈ results, result.2 = .done) ∧ shows system' state' ∧
      (entries.map (·.2.toCommand)).foldlM (fun state c => c.next state) state = .ok state' := by
  induction entries generalizing system state with
  | nil => exact ⟨[], system, state, rfl, List.forall_mem_nil _, hs, rfl⟩
  | cons entry entries ih =>
    obtain ⟨hc, hcs⟩ := List.forall_mem_cons.mp hcs
    obtain ⟨next, hn⟩ := h.next hc hs
    obtain ⟨between, hw, hs'⟩ := h.work hc hs hn
    obtain ⟨results, system', state', hwork, hdone, hshows, hfold⟩ := ih hcs hs'
    refine ⟨(entry.1, .done) :: results, system', state', ?_,
      List.forall_mem_cons.mpr ⟨rfl, hdone⟩, hshows, ?_⟩
    · simp only [Parallel.work, hw, hwork]
    · rw [List.map_cons, List.foldlM_cons]
      exact Except.bind_eq_ok.mpr ⟨next, hn, hfold⟩

/-- Whatever state a run comes to, some system is in it. -/
theorem Atomic.shows_of_reaches (h : Atomic m initial commands shows)
    (hr : ReflTransGen Takes ⟨commands.map (·.toCommand), initial⟩ stand) :
    (∀ c ∈ stand.left, ∃ worker ∈ commands, worker.toCommand = c) ∧
      ∃ system, shows system stand.state := by
  induction hr with
  | refl =>
    obtain ⟨system, -, hs⟩ := h.build
    exact ⟨fun c hc => List.mem_map.mp hc, system, hs⟩
  | tail _ ht ih =>
    obtain ⟨hleft, system, hs⟩ := ih
    cases ht with
    | take hc hn =>
      obtain ⟨worker, hw, rfl⟩ := hleft _ (List.mem_of_getElem? hc)
      obtain ⟨system', -, hs'⟩ := h.run hw hs hn
      exact ⟨fun c hc => hleft c (List.mem_of_mem_eraseIdx hc), system', hs'⟩

theorem Atomic.not_faults (h : Atomic m initial commands shows) :
    ¬ Faults (commands.map (·.toCommand)) initial := by
  rintro ⟨stand, c, fault, hreach, hc, hfault⟩
  obtain ⟨hleft, system, hs⟩ := h.shows_of_reaches hreach
  obtain ⟨worker, hw, rfl⟩ := hleft c hc
  obtain ⟨state', hn⟩ := h.next hw hs
  rw [hn] at hfault
  cases hfault

theorem Atomic.sequential (h : Atomic m initial commands shows) :
    (Sequential.check m initial (commands.map (·.toCommand))).result = .agrees := by
  obtain ⟨system, hbuild, hs⟩ := h.build
  rw [Sequential.check, hbuild]
  exact h.goOn (fun _ hc => hc) hs

/-- Workers that come to each command once leave such a system in a state that a run ends in. -/
theorem Atomic.completes [EquivBEq M] (h : Atomic m initial commands shows)
    (hp : schedule.Perm (List.range commands.length)) :
    ∃ final reached, Completes m initial commands schedule final ∧
      Run (commands.map (·.toCommand)) initial reached ∧ (final == reached) = true := by
  have hperm := scheduled_perm hp
  obtain ⟨system, hbuild, hs⟩ := h.build
  have hmem : ∀ entry ∈ scheduled commands schedule, entry.2 ∈ commands := fun entry he =>
    hperm.mem_iff.mp (List.mem_map_of_mem he)
  obtain ⟨results, system', reached, hwork, hdone, hs', hfold⟩ := h.work_scheduled hmem hs
  obtain ⟨final, hobserve, heq⟩ := h.observe hs'
  refine ⟨final, reached, ⟨fun fault hf => ?_, h.not_faults,
    system, results, system', hbuild, hwork, hdone, hobserve⟩, ?_, heq⟩
  · rw [h.sequential] at hf
    cases hf
  · have hmap := hperm.map (·.toCommand)
    rw [List.map_map] at hmap
    exact (run_of_foldlM hfold).perm hmap.symm

end Check

/-- The states found for a list of commands are those that serial runs of all of them end in, in
whatever order they are listed, and they are found unless some run faults. A system on which each
command is done at once passes every check by workers. A check in which all commands complete fails
if no run ends in the final state. -/
theorem check_of_runs [BEq M] [EquivBEq M] (initial : M) (serial : List (Command S M)) :
    ((∃ states, endStates initial serial = .ok states) ↔ ¬ Faults serial initial) ∧
    (∀ states, endStates initial serial = .ok states →
      (∀ s, states.contains s = true ↔
        ∃ final, Run serial initial final ∧ (s == final) = true) ∧
      ∀ serial', serial'.Perm serial → ∃ states', endStates initial serial' = .ok states' ∧
        ∀ s, states'.contains s = states.contains s) ∧
    ∀ (m : Modelled S M) (commands : List (WorkerCommand S M)) (schedule : List Nat)
      (threads : Int) (timeout : Seconds), commands.map (·.toCommand) = serial →
      schedule.Perm (List.range commands.length) → 1 ≤ threads → timeout.isPositive = true →
      (∀ shows, Atomic m initial commands shows →
        check m initial commands schedule threads timeout = none) ∧
      ∀ final, Completes m initial commands schedule final →
        (∀ reached, Run serial initial reached → (final == reached) = false) →
        ∃ failure, check m initial commands schedule threads timeout = some failure ∧
          failure.kind = "AssertionError" := by
  refine ⟨endStates_ok_iff, fun states h => ⟨fun s => contains_endStates h,
    fun serial' hp => endStates_perm h hp⟩, ?_⟩
  rintro m commands schedule threads timeout rfl hschedule hthreads htimeout
  constructor
  · intro shows h
    obtain ⟨final, reached, hcompletes, hrun, heq⟩ := h.completes hschedule
    exact (hcompletes.check hthreads htimeout).1.mpr ⟨h.sequential, reached, hrun, heq⟩
  · intro final h hnone
    obtain ⟨hiff, hkind⟩ := h.check hthreads htimeout
    cases hc : check m initial commands schedule threads timeout with
    | some failure => exact ⟨failure, rfl, hkind failure hc⟩
    | none =>
      obtain ⟨-, reached, hrun, heq⟩ := hiff.mp hc
      rw [hnone reached hrun] at heq
      cases heq

/-- A counter is the number it shows. -/
def counter : Modelled Int Int :=
  ⟨.ok, .ok⟩

/-- A command on a counter, and what becomes of the number in the hands of a worker. -/
def onCounter (name : String) (next work : Int → Int) : WorkerCommand Int Int where
  name
  run := modify next
  next n := .ok (next n)
  work n := (.done, work n)

def setTo42 : WorkerCommand Int Int :=
  onCounter "SET_42" (fun _ => 42) fun _ => 42

def timesTwo : WorkerCommand Int Int :=
  onCounter "TIMES_2" (· * 2) (· * 2)

def plusOne : WorkerCommand Int Int :=
  onCounter "PLUS_1" (· + 1) (· + 1)

/-- Adds one to what a counter held when it was built. -/
def plusOneLate : WorkerCommand Int Int :=
  onCounter "PLUS_1" (· + 1) fun _ => 1

theorem atomic_counter :
    Atomic counter 0 [setTo42, timesTwo, plusOne, plusOne] fun n state => n = state where
  build := ⟨0, rfl, rfl⟩
  observe := by
    rintro n _ rfl
    exact ⟨n, rfl, beq_self_eq_true n⟩
  next := by
    rintro c n _ hc rfl
    simp only [List.mem_cons, List.not_mem_nil, or_false] at hc
    rcases hc with rfl | rfl | rfl | rfl <;> exact ⟨_, rfl⟩
  run := by
    rintro c n _ n' hc rfl hn
    simp only [List.mem_cons, List.not_mem_nil, or_false] at hc
    rcases hc with rfl | rfl | rfl | rfl <;> cases hn <;> exact ⟨_, rfl, rfl⟩
  work := by
    rintro c n _ n' hc rfl hn
    simp only [List.mem_cons, List.not_mem_nil, or_false] at hc
    rcases hc with rfl | rfl | rfl | rfl <;> cases hn <;> exact ⟨_, rfl, rfl⟩

/-- Commands that are done at once pass; an addition that is lost is noticed. -/
theorem check_of_runs_counter :
    (endStates 0 ([setTo42, timesTwo, plusOne, plusOne].map (·.toCommand)) =
        .ok [86, 87, 88, 44, 43, 42, 85, 84] ∧
      (∃ final, Run ([setTo42, timesTwo, plusOne, plusOne].map (·.toCommand)) 0 final ∧
        ((86 : Int) == final) = true) ∧
      check counter 0 [setTo42, timesTwo, plusOne, plusOne] [2, 0, 3, 1] 4 (.whole 1) = none) ∧
    ∃ failure, check counter 0 [plusOneLate, plusOneLate] [1, 0] 2 (.whole 1) = some failure ∧
      failure.kind = "AssertionError" := by
  have hends : endStates 0 ([setTo42, timesTwo, plusOne, plusOne].map (·.toCommand)) =
      .ok [86, 87, 88, 44, 43, 42, 85, 84] := by rfl
  obtain ⟨-, hstates, hchecks⟩ :=
    check_of_runs (0 : Int) ([setTo42, timesTwo, plusOne, plusOne].map (·.toCommand))
  have hlate : endStates 0 ([plusOneLate, plusOneLate].map (·.toCommand)) = .ok [2] := by rfl
  obtain ⟨hfound, hstates', hchecks'⟩ :=
    check_of_runs (0 : Int) ([plusOneLate, plusOneLate].map (·.toCommand))
  refine ⟨⟨hends, ((hstates _ hends).1 86).mp rfl,
    (hchecks counter _ [2, 0, 3, 1] 4 (.whole 1) rfl (by decide) (by decide) rfl).1 _
      atomic_counter⟩, ?_⟩
  refine (hchecks' counter _ [1, 0] 2 (.whole 1) rfl (by decide) (by decide) rfl).2 1
    ⟨nofun, hfound.mp ⟨_, hlate⟩, 0, _, 1, rfl, rfl, by decide, rfl⟩ fun reached hrun => ?_
  cases heq : (1 : Int) == reached with
  | false => rfl
  | true => cases ((hstates' _ hlate).1 1).mpr ⟨reached, hrun, heq⟩

end Refute.Parallel

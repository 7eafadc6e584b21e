import Refute.Proofs.DrawTuples
import Refute.Source.Views

namespace Refute

namespace Source

/-- A forced value that fits is served, and the generator is asked for anything else. -/
theorem next_served_or_fresh (b : Bounds) (s : Source) :
    (∃ w rest, s.forced = w :: rest ∧ b.allows w = true) ∨
      s.forced.head?.any b.allows = false ∧ next b s = drawFresh b s := by
  rcases next_forced_or_fresh b s with h | h
  · exact .inl h
  · cases hf : s.forced with
    | nil => exact .inr ⟨rfl, h s.random⟩
    | cons w rest =>
      cases hw : b.allows w with
      | true => exact .inl ⟨w, rest, rfl, hw⟩
      | false => exact .inr ⟨hw, h s.random⟩

end Source

namespace Views

/-- Views are named by their numbers. -/
structure Call where
  view : Nat
  op : Operation
deriving DecidableEq

/-- Calls beside what came of them, in order. -/
abbrev Log := List (Call × Except Fault Answer)

/-- Calls one after another, also after some that failed. -/
def callAll : List Call → Views → Log × Views
  | [], v => ([], v)
  | c :: calls, v =>
    let (result, v) := (call c.view (.ok c.op)).outcome v
    let (log, v) := callAll calls v
    ((c, result) :: log, v)

/-- The ways in which a call can go. -/
inductive Called (v : Views) : Call → Except Fault Answer → Views → Prop where
  | missing {n : Nat} (hv : v.marks[n]? = none) :
      Called v ⟨n, op⟩ (.error (.outOfRange "list")) v
  | served {n : Nat} (hv : v.marks[n]? = some mark?) (hf : v.source.forced = w :: rest)
      (fits : b.allows w = true) :
      Called v ⟨n, .next b⟩ (.ok (.drawn w))
        { v with source := { v.source with forced := rest }.record ⟨b, w⟩ }
  | drawn {n : Nat} (hv : v.marks[n]? = some mark?)
      (hf : v.source.forced.head?.any b.allows = false)
      (hb : Xorshift.between b.lo b.hi v.source.random = .ok w random) :
      Called v ⟨n, .next b⟩ (.ok (.drawn w))
        { v with source := { v.source with random }.record ⟨b, w⟩ }
  /-- No value of the generator lies within the bounds. -/
  | endless {n : Nat} (hv : v.marks[n]? = some mark?)
      (hb : Xorshift.between b.lo b.hi v.source.random = .error fault random) :
      Called v ⟨n, .next b⟩ (.error fault) { v with source := { v.source with random } }
  | opened {n : Nat} (hv : v.marks[n]? = some mark?) :
      Called v ⟨n, .detach⟩ (.ok (.opened v.marks.length))
        { v with marks := v.marks ++ [some v.source.trace.length] }
  | rejected {n : Nat} (hv : v.marks[n]? = some mark?) (hr : ∀ m, result ≠ .ok (.opened m)) :
      Called v ⟨n, .reject⟩ result
        { v with source := { v.source with rejected := v.source.rejected + 1 } }
  | unmarked {n : Nat} (hv : v.marks[n]? = some none) (ho : op = .commit ∨ op = .rollback) :
      Called v ⟨n, op⟩ (.error .noMark) v
  | committed {n : Nat} (hv : v.marks[n]? = some (some mark)) :
      Called v ⟨n, .commit⟩ (.ok .done) v
  | rolledBack {n : Nat} (hv : v.marks[n]? = some (some mark))
      (hm : mark ≤ v.source.trace.length) (ht : s.trace = v.source.trace.take mark)
      (hf : s.forced = v.source.forced) :
      Called v ⟨n, .rollback⟩ (.ok .done) { v with source := s }
  | overrun {n : Nat} (hv : v.marks[n]? = some (some mark)) (hm : v.source.trace.length < mark) :
      Called v ⟨n, .rollback⟩ (.error (.truncation v.source.trace.length mark)) v

theorem call_of_mark {v : Views} {n : Nat} (hv : v.marks[n]? = some mark?) (op : Operation) :
    call n (.ok op) v = perform mark? op v := by
  have hget : (get : Act Views Views) v = .ok v v := Act.get_apply v
  refine (Act.bind_ok hget).trans ?_
  rw [itemAt?_natCast, hv]
  rfl

theorem call_of_missing {v : Views} {n : Nat} (hv : v.marks[n]? = none) (op : Operation) :
    call n (.ok op) v = .error (.outOfRange "list") v := by
  have hget : (get : Act Views Views) v = .ok v v := Act.get_apply v
  refine (Act.bind_ok hget).trans ?_
  rw [itemAt?_natCast, hv]
  rfl

theorem outcome_onSource (f : α → β) (act : Act Source α) (v : Views) :
    (f <$> onSource act).outcome v =
      ((act.outcome v.source).1.map f, { v with source := (act.outcome v.source).2 }) := by
  rw [Act.outcome_map, onSource, Act.outcome_within]

theorem perform_next (mark? : Option Nat) (b : Bounds) :
    perform mark? (.next b) = Answer.drawn <$> onSource (Source.next b) := by
  cases mark? <;> rfl

theorem perform_reject (mark? : Option Nat) :
    perform mark? .reject = (fun _ => Answer.done) <$> onSource Source.reject := by
  cases mark? <;> rfl

theorem perform_rollback (mark : Nat) :
    perform (some mark) .rollback = (fun _ => Answer.done) <$> onSource (Source.rollback mark) :=
  rfl

theorem next_called {v : Views} {n : Nat} (hv : v.marks[n]? = some mark?) (b : Bounds) :
    Called v ⟨n, .next b⟩ ((perform mark? (.next b)).outcome v).1
      ((perform mark? (.next b)).outcome v).2 := by
  rw [perform_next, outcome_onSource]
  rcases Source.next_served_or_fresh b v.source with ⟨w, rest, hf, fits⟩ | ⟨hf, hn⟩
  · rw [Act.outcome_of_ok (Source.next_of_forced hf fits)]
    exact .served hv hf fits
  · rw [Act.outcome_congr hn]
    cases hb : Xorshift.between b.lo b.hi v.source.random with
    | ok w random =>
      have hs : Source.drawFresh b v.source =
          .ok w ({ v.source with random }.record ⟨b, w⟩) := by
        simp only [Source.drawFresh, hb]
      rw [Act.outcome_of_ok hs]
      exact .drawn hv hf hb
    | error fault random =>
      have hs : Source.drawFresh b v.source = .error fault { v.source with random } := by
        simp only [Source.drawFresh, hb]
      rw [Act.outcome_of_error hs]
      exact .endless hv hb

theorem reject_called {v : Views} {n : Nat} (hv : v.marks[n]? = some mark?) :
    Called v ⟨n, .reject⟩ ((perform mark? .reject).outcome v).1
      ((perform mark? .reject).outcome v).2 := by
  rw [perform_reject, outcome_onSource]
  by_cases h : v.source.attempts - (v.source.rejected + 1 : Nat) ≤ 0
  · have hr : Source.reject v.source = .error (.exhausted (v.source.rejected + 1))
        { v.source with rejected := v.source.rejected + 1 } := if_pos h
    rw [Act.outcome_of_error hr]
    exact .rejected hv nofun
  · have hr : Source.reject v.source =
        .ok () { v.source with rejected := v.source.rejected + 1 } := if_neg h
    rw [Act.outcome_of_ok hr]
    exact .rejected hv nofun

theorem rollback_called {v : Views} {n mark : Nat} (hv : v.marks[n]? = some (some mark)) :
    Called v ⟨n, .rollback⟩ ((perform (some mark) .rollback).outcome v).1
      ((perform (some mark) .rollback).outcome v).2 := by
  rw [perform_rollback, outcome_onSource]
  by_cases hm : mark ≤ v.source.trace.length
  · obtain ⟨s, hs, ht, -, hf, -⟩ := Source.rollback_of_le hm
    rw [Act.outcome_of_ok hs]
    exact .rolledBack hv hm ht hf
  · have hm : v.source.trace.length < mark := by omega
    rw [Act.outcome_of_error (Source.rollback_of_lt hm)]
    exact .overrun hv hm

theorem call_called (c : Call) (v : Views) :
    Called v c ((call c.view (.ok c.op)).outcome v).1
      ((call c.view (.ok c.op)).outcome v).2 := by
  obtain ⟨n, op⟩ := c
  cases hv : v.marks[n]? with
  | none =>
    rw [Act.outcome_of_error (call_of_missing hv op)]
    exact .missing hv
  | some mark? =>
    rw [Act.outcome_congr (call_of_mark hv op)]
    cases op with
    | next b => exact next_called hv b
    | reject => exact reject_called hv
    | detach =>
      have hp : (perform mark? .detach).outcome v = (.ok (.opened v.marks.length),
          { v with marks := v.marks ++ [some v.source.trace.length] }) := by
        rw [Source.length_trace]
        cases mark? <;> rfl
      rw [hp]
      exact .opened hv
    | commit =>
      cases mark? with
      | none => exact .unmarked hv (.inl rfl)
      | some mark => exact .committed hv
    | rollback =>
      cases mark? with
      | none => exact .unmarked hv (.inr rfl)
      | some mark => exact rollback_called hv

/-- What a source is to have kept, what its views are to go back to, and which forced values are to
have been served and to wait still. -/
structure Ledger where
  kept : Trace
  marks : List (Option Nat)
  served : List Int
  waiting : List Int

namespace Ledger

def start (forced : List Int) : Ledger :=
  ⟨[], [none], [], forced⟩

/-- An answer is kept; where the next forced value fits, the answer takes its place. -/
def answered (l : Ledger) (b : Bounds) (w : Int) : Ledger :=
  if l.waiting.head?.any b.allows then
    { l with kept := l.kept ++ [⟨b, w⟩], served := l.served ++ [w], waiting := l.waiting.tail }
  else { l with kept := l.kept ++ [⟨b, w⟩] }

/-- A view remembers the length at which it was opened, and a rollback keeps no more than that. -/
def after (l : Ledger) : Call × Except Fault Answer → Ledger
  | (⟨_, .next b⟩, .ok (.drawn w)) => l.answered b w
  | (⟨_, .detach⟩, .ok (.opened _)) => { l with marks := l.marks ++ [some l.kept.length] }
  | (⟨n, .rollback⟩, _) =>
    match l.marks[n]? with
    | some (some mark) => { l with kept := l.kept.take mark }
    | _ => l
  | _ => l

def ofLog (forced : List Int) (log : Log) : Ledger :=
  log.foldl after (start forced)

/-- The ledger is right about `v`. -/
structure Balances (forced : List Int) (l : Ledger) (v : Views) : Prop where
  kept : v.source.trace = l.kept
  marks : v.marks = l.marks
  waiting : v.source.forced = l.waiting
  served : l.served ++ l.waiting = forced
  legal : ∀ d ∈ l.kept, d.isLegal = true

theorem start_balances (random : Xorshift) (forced : List Int) (attempts : Int) :
    (start forced).Balances forced (.start (.start random forced attempts)) :=
  ⟨rfl, rfl, rfl, rfl, List.forall_mem_nil _⟩

theorem after_error {l : Ledger} {n : Nat} (op : Operation) (fault : Fault)
    (hn : ∀ mark, l.marks[n]? ≠ some (some mark)) : l.after (⟨n, op⟩, .error fault) = l := by
  cases op with
  | next b | detach | commit | reject => rfl
  | rollback =>
    unfold after
    dsimp only
    split
    · rename_i mark hm
      exact absurd hm (hn mark)
    · rfl

theorem after_rollback {l : Ledger} {n mark : Nat} (hn : l.marks[n]? = some (some mark))
    (result : Except Fault Answer) :
    l.after (⟨n, .rollback⟩, result) = { l with kept := l.kept.take mark } := by
  simp only [after, hn]

theorem legal_append {t : Trace} (h : ∀ d ∈ t, d.isLegal = true) (hw : b.allows w = true) :
    ∀ d ∈ t ++ [⟨b, w⟩], d.isLegal = true := by
  intro d hd
  rcases List.mem_append.mp hd with hd | hd
  · exact h d hd
  · cases List.mem_singleton.mp hd
    exact hw

/-- However a call goes, the ledger stays right. -/
theorem Balances.after {l : Ledger} {v v' : Views} (h : l.Balances forced v)
    (hc : Called v c result v') : (l.after (c, result)).Balances forced v' := by
  cases hc with
  | missing hv =>
    rw [after_error]
    · exact h
    · rw [← h.marks, hv]
      nofun
  | served hv hf fits =>
    rename_i w rest b n
    have hw : l.waiting = w :: rest := h.waiting.symm.trans hf
    have ha : l.after (⟨n, .next b⟩, .ok (.drawn w)) =
        { l with kept := l.kept ++ [⟨b, w⟩], served := l.served ++ [w], waiting := rest } := by
      simp [Ledger.after, answered, hw, fits]
    rw [ha]
    refine ⟨?_, h.marks, rfl, ?_, legal_append h.legal fits⟩
    · rw [Source.trace_record, ← h.kept]
      rfl
    · rw [List.append_assoc, ← h.served, hw]
      rfl
  | drawn hv hf hb =>
    rename_i w random b n
    have ha : l.after (⟨n, .next b⟩, .ok (.drawn w)) = { l with kept := l.kept ++ [⟨b, w⟩] } := by
      rw [h.waiting] at hf
      simp [Ledger.after, answered, hf]
    rw [ha]
    refine ⟨?_, h.marks, h.waiting, h.served, ?_⟩
    · rw [Source.trace_record, ← h.kept]
      rfl
    · exact legal_append h.legal (Bounds.allows_iff.mpr (Xorshift.between_mem hb))
  | endless hv hb => exact ⟨h.kept, h.marks, h.waiting, h.served, h.legal⟩
  | opened hv =>
    refine ⟨h.kept, ?_, h.waiting, h.served, h.legal⟩
    show v.marks ++ _ = l.marks ++ _
    rw [h.marks, h.kept]
  | rejected hv hr => exact ⟨h.kept, h.marks, h.waiting, h.served, h.legal⟩
  | unmarked hv ho =>
    rw [after_error]
    · exact h
    · rw [← h.marks, hv]
      nofun
  | committed hv => exact h
  | rolledBack hv hm ht hf =>
    rw [h.marks] at hv
    rw [after_rollback hv]
    refine ⟨?_, h.marks, hf.trans h.waiting, h.served, fun d hd => ?_⟩
    · rw [← h.kept]
      exact ht
    · exact h.legal d (List.mem_of_mem_take hd)
  | overrun hv hm =>
    rw [h.kept] at hm
    rw [h.marks] at hv
    rw [after_rollback hv, List.take_of_length_le (Nat.le_of_lt hm)]
    exact h

end Ledger

/-- By induction on the calls, each of which keeps the ledger right. -/
theorem callAll_balanced {l : Ledger} {v : Views} (h : l.Balances forced v) (calls : List Call) :
    ((callAll calls v).1.foldl Ledger.after l).Balances forced (callAll calls v).2 := by
  induction calls generalizing l v with
  | nil => exact h
  | cons c calls ih => exact ih (h.after (call_called c v))

/-- Whether an operation settles what was drawn since its view was opened. -/
def Operation.settles : Operation → Bool
  | commit => true
  | rollback => true
  | _ => false

/-- Commits and rollbacks go to the view opened last of those still open, with the open views given
latest first. A view is closed when it is settled, or stays open. -/
inductive Nested : List Nat → Log → Prop where
  | nil (stack : List Nat) : Nested stack []
  | opens (h : Nested (m :: stack) log) : Nested stack ((⟨n, .detach⟩, .ok (.opened m)) :: log)
  | passes (ho : op.settles = false) (hr : ∀ m, result ≠ .ok (.opened m))
      (h : Nested stack log) : Nested stack ((⟨n, op⟩, result) :: log)
  | settles (ho : op.settles = true) (hs : stack' = stack ∨ stack' = m :: stack)
      (h : Nested stack' log) : Nested (m :: stack) ((⟨m, op⟩, result) :: log)

/-- These views, latest first, go back to lengths that go down from no more than `length`. -/
def Held (places : List (Option Nat)) : Nat → List Nat → Prop
  | _, [] => True
  | length, n :: stack => ∃ mark ≤ length, places[n]? = some (some mark) ∧ Held places mark stack

theorem Held.mono (h : Held places length stack) (hl : length ≤ length') :
    Held places length' stack := by
  cases stack with
  | nil => trivial
  | cons n stack =>
    obtain ⟨mark, hm, hn, hs⟩ := h
    exact ⟨mark, Nat.le_trans hm hl, hn, hs⟩

theorem Held.append (h : Held places length stack) (more : List (Option Nat)) :
    Held (places ++ more) length stack := by
  induction stack generalizing length with
  | nil => trivial
  | cons n stack ih =>
    obtain ⟨mark, hm, hn, hs⟩ := h
    refine ⟨mark, hm, ?_, ih hs⟩
    rw [List.getElem?_append_left (List.getElem?_eq_some_iff.mp hn).1, hn]

/-- What opens and settles nothing takes no draw away. -/
theorem Called.held {v v' : Views} (hc : Called v ⟨n, op⟩ result v') (ho : op.settles = false)
    (hr : ∀ m, result ≠ .ok (.opened m)) (h : Held v.marks v.source.trace.length stack) :
    Held v'.marks v'.source.trace.length stack := by
  cases hc with
  | missing | endless | rejected => exact h
  | served | drawn =>
    refine h.mono ?_
    simp [Source.trace, Source.record]
  | opened => exact absurd rfl (hr _)
  | unmarked _ ho' => rcases ho' with rfl | rfl <;> cases ho
  | committed | rolledBack | overrun => cases ho

/-- The view on top can be settled, and the views below it stay as they are. -/
theorem Called.settled {v v' : Views} (hc : Called v ⟨m, op⟩ result v') (ho : op.settles = true)
    (h : Held v.marks v.source.trace.length (m :: stack)) :
    result = .ok .done ∧ Held v'.marks v'.source.trace.length (m :: stack) := by
  obtain ⟨mark, hm, hn, hs⟩ := h
  cases hc with
  | missing hv =>
    rw [hn] at hv
    cases hv
  | served | drawn | endless | opened | rejected => cases ho
  | unmarked hv =>
    rw [hn] at hv
    cases hv
  | committed => exact ⟨rfl, mark, hm, hn, hs⟩
  | rolledBack hv hl ht =>
    rw [hn] at hv
    cases hv
    refine ⟨rfl, mark, ?_, hn, hs⟩
    rw [ht, List.length_take]
    exact Nat.le_min.mpr ⟨Nat.le_refl mark, hl⟩
  | overrun hv hl =>
    rw [hn] at hv
    cases hv
    omega

/-- As long as views are settled latest first, no rollback fails. -/
theorem rollback_of_nested {v : Views} (calls : List Call) (hn : Nested stack (callAll calls v).1)
    (h : Held v.marks v.source.trace.length stack) :
    ∀ entry ∈ (callAll calls v).1, entry.1.op = .rollback → entry.2 = .ok .done := by
  induction calls generalizing v stack with
  | nil => exact List.forall_mem_nil _
  | cons c calls ih =>
    have hc := call_called c v
    unfold callAll at hn ⊢
    dsimp only at hn ⊢
    generalize (call c.view (.ok c.op)).outcome v = r at hc hn
    obtain ⟨result, v'⟩ := r
    cases hn with
    | opens hn =>
      cases hc with
      | opened hv =>
        refine List.forall_mem_cons.mpr ⟨nofun, ih hn ?_⟩
        exact ⟨_, Nat.le_refl _, by simp, h.append _⟩
    | passes ho hr hn =>
      refine List.forall_mem_cons.mpr ⟨?_, ih hn (hc.held ho hr h)⟩
      rintro rfl
      cases ho
    | settles ho hs hn =>
      obtain ⟨hdone, hheld⟩ := hc.settled ho h
      refine List.forall_mem_cons.mpr ⟨fun _ => hdone, ih hn ?_⟩
      rcases hs with rfl | rfl
      · obtain ⟨mark, hm, -, hs⟩ := hheld
        exact hs.mono hm
      · exact hheld

theorem call_served {v : Views} {n : Nat} (hn : n < v.marks.length)
    (hf : v.source.forced = w :: rest) (fits : b.allows w = true) :
    call n (.ok (.next b)) v =
      .ok (.drawn w) { v with source := { v.source with forced := rest }.record ⟨b, w⟩ } := by
  rw [call_of_mark (List.getElem?_eq_getElem hn), perform_next]
  refine Act.of_outcome_ok ?_
  rw [outcome_onSource, Act.outcome_of_ok (Source.next_of_forced hf fits)]
  rfl

theorem call_commit {v : Views} {n mark : Nat} (hv : v.marks[n]? = some (some mark)) :
    call n (.ok .commit) v = .ok .done v :=
  call_of_mark hv .commit

theorem call_rollback_of_lt {v : Views} {n mark : Nat} (hv : v.marks[n]? = some (some mark))
    (hm : v.source.trace.length < mark) :
    call n (.ok .rollback) v = .error (.truncation v.source.trace.length mark) v := by
  rw [call_of_mark hv, perform_rollback]
  refine Act.of_outcome_error ?_
  rw [outcome_onSource, Act.outcome_of_error (Source.rollback_of_lt hm)]
  rfl

/-- A rollback fails where the trace is shorter than its view remembers, and nowhere else. -/
theorem length_lt_of_call_rollback {v v' : Views} {n mark : Nat}
    (hv : v.marks[n]? = some (some mark)) (h : call n (.ok .rollback) v = .error fault v') :
    v.source.trace.length < mark := by
  by_contra hm
  obtain ⟨s, hs, -⟩ := Source.rollback_of_le (Nat.le_of_not_lt hm)
  rw [call_of_mark hv, perform_rollback] at h
  have ho := outcome_onSource (fun _ => Answer.done) (Source.rollback mark) v
  rw [Act.outcome_of_error h, Act.outcome_of_ok hs] at ho
  cases ho

/-- Whatever is called in whatever order on a source and its views: the trace is that of the ledger
and can be written as bytes; what was served and what still waits make up the forced values, of
which the next is served as soon as it fits; commits change nothing; rollbacks fail where they
have nothing left to go back to, without a trace, and not at all while views are settled latest
first. -/
theorem callAll_accounted {random : Xorshift} {forced : List Int} {attempts : Int}
    {calls : List Call} {log : Log} {v : Views}
    (h : callAll calls (.start (.start random forced attempts)) = (log, v)) :
    (v.source.trace = (Ledger.ofLog forced log).kept ∧
      v.marks = (Ledger.ofLog forced log).marks) ∧
    ((∀ d ∈ v.source.trace, d.isLegal = true) ∧ ∃ bytes, v.source.trace.bytes = .ok bytes) ∧
    (Ledger.ofLog forced log).served ++ v.source.forced = forced ∧
    (∀ (n : Nat) b w rest, n < v.marks.length → v.source.forced = w :: rest →
      b.allows w = true → call n (.ok (.next b)) v =
        .ok (.drawn w) { v with source := { v.source with forced := rest }.record ⟨b, w⟩ }) ∧
    (∀ n mark : Nat, v.marks[n]? = some (some mark) →
      call n (.ok .commit) v = .ok .done v ∧
      ((∃ fault v', call n (.ok .rollback) v = .error fault v') ↔
        v.source.trace.length < mark) ∧
      ∀ fault v', call n (.ok .rollback) v = .error fault v' →
        fault.kind = "ValueError" ∧ v' = v) ∧
    (Nested [] log → ∀ entry ∈ log, entry.1.op = .rollback → entry.2 = .ok .done) := by
  have hb := callAll_balanced (Ledger.start_balances random forced attempts) calls
  have hnested := fun hn : Nested [] (callAll calls (.start (.start random forced attempts))).1 =>
    rollback_of_nested calls hn
  rw [h] at hb hnested
  have hlegal : ∀ d ∈ v.source.trace, d.isLegal = true := by
    rw [hb.kept]
    exact hb.legal
  refine ⟨⟨hb.kept, hb.marks⟩, ⟨hlegal, _, Trace.bytes_of_legal hlegal⟩, ?_, ?_, ?_, ?_⟩
  · rw [hb.waiting]
    exact hb.served
  · intro n b w rest hn hf fits
    exact call_served hn hf fits
  · intro n mark hv
    refine ⟨call_commit hv, ⟨?_, ?_⟩, fun fault v' he => ?_⟩
    · rintro ⟨fault, v', he⟩
      exact length_lt_of_call_rollback hv he
    · intro hm
      exact ⟨_, _, call_rollback_of_lt hv hm⟩
    · have hm := length_lt_of_call_rollback hv he
      rw [call_rollback_of_lt hv hm] at he
      cases he
      exact ⟨rfl, rfl⟩
  · intro hn
    exact hnested hn trivial

/-- The outer view is rolled back before the inner one, and once more later; a forced value that
does not fit blocks the one behind it until it does. -/
def tangled : List Call :=
  [⟨0, .next .percent⟩, ⟨0, .detach⟩, ⟨1, .next .percent⟩, ⟨1, .detach⟩, ⟨1, .rollback⟩,
    ⟨2, .rollback⟩, ⟨2, .next .any⟩, ⟨0, .next .percent⟩, ⟨1, .rollback⟩, ⟨2, .next .percent⟩]

/-- A view within a view, each settled in its turn. -/
def stacked : List Call :=
  [⟨0, .detach⟩, ⟨1, .next .percent⟩, ⟨1, .detach⟩, ⟨2, .next .any⟩, ⟨2, .rollback⟩,
    ⟨1, .next .percent⟩, ⟨1, .commit⟩]

/-- Each run of calls beside what came of it. -/
def ranTangled : Log × Views :=
  callAll tangled (.start (.start (.ofSeed 1) [5, 200, 7] 10))

def ranStacked : Log × Views :=
  callAll stacked (.start (.start (.ofSeed 1) [5, 200, 7] 10))

theorem callAll_accounted_tangled :
    (ranTangled.1.map Prod.snd = [.ok (.drawn 5), .ok (.opened 1), .ok (.drawn 70),
        .ok (.opened 2), .ok .done, .error (.truncation 1 2), .ok (.drawn 200), .ok (.drawn 7),
        .ok .done, .ok (.drawn 18)] ∧
      ranTangled.2.source.trace.values = [5, 18] ∧
      ranTangled.2.source.trace = (Ledger.ofLog [5, 200, 7] ranTangled.1).kept ∧
      (Ledger.ofLog [5, 200, 7] ranTangled.1).served ++ ranTangled.2.source.forced =
        [5, 200, 7]) ∧
    Nested [] ranStacked.1 ∧ ranStacked.2.source.trace.values = [5, 7] ∧
      ∀ entry ∈ ranStacked.1, entry.1.op = .rollback → entry.2 = .ok .done := by
  have htangled : callAll tangled (.start (.start (.ofSeed 1) [5, 200, 7] 10)) =
      (ranTangled.1, ranTangled.2) := rfl
  have hstacked : callAll stacked (.start (.start (.ofSeed 1) [5, 200, 7] 10)) =
      (ranStacked.1, ranStacked.2) := rfl
  obtain ⟨⟨hkept, -⟩, -, hserved, -⟩ := callAll_accounted htangled
  obtain ⟨-, -, -, -, -, hdone⟩ := callAll_accounted hstacked
  have hlog : ranStacked.1 =
      [(⟨0, .detach⟩, .ok (.opened 1)), (⟨1, .next .percent⟩, .ok (.drawn 5)),
        (⟨1, .detach⟩, .ok (.opened 2)), (⟨2, .next .any⟩, .ok (.drawn 200)),
        (⟨2, .rollback⟩, .ok .done), (⟨1, .next .percent⟩, .ok (.drawn 7)),
        (⟨1, .commit⟩, .ok .done)] := by decide +kernel
  have hnested : Nested [] ranStacked.1 := by
    rw [hlog]
    exact .opens (.passes rfl nofun (.opens (.passes rfl nofun (.settles rfl (.inl rfl)
      (.passes rfl nofun (.settles rfl (.inl rfl) (.nil _)))))))
  exact ⟨⟨by decide +kernel, by decide +kernel, hkept, hserved⟩, hnested, by decide +kernel,
    hdone hnested⟩

end Views

end Refute

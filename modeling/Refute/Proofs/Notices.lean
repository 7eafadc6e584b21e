import Refute.Proofs.Lasting
import Refute.Proofs.Workload

namespace Refute

/-- The guide returns from all it is told. -/
structure Guide.Returns (guide : Guide μ) : Prop where
  newExample : ∀ t before fault after, guide.newExample t before ≠ .error fault after
  executed : ∀ before fault after, guide.executed before ≠ .error fault after
  suggest : ∀ k t before fault after, guide.suggest k t before ≠ .error fault after
  complete : ∀ before fault after, guide.complete before ≠ .error fault after

/-- Takes down a notice, and then acts on it. -/
def Guide.listen (notice : Notice) (act : Act (Guided μ) γ) :
    Act (Guided (μ × List Notice)) γ :=
  act.within (fun told => ⟨told.random, told.memory.1⟩) fun after told =>
    ⟨after.random, after.memory, told.memory.2 ++ [notice]⟩

/-- The guide with a record beside its memory of all that it is told, in order. -/
def Guide.recorded (guide : Guide μ) : Guide (μ × List Notice) where
  start := (·, []) <$> guide.start
  newExample t := listen (.newExample t) (guide.newExample t)
  executed := listen .executed guide.executed
  suggest k t := listen (.suggest k t) (guide.suggest k t)
  complete := listen .complete guide.complete

/-- The four steps in which a guide hears of an example that the property held for. The property may
have drawn further by the time the guide is asked for suggestions. -/
structure Telling where
  round : Nat
  generated : Trace
  run : Trace

def Telling.notices (t : Telling) : List Notice :=
  [.newExample t.generated, .executed, .suggest t.round t.run, .complete]

/-- The values that a generation was forced by. -/
def Event.forced? : Event β → Option (List Int)
  | .generated forced _ _ _ => some forced
  | .notGenerated forced _ => some forced
  | _ => none

namespace Journal

/-- What the guide was told, in order. -/
def notices (journal : List (Event β)) : List Notice :=
  journal.reverse.filterMap fun
    | .notified notice => some notice
    | _ => none

/-- The traces of the examples that the guide was told of, newest first. -/
def announced (journal : List (Event β)) : List Trace :=
  journal.filterMap fun
    | .notified (.newExample t) => some t
    | _ => none

/-- The traces of all that was generated, newest first. The first of all is the reference. -/
def traces (journal : List (Event β)) : List Trace :=
  journal.filterMap fun
    | .generated _ t _ _ => some t
    | _ => none

def prints (ts : List Trace) : List UInt32 :=
  ts.filterMap fun t => t.fingerprint.toOption

/-- Of traces, newest first, those with a fingerprint that none before them had. -/
def fresh : List Trace → List Trace
  | [] => []
  | t :: before =>
    match t.fingerprint with
    | .ok print => if print ∈ prints before then fresh before else t :: fresh before
    | .error _ => fresh before

/-- All that the guide suggested, in order. -/
def advised : List (Event β) → List (List Int)
  | [] => []
  | .suggested traces :: journal => advised journal ++ traces
  | _ :: journal => advised journal

/-- The suggestions that wait: new ones come last, and each generation takes the first. -/
def waiting : List (Event β) → List (List Int)
  | [] => []
  | .suggested traces :: journal => waiting journal ++ traces
  | .generated _ _ _ _ :: journal => (waiting journal).tail
  | .notGenerated _ _ :: journal => (waiting journal).tail
  | _ :: journal => waiting journal

/-- What generations were forced by while suggestions waited, in order. -/
def followed : List (Event β) → List (List Int)
  | [] => []
  | .generated forced _ _ _ :: journal =>
    if (waiting journal).isEmpty then followed journal else followed journal ++ [forced]
  | .notGenerated forced _ :: journal =>
    if (waiting journal).isEmpty then followed journal else followed journal ++ [forced]
  | _ :: journal => followed journal

/-- At each moment, what was followed and what waits is what was suggested until then. -/
def Heeded (journal : List (Event β)) : Prop :=
  ∀ before, before <:+ journal → followed before ++ waiting before = advised before

section Heeded

variable {journal : List (Event β)} {event : Event β}

theorem notices_append (news journal : List (Event β)) :
    notices (news ++ journal) = notices journal ++ notices news := by
  simp [notices]

theorem heeded_nil : Heeded ([] : List (Event β)) := by
  intro before h
  rw [List.suffix_nil.mp h]
  rfl

theorem Heeded.now (h : Heeded journal) : followed journal ++ waiting journal = advised journal :=
  h journal (List.suffix_refl journal)

theorem Heeded.cons (h : Heeded journal) (hnow : followed (event :: journal) ++
    waiting (event :: journal) = advised (event :: journal)) : Heeded (event :: journal) := by
  intro before hb
  rcases List.suffix_cons_iff.mp hb with rfl | hb
  · exact hnow
  · exact h before hb

/-- What the first suggestion forces is followed. -/
theorem Heeded.take (h : Heeded journal)
    (hfirst : ∀ first rest, waiting journal = first :: rest → forced = first) :
    (if (waiting journal).isEmpty then followed journal else followed journal ++ [forced]) ++
      (waiting journal).tail = advised journal := by
  have hnow := h.now
  cases hw : waiting journal with
  | nil =>
    rw [hw] at hnow
    exact hnow
  | cons first rest =>
    rw [hw] at hnow
    rw [hfirst first rest hw]
    simpa using hnow

theorem Heeded.advised (h : Heeded journal) (traces : List (List Int)) :
    Heeded (.suggested traces :: journal) := by
  refine h.cons ?_
  have hnow := h.now
  simp only [followed, waiting, Journal.advised, ← hnow, List.append_assoc]

/-- While suggestions wait, nothing but the first of them is forced. -/
theorem Heeded.forced_first (h : Heeded journal) (he : event :: before <:+ journal)
    (hf : event.forced? = some forced) (hw : waiting before = first :: rest) : forced = first := by
  have hbefore : followed before ++ waiting before = Journal.advised before :=
    h before ((List.suffix_cons event before).trans he)
  have hafter := h _ he
  have htaken : followed before ++ [forced] ++ rest = Journal.advised before := by
    cases event with
    | generated | notGenerated =>
      cases hf
      simpa [followed, waiting, Journal.advised, hw] using hafter
    | tested | untested | notified | suggested => cases hf
  rw [hw, ← htaken, List.append_assoc] at hbefore
  have hsame := List.append_cancel_left hbefore
  exact (List.cons.inj hsame).1.symm

end Heeded

/-- An example with a new fingerprint counts; any other leaves what was fresh as it is. -/
theorem fresh_cons_new (hp : t.fingerprint = .ok print) (hv : print ∉ prints before) :
    fresh (t :: before) = t :: fresh before := by
  simp only [fresh, hp, if_neg hv]

theorem fresh_cons_repeated (hp : t.fingerprint = .ok print) (hv : print ∈ prints before) :
    fresh (t :: before) = fresh before := by
  simp only [fresh, hp, if_pos hv]

theorem fresh_cons_unprinted (hp : t.fingerprint = .error fault) :
    fresh (t :: before) = fresh before := by
  simp only [fresh, hp]

theorem mem_prints_cons (hp : t.fingerprint = .ok print) :
    print' ∈ prints (t :: before) ↔ print' = print ∨ print' ∈ prints before := by
  have ht : prints (t :: before) = print :: prints before := by
    simp [prints, hp, Except.toOption]
  rw [ht, List.mem_cons]

/-- What the journal of a search that counts so many examples, with these suggestions waiting, tells
of the guide. -/
structure Heard (journal : List (Event β)) (used : Nat) (suggested : List (List Int)) : Prop where
  /-- The guide is told of the examples with a new fingerprint, and of no others. -/
  announced : announced journal = fresh (traces journal).dropLast
  used : (Journal.announced journal).length = used
  waiting : waiting journal = suggested
  heeded : Heeded journal

section Heard

variable {journal : List (Event β)} {used : Nat} {suggested : List (List Int)}

theorem Heard.tested (h : Heard journal used suggested) (value : β) (verdict : Verdict) :
    Heard (.tested value verdict :: journal) used suggested :=
  ⟨h.announced, h.used, h.waiting, h.heeded.cons h.heeded.now⟩

theorem Heard.untested (h : Heard journal used suggested) (value : β) (fault : Fault) :
    Heard (.untested value fault :: journal) used suggested :=
  ⟨h.announced, h.used, h.waiting, h.heeded.cons h.heeded.now⟩

theorem Heard.notified (h : Heard journal used suggested) (notice : Notice)
    (hn : ∀ t, notice ≠ .newExample t) :
    Heard (.notified notice :: journal) used suggested := by
  have hannounced :
      Journal.announced (.notified notice :: journal) = Journal.announced journal := by
    cases notice with
    | newExample t => exact absurd rfl (hn t)
    | executed | suggest | complete => rfl
  exact ⟨hannounced.trans h.announced, hannounced ▸ h.used, h.waiting, h.heeded.cons h.heeded.now⟩

theorem Heard.advised (h : Heard journal used suggested) (traces : List (List Int)) :
    Heard (.suggested traces :: journal) used (suggested ++ traces) :=
  ⟨h.announced, h.used, congrArg (· ++ traces) h.waiting, h.heeded.advised traces⟩

theorem Heard.notGenerated (h : Heard journal used suggested)
    (hfirst : ∀ first rest, suggested = first :: rest → forced = first) (fault : Fault) :
    Heard (.notGenerated forced fault :: journal) used suggested.tail := by
  obtain ⟨hannounced, hused, rfl, hheeded⟩ := h
  exact ⟨hannounced, hused, rfl, hheeded.cons (hheeded.take hfirst)⟩

/-- The guide is not told of an example that is passed over. -/
theorem Heard.passedOver (h : Heard journal used suggested)
    (hfirst : ∀ first rest, suggested = first :: rest → forced = first)
    (hfresh : fresh (traces (.generated forced t rejected value :: journal)).dropLast =
      fresh (traces journal).dropLast) :
    Heard (.generated forced t rejected value :: journal) used suggested.tail := by
  obtain ⟨hannounced, hused, rfl, hheeded⟩ := h
  exact ⟨hannounced.trans hfresh.symm, hused, rfl, hheeded.cons (hheeded.take hfirst)⟩

theorem Heard.begun (h : Heard journal used suggested)
    (hfirst : ∀ first rest, suggested = first :: rest → forced = first)
    (hfresh : fresh (traces (.generated forced t rejected value :: journal)).dropLast =
      t :: fresh (traces journal).dropLast) :
    Heard (.notified (.newExample t) :: .generated forced t rejected value :: journal) (used + 1)
      suggested.tail := by
  obtain ⟨hannounced, hused, rfl, hheeded⟩ := h
  have hgenerated : Heeded (.generated forced t rejected value :: journal) :=
    hheeded.cons (hheeded.take hfirst)
  refine ⟨?_, congrArg (· + 1) hused, rfl, hgenerated.cons hgenerated.now⟩
  exact (congrArg (t :: ·) hannounced).trans hfresh.symm

end Heard

/-- The guide was told of the examples of some rounds before the `k`th in full, one after the other,
and then no more than `last`. -/
def Tells (journal : List (Event β)) (k : Nat) (last : List Notice) : Prop :=
  ∃ tellings : List Telling, notices journal = tellings.flatMap Telling.notices ++ last ∧
    tellings.Pairwise (fun t u => t.round < u.round) ∧ ∀ t ∈ tellings, t.round < k

section Tells

variable {journal : List (Event β)}

theorem Tells.unfinished (h : Tells journal k []) (news : List (Event β))
    (hn : notices news = last) : Tells (news ++ journal) (k + 1) last := by
  obtain ⟨tellings, hnotices, hrounds, hlt⟩ := h
  refine ⟨tellings, ?_, hrounds, fun t ht => Nat.lt_succ_of_lt (hlt t ht)⟩
  rw [notices_append, hnotices, hn, List.append_nil]

theorem Tells.told (h : Tells journal k []) (news : List (Event β))
    (hn : notices news = Telling.notices ⟨k, t, t'⟩) : Tells (news ++ journal) (k + 1) [] := by
  obtain ⟨tellings, hnotices, hrounds, hlt⟩ := h
  refine ⟨tellings ++ [⟨k, t, t'⟩], ?_, ?_, ?_⟩
  · rw [notices_append, hnotices, hn]
    simp
  · refine List.pairwise_append.mpr ⟨hrounds, List.pairwise_singleton _ _, fun t ht u hu => ?_⟩
    rw [List.mem_singleton.mp hu]
    exact hlt t ht
  · intro t ht
    rcases List.mem_append.mp ht with ht | ht
    · exact Nat.lt_succ_of_lt (hlt t ht)
    · rw [List.mem_singleton.mp ht]
      exact Nat.lt_succ_self k

end Tells

/-- What a guide hears last, by how the search for an example ended. -/
inductive Closing (journal : List (Event β)) :
    Except Fault (Option (Option Fault × Example α)) → List Notice → Prop where
  | passed : Closing journal (.ok none) []
  | falsified (t : Trace) : Closing journal (.ok (some found)) [.newExample t, .executed]
  /-- The property ran out of attempts, or never ended. -/
  | untested (t : Trace) (hj : journal = .untested value fault :: before)
      (hx : fault.isExhausted = true ∨ fault.isEndless = true) :
      Closing journal (.error fault) [.newExample t]
  | failed (hj : ∀ value fault' before, journal ≠ .untested value fault' :: before) :
      Closing journal (.error fault) []

end Journal

namespace Search

variable {settings : Settings μ} {p : Property σ α β}

theorem notify_returns (hguide : ∀ guide ∈ settings.guide?, guide.Returns) {s s' : Search σ μ β}
    {tell : Guide μ → Act (Guided μ) γ}
    (htell : ∀ guide : Guide μ, guide.Returns → ∀ before fault after,
      tell guide before ≠ .error fault after) :
    notify settings notice tell silence s ≠ .error fault s' := by
  intro h
  obtain ⟨-, guide, hg, before, after, he⟩ := notify_error h
  exact htell guide (hguide guide hg) before _ after he

/-- What every generation begins with: the first of the suggestions that wait is forced, and waits
no longer. By the end of the round the guide may have made others. -/
structure Takes (s s' : Search σ μ β) (forced : List Int) (traces : List (List Int)) : Prop where
  first : ∀ first rest, s.suggested = first :: rest → forced = first
  suggested : s'.suggested = s.suggested.tail ++ traces

/-- The search knows no other examples than it did. -/
structure Repeats (s s' : Search σ μ β) : Prop where
  visited : s'.visited = s.visited
  used : s'.used = s.used

/-- The search knows one more example, by a fingerprint that it did not know. -/
structure Counts (s s' : Search σ μ β) (t : Trace) (print : UInt32) : Prop where
  fingerprint : t.fingerprint = .ok print
  new : s.visited.contains print = false
  visited : s'.visited = s.visited.insert print
  used : s'.used = s.used + 1

/-- What a round leaves behind when the guide returns from all it is told: the events noted, newest
first, the suggestions that wait and the examples that are known. -/
inductive Noted (k : Nat) (s s' : Search σ μ β) :
    Except Fault (Option (Option Fault × Example α)) → Prop where
  | ungenerated (hj : s'.lab.journal = .notGenerated forced fault :: s.lab.journal)
      (hq : Takes s s' forced []) (hk : Repeats s s') : Noted k s s' (.error fault)
  | unprinted (hj : s'.lab.journal = .generated forced t rejected value :: s.lab.journal)
      (hp : t.fingerprint = .error fault) (hq : Takes s s' forced []) (hk : Repeats s s') :
      Noted k s s' (.error fault)
  | repeated (hj : s'.lab.journal = .generated forced t rejected value :: s.lab.journal)
      (hp : t.fingerprint = .ok print) (hv : s.visited.contains print = true)
      (hq : Takes s s' forced []) (hk : Repeats s s') : Noted k s s' (.ok none)
  | untested (hj : s'.lab.journal = .untested value' fault :: .notified (.newExample t) ::
        .generated forced t rejected value :: s.lab.journal)
      (hx : fault.isExhausted = true ∨ fault.isEndless = true) (hq : Takes s s' forced [])
      (hk : Counts s s' t print) :
      Noted k s s' (.error fault)
  | falsified (hj : s'.lab.journal = .notified .executed :: .tested value' (.fails cause) ::
        .notified (.newExample t) :: .generated forced t rejected value :: s.lab.journal)
      (hq : Takes s s' forced []) (hk : Counts s s' t print) :
      Noted k s s' (.ok (some (cause, e)))
  | held (hj : s'.lab.journal = .notified .complete :: .suggested traces ::
        .notified (.suggest k t') :: .notified .executed :: .tested value' .holds ::
        .notified (.newExample t) :: .generated forced t rejected value :: s.lab.journal)
      (hq : Takes s s' forced traces) (hk : Counts s s' t print) : Noted k s s' (.ok none)

theorem nextForced_takes {s s' : Search σ μ β} (h : nextForced s = .ok forced s') :
    s'.lab = s.lab ∧ Takes s s' forced [] ∧ Repeats s s' := by
  unfold nextForced at h
  split at h
  · rename_i hs
    cases h
    refine ⟨rfl, ⟨fun first rest hf => ?_, ?_⟩, rfl, rfl⟩
    · exact (List.cons.inj (hs.symm.trans hf)).1
    · simp [hs]
  · rename_i hs _
    cases h
    exact ⟨rfl, ⟨fun first rest hf => (nomatch hs.symm.trans hf), by simp [hs]⟩, rfl, rfl⟩
  · rename_i hs _
    cases h
    exact ⟨rfl, ⟨fun first rest hf => (nomatch hs.symm.trans hf), by simp [hs]⟩, rfl, rfl⟩

theorem ungenerated_noted {s s₁ s' : Search σ μ β} (hn : nextForced s = .ok forced s₁)
    (hg : generate settings p forced s₁ = .error fault s') (k : Nat) :
    Noted k s s' (.error fault : Except Fault (Option (Option Fault × Example α))) := by
  obtain ⟨hlab, hq, hk⟩ := nextForced_takes hn
  obtain ⟨hg, hs⟩ := inLab_error hg
  have hj := (Property.generate_error hg).2
  rw [hlab] at hj
  rw [hs]
  exact .ungenerated hj ⟨hq.first, hq.suggested⟩ ⟨hk.visited, hk.used⟩

theorem Met.noted {s s' : Search σ μ β} (hm : Met settings p s e s') :
    ∃ forced rejected value,
      s'.lab.journal = .generated forced e.trace rejected value :: s.lab.journal ∧
      Takes s s' forced [] ∧ Repeats s s' := by
  obtain ⟨hn, hg⟩ := hm
  obtain ⟨hlab, hq, hk⟩ := nextForced_takes hn
  obtain ⟨hg, hs⟩ := inLab_ok hg
  have hj := (Property.generate_ok hg).2
  rw [hlab] at hj
  rw [hs]
  exact ⟨_, _, _, hj, ⟨hq.first, hq.suggested⟩, hk.visited, hk.used⟩

theorem Begun.noted {s s' : Search σ μ β} (hb : Begun settings p s e s') :
    ∃ forced rejected value print,
      s'.lab.journal = .notified (.newExample e.trace) ::
        .generated forced e.trace rejected value :: s.lab.journal ∧
      Takes s s' forced [] ∧ Counts s s' e.trace print := by
  obtain @⟨s₁, print, hm, hp, hv, ht⟩ := hb
  obtain ⟨random, memory?, rfl⟩ := notify_ok ht
  obtain ⟨forced, rejected, value, hj, hq, hk⟩ := hm.noted
  refine ⟨forced, rejected, value, print, congrArg _ hj, ⟨hq.first, hq.suggested⟩, hp,
    hk.visited ▸ hv, ?_, ?_⟩
  · exact congrArg (·.insert print) hk.visited
  · exact congrArg (· + 1) hk.used

theorem Judged.noted {s s' : Search σ μ β} (hj : Judged settings p s verdict e s') :
    ∃ forced t rejected value value' print,
      s'.lab.journal = .notified .executed :: .tested value' verdict ::
        .notified (.newExample t) :: .generated forced t rejected value :: s.lab.journal ∧
      Takes s s' forced [] ∧ Counts s s' t print := by
  obtain ⟨hb, hx, ht⟩ := hj
  obtain ⟨random, memory?, rfl⟩ := notify_ok ht
  obtain ⟨forced, rejected, value, print, hbegun, hq, hk⟩ := hb.noted
  obtain ⟨hx, hs⟩ := inLab_ok hx
  have htested := (Property.examine_ok hx).1
  rw [hbegun] at htested
  rw [hs]
  exact ⟨forced, _, rejected, value, _, print, congrArg _ htested, ⟨hq.first, hq.suggested⟩,
    hk.fingerprint, hk.new, hk.visited, hk.used⟩

theorem Round.noted (hguide : ∀ guide ∈ settings.guide?, guide.Returns) {s s' : Search σ μ β}
    (hr : Round settings p k s result s') : Noted k s s' result := by
  cases hr with
  | ungenerated hn hg => exact ungenerated_noted hn hg k
  | unprinted hm hp =>
    obtain ⟨forced, rejected, value, hj, hq, hk⟩ := hm.noted
    exact .unprinted hj hp hq hk
  | repeated hm hp hv =>
    obtain ⟨forced, rejected, value, hj, hq, hk⟩ := hm.noted
    exact .repeated hj hp (hk.visited ▸ hv) hq hk
  | unannounced _ _ _ ht => exact (notify_returns hguide (fun g hg => hg.newExample _) ht).elim
  | untested hb hx =>
    obtain ⟨forced, rejected, value, print, hbegun, hq, hk⟩ := hb.noted
    obtain ⟨hx, hs⟩ := inLab_error hx
    obtain ⟨hexhausted, hj⟩ := Property.examine_error hx
    rw [hbegun] at hj
    rw [hs]
    exact .untested hj hexhausted ⟨hq.first, hq.suggested⟩
      ⟨hk.fingerprint, hk.new, hk.visited, hk.used⟩
  | unreported _ _ ht => exact (notify_returns hguide (fun g hg => hg.executed) ht).elim
  | falsified hj =>
    obtain ⟨forced, t, rejected, value, value', print, hj, hq, hk⟩ := hj.noted
    exact .falsified hj hq hk
  | unadvised _ ht => exact (notify_returns hguide (fun g hg => hg.suggest _ _) ht).elim
  | uncompleted _ _ hc => exact (notify_returns hguide (fun g hg => hg.complete) hc).elim
  | held hj ht hc =>
    obtain ⟨forced, t, rejected, value, value', print, hj, hq, hk⟩ := hj.noted
    obtain ⟨random, memory?, rfl⟩ := notify_ok ht
    obtain ⟨random', memory?', rfl⟩ := notify_ok hc
    refine .held (congrArg (fun journal => _ :: _ :: _ :: journal) hj) ⟨hq.first, ?_⟩
      ⟨hk.fingerprint, hk.new, hk.visited, hk.used⟩
    have hsuggested := hq.suggested
    rw [List.append_nil] at hsuggested
    exact congrArg (· ++ _) hsuggested

/-- The fingerprints that the search knows are those of all that was generated after the
reference. -/
structure Known (s : Search σ μ β) : Prop where
  reference : Journal.traces s.lab.journal ≠ []
  known : ∀ print, s.visited.contains print = true ↔
    print ∈ Journal.prints (Journal.traces s.lab.journal).dropLast

section Known

variable {s s' : Search σ μ β}

theorem Known.dropLast (h : Known s) (t : Trace) :
    (t :: Journal.traces s.lab.journal).dropLast =
      t :: (Journal.traces s.lab.journal).dropLast :=
  List.dropLast_cons_of_ne_nil h.reference

theorem Known.counted (h : Known s) (hk : Counts s s' t print)
    (htraces : Journal.traces s'.lab.journal = t :: Journal.traces s.lab.journal) :
    Known s' ∧ Journal.fresh (t :: Journal.traces s.lab.journal).dropLast =
      t :: Journal.fresh (Journal.traces s.lab.journal).dropLast := by
  have hnew : print ∉ Journal.prints (Journal.traces s.lab.journal).dropLast := by
    rw [← h.known, hk.new]
    exact Bool.false_ne_true
  rw [h.dropLast]
  refine ⟨⟨by rw [htraces]; exact List.cons_ne_nil _ _, fun print' => ?_⟩,
    Journal.fresh_cons_new hk.fingerprint hnew⟩
  rw [htraces, h.dropLast, Journal.mem_prints_cons hk.fingerprint, hk.visited, ← h.known]
  rw [Std.TreeSet.contains_insert, Bool.or_eq_true, beq_iff_eq,
    Std.LawfulEqCmp.compare_eq_iff_eq, eq_comm]

theorem Known.repeated (h : Known s) (hk : Repeats s s')
    (htraces : Journal.traces s'.lab.journal = t :: Journal.traces s.lab.journal)
    (hp : t.fingerprint = .ok print) (hv : s.visited.contains print = true) :
    Known s' ∧ Journal.fresh (t :: Journal.traces s.lab.journal).dropLast =
      Journal.fresh (Journal.traces s.lab.journal).dropLast := by
  have hold := (h.known print).mp hv
  rw [h.dropLast]
  refine ⟨⟨by rw [htraces]; exact List.cons_ne_nil _ _, fun print' => ?_⟩,
    Journal.fresh_cons_repeated hp hold⟩
  rw [htraces, h.dropLast, Journal.mem_prints_cons hp, hk.visited, h.known]
  exact ⟨.inr, fun hprint => hprint.elim (fun he => he ▸ hold) id⟩

end Known

/-- What a round tells the guide, when the guide returns from it. -/
theorem Noted.heard {s s' : Search σ μ β} (h : Noted k s s' result) (hknown : Known s)
    (hheard : Journal.Heard s.lab.journal s.used s.suggested)
    (htells : Journal.Tells s.lab.journal k []) :
    Journal.Heard s'.lab.journal s'.used s'.suggested ∧
      ∃ last, Journal.Tells s'.lab.journal (k + 1) last ∧
        Journal.Closing s'.lab.journal result last ∧
        (result = .ok none → Known s' ∧ last = []) := by
  cases h with
  | ungenerated hj hq hk =>
    rw [hj, hk.used, hq.suggested, List.append_nil]
    exact ⟨hheard.notGenerated hq.first _, [], htells.unfinished [_] rfl, .failed nofun, nofun⟩
  | unprinted hj hp hq hk =>
    rw [hj, hk.used, hq.suggested, List.append_nil]
    refine ⟨hheard.passedOver hq.first ?_, [], htells.unfinished [_] rfl, .failed nofun, nofun⟩
    exact (congrArg Journal.fresh (hknown.dropLast _)).trans (Journal.fresh_cons_unprinted hp)
  | repeated hj hp hv hq hk =>
    obtain ⟨hknown', hfresh⟩ := hknown.repeated hk (by rw [hj]; rfl) hp hv
    rw [hj, hk.used, hq.suggested, List.append_nil]
    exact ⟨hheard.passedOver hq.first hfresh, [], htells.unfinished [_] rfl, .passed,
      fun _ => ⟨hknown', rfl⟩⟩
  | untested hj hx hq hk =>
    obtain ⟨-, hfresh⟩ := hknown.counted hk (by rw [hj]; rfl)
    rw [hj, hk.used, hq.suggested, List.append_nil]
    exact ⟨(hheard.begun hq.first hfresh).untested _ _, _, htells.unfinished [_, _, _] rfl,
      .untested _ rfl hx, nofun⟩
  | falsified hj hq hk =>
    obtain ⟨-, hfresh⟩ := hknown.counted hk (by rw [hj]; rfl)
    rw [hj, hk.used, hq.suggested, List.append_nil]
    exact ⟨((hheard.begun hq.first hfresh).tested _ _).notified .executed nofun, _,
      htells.unfinished [_, _, _, _] rfl, .falsified _, nofun⟩
  | held hj hq hk =>
    obtain ⟨hknown', hfresh⟩ := hknown.counted hk (by rw [hj]; rfl)
    rw [hj, hk.used, hq.suggested]
    refine ⟨?_, [], htells.told [_, _, _, _, _, _, _] rfl, .passed, fun _ => ⟨hknown', rfl⟩⟩
    refine .notified (.advised ?_ _) .complete nofun
    refine .notified (.notified ?_ .executed nofun) (.suggest k _) nofun
    exact (hheard.begun hq.first hfresh).tested _ _

/-- What the guide has heard by the end of the search for an example. -/
structure Informed (result : Except Fault (Option (Option Fault × Example α))) (s : Search σ μ β) :
    Prop where
  heard : Journal.Heard s.lab.journal s.used s.suggested
  closing : ∃ k last, Journal.Tells s.lab.journal k last ∧ Journal.Closing s.lab.journal result last

theorem Course.informed (hguide : ∀ guide ∈ settings.guide?, guide.Returns) {s s' : Search σ μ β}
    (hc : Course settings p clock left k s result s') (hknown : Known s)
    (hheard : Journal.Heard s.lab.journal s.used s.suggested)
    (htells : Journal.Tells s.lab.journal k []) : Informed result s' := by
  induction hc with
  | finished | late => exact ⟨hheard, _, [], htells, .passed⟩
  | last left _ hr =>
    obtain ⟨hheard', last, htells', hclosing, -⟩ := (hr.noted hguide).heard hknown hheard htells
    exact ⟨hheard', _, last, htells', hclosing⟩
  | more _ hr _ ih =>
    obtain ⟨hheard', last, htells', -, hnone⟩ := (hr.noted hguide).heard hknown hheard htells
    obtain ⟨hknown', rfl⟩ := hnone rfl
    exact ih hknown' hheard' htells'

theorem heard_nil : Journal.Heard ([] : List (Event β)) 0 [] :=
  ⟨rfl, rfl, rfl, Journal.heeded_nil⟩

theorem tells_nil (k : Nat) : Journal.Tells ([] : List (Event β)) k [] :=
  ⟨[], rfl, .nil, nofun⟩

/-- Before the rounds the guide is told of nothing. The reference is the first that is generated. -/
theorem findBoundaries_heard {s s' : Search σ μ β} (hempty : s.lab.journal = [])
    (hused : s.used = 0) (hsuggested : s.suggested = []) (hvisited : s.visited = ∅)
    (h : findBoundaries settings p s = .ok () s') :
    Known s' ∧ Journal.Heard s'.lab.journal s'.used s'.suggested ∧
      Journal.Tells s'.lab.journal 0 [] := by
  obtain ⟨e, s₁, hg, rfl⟩ := findBoundaries_ok h
  obtain ⟨hg, hs⟩ := inLab_ok hg
  have hj := (Property.generate_ok hg).2
  rw [hempty] at hj
  rw [hs]
  refine ⟨⟨?_, fun print => ?_⟩, ?_, ?_⟩
  · rw [hj]
    exact List.cons_ne_nil _ _
  · rw [hj, hvisited]
    exact iff_of_false (by simp) (by simp [Journal.traces, Journal.prints])
  · rw [hj, hused, hsuggested]
    exact heard_nil.passedOver nofun rfl
  · rw [hj]
    exact ⟨[], rfl, .nil, nofun⟩

/-- The search for an example, left after so many rounds if it has not ended before. -/
def findIn (settings : Settings μ) (p : Property σ α β) (clock : Clock) (rounds : Nat) :
    Act (Search σ μ β) (Option (Option Fault × Example α)) := do
  startGuide settings
  findBoundaries settings p
  Search.rounds settings p clock rounds 0

theorem findIn_ends (hguide : ∀ guide ∈ settings.guide?, guide.Returns) (clock : Clock) (n : Nat)
    (random : Xorshift) (world : σ) :
    Informed ((findIn settings p clock n).outcome (.start random world)).1
      ((findIn settings p clock n).outcome (.start random world)).2 := by
  have hstart := startGuide_ends settings (.start random world : Search σ μ β)
  refine Act.bind_ends (fun fault s' hg => ?_) fun _ s₁ hg => ?_
  · rw [Act.outcome_of_error hg] at hstart
    obtain ⟨random', memory?, rfl⟩ := hstart
    exact ⟨heard_nil, 0, [], tells_nil 0, .failed nofun⟩
  rw [Act.outcome_of_ok hg] at hstart
  obtain ⟨random', memory?, rfl⟩ := hstart
  refine Act.bind_ends (fun fault s' hb => ?_) fun _ s₂ hb => ?_
  · obtain ⟨hgen, hs⟩ := inLab_error (findBoundaries_error hb)
    have hj := (Property.generate_error hgen).2
    rw [hs]
    refine ⟨?_, 1, [], ?_, ?_⟩
    · rw [hj]
      exact heard_nil.notGenerated nofun fault
    · rw [hj]
      exact (tells_nil 0).unfinished [_] rfl
    · rw [hj]
      exact .failed nofun
  · obtain ⟨hknown, hheard, htells⟩ := findBoundaries_heard rfl rfl rfl rfl hb
    exact (rounds_course settings p clock n 0 s₂).informed hguide hknown hheard htells

/-- What the guide has on record is what the journal says that it was told. -/
def OnRecord (s : Search σ (μ × List Notice) β) : Prop :=
  ∃ memory, s.memory? = some (memory, Journal.notices s.lab.journal)

section OnRecord

variable {settings : Settings (μ × List Notice)} {guide : Guide μ}

/-- Whatever comes of a notice, it is recorded as it is noted. -/
theorem preserves_notify_listen (hg : settings.guide? = some guide.recorded) (notice : Notice)
    (tell : Guide (μ × List Notice) → Act (Guided (μ × List Notice)) γ) (silence : γ)
    (htell : tell guide.recorded = Guide.listen notice act) :
    Act.Preserves OnRecord (notify settings notice tell silence : Act (Search σ _ β) γ) := by
  rintro s ⟨memory, hm⟩
  have hrecord (memory : μ) : some (memory, Journal.notices s.lab.journal ++ [notice]) =
      some (memory, Journal.notices (.notified notice :: s.lab.journal)) :=
    congrArg (fun notices => some (memory, notices))
      (Journal.notices_append [.notified notice] s.lab.journal).symm
  unfold Act.outcome notify
  simp only [hg, hm, htell, Guide.listen, Act.within]
  cases act ⟨(s.lab.note (.notified notice)).random, memory⟩ with
  | ok c after => exact ⟨after.memory, hrecord after.memory⟩
  | error fault after => exact ⟨after.memory, hrecord after.memory⟩

theorem lasts_onRecord (hg : settings.guide? = some guide.recorded) :
    Lasts settings (OnRecord : Search σ (μ × List Notice) β → Prop) where
  event := by
    rintro s lab event ⟨memory, hm⟩ hj hn
    have hnotices : Journal.notices lab.journal = Journal.notices s.lab.journal := by
      rw [hj, ← List.singleton_append, Journal.notices_append]
      cases event with
      | notified notice => exact absurd rfl (hn notice)
      | _ => exact List.append_nil _
    exact ⟨memory, by rw [hnotices]; exact hm⟩
  queues _ _ _ _ h := h
  newExample _ := preserves_notify_listen hg _ _ _ rfl
  executed := preserves_notify_listen hg _ _ _ rfl
  suggest _ _ := preserves_notify_listen hg _ _ _ rfl
  complete := preserves_notify_listen hg _ _ _ rfl

/-- Nothing is on record yet when the guide starts. -/
theorem startGuide_onRecord (hg : settings.guide? = some guide.recorded) {random : Xorshift}
    {world : σ} {s : Search σ (μ × List Notice) β}
    (h : startGuide settings (.start random world) = .ok () s) : OnRecord s := by
  unfold startGuide at h
  simp only [hg, Guide.recorded, Functor.map, EStateM.map, start] at h
  cases hr : guide.start random with
  | ok memory after =>
    rw [hr] at h
    cases h
    exact ⟨memory, rfl⟩
  | error fault after =>
    rw [hr] at h
    cases h

/-- From the start of the guide on, its record is what the journal says that it was told, however
many rounds were made and however they ended. -/
theorem findIn_onRecord (hg : settings.guide? = some guide.recorded) (p : Property σ α β)
    (clock : Clock) (n : Nat) {random : Xorshift} {world : σ} {s : Search σ (μ × List Notice) β}
    (h : startGuide settings (.start random world) = .ok () s) :
    OnRecord ((findIn settings p clock n).outcome (.start random world)).2 := by
  have hlasts : Lasts settings (OnRecord : Search σ (μ × List Notice) β → Prop) :=
    lasts_onRecord hg
  have hrounds := (hlasts.findBoundaries p).bind fun _ => hlasts.rounds p clock n 0
  have hrest : (findIn settings p clock n).outcome (.start random world) =
      (findBoundaries settings p >>= fun _ => Search.rounds settings p clock n 0).outcome s :=
    Act.outcome_congr (Act.bind_ok h)
  rw [hrest]
  exact hrounds s (startGuide_onRecord hg h)

end OnRecord

/-- A guide that returns from all it is told hears of examples one after the other: first of each in
four steps, in rounds that become later and later, then of the last one, up to where the property
was falsified, ran out of attempts or never ended. It hears of as many as are counted, which are
those with a new fingerprint. At each moment, what was followed of its suggestions and what waits is
all that it has suggested, in order, and while suggestions wait, the first of them is all that is
ever forced. -/
theorem find_tells (settings : Settings μ) (hguide : ∀ guide ∈ settings.guide?, guide.Returns)
    (p : Property σ α β) (clock : Clock) (random : Xorshift) (world : σ) :
    (find settings p clock : Act (Search σ μ β) (Option (Option Fault × Example α))) =
      findIn settings p clock settings.rounds ∧
    ∀ n result s', (findIn settings p clock n).outcome (.start random world) = (result, s') →
      (∃ (tellings : List Telling) (last : List Notice),
        Journal.notices s'.lab.journal = tellings.flatMap Telling.notices ++ last ∧
        tellings.Pairwise (fun t u => t.round < u.round) ∧
        Journal.Closing s'.lab.journal result last) ∧
      (Journal.announced s'.lab.journal).length = s'.used ∧
      Journal.announced s'.lab.journal =
        Journal.fresh (Journal.traces s'.lab.journal).dropLast ∧
      Journal.waiting s'.lab.journal = s'.suggested ∧
      (∀ before, before <:+ s'.lab.journal →
        Journal.followed before ++ Journal.waiting before = Journal.advised before) ∧
      ∀ event before forced first rest, event :: before <:+ s'.lab.journal →
        event.forced? = some forced → Journal.waiting before = first :: rest → forced = first := by
  refine ⟨rfl, fun n result s' h => ?_⟩
  have hinformed := findIn_ends (p := p) hguide clock n random world
  rw [h] at hinformed
  obtain ⟨hheard, k, last, ⟨tellings, hnotices, hrounds, -⟩, hclosing⟩ := hinformed
  exact ⟨⟨tellings, last, hnotices, hrounds, hclosing⟩, hheard.used, hheard.announced,
    hheard.waiting, hheard.heeded, fun event before forced first rest he hf hw =>
      hheard.heeded.forced_first he hf hw⟩

end Search

namespace Revisit

theorem returns_guide : ∀ g ∈ settings.guide?, g.Returns := by
  intro g hg
  cases hg
  exact ⟨nofun, nofun, nofun, nofun⟩

/-- What is recorded of a number up to a hundred. -/
def percent (n : Int) : Trace :=
  [⟨.percent, n⟩]

def find : Except Fault (Option (Option Fault × Example Int)) × Search Unit Unit Int :=
  (Search.find settings property .stopped).outcome (.start (.ofSeed 1) ())

/-- Of the three numbers that the guide suggests, the second repeats the first, and it hears nothing
of it. It hears no more of the third than that it was run, since the property is false of it. -/
theorem find_tells_revisit :
    (∀ g ∈ settings.guide?, g.Returns) ∧
    Journal.notices find.2.lab.journal =
      Telling.notices ⟨0, percent 0, percent 0⟩ ++ Telling.notices ⟨1, percent 2, percent 2⟩ ++
        [.newExample (percent 50), .executed] ∧
    Journal.advised find.2.lab.journal = [[2], [2], [50]] ∧
    Journal.followed find.2.lab.journal = [[2], [2], [50]] ∧
    (∃ (tellings : List Telling) (last : List Notice),
      Journal.notices find.2.lab.journal = tellings.flatMap Telling.notices ++ last ∧
      tellings.Pairwise (fun t u => t.round < u.round) ∧
      Journal.Closing find.2.lab.journal find.1 last) ∧
    (Journal.announced find.2.lab.journal).length = find.2.used ∧
    ∀ before, before <:+ find.2.lab.journal →
      Journal.followed before ++ Journal.waiting before = Journal.advised before := by
  obtain ⟨hfind, hrounds⟩ :=
    Search.find_tells settings returns_guide property .stopped (.ofSeed 1) ()
  have hout : (Search.findIn settings property .stopped settings.rounds).outcome
      (.start (.ofSeed 1) ()) = (find.1, find.2) := by
    rw [← hfind, Prod.eta, find]
  obtain ⟨htellings, hused, -, -, hheeded, -⟩ := hrounds settings.rounds find.1 find.2 hout
  exact ⟨returns_guide, by decide +kernel, by decide +kernel, by decide +kernel, htellings, hused,
    hheeded⟩

end Revisit

end Refute

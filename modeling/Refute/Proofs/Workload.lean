import Mathlib.Control.Monad.Basic
import Refute.Proofs.Descent
import Refute.Proofs.Rounds

namespace Refute

namespace Journal

/-- The trace of the value generated last, as it was generated. -/
def lastGenerated : List (Event β) → Option Trace
  | [] => none
  | .generated _ t _ _ :: _ => some t
  | _ :: journal => lastGenerated journal

/-- The traces of the examples that the property was run on, as they were generated, newest
first. -/
def examined : List (Event β) → List (Option Trace)
  | [] => []
  | .tested _ _ :: journal => lastGenerated journal :: examined journal
  | .untested _ _ :: journal => lastGenerated journal :: examined journal
  | _ :: journal => examined journal

theorem length_examined (journal : List (Event β)) :
    (examined journal).length = (testedValues journal).length := by
  induction journal with
  | nil => rfl
  | cons event journal ih =>
    have happ := testedValues_append [event] journal
    rw [List.singleton_append] at happ
    rw [happ, List.length_append, ← ih]
    cases event <;> rfl

theorem replayed_append (news journal : List (Event β)) :
    replayed (news ++ journal) = replayed news ++ replayed journal :=
  List.filterMap_append

/-- What the journal tells of looking for an example, in so many rounds at most. -/
structure Sought (rounds executed : Nat) (journal : List (Event β)) : Prop where
  runs : (testedValues journal).length = executed
  executed_le : executed ≤ rounds
  distinct : ∃ ts : List Trace, examined journal = ts.map some ∧ ts.Nodup
  generations_le : (replayed journal).length ≤ rounds + 1

/-- What the journal tells of shrinking an example with these values, in so many replays at
most. -/
structure Shrunk (replays : Nat) (values : List Int) (journal : List (Event β)) : Prop where
  replays_le : (replayed journal).length ≤ replays
  runs_le : (testedValues journal).length ≤ replays
  distinct : (replayed journal).Nodup
  not_replayed : values ∉ replayed journal

end Journal

/-- The guide takes every new example without a fault. -/
def Guide.Attends (guide : Guide μ) : Prop :=
  ∀ t before fault after, guide.newExample t before ≠ .error fault after

namespace Search

variable {settings : Settings μ} {p : Property σ α β}

/-- After so many generations, the property was run once on each example counted. Their traces,
newest first, are `ts`; each is known by its fingerprint. -/
structure Tally (s : Search σ μ β) (generations : Nat) (ts : List Trace) : Prop where
  generations : (Journal.replayed s.lab.journal).length = generations
  examined : Journal.examined s.lab.journal = ts.map some
  used : s.used = ts.length
  distinct : ts.Nodup
  known : ∀ t ∈ ts, ∃ print, t.fingerprint = .ok print ∧ s.visited.contains print = true

theorem tally_start (random : Xorshift) (world : σ) :
    Tally (.start random world : Search σ μ β) 0 [] :=
  ⟨rfl, rfl, rfl, List.nodup_nil, nofun⟩

theorem Tally.notified {s : Search σ μ β} (h : Tally s n ts) (notice : Notice)
    (random : Xorshift) (memory? : Option μ) : Tally (s.notified notice random memory?) n ts :=
  ⟨h.generations, h.examined, h.used, h.distinct, h.known⟩

theorem Tally.advised {s : Search σ μ β} (h : Tally s n ts) (traces : List (List Int)) :
    Tally (s.advise traces) n ts :=
  ⟨h.generations, h.examined, h.used, h.distinct, h.known⟩

theorem Tally.startGuide {s s' : Search σ μ β} (h : Tally s n ts)
    (hg : ((startGuide settings).outcome s).2 = s') : Tally s' n ts := by
  obtain ⟨random, memory?, hs⟩ := startGuide_ends settings s
  rw [← hg, hs]
  exact ⟨h.generations, h.examined, h.used, h.distinct, h.known⟩

theorem Tally.generated {s s' : Search σ μ β} (h : Tally s n ts)
    (hg : generate settings p forced s = .ok e s') :
    Tally s' (n + 1) ts ∧ Journal.lastGenerated s'.lab.journal = some e.trace := by
  obtain ⟨hg, hs⟩ := inLab_ok hg
  have hj := (Property.generate_ok hg).2
  rw [hs]
  refine ⟨⟨?_, ?_, h.used, h.distinct, h.known⟩, ?_⟩
  · rw [hj, ← h.generations]
    rfl
  · rw [hj]
    exact h.examined
  · rw [hj]
    rfl

theorem Tally.ungenerated {s s' : Search σ μ β} (h : Tally s n ts)
    (hg : generate settings p forced s = .error fault s') : Tally s' (n + 1) ts := by
  obtain ⟨hg, hs⟩ := inLab_error hg
  have hj := (Property.generate_error hg).2
  rw [hs]
  refine ⟨?_, ?_, h.used, h.distinct, h.known⟩
  · rw [hj, ← h.generations]
    rfl
  · rw [hj]
    exact h.examined

theorem Tally.nextForced {s s' : Search σ μ β} (h : Tally s n ts)
    (hn : nextForced s = .ok forced s') : Tally s' n ts := by
  obtain ⟨_, suggested, boundaries, hf⟩ := nextForced_ok s
  rw [hf] at hn
  cases hn
  exact ⟨h.generations, h.examined, h.used, h.distinct, h.known⟩

theorem Met.tally {s s' : Search σ μ β} (hm : Met settings p s e s') (h : Tally s n ts) :
    Tally s' (n + 1) ts ∧ Journal.lastGenerated s'.lab.journal = some e.trace := by
  obtain ⟨hn, hg⟩ := hm
  exact (h.nextForced hn).generated hg

/-- The trace of an example whose fingerprint is new is none of those before. -/
theorem Tally.fresh {s : Search σ μ β} (h : Tally s n ts) (hp : Trace.fingerprint t = .ok print)
    (hv : s.visited.contains print = false) : t ∉ ts := by
  intro ht
  obtain ⟨print', hp', hv'⟩ := h.known t ht
  cases hp.symm.trans hp'
  rw [hv] at hv'
  cases hv'

theorem Tally.known_count {s : Search σ μ β} (h : Tally s n ts)
    (hp : Trace.fingerprint t = .ok print) :
    ∀ u ∈ t :: ts, ∃ print', Trace.fingerprint u = .ok print' ∧
      (s.count print).visited.contains print' = true := by
  intro u hu
  rcases List.mem_cons.mp hu with rfl | hu
  · exact ⟨print, hp, by simp [Search.count]⟩
  · obtain ⟨print', hp', hv'⟩ := h.known u hu
    exact ⟨print', hp', by simp [Search.count, Std.TreeSet.contains_insert, hv']⟩

/-- However the property ends, it was run once, on the example generated last. -/
theorem examine_ends (p : Property σ α β) (e : Example α) (s : Search σ μ β)
    (hx : ((inLab (p.examine e)).outcome s).2 = s') :
    (∃ lab, s' = { s with lab }) ∧
      Journal.replayed s'.lab.journal = Journal.replayed s.lab.journal ∧
      Journal.examined s'.lab.journal =
        Journal.lastGenerated s.lab.journal :: Journal.examined s.lab.journal := by
  cases ho : inLab (p.examine e) s with
  | ok r s₁ =>
    rw [Act.outcome_of_ok ho] at hx
    cases hx
    obtain ⟨hr, hs⟩ := inLab_ok ho
    have hj := (Property.examine_ok hr).1
    rw [hj]
    exact ⟨⟨_, hs⟩, rfl, rfl⟩
  | error fault s₁ =>
    rw [Act.outcome_of_error ho] at hx
    cases hx
    obtain ⟨hr, hs⟩ := inLab_error ho
    have hj := (Property.examine_error hr).2
    rw [hj]
    exact ⟨⟨_, hs⟩, rfl, rfl⟩

theorem Begun.tally {s s₁ s' : Search σ μ β} (hb : Begun settings p s e s₁) (h : Tally s n ts)
    (hx : ((inLab (p.examine e)).outcome s₁).2 = s') : Tally s' (n + 1) (e.trace :: ts) := by
  obtain @⟨s₀, print, hm, hp, hv, ht⟩ := hb
  obtain ⟨random, memory?, rfl⟩ := notify_ok ht
  obtain ⟨hs, hlast⟩ := hm.tally h
  obtain ⟨⟨lab, hs'⟩, hreplayed, hexamined⟩ := examine_ends p e _ hx
  have hlast' : Journal.lastGenerated (((s₀.count print).notified (.newExample e.trace) random
      memory?).lab.journal) = some e.trace := hlast
  refine ⟨hreplayed ▸ hs.generations, ?_, ?_, List.nodup_cons.mpr ⟨hs.fresh hp hv, hs.distinct⟩,
    ?_⟩
  · rw [hexamined, hlast']
    exact congrArg (some e.trace :: ·) hs.examined
  · rw [hs']
    exact congrArg (· + 1) hs.used
  · rw [hs']
    exact hs.known_count hp

theorem Judged.tally {s s' : Search σ μ β} (hj : Judged settings p s verdict e s')
    (h : Tally s n ts) : ∃ t, Tally s' (n + 1) (t :: ts) := by
  obtain ⟨hb, hx, ht⟩ := hj
  obtain ⟨random, memory?, rfl⟩ := notify_ok ht
  exact ⟨_, (hb.tally h (congrArg Prod.snd (Act.outcome_of_ok hx))).notified ..⟩

/-- A round generates once, and runs the property on one new example at most. -/
theorem Round.tally {s s' : Search σ μ β} (hr : Round settings p k s result s')
    (hguide : ∀ guide ∈ settings.guide?, guide.Attends) (h : Tally s n ts) :
    ∃ ts', Tally s' (n + 1) ts' ∧ ts'.length ≤ ts.length + 1 := by
  have hnew : ∀ {s' : Search σ μ β}, (∃ t, Tally s' (n + 1) (t :: ts)) →
      ∃ ts', Tally s' (n + 1) ts' ∧ ts'.length ≤ ts.length + 1 :=
    fun ⟨t, ht⟩ => ⟨t :: ts, ht, Nat.le_refl _⟩
  cases hr with
  | ungenerated hn hg => exact ⟨ts, (h.nextForced hn).ungenerated hg, Nat.le_succ _⟩
  | unprinted hm | repeated hm => exact ⟨ts, (hm.tally h).1, Nat.le_succ _⟩
  | unannounced _ _ _ ht =>
    obtain ⟨-, guide, hg, before, after, he⟩ := notify_error ht
    exact absurd he (hguide guide hg _ before _ after)
  | untested hb hx => exact hnew ⟨_, hb.tally h (congrArg Prod.snd (Act.outcome_of_error hx))⟩
  | unreported hb hx ht =>
    obtain ⟨⟨random, memory?, rfl⟩, -⟩ := notify_error ht
    exact hnew ⟨_, (hb.tally h (congrArg Prod.snd (Act.outcome_of_ok hx))).notified ..⟩
  | falsified hj => exact hnew (hj.tally h)
  | unadvised hj ht =>
    obtain ⟨⟨random, memory?, rfl⟩, -⟩ := notify_error ht
    obtain ⟨t, hs⟩ := hj.tally h
    exact hnew ⟨t, hs.notified ..⟩
  | uncompleted hj ht hc =>
    obtain ⟨random, memory?, rfl⟩ := notify_ok ht
    obtain ⟨⟨random', memory?', rfl⟩, -⟩ := notify_error hc
    obtain ⟨t, hs⟩ := hj.tally h
    exact hnew ⟨t, ((hs.notified ..).advised _).notified ..⟩
  | held hj ht hc =>
    obtain ⟨random, memory?, rfl⟩ := notify_ok ht
    obtain ⟨random', memory?', rfl⟩ := notify_ok hc
    obtain ⟨t, hs⟩ := hj.tally h
    exact hnew ⟨t, ((hs.notified ..).advised _).notified ..⟩

theorem Course.tally {s s' : Search σ μ β} (hc : Course settings p clock left k s result s')
    (hguide : ∀ guide ∈ settings.guide?, guide.Attends) (h : Tally s n ts) :
    ∃ n' ts', Tally s' n' ts' ∧ n' ≤ n + left ∧ ts'.length ≤ ts.length + left := by
  induction hc generalizing n ts with
  | finished | late => exact ⟨n, ts, h, Nat.le_add_right .., Nat.le_add_right ..⟩
  | last left _ hr =>
    obtain ⟨ts', hs, hle⟩ := hr.tally hguide h
    exact ⟨n + 1, ts', hs, by omega, by omega⟩
  | more _ hr _ ih =>
    obtain ⟨ts₁, hs₁, hle₁⟩ := hr.tally hguide h
    obtain ⟨n', ts', hs, hn, hle⟩ := ih hs₁
    exact ⟨n', ts', hs, by omega, by omega⟩

/-- One generation serves as reference before the rounds begin. -/
theorem Hunt.tally {s s' : Search σ μ β} (hh : Hunt settings p clock s result s')
    (hguide : ∀ guide ∈ settings.guide?, guide.Attends) (h : Tally s n ts) :
    ∃ n' ts', Tally s' n' ts' ∧ n' ≤ n + settings.rounds + 1 ∧
      ts'.length ≤ ts.length + settings.rounds := by
  cases hh with
  | unguided hg =>
    have hs := h.startGuide (congrArg Prod.snd (Act.outcome_of_error hg))
    exact ⟨n, ts, hs, by omega, by omega⟩
  | unreferenced hg hb =>
    have hs := h.startGuide (congrArg Prod.snd (Act.outcome_of_ok hg))
    exact ⟨n + 1, ts, hs.ungenerated (findBoundaries_error hb), by omega, by omega⟩
  | rounds hg hb hc =>
    have hs := h.startGuide (congrArg Prod.snd (Act.outcome_of_ok hg))
    obtain ⟨e, s₁, hgen, rfl⟩ := findBoundaries_ok hb
    obtain ⟨hr, -⟩ := hs.generated hgen
    have hr : Tally { s₁ with boundaries := e.trace.boundaries } (n + 1) ts :=
      ⟨hr.generations, hr.examined, hr.used, hr.distinct, hr.known⟩
    obtain ⟨n', ts', ht, hn, hle⟩ := hc.tally hguide hr
    exact ⟨n', ts', ht, by omega, hle⟩

theorem sought_of_find {random : Xorshift} {world : σ} {s' : Search σ μ β}
    (hguide : ∀ guide ∈ settings.guide?, guide.Attends)
    (hf : ((find settings p clock).outcome (.start random world)).2 = s') :
    Journal.Sought settings.rounds s'.used s'.lab.journal := by
  have hh := find_hunt settings p clock (.start random world)
  rw [hf] at hh
  obtain ⟨n, ts, hs, hn, hle⟩ := hh.tally hguide (tally_start random world)
  refine ⟨?_, ?_, ⟨ts, hs.examined, hs.distinct⟩, ?_⟩
  · rw [← Journal.length_examined, hs.examined, List.length_map, hs.used]
  · rw [hs.used]
    simpa using hle
  · rw [hs.generations]
    omega

end Search

namespace Descent

variable {p : Property σ α β} {attempts : Int}

/-- A descent that noted `news` since it began in `lab`. Tried is what was replayed, and the trace
that it began with. -/
structure Worked (lab : Lab σ β) (values : List Int) (d : Descent σ α β)
    (news : List (Event β)) : Prop where
  journal : d.lab.journal = news ++ lab.journal
  replays : (Journal.replayed news).length = d.replays
  runs_le : (Journal.testedValues news).length ≤ d.replays
  tried : ∀ c, d.tried.contains c = true ↔ c = values ∨ c ∈ Journal.replayed news
  distinct : (Journal.replayed news).Nodup
  not_replayed : values ∉ Journal.replayed news

theorem worked_start (lab : Lab σ β) (e : Example α) :
    Worked lab e.trace.values (Descent.start lab e) [] := by
  refine ⟨rfl, rfl, Nat.le_refl 0, fun c => ?_, List.nodup_nil, List.not_mem_nil⟩
  have hc : (Descent.start lab e).tried.contains c = [e.trace.values].contains c :=
    Std.TreeSet.contains_ofList
  rw [hc, List.contains_iff_mem, List.mem_singleton]
  exact (or_iff_left List.not_mem_nil).symm

theorem Worked.replay {lab : Lab σ β} {d d' : Descent σ α β} (h : Worked lab values d news)
    (ht : d.tried.contains c = false) (ho : Outcome p attempts c d reply d') :
    ∃ news', Worked lab values d' news' := by
  obtain ⟨new, hj, hr, hruns⟩ := ho.journal
  have hne : ¬ (c = values ∨ c ∈ Journal.replayed news) := by
    rw [← h.tried, ht]
    exact Bool.false_ne_true
  obtain ⟨hvalues, hfresh⟩ := not_or.mp hne
  have hall : Journal.replayed (new ++ news) = c :: Journal.replayed news := by
    rw [Journal.replayed_append, hr, List.singleton_append]
  refine ⟨new ++ news, ?_, ?_, ?_, fun c' => ?_, ?_, ?_⟩
  · rw [hj, h.journal, List.append_assoc]
  · rw [hall, List.length_cons, h.replays, ho.replays_eq]
  · have hle := h.runs_le
    rw [Journal.testedValues_append, List.length_append, ho.replays_eq]
    omega
  · rw [ho.tried_eq, contains_insert, h.tried, hall, List.mem_cons]
    exact or_left_comm
  · rw [hall]
    exact List.nodup_cons.mpr ⟨hfresh, h.distinct⟩
  · rw [hall, List.mem_cons]
    exact not_or.mpr ⟨Ne.symm hvalues, h.not_replayed⟩

theorem worked_keeps (lab : Lab σ β) (values : List Int) (propose : Trace → Proposals) :
    Keeps p attempts propose (fun d => ∃ news, Worked lab values d news)
      (fun d => ∃ news, Worked lab values d news) where
  reseed := fun _ ⟨news, h⟩ =>
    ⟨news, h.journal, h.replays, h.runs_le, h.tried, h.distinct, h.not_replayed⟩
  replay := by
    intro d d' c asked reply ⟨news, h⟩ ht _ ho
    rw [ite_self]
    exact h.replay ht ho

/-- Replays are made only while the budget is not spent. -/
theorem Pass.replays_le {d d' : Descent σ α β}
    (h : Pass p attempts (some limit) ps d result d') (hle : d.replays ≤ limit) :
    d'.replays ≤ limit := by
  induction h with
  | done | unmade | spent => exact hle
  | tried _ _ _ _ ih => exact ih hle
  | accepted _ _ hb _ ho | exhausted _ _ hb _ ho | endless _ _ hb _ ho =>
    have hlt : ¬ limit ≤ _ := of_decide_eq_false hb
    rw [ho.replays_eq]
    exact Nat.lt_of_not_le hlt
  | discarded _ hb _ ho _ ih =>
    have hlt : ¬ limit ≤ _ := of_decide_eq_false hb
    refine ih ?_
    rw [ho.replays_eq]
    exact Nat.lt_of_not_le hlt

theorem Course.replays_le {d d' : Descent σ α β}
    (h : Course p attempts propose (some limit) n d ending d') (hle : d.replays ≤ limit) :
    d'.replays ≤ limit := by
  induction h with
  | outOfCycles | spent | trivial => exact hle
  | last _ _ _ hp => exact hp.replays_le hle
  | more _ _ hp _ ih => exact ih (hp.replays_le hle)

end Descent

theorem Property.shrink_shrunk {p : Property σ α β} {lab : Lab σ β} {e : Example α}
    (hd : p.shrink attempts propose replays lab e = (ending, d)) :
    ∃ news, d.lab.journal = news ++ lab.journal ∧ Journal.Shrunk replays e.trace.values news := by
  have hc := Descent.course_of_run hd
  have hle : d.replays ≤ replays := hc.replays_le (Nat.zero_le replays)
  have hk := hc.keeps (Descent.worked_keeps lab e.trace.values propose)
    ⟨[], Descent.worked_start lab e⟩
  rw [ite_self] at hk
  obtain ⟨news, h⟩ := hk
  exact ⟨news, h.journal, h.replays ▸ hle, Nat.le_trans h.runs_le hle, h.distinct,
    h.not_replayed⟩

/-- A search under a limit of examples runs the property once on each example that it counts, all
with different traces, and generates no more than one for each that it may count and one for
reference. What shrinking adds to that are replays within the shrink cycles, each forced by other
values than those before it and than those of the example that was shrunk, and for each replay one
run of the property at most. -/
theorem Search.run_workload (settings : Settings μ) (hexamples : 0 < settings.examples)
    (hguide : ∀ guide ∈ settings.guide?, guide.Attends) (p : Property σ α β) (clock : Clock)
    (propose : Trace → Proposals) {random : Xorshift} {world : σ} {s' : Search σ μ β}
    (h : run settings p clock propose (.start random world) = .ok found s') :
    ∃ hunted shrunk, s'.lab.journal = shrunk ++ hunted ∧
      ((find settings p clock).outcome (.start random world)).2.lab.journal = hunted ∧
      Journal.Sought settings.examples.toNat found.executed hunted ∧
      (shrunk = [] ∨ ∃ cause e,
        ((find settings p clock).outcome (.start random world)).1 = .ok (some (cause, e)) ∧
        Journal.Shrunk settings.shrinkCycles e.trace.values shrunk) := by
  have hrounds : settings.rounds = settings.examples.toNat :=
    if_neg (Int.not_lt.mpr (Int.le_of_lt hexamples))
  have hsought : ∀ {result s₁}, (find settings p clock).outcome (.start random world) =
      (result, s₁) → Journal.Sought settings.examples.toNat s₁.used s₁.lab.journal := by
    intro result s₁ hf
    rw [← hrounds]
    exact sought_of_find hguide (congrArg Prod.snd hf)
  have hfinish : Finish settings p clock propose (.start random world) (.ok found) s' := by
    have hf := run_finish settings p clock propose (.start random world)
    rwa [Act.outcome_of_ok h] at hf
  cases hfinish with
  | exhausted hf =>
    have ho := Act.outcome_of_error hf
    exact ⟨_, [], rfl, congrArg (·.2.lab.journal) ho, hsought ho, .inl rfl⟩
  | passed hf =>
    have ho := Act.outcome_of_ok hf
    exact ⟨_, [], rfl, congrArg (·.2.lab.journal) ho, hsought ho, .inl rfl⟩
  | shrunk hf hd | gaveOut hf hd =>
    have ho := Act.outcome_of_ok hf
    obtain ⟨news, hj, hs⟩ := Property.shrink_shrunk hd
    exact ⟨_, news, hj, congrArg (·.2.lab.journal) ho, hsought ho,
      .inr ⟨_, _, congrArg Prod.fst ho, hs⟩⟩

namespace Revisit

def guide : Guide Unit where
  start := pure ()
  newExample _ := pure ()
  executed := pure ()
  suggest round _ := pure (if round = 0 then [[2], [2], [50]] else [])
  complete := pure ()

def settings : Settings Unit where
  random := .ofSeed 1
  examples := 4
  shrinkCycles := 7
  attempts := 10
  timeMillis := 0
  minSteps := 1
  maxSteps := 1
  reporter := .raising
  guide? := some guide
  examples_valid := .inr (by decide)

def property : Property Unit Int Int :=
  .ofPredicate (.draw .percent) fun n => .ok (n ≤ 3)

def run : Except Fault (Findings Int) × Search Unit Unit Int :=
  (Search.run settings property .stopped (Shrink.targeted 0)).outcome (.start (.ofSeed 1) ())

theorem attends_guide : ∀ g ∈ settings.guide?, g.Attends := by
  intro g hg t before fault after h
  cases hg
  cases h

/-- The second generation forced by two is not counted, and shrinking ends before its budget. -/
theorem run_workload_revisit :
    0 < settings.examples ∧ (∀ g ∈ settings.guide?, g.Attends) ∧
    ∃ s', Search.run settings property .stopped (Shrink.targeted 0) (.start (.ofSeed 1) ()) =
        .ok ⟨false, 3, [4, 9, 18, 50], none⟩ s' ∧
      Journal.replayed s'.lab.journal =
        [[3], [2], [4], [9], [0], [], [50], [2], [2], [0], []] ∧
      ∃ hunted shrunk, s'.lab.journal = shrunk ++ hunted ∧
        ((Search.find settings property .stopped).outcome
          (.start (.ofSeed 1) ())).2.lab.journal = hunted ∧
        Journal.Sought 4 3 hunted ∧
        (shrunk = [] ∨ ∃ cause e,
          ((Search.find settings property .stopped).outcome (.start (.ofSeed 1) ())).1 =
            .ok (some (cause, e)) ∧
          Journal.Shrunk 7 e.trace.values shrunk) := by
  have hfound : run.1 = .ok ⟨false, 3, [4, 9, 18, 50], none⟩ := by decide +kernel
  have hrun := Act.of_outcome_ok (Act.outcome_eq hfound)
  exact ⟨by decide, attends_guide, _, hrun, by decide +kernel,
    Search.run_workload settings (by decide) attends_guide property .stopped _ hrun⟩

end Revisit

end Refute

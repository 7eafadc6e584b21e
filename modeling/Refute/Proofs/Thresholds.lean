import Mathlib.Data.Finset.Card
import Refute.Proofs.Acceptance
import Refute.Proofs.Endless
import Refute.Proofs.Minimality
import Refute.Proofs.Repeats

namespace Refute

namespace Descent

variable {p : Property σ α β} {attempts : Int}

/-- The replays so far and those of prepaid candidates still to come. -/
def owed (prepaid : Finset (List Int)) (d : Descent σ α β) : Nat :=
  d.replays + (prepaid.filter fun c => d.tried.contains c = false).card

@[simp] theorem owed_reseed (prepaid : Finset (List Int)) (random : Xorshift)
    (d : Descent σ α β) : (d.reseed random).owed prepaid = d.owed prepaid := rfl

theorem replays_le_owed (d : Descent σ α β) (prepaid : Finset (List Int)) :
    d.replays ≤ d.owed prepaid :=
  Nat.le_add_right ..

theorem owed_start_le (prepaid : Finset (List Int)) (lab : Lab σ β) (first : Example α) :
    (start lab first).owed prepaid ≤ prepaid.card := by
  rw [owed, start, Nat.zero_add]
  exact Finset.card_filter_le ..

theorem Outcome.contains_of_ne {d d' : Descent σ α β} (h : Outcome p attempts c d reply d')
    (hne : c' ≠ c) : d'.tried.contains c' = d.tried.contains c' := by
  rw [h.tried_eq, Bool.eq_iff_iff, contains_insert, or_iff_right hne]

theorem Outcome.owed_eq {d d' : Descent σ α β} (h : Outcome p attempts c d reply d')
    (ht : d.tried.contains c = false) (prepaid : Finset (List Int)) :
    d'.owed prepaid = d.owed prepaid + if c ∈ prepaid then 0 else 1 := by
  have hopen : (prepaid.filter fun c' => d'.tried.contains c' = false) =
      (prepaid.filter fun c' => d.tried.contains c' = false).erase c := by
    ext c'
    simp only [Finset.mem_filter, Finset.mem_erase, h.tried_eq, ← Bool.not_eq_true,
      contains_insert, not_or]
    exact and_left_comm
  rw [owed, owed, h.replays_eq, hopen]
  split
  · rename_i hc
    have hmem : c ∈ prepaid.filter fun c' => d.tried.contains c' = false :=
      Finset.mem_filter.mpr ⟨hc, ht⟩
    rw [← Finset.card_erase_add_one hmem]
    omega
  · rename_i hc
    rw [Finset.erase_eq_of_notMem fun hmem => hc (Finset.mem_filter.mp hmem).1]
    omega

/-- A cycle with a new candidate that is accepted whenever it is replayed accepts one, if there are
replays left for all candidates up to it that are not prepaid, and each of them ends. -/
theorem Pass.accepts {best : Example α} {sure : List Int} {prepaid : Finset (List Int)}
    (hlasts : ∀ {c reply} {d d' : Descent σ α β}, Outcome p attempts c d reply d' →
      d.current = best → reply ≠ .exhausted)
    (hsure : ∀ {reply} {d d' : Descent σ α β}, Outcome p attempts sure d reply d' →
      d.current = best → reply = .accepted)
    (hcharged : sure ∉ prepaid) {d d' : Descent σ α β}
    (h : Pass p attempts (some limit) (.ofList candidates after) d result d')
    (hends : ∀ fault, result ≠ some (.endless fault)) (hbest : d.current = best)
    (hnew : d.tried.contains sure = false) (hmem : sure ∈ candidates)
    (hlimit : d.owed prepaid + candidates.countP (· ∉ prepaid) ≤ limit) :
    result = none ∧ d'.owed prepaid ≤ d.owed prepaid + candidates.countP (· ∉ prepaid) := by
  induction candidates generalizing d with
  | nil => cases hmem
  | cons c candidates ih =>
    have hcount : (c :: candidates).countP (· ∉ prepaid) =
        candidates.countP (· ∉ prepaid) + if c ∈ prepaid then 0 else 1 := by
      rw [List.countP_cons]
      simp only [decide_not, Bool.not_eq_true', decide_eq_false_iff_not, ite_not]
    have hpos : 0 < (c :: candidates).countP (· ∉ prepaid) :=
      List.countP_pos_iff.mpr ⟨sure, hmem, by simpa using hcharged⟩
    have hreplays := d.replays_le_owed prepaid
    cases h with
    | unmade _ hp => cases hp
    | spent _ _ hb =>
      have hspent : limit ≤ d.replays := of_decide_eq_true hb
      omega
    | exhausted _ _ _ _ ho => exact absurd rfl (hlasts ho hbest)
    | endless => exact absurd rfl (hends _)
    | tried hp _ ht hn =>
      cases hp
      have hlater : sure ∈ candidates := by
        refine (List.mem_cons.mp hmem).resolve_left ?_
        rintro rfl
        rw [ht] at hnew
        cases hnew
      have hrest := ih hn hbest hnew hlater
      rw [owed_reseed] at hrest
      obtain ⟨hnone, howed⟩ := hrest (by omega)
      exact ⟨hnone, by omega⟩
    | accepted _ hp _ ht ho =>
      cases hp
      have hc := ho.owed_eq ht prepaid
      rw [owed_reseed] at hc
      exact ⟨rfl, by omega⟩
    | discarded hp _ ht ho hn =>
      cases hp
      have hother : c ≠ sure := by
        rintro rfl
        cases hsure ho hbest
      have hlater : sure ∈ candidates := (List.mem_cons.mp hmem).resolve_left hother.symm
      have hc := ho.owed_eq ht prepaid
      rw [owed_reseed] at hc
      have hopen := (ho.contains_of_ne hother.symm).trans hnew
      obtain ⟨hnone, howed⟩ :=
        ih hn ((ho.found_eq nofun).1.trans hbest) hopen hlater (by omega)
      exact ⟨hnone, by omega⟩

end Descent

namespace Gen

/-- The trace is that one draw, and a forced value that fits is the value. -/
theorem generate_draw_ok {s s' : Xorshift × σ}
    (h : (draw b).generate attempts forced s = .ok e s') :
    e.trace = [⟨b, e.value⟩] ∧ b.allows e.value ∧ e.rejected = 0 ∧
      ∀ v, forced = [v] → b.allows v → e.value = v := by
  unfold generate at h
  split at h
  · rename_i value scene hs
    cases h
    obtain ⟨hnext, -⟩ := Sampler.onSource_ok hs
    obtain ⟨hallowed, random, left, hsource⟩ := Source.next_ok hnext
    refine ⟨?_, hallowed, ?_, fun v hforced hv => ?_⟩
    · simp only [Example.trace, hsource, Source.trace_record]
      rfl
    · rw [hsource]
      rfl
    · rw [Source.next_of_forced hforced hv] at hnext
      exact (EStateM.Result.ok.inj hnext).1.symm
  · cases h

theorem generate_draw_error {s s' : Xorshift × σ}
    (h : (draw b).generate attempts forced s = .error fault s') :
    Xorshift.widthFits b.lo b.hi = false ∧ fault.Endless := by
  unfold generate at h
  split at h
  · cases h
  · rename_i hs
    cases h
    exact Sampler.draw_endless hs

theorem generate_draw_forced (hv : b.allows v) (attempts : Int) (s : Xorshift × σ) :
    ∃ e, (draw b).generate attempts [v] s = .ok e s ∧ e.value = v ∧ e.trace = [⟨b, v⟩] := by
  have hs : (draw b).sample ⟨Source.start s.1 [v] attempts, s.2⟩ =
      .ok v ⟨(Source.start s.1 [] attempts).record ⟨b, v⟩, s.2⟩ :=
    Sampler.onSource_of_ok (Source.next_of_forced rfl hv)
  refine ⟨⟨v, _, 0⟩, ?_, rfl, Source.trace_record (Source.start s.1 [] attempts) ⟨b, v⟩⟩
  unfold generate
  rw [hs]
  rfl

/-- Targets within the range are kept as they are. -/
theorem range_target {lo hi target : Int} (low : Word.least ≤ lo)
    (htarget : lo ≤ target ∧ target ≤ hi) (high : hi ≤ Word.greatest) :
    ∃ b : Bounds, (range lo hi target : Except Fault (Gen σ Int)) = .ok (draw b) ∧
      b.target = some target ∧ b.lo = lo ∧ b.hi = hi := by
  have hle : lo ≤ hi := Int.le_trans htarget.1 htarget.2
  unfold range Bounds.between Bounds.make
  rw [dif_pos hle, dif_pos ⟨low, high⟩]
  exact ⟨_, rfl, congrArg some (Bounds.clamp_of_mem htarget.1 htarget.2), rfl, rfl⟩

end Gen

/-- How far a value is over a threshold, if it is on that side of the target: the target is not, one
step to it is one less, and what is nearer to it is less far. -/
structure Oversteps (target : Int) (excess : Int → Int) : Prop where
  at_target : excess target ≤ 0
  step : 0 < excess v → excess (if target < v then v - 1 else v + 1) = excess v - 1
  nearer : 0 < excess v → 0 < excess w →
    ((w - target).natAbs < (v - target).natAbs ↔ excess w < excess v)

theorem Oversteps.above (h : target ≤ c) : Oversteps target (· - c) where
  at_target := by omega
  step := by
    intro v hv
    rw [if_pos (by omega)]
    omega
  nearer := by
    intro v w hv hw
    omega

theorem Oversteps.below (h : c ≤ target) : Oversteps target (c - ·) where
  at_target := by omega
  step := by
    intro v hv
    rw [if_neg (by omega)]
    omega
  nearer := by
    intro v w hv hw
    omega

theorem Trace.simplerThan_singleton {b : Bounds} (h : b.target = some target) :
    Trace.simplerThan [⟨b, w⟩] [⟨b, v⟩] ↔ (w - target).natAbs < (v - target).natAbs := by
  simp [Trace.simplerThan, Trace.distances, Draw.distance, h, List.cons_lt_cons_iff]

/-- One draw made the example, and its value is over the threshold. -/
structure Example.Over (b : Bounds) (excess : Int → Int) (e : Example Int) : Prop where
  trace : e.trace = [⟨b, e.value⟩]
  allowed : b.allows e.value
  falsified : 0 < excess e.value

namespace Shrink

theorem fixed_singleton {b : Bounds} (h : b.target = some target) :
    fixed [⟨b, v⟩] = [] :: (closer v target).map fun w => [w] := by
  simp [fixed, edits, shortenings, movesAt, h, Edit.apply, Trace.values]

theorem closer_cons (h : v ≠ target) :
    ∃ others, closer v target = target :: others ∧ others.length ≤ 2 := by
  have hd : v - target ≠ 0 := by omega
  simp only [closer, if_neg hd]
  rw [List.eraseDups_cons]
  exact ⟨_, rfl, Nat.le_trans (length_eraseDups_le _) (List.length_filter_le ..)⟩

/-- The candidates that every cycle has, however far the value is from its target. -/
def prepaid (target : Int) : Finset (List Int) :=
  {[], [target]}

@[simp] theorem mem_prepaid : c ∈ prepaid target ↔ c = [] ∨ c = [target] := by
  simp [prepaid]

/-- Of the candidates that are not at random, two at most are not prepaid. -/
theorem charged_le {b : Bounds} (h : b.target = some target) (hv : v ≠ target) :
    (fixed [⟨b, v⟩]).countP (· ∉ prepaid target) ≤ 2 := by
  obtain ⟨others, hcloser, hlength⟩ := closer_cons hv
  rw [fixed_singleton h, hcloser, List.map_cons, List.countP_cons_of_neg (by simp),
    List.countP_cons_of_neg (by simp)]
  refine Nat.le_trans List.countP_le_length ?_
  rwa [List.length_map]

end Shrink

/-- With more than one step to go, one step closer is a candidate, and is over the threshold too. -/
theorem Oversteps.exists_candidate {b : Bounds} (hexcess : Oversteps target excess)
    (hb : b.target = some target) (hv : b.allows v) (hfar : 1 < excess v) :
    v ≠ target ∧ ∃ step, excess step = excess v - 1 ∧ b.allows step ∧ step ≠ target ∧
      [step] ∈ Shrink.fixed [⟨b, v⟩] := by
  have htarget := hexcess.at_target
  have hne : v ≠ target := by
    rintro rfl
    omega
  have hstep := hexcess.step (by omega : 0 < excess v)
  refine ⟨hne, _, hstep, ?_, ?_, ?_⟩
  · have hmem := b.target_mem target hb
    rw [Bounds.allows_iff] at hv ⊢
    split <;> omega
  · intro heq
    rw [heq] at hstep
    omega
  · rw [Shrink.fixed_singleton hb]
    exact List.mem_cons_of_mem _
      (List.mem_map_of_mem ((Shrink.mem_closer hne).mpr (.inr (.inr rfl))))

/-- The candidate was not accepted: it was discarded, or no value was ever drawn for it. -/
inductive Reply.Fruitless (b : Bounds) : Reply → Prop where
  | discarded : Fruitless b .discarded
  | endless (wide : Xorshift.widthFits b.lo b.hi = false) (h : fault.Endless) :
      Fruitless b (.endless fault)

namespace Descent

/-- No value that was tried is over the threshold, but less than the current one. -/
structure Narrowed (b : Bounds) (excess : Int → Int) (d : Descent σ Int β) : Prop where
  current : d.current.Over b excess
  tried : ∀ v, b.allows v → 0 < excess v → d.tried.contains [v] = true →
    excess d.current.value ≤ excess v

theorem narrowed_start {first : Example Int} (h : first.Over b excess) (lab : Lab σ Int) :
    (start lab first).Narrowed b excess := by
  refine ⟨h, fun v _ _ ht => ?_⟩
  rw [start, Std.TreeSet.contains_ofList, List.contains_iff_mem, List.mem_singleton, h.trace] at ht
  cases ht
  exact Int.le_refl _

theorem pos_of_falsifies {holds : Int → Except Fault Bool} {excess : Int → Int}
    (hholds : ∀ v, holds v = .ok (excess v ≤ 0)) (h : Falsifies holds v raised) : 0 < excess v := by
  cases h with
  | answered h =>
    rw [hholds, Except.ok.injEq, decide_eq_false_iff_not] at h
    exact Int.not_le.mp h
  | raised h =>
    rw [hholds] at h
    cases h

section

variable {b : Bounds} {target : Int} {excess : Int → Int} {holds : Int → Except Fault Bool}
  {attempts : Int} (hb : b.target = some target) (hexcess : Oversteps target excess)
  (hholds : ∀ v, holds v = .ok (excess v ≤ 0))

include hb hexcess hholds

/-- A candidate either changes nothing, since its value is not over the threshold or no less than
the current one, or since none is drawn for ever; or it makes a value that is less. A forced value
that fits is that value. -/
theorem Outcome.of_draw {d d' : Descent σ Int Int}
    (h : Outcome (.ofPredicate (.draw b) holds) attempts c d reply d')
    (hd : d.current.Over b excess) :
    (reply.Fruitless b ∧ d'.current = d.current ∧
      ∀ v, c = [v] → b.allows v → 0 < excess v → excess d.current.value ≤ excess v) ∨
    (reply = .accepted ∧ d'.current.Over b excess ∧
      excess d'.current.value < excess d.current.value ∧
      ∀ v, c = [v] → b.allows v → d'.current.value = v) := by
  have hforced : ∀ {v fault} {lab lab' : Lab σ Int}, b.allows v →
      (Property.ofPredicate (.draw b) holds).generate attempts [v] lab ≠ .error fault lab' := by
    intro v fault lab lab' hv hg
    obtain ⟨e, he, -⟩ := Gen.generate_draw_forced hv attempts (lab.random, lab.world)
    cases (Property.generate_error hg).1.symm.trans he
  cases h with
  | failed hg _ he =>
    have hends := (Gen.generate_draw_error (Property.generate_error hg).1).2
    rw [Fault.endless_iff.mp hends] at he
    cases he
  | exhausted hg hf =>
    have hends := (Gen.generate_draw_error (Property.generate_error hg).1).2
    rw [hends.not_exhausted] at hf
    cases hf
  | endless hg =>
    obtain ⟨hwide, hends⟩ := Gen.generate_draw_error (Property.generate_error hg).1
    refine .inl ⟨.endless hwide hends, rfl, ?_⟩
    rintro v rfl hv
    exact absurd hg (hforced hv)
  | rejected hg hr =>
    obtain ⟨-, -, hnone, -⟩ := Gen.generate_draw_ok (Property.generate_ok hg).1
    omega
  | untested _ _ ht | unfinished _ _ ht =>
    have herror := (Property.examine_ofPredicate_error ht).1
    rw [hholds] at herror
    cases herror
  | holds hg _ ht =>
    obtain ⟨-, -, -, hvalue⟩ := Gen.generate_draw_ok (Property.generate_ok hg).1
    have hunder := (Property.examine_ofPredicate ht).2
    rw [hholds, Except.ok.injEq, decide_eq_true_eq] at hunder
    refine .inl ⟨.discarded, rfl, fun v hc hv hexcess => ?_⟩
    rw [hvalue v hc hv] at hunder
    omega
  | notSimpler hg _ ht hs =>
    obtain ⟨htrace, -, -, hvalue⟩ := Gen.generate_draw_ok (Property.generate_ok hg).1
    obtain ⟨htrace', -⟩ := Property.examine_ofPredicate ht
    refine .inl ⟨.discarded, rfl, fun v hc hv hv0 => ?_⟩
    rw [htrace', htrace, hvalue v hc hv, hd.trace, Trace.simplerThan_singleton hb,
      hexcess.nearer hd.falsified hv0] at hs
    exact Int.not_lt.mp hs
  | accepted hg _ ht hs =>
    obtain ⟨htrace, hallowed, -, hvalue⟩ := Gen.generate_draw_ok (Property.generate_ok hg).1
    obtain ⟨htrace', hfalse⟩ := Property.examine_ofPredicate ht
    obtain ⟨-, hsame, -⟩ := Property.examine_ok ht
    rw [← hsame] at htrace hallowed hvalue hfalse
    have hfalsified := pos_of_falsifies hholds hfalse
    rw [htrace', htrace, hd.trace, Trace.simplerThan_singleton hb,
      hexcess.nearer hd.falsified hfalsified] at hs
    exact .inr ⟨rfl, ⟨htrace'.trans htrace, hallowed, hfalsified⟩, hs, hvalue⟩

theorem Outcome.narrowed {d d' : Descent σ Int Int}
    (h : Outcome (.ofPredicate (.draw b) holds) attempts c d reply d') (hd : d.Narrowed b excess) :
    d'.Narrowed b excess := by
  have htried : ∀ v, d'.tried.contains [v] = true → [v] = c ∨ d.tried.contains [v] = true := by
    intro v hv
    rwa [h.tried_eq, contains_insert] at hv
  rcases h.of_draw hb hexcess hholds hd.current with ⟨-, hcurrent, hkept⟩ | ⟨-, hv, hless, hforced⟩
  · refine ⟨hcurrent ▸ hd.current, fun v hv hv0 ht => ?_⟩
    rw [hcurrent]
    rcases htried v ht with hc | ht
    · exact hkept v hc.symm hv hv0
    · exact hd.tried v hv hv0 ht
  · refine ⟨hv, fun v hv hv0 ht => ?_⟩
    rcases htried v ht with hc | ht
    · rw [hforced v hc.symm hv]
    · exact Int.le_of_lt (Int.lt_of_lt_of_le hless (hd.tried v hv hv0 ht))

theorem narrowed_keeps (propose : Trace → Proposals) :
    Keeps (.ofPredicate (.draw b) holds : Property σ Int Int) attempts propose
      (Narrowed b excess) (Narrowed b excess) where
  reseed := fun _ h => ⟨h.current, h.tried⟩
  replay := by
    intro d d' c asked reply hd _ _ ho
    rw [ite_self]
    exact ho.narrowed hb hexcess hholds hd

/-- While there is more than one step to go, one step closer is a new candidate and is accepted, if
it comes to that. -/
theorem Pass.nearer {d d' : Descent σ Int Int}
    (h : Pass (.ofPredicate (.draw b) holds) attempts (some limit)
      (Shrink.targeted moves d.current.trace) d result d')
    (hends : ∀ fault, result ≠ some (.endless fault)) (hd : d.Narrowed b excess)
    (hfar : 1 < excess d.current.value) (hlimit : d.owed (Shrink.prepaid target) + 2 ≤ limit) :
    result = none ∧ d'.owed (Shrink.prepaid target) ≤ d.owed (Shrink.prepaid target) + 2 := by
  obtain ⟨hne, step, hstep, hallowed, hstepNe, hmem⟩ :=
    hexcess.exists_candidate hb hd.current.allowed hfar
  have hnew : d.tried.contains [step] = false := by
    rw [← Bool.not_eq_true]
    intro ht
    have hle := hd.tried step hallowed (by omega) ht
    omega
  have hcharged : [step] ∉ Shrink.prepaid target := by simpa using hstepNe
  have hcount := Shrink.charged_le hb hne
  rw [← hd.current.trace] at hmem hcount
  rw [Shrink.targeted_eq, if_neg (by rw [hd.current.trace]; nofun)] at h
  have hlasts : ∀ {c reply} {e e' : Descent σ Int Int},
      Outcome (.ofPredicate (.draw b) holds) attempts c e reply e' → e.current = d.current →
        reply ≠ .exhausted := by
    intro c reply e e' ho hbest
    rcases ho.of_draw hb hexcess hholds (hbest ▸ hd.current) with ⟨hreply, -⟩ | ⟨rfl, -⟩
    · cases hreply <;> nofun
    · nofun
  have hsure : ∀ {reply} {e e' : Descent σ Int Int},
      Outcome (.ofPredicate (.draw b) holds) attempts [step] e reply e' → e.current = d.current →
        reply = .accepted := by
    intro reply e e' ho hbest
    rcases ho.of_draw hb hexcess hholds (hbest ▸ hd.current) with ⟨-, -, hkept⟩ | ⟨hreply, -⟩
    · have hle := hkept step rfl hallowed (by omega)
      rw [hbest] at hle
      omega
    · exact hreply
  obtain ⟨hnone, howed⟩ := h.accepts hlasts hsure hcharged hends rfl hnew hmem (by omega)
  exact ⟨hnone, by omega⟩

/-- A descent whose replays end comes to one step over the threshold, if there are two replays left
for each step to there beside those owed. -/
theorem Course.reaches {d d' : Descent σ Int Int}
    (h : Course (.ofPredicate (.draw b) holds) attempts (Shrink.targeted moves) (some limit) n d
      ending d') (hends : ∀ fault, ending ≠ .endless fault) (hd : d.Narrowed b excess)
    (hcycles : limit ≤ n + d.replays)
    (hlimit : excess d.current.value = 1 ∨
      d.owed (Shrink.prepaid target) + 2 * (excess d.current.value - 1) ≤ limit) :
    excess d'.current.value = 1 := by
  induction h with
  | outOfCycles d =>
    have hreplays := d.replays_le_owed (Shrink.prepaid target)
    have hpos := hd.current.falsified
    omega
  | @spent d n hb' =>
    have hspent : limit ≤ d.replays := of_decide_eq_true hb'
    have hreplays := d.replays_le_owed (Shrink.prepaid target)
    have hpos := hd.current.falsified
    omega
  | trivial _ _ ht =>
    rw [hd.current.trace] at ht
    cases ht
  | @last d _ _ n _ _ hp =>
    by_cases hfar : 1 < excess d.current.value
    · have hlast : ∀ fault, some _ ≠ some (Ending.endless fault) :=
        fun fault he => hends fault (Option.some.inj he)
      cases (hp.nearer hb hexcess hholds hlast hd hfar (by omega)).1
    · rw [hp.current_eq]
      have hpos := hd.current.falsified
      omega
  | @more d d₁ _ _ n _ _ hp _ ih =>
    have hpos := hd.current.falsified
    have hd₁ := hp.keeps (narrowed_keeps hb hexcess hholds (Shrink.targeted moves)) hd
      fun _ _ _ => id
    rw [ite_self] at hd₁
    have hpos₁ := hd₁.current.falsified
    have hless := hp.simpler
    rw [hd₁.current.trace, hd.current.trace, Trace.simplerThan_singleton hb,
      hexcess.nearer hpos hpos₁] at hless
    have hreplays := hp.replays_lt
    by_cases hfar : 1 < excess d.current.value
    · -- One step less to go pays for the two replays of this cycle.
      have howed := (hp.nearer hb hexcess hholds nofun hd hfar (by omega)).2
      exact ih hends hd₁ (by omega) (.inr (by omega))
    · omega

end

end Descent

/-- What shrinking ends with: the newest value it found, or the one it began with. -/
theorem Acceptance.Chained.newest {gen : Gen σ α} {holds : α → Except Fault Bool}
    {as : List (Acceptance σ α α)} {d : Descent σ α α}
    (h : Chained (.ofPredicate gen holds) attempts propose lab first as d) :
    d.found.head?.getD first.value = d.current.value := by
  rw [h.found, h.current]
  cases as <;> rfl

/-- A descent leaves `v` of the value `s` that it began with, unless a draw from this range goes on
for ever in it. -/
def Descent.LeavesOf (lo hi s v : Int) (x : Ending × Descent σ Int Int) : Prop :=
  x.2.found.head?.getD s = v ∨
    Xorshift.widthFits lo hi = false ∧ ∃ fault, x.1 = .endless fault ∧ fault.Endless

/-- In shrinking a single draw, that is the draw that may go on for ever. -/
theorem Descent.Outcome.wide_of_endless {b : Bounds} {excess : Int → Int}
    {holds : Int → Except Fault Bool} (hholds : ∀ v, holds v = .ok (excess v ≤ 0))
    {d d' : Descent σ Int Int}
    (h : Outcome (.ofPredicate (.draw b) holds) attempts c d (.endless fault) d') :
    Xorshift.widthFits b.lo b.hi = false ∧ fault.Endless := by
  cases h with
  | endless hg => exact Gen.generate_draw_error (Property.generate_error hg).1
  | unfinished _ _ ht =>
    have herror := (Property.examine_ofPredicate_error ht).1
    rw [hholds] at herror
    cases herror

/-- A value over a threshold shrinks to one step over it, where replays last for two a step. -/
theorem Property.shrink_oversteps {b : Bounds} (hb : b.target = some target)
    (hexcess : Oversteps target excess) {holds : Int → Except Fault Bool}
    (hholds : ∀ v, holds v = .ok (excess v ≤ 0)) {first : Example Int} (hvalue : first.value = s)
    (htrace : first.trace = [⟨b, s⟩]) (hs : b.allows s) (hpos : 0 < excess s) {replays : Nat}
    (hreplays : 2 * excess s ≤ replays) (hlast : ∀ w, excess w = 1 → w = v) (attempts : Int)
    (moves : Nat) (lab : Lab σ Int) :
    Descent.LeavesOf b.lo b.hi s v
      ((ofPredicate (.draw b) holds).shrink attempts (Shrink.targeted moves) replays lab
        first) := by
  subst hvalue
  obtain ⟨as, has⟩ := Acceptance.exists_chained (.ofPredicate (.draw b) holds) attempts
    (Shrink.targeted moves) replays lab first
  rcases hd : (ofPredicate (.draw b) holds).shrink attempts (Shrink.targeted moves) replays lab
    first with ⟨ending, d⟩
  rw [hd] at has
  have hcourse := Descent.course_of_run hd
  have hlimit : (Descent.start lab first).owed (Shrink.prepaid target) +
      2 * (excess first.value - 1) ≤ replays := by
    have howed := Descent.owed_start_le (Shrink.prepaid target) lab first
    have hcard : (Shrink.prepaid target).card ≤ 2 := Finset.card_le_two
    omega
  by_cases hends : ∃ fault, ending = .endless fault
  · obtain ⟨fault, rfl⟩ := hends
    obtain ⟨c, d₁, ho⟩ := hcourse.outcome_of_endless
    obtain ⟨hwide, hfault⟩ := ho.wide_of_endless hholds
    exact .inr ⟨hwide, fault, rfl, hfault⟩
  · refine .inl (hlast _ ?_)
    rw [has.newest]
    exact hcourse.reaches hb hexcess hholds (fun fault he => hends ⟨fault, he⟩)
      (Descent.narrowed_start ⟨htrace, hs, hpos⟩ lab) (Nat.le_add_right ..) (.inr hlimit)

/-- A value forced on a range shrinks to the boundary of a threshold on the same side of the target:
if all values up to `c` hold, where `c` is not below the target, to the next one above; if all from
`c` on hold, where `c` is not above the target, to the next one below. Two replays for each value
on the way are enough, whatever is drawn meanwhile, if draws end. -/
theorem Property.shrink_to_threshold {lo hi target : Int} (low : Word.least ≤ lo)
    (htarget : lo ≤ target ∧ target ≤ hi) (high : hi ≤ Word.greatest) :
    ∃ g : Gen σ Int, Gen.range lo hi target = .ok g ∧
      ∀ s, lo ≤ s → s ≤ hi → ∀ (attempts : Int) (before : Xorshift × σ),
        ∃ first, g.generate attempts [s] before = .ok first before ∧ first.value = s ∧
          ∀ (c attempts' : Int) (moves replays : Nat) (lab : Lab σ Int),
            (target ≤ c → c < s → 2 * (s - c) ≤ replays →
              Descent.LeavesOf lo hi s (c + 1) ((ofPredicate g fun v => .ok (v ≤ c)).shrink
                attempts' (Shrink.targeted moves) replays lab first)) ∧
            (c ≤ target → s < c → 2 * (c - s) ≤ replays →
              Descent.LeavesOf lo hi s (c - 1) ((ofPredicate g fun v => .ok (c ≤ v)).shrink
                attempts' (Shrink.targeted moves) replays lab first)) := by
  obtain ⟨b, hrange, hb, rfl, rfl⟩ := Gen.range_target (σ := σ) low htarget high
  refine ⟨.draw b, hrange, fun s hs hs' attempts before => ?_⟩
  have hallowed : b.allows s := Bounds.allows_iff.mpr (by omega)
  obtain ⟨first, hgenerate, hvalue, htrace⟩ := Gen.generate_draw_forced hallowed attempts before
  refine ⟨first, hgenerate, hvalue, fun c attempts' moves replays lab => ⟨?_, ?_⟩⟩
  · intro hc hcs hreplays
    have hholds : ∀ v, (.ok (v ≤ c) : Except Fault Bool) = .ok (v - c ≤ 0) := by
      intro v
      exact congrArg Except.ok (decide_eq_decide.mpr (by omega))
    have hpos : 0 < s - c := by omega
    exact shrink_oversteps hb (.above hc) hholds hvalue htrace hallowed hpos hreplays
      (fun w hw => by omega) attempts' moves lab
  · intro hc hcs hreplays
    have hholds : ∀ v, (.ok (c ≤ v) : Except Fault Bool) = .ok (c - v ≤ 0) := by
      intro v
      exact congrArg Except.ok (decide_eq_decide.mpr (by omega))
    have hpos : 0 < c - s := by omega
    exact shrink_oversteps hb (.below hc) hholds hvalue htrace hallowed hpos hreplays
      (fun w hw => by omega) attempts' moves lab

/-- From sixty down to the first value above seven, and from minus sixty up to the first below
three. -/
theorem Property.shrink_to_threshold_aroundFive :
    ∃ g : Gen Unit Int, Gen.range (-100) 100 5 = .ok g ∧
      (∃ first, g.generate 1 [60] (.ofSeed 1, ()) = .ok first (.ofSeed 1, ()) ∧
        ((ofPredicate g fun v => .ok (v ≤ 7)).shrink 1 (Shrink.targeted Shrink.randomMoves) 106
          ⟨.ofSeed 2, (), []⟩ first).2.found.head?.getD 60 = 8) ∧
      ∃ first, g.generate 1 [-60] (.ofSeed 1, ()) = .ok first (.ofSeed 1, ()) ∧
        ((ofPredicate g fun v => .ok (3 ≤ v)).shrink 1 (Shrink.targeted Shrink.randomMoves) 126
          ⟨.ofSeed 2, (), []⟩ first).2.found.head?.getD (-60) = 2 := by
  obtain ⟨g, hg, hshrinks⟩ :=
    shrink_to_threshold (σ := Unit) (by decide : Word.least ≤ -100)
      (by decide : (-100 : Int) ≤ 5 ∧ (5 : Int) ≤ 100) (by decide)
  obtain ⟨sixty, hsixty, -, habove⟩ := hshrinks 60 (by decide) (by decide) 1 (.ofSeed 1, ())
  obtain ⟨minusSixty, hminusSixty, -, hbelow⟩ :=
    hshrinks (-60) (by decide) (by decide) 1 (.ofSeed 1, ())
  have hnarrow : Xorshift.widthFits (-100) 100 ≠ false := by decide
  refine ⟨g, hg, ⟨sixty, hsixty, ?_⟩, minusSixty, hminusSixty, ?_⟩
  · have h := (habove 7 1 Shrink.randomMoves 106 ⟨.ofSeed 2, (), []⟩).1 (by decide) (by decide)
      (by decide)
    exact h.resolve_right fun hwide => hnarrow hwide.1
  · have h := (hbelow 3 1 Shrink.randomMoves 126 ⟨.ofSeed 2, (), []⟩).2 (by decide) (by decide)
      (by decide)
    exact h.resolve_right fun hwide => hnarrow hwide.1

end Refute

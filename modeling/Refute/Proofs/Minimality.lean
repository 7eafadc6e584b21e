import Refute.Proofs.Descent
import Refute.Proofs.Replay
import Refute.Proofs.Simpler
import Refute.Proofs.Unasked

namespace Refute

namespace Shrink

/-- The values of `t` without their second half or without the last, or with one moved to its
target, half way there, or one step closer. -/
inductive Nearer (t : Trace) : List Int → Prop where
  | half : Nearer t (t.values.take (t.length / 2))
  | init : Nearer t t.values.dropLast
  | target {i : Nat} (hd : t[i]? = some d) (ht : d.bounds.target = some target)
      (hv : d.value ≠ target) : Nearer t (t.values.set i target)
  | middle {i : Nat} (hd : t[i]? = some d) (ht : d.bounds.target = some target)
      (hv : d.value ≠ target) : Nearer t (t.values.set i (target + (d.value - target).tdiv 2))
  | down {i : Nat} (hd : t[i]? = some d) (ht : d.bounds.target = some target)
      (hv : target < d.value) : Nearer t (t.values.set i (d.value - 1))
  | up {i : Nat} (hd : t[i]? = some d) (ht : d.bounds.target = some target)
      (hv : d.value < target) : Nearer t (t.values.set i (d.value + 1))

theorem mem_closer {value target : Int} (h : value ≠ target) :
    v ∈ closer value target ↔ v = target ∨ v = target + (value - target).tdiv 2 ∨
      v = if target < value then value - 1 else value + 1 := by
  have hd : value - target ≠ 0 := by omega
  simp only [closer, if_neg hd, List.mem_eraseDups, List.mem_cons, List.not_mem_nil, or_false,
    Int.sub_pos]

theorem mem_moves_of_closer {t : Trace} {i : Nat} (hd : t[i]? = some d)
    (ht : d.bounds.target = some target) (hv : v ∈ closer d.value target) :
    .put i v ∈ (t.mapIdx movesAt).flatten := by
  obtain ⟨hi, rfl⟩ := List.getElem?_eq_some_iff.mp hd
  refine List.mem_flatten.mpr ⟨movesAt i t[i], ?_, ?_⟩
  · exact List.mem_mapIdx.mpr ⟨i, hi, rfl⟩
  · rw [movesAt, ht]
    exact List.mem_map_of_mem hv

theorem mem_edits_of_closer {t : Trace} {i : Nat} (hd : t[i]? = some d)
    (ht : d.bounds.target = some target) (hv : v ∈ closer d.value target) :
    .put i v ∈ edits t :=
  List.mem_append_right _ (mem_moves_of_closer hd ht hv)

/-- None of these is left out of the candidates. -/
theorem Nearer.exists_edit {t : Trace} (h : Nearer t c) (ht : t ≠ []) :
    ∃ e ∈ edits t, e.apply t.values = c := by
  have hl : 0 < t.length := List.length_pos_iff.mpr ht
  have hinit : ∃ e ∈ edits t, e.apply t.values = t.values.dropLast := by
    refine ⟨.keep (t.length - 1), List.mem_append_left _ ?_, ?_⟩
    · unfold shortenings
      split <;> simp
    · rw [List.dropLast_eq_take, Trace.length_values]
      rfl
  cases h with
  | half =>
    by_cases h1 : 1 < t.length
    · refine ⟨.keep (t.length / 2), List.mem_append_left _ ?_, rfl⟩
      rw [shortenings, if_pos h1]
      exact List.mem_cons_self
    · have hone : t.length = 1 := by omega
      have hhalf : t.values.take (t.length / 2) = t.values.dropLast := by
        rw [List.dropLast_eq_take, Trace.length_values, hone]
      rw [hhalf]
      exact hinit
  | init => exact hinit
  | target hd ht hv =>
    exact ⟨_, mem_edits_of_closer hd ht ((mem_closer hv).mpr (.inl rfl)), rfl⟩
  | middle hd ht hv =>
    exact ⟨_, mem_edits_of_closer hd ht ((mem_closer hv).mpr (.inr (.inl rfl))), rfl⟩
  | down hd ht hv =>
    refine ⟨_, mem_edits_of_closer hd ht ((mem_closer (by omega)).mpr (.inr (.inr ?_))), rfl⟩
    rw [if_pos hv]
  | up hd ht hv =>
    refine ⟨_, mem_edits_of_closer hd ht ((mem_closer (by omega)).mpr (.inr (.inr ?_))), rfl⟩
    rw [if_neg (by omega)]

theorem targeted_of_ne_nil {t : Trace} (ht : t ≠ []) (moves : Nat) :
    targeted moves t = .ofEdits t.values (edits t) (.repeated (changedMove t) moves) :=
  if_neg (by simpa using ht)

end Shrink

namespace Gen

/-- No way on from `best`: the generator fails on `c`, or rejects more on its way, or the value
holds, or its trace is not simpler. Where the generator has to be asked, nothing is said. -/
def Dismissed (gen : Gen σ α) (holds : α → Except Fault Bool) (attempts : Int) (best : Example α)
    (c : List Int) : Prop :=
  gen.Unasked attempts c → ∀ s e s', gen.generate attempts c s = .ok e s' →
    best.rejected < e.rejected ∨ holds e.value = .ok true ∨ ¬ e.trace.simplerThan best.trace

variable {gen : Gen σ α} {holds : α → Except Fault Bool} {attempts : Int}

/-- What was ruled out stays so, as examples get simpler and their rejections no more. -/
theorem Dismissed.mono (h : Dismissed gen holds attempts best c)
    (hr : best'.rejected ≤ best.rejected) (hs : best'.trace.simplerThan best.trace) :
    Dismissed gen holds attempts best' c := by
  intro hu s e s' he
  rcases h hu s e s' he with hm | hh | hn
  · exact .inl (Nat.lt_of_le_of_lt hr hm)
  · exact .inr (.inl hh)
  · exact .inr (.inr fun hc => hn (Trace.simplerThan_trans hc hs))

/-- One run is enough to rule a candidate out, since all others come to the same. -/
theorem dismissed_of_ok (hg : gen.sample.Plain) {t t' : Xorshift × σ}
    (ht : gen.generate attempts c t = .ok e t')
    (h : best.rejected < e.rejected ∨ holds e.value = .ok true ∨
      ¬ e.trace.simplerThan best.trace) : Dismissed gen holds attempts best c := by
  intro hu s e' s' hs
  obtain ⟨hv, hd, hr⟩ := hu.generate_ok hg hs ht
  rwa [hv, hd, hr] at h

theorem dismissed_of_error (hg : gen.sample.Plain) {t t' : Xorshift × σ}
    (ht : gen.generate attempts c t = .error fault t') : Dismissed gen holds attempts best c := by
  intro hu s e s' hs
  rw [hu.generate_error hg ht s] at hs
  cases hs

/-- An example is no way on from itself. -/
theorem dismissed_self (hg : gen.sample.Plain) {before after : Xorshift × σ}
    (h : gen.generate attempts' forced before = .ok e after) :
    Dismissed gen holds attempts e e.trace.values := by
  have ha := generate_again hg h [] attempts before
  rw [List.append_nil] at ha
  refine dismissed_of_ok hg ha (.inr (.inr ?_))
  have ht : (Source.serve (Source.start before.1 e.trace.values attempts) e.trace []).trace =
      e.trace := by simp
  simp only [Example.trace] at ht ⊢
  rw [ht]
  exact Trace.simplerThan_irrefl _

end Gen

namespace Descent

variable {gen : Gen σ α} {holds : α → Except Fault Bool} {attempts : Int}

/-- All that was tried is ruled out against the current example. -/
def Ruled (gen : Gen σ α) (holds : α → Except Fault Bool) (attempts : Int)
    (d : Descent σ α α) : Prop :=
  ∀ c, d.tried.contains c = true → gen.Dismissed holds attempts d.current c

theorem Outcome.dismissed {d d' : Descent σ α α} (hg : gen.sample.Plain)
    (h : Outcome (.ofPredicate gen holds) attempts c d reply d') (hr : reply.brokenOff ≠ true) :
    gen.Dismissed holds attempts d'.current c := by
  cases h with
  | failed hm => exact Gen.dismissed_of_error hg (Property.generate_error hm).1
  | exhausted | endless | untested | unfinished => exact absurd rfl hr
  | rejected hm hlt => exact Gen.dismissed_of_ok hg (Property.generate_ok hm).1 (.inl hlt)
  | holds hm _ ht =>
    have hh := (Property.examine_ofPredicate ht).2
    exact Gen.dismissed_of_ok hg (Property.generate_ok hm).1 (.inr (.inl hh))
  | notSimpler hm _ ht hs =>
    rw [(Property.examine_ofPredicate ht).1] at hs
    exact Gen.dismissed_of_ok hg (Property.generate_ok hm).1 (.inr (.inr hs))
  | accepted hm _ ht =>
    refine Gen.dismissed_of_ok hg (Property.generate_ok hm).1 (.inr (.inr ?_))
    dsimp only
    rw [(Property.examine_ofPredicate ht).1]
    exact Trace.simplerThan_irrefl _

theorem Outcome.dismissed_mono {d d' : Descent σ α α}
    (h : Outcome (.ofPredicate gen holds) attempts c d reply d')
    (hc : gen.Dismissed holds attempts d.current c') :
    gen.Dismissed holds attempts d'.current c' := by
  by_cases hr : reply = .accepted
  · subst hr
    cases h with
    | accepted _ hle ht hs =>
      rw [← (Property.examine_ok ht).2.2] at hle
      exact hc.mono hle hs
  · rw [(h.found_eq hr).1]
    exact hc

theorem ruled_start (hg : gen.sample.Plain) {before after : Xorshift × σ}
    (h : gen.generate attempts' forced before = .ok first after) (lab : Lab σ α) :
    Ruled gen holds attempts (start lab first) := by
  intro c hc
  rw [start, Std.TreeSet.contains_ofList, List.contains_iff_mem, List.mem_singleton] at hc
  subst hc
  exact Gen.dismissed_self hg h

theorem ruled_keeps (hg : gen.sample.Plain) (propose : Trace → Proposals) :
    Keeps (.ofPredicate gen holds) attempts propose (Ruled gen holds attempts)
      (fun _ => True) where
  reseed := fun _ h => h
  replay := by
    intro d d' c asked reply hd _ _ ho
    split
    · trivial
    · rename_i hr
      intro c' hc
      rw [ho.tried_eq, contains_insert] at hc
      rcases hc with rfl | hc
      · exact ho.dismissed hg hr
      · exact ho.dismissed_mono (hd c' hc)

/-- A cycle that came to an end of its own went past all the edits, whatever came after them. -/
theorem Pass.contains_edit {p : Property σ α β} {d d' : Descent σ α β}
    (h : Pass p attempts budget (.ofEdits values es after) d (some ending) d')
    (hs : ending ≠ .spent) (hx : ending.brokenOff = false) (he : edit ∈ es) :
    d'.tried.contains (edit.apply values) = true := by
  induction es generalizing d with
  | nil => cases he
  | cons first es ih =>
    cases h with
    | unmade _ hp => cases hp
    | spent => exact absurd rfl hs
    | exhausted | endless => cases hx
    | tried hp _ ht hn =>
      cases hp
      rcases List.mem_cons.mp he with rfl | he
      · exact hn.tried_mono ht
      · exact ih hn he
    | discarded hp _ _ ho hn =>
      cases hp
      rcases List.mem_cons.mp he with rfl | he
      · refine hn.tried_mono ?_
        rw [ho.tried_eq, contains_insert]
        exact .inl rfl
      · exact ih hn he

end Descent

/-- What shrinking by moves to targets ends with, unless replays or attempts gave out or a replay
never ended: one move away from it, the generator either has to be asked, or fails, or rejects more,
or the value holds, or the trace is no simpler. -/
theorem Property.shrink_locally_minimal {gen : Gen σ α} (hg : gen.Composed)
    (holds : α → Except Fault Bool) {first : Example α} {before after : Xorshift × σ}
    (hfirst : gen.generate attempts' forced before = .ok first after) (moves replays : Nat)
    (lab : Lab σ α) {d : Descent σ α α}
    (hd : (ofPredicate gen holds).shrink attempts (Shrink.targeted moves) replays lab first =
      (ending, d))
    (hreplays : d.replays < replays) (hending : ending ≠ .exhausted)
    (hends : ∀ fault, ending ≠ .endless fault)
    (hc : Shrink.Nearer d.current.trace c) (hu : gen.Unasked attempts c) {e : Example α}
    {s s' : Xorshift × σ} (he : gen.generate attempts c s = .ok e s') :
    d.current.rejected < e.rejected ∨ holds e.value = .ok true ∨
      ¬ e.trace.simplerThan d.current.trace := by
  have hcourse := Descent.course_of_run hd
  have hruled := hcourse.keeps (Descent.ruled_keeps hg.plain _)
    (Descent.ruled_start hg.plain hfirst lab)
  have hbroken : ending.brokenOff = false := by
    cases ending with
    | exhausted => exact absurd rfl hending
    | endless fault => exact absurd rfl (hends fault)
    | minimal | trivial | spent | fault => rfl
  rw [hbroken, if_neg Bool.false_ne_true] at hruled
  have hspent : ending ≠ .spent := by
    rintro rfl
    have hr := hcourse.spent_replays (Nat.le_add_right ..)
    omega
  by_cases ht : d.current.trace = []
  · rw [ht]
    exact .inr (.inr (Trace.not_simplerThan_nil _))
  · rcases hcourse.last_pass hspent with hnil | ⟨d₁, hp⟩
    · exact absurd hnil ht
    · obtain ⟨edit, hedit, rfl⟩ := hc.exists_edit ht
      rw [hp.current_eq] at ht hedit hu he ⊢
      rw [Shrink.targeted_of_ne_nil ht] at hp
      have htried := hp.contains_edit hspent hbroken hedit
      have hd := hruled _ htried hu s e s' he
      rwa [hp.current_eq] at hd

/-- Sixteen, after an even parity was drawn. -/
def Gen.drawnSixteen : Example Int :=
  ⟨16, (Source.start (.ofSeed 1) [0, 16] 5).serve [⟨.bit, 0⟩, ⟨.percent, 16⟩] [], 0⟩

def Gen.shrunkSixteen : Ending × Descent Unit Int Int :=
  (Property.ofPredicate ofDrawnParity fun a => .ok (a < 6)).shrink 5 (Shrink.targeted 0) 100
    ⟨.ofSeed 1, (), []⟩ drawnSixteen

/-- Zero was tried against sixteen, so that nothing tried it against eight; yet it is no way on. -/
theorem Gen.shrink_locally_minimal_sixteen :
    shrunkSixteen.1 = .minimal ∧ shrunkSixteen.2.replays < 100 ∧
      shrunkSixteen.2.current.trace.values = [0, 8] ∧
      Journal.replayed shrunkSixteen.2.lab.journal = [[0, 7], [0, 4], [0, 8], [0, 0], [0]] ∧
      ∃ e, ofDrawnParity.generate 5 [0, 0] (.ofSeed 2, ()) = .ok e (.ofSeed 2, ()) ∧
        (shrunkSixteen.2.current.rejected < e.rejected ∨
          (.ok (e.value < 6) : Except Fault Bool) = .ok true ∨
          ¬ e.trace.simplerThan shrunkSixteen.2.current.trace) := by
  have hfirst : ofDrawnParity.generate 5 [0, 16] (.ofSeed 1, ()) =
      .ok drawnSixteen (.ofSeed 1, ()) := rfl
  have hd : (Property.ofPredicate ofDrawnParity fun a => .ok (a < 6)).shrink 5
      (Shrink.targeted 0) 100 ⟨.ofSeed 1, (), []⟩ drawnSixteen =
        (shrunkSixteen.1, shrunkSixteen.2) := by
    change shrunkSixteen = _
    exact Prod.mk.eta.symm
  have hminimal : shrunkSixteen.1 = .minimal := by decide +kernel
  have hreplays : shrunkSixteen.2.replays < 100 := by decide +kernel
  have ht : shrunkSixteen.2.current.trace = [⟨.bit, 0⟩, ⟨.percent, 8⟩] := by decide +kernel
  have hending : shrunkSixteen.1 ≠ .exhausted := by
    rw [hminimal]
    nofun
  have hends : ∀ fault, shrunkSixteen.1 ≠ .endless fault := by
    rw [hminimal]
    nofun
  have hc : Shrink.Nearer shrunkSixteen.2.current.trace [0, 0] := by
    rw [ht]
    exact .target (i := 1) (d := ⟨.percent, 8⟩) rfl rfl (by decide)
  have hu : ofDrawnParity.Unasked 5 [0, 0] := fun _ _ => rfl
  have he : ofDrawnParity.generate 5 [0, 0] (.ofSeed 2, ()) = .ok _ (.ofSeed 2, ()) := rfl
  refine ⟨hminimal, hreplays, by rw [ht]; rfl, by decide +kernel, _, he, ?_⟩
  exact Property.shrink_locally_minimal composed_ofDrawnParity (fun a => .ok (a < 6)) hfirst 0 100
    ⟨.ofSeed 1, (), []⟩ hd hreplays hending hends hc hu he

end Refute

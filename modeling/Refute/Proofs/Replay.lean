import Refute.Proofs.Composed
import Refute.Proofs.Draws
import Refute.Property

namespace Refute

/-- The source once `ds` was recorded from forced values, with `rest` still to be served. -/
def Source.serve (s : Source) (ds : Trace) (rest : List Int) : Source :=
  { s with forced := rest, recorded := ds.reverse ++ s.recorded }

@[simp] theorem Source.trace_serve (s : Source) (ds : Trace) (rest : List Int) :
    (s.serve ds rest).trace = s.trace ++ ds := by
  simp [Source.serve, Source.trace]

/-- Nothing but the count of a rejection tells whether it ends the generation. -/
theorem Source.reject_eq (s : Source) : reject s =
    if s.attempts ≤ s.rejected + 1 then
      .error (.exhausted (s.rejected + 1)) { s with rejected := s.rejected + 1 }
    else .ok () { s with rejected := s.rejected + 1 } := by
  unfold reject
  dsimp only
  congr 1
  simp only [eq_iff_iff]
  omega

def Scene.serve (s : Scene σ) (ds : Trace) (rest : List Int) : Scene σ :=
  { s with source := s.source.serve ds rest }

theorem Scene.serve_nil {s : Scene σ} (h : s.source.forced = rest) : s.serve [] rest = s := by
  subst h
  rfl

theorem Scene.serve_serve (s : Scene σ) (ds es : Trace) (forced rest : List Int) :
    (s.serve ds forced).serve es rest = s.serve (ds ++ es) rest := by
  simp [Scene.serve, Source.serve]

namespace Sampler

/-- A run from `s` to `s'` that gave `a` recorded `ds`, and wherever these values come first among
those forced, they are all that the body needs to give `a` again. -/
structure Replays (body : Sampler σ α) (s : Scene σ) (a : α) (s' : Scene σ) (ds : Trace) :
    Prop where
  world : s'.world = s.world
  trace : s'.source.trace = s.source.trace ++ ds
  again : ∀ (u : Scene σ) (rest : List Int), u.source.forced = ds.values ++ rest →
    body u = .ok a (u.serve ds rest)

theorem replays_ofExcept {e : Except Fault α} {s s' : Scene σ}
    (h : Act.ofExcept e s = .ok a s') : Replays (Act.ofExcept e) s a s' [] := by
  obtain ⟨rfl, rfl⟩ := Act.ofExcept_eq_ok.mp h
  refine ⟨rfl, (List.append_nil _).symm, ?_⟩
  intro u rest hu
  have hs : u.serve [] rest = u := Scene.serve_nil hu
  rw [hs]
  rfl

theorem replays_draw {s s' : Scene σ} (h : draw b s = .ok v s') :
    Replays (draw b) s v s' [⟨b, v⟩] := by
  obtain ⟨hn, hw⟩ := onSource_ok h
  obtain ⟨hv, random, forced, hs⟩ := Source.next_ok hn
  refine ⟨hw, ?_, ?_⟩
  · rw [hs, Source.trace_record]
    rfl
  · intro u rest hu
    exact onSource_of_ok (Source.next_of_forced hu hv)

theorem Replays.bind {body : Sampler σ α} {next : α → Sampler σ β}
    (h : Replays body s a s' ds) (h' : Replays (next a) s' b s'' es) :
    Replays (body >>= next) s b s'' (ds ++ es) := by
  refine ⟨h'.world.trans h.world, ?_, ?_⟩
  · rw [h'.trace, h.trace, List.append_assoc]
  · intro u rest hu
    have hds : u.source.forced = ds.values ++ (es.values ++ rest) := by simpa using hu
    rw [Act.bind_ok (h.again u _ hds), h'.again _ rest rfl, Scene.serve_serve]

/-- Rolling back to a place that the trace has grown from leads back to it. -/
theorem rollback_grown {s s' : Scene σ} (h : s'.source.trace = s.source.trace ++ ds) :
    ∃ t, rollback s.source.recorded.length s' = .ok () t ∧ t.source.trace = s.source.trace ∧
      t.world = s'.world := by
  have hlen : s.source.recorded.length ≤ s'.source.trace.length := by
    rw [h, List.length_append, Source.length_trace]
    omega
  obtain ⟨source, hback, htrace, -⟩ := Source.rollback_of_le hlen
  refine ⟨_, onSource_of_ok hback, ?_, rfl⟩
  rw [htrace, h, ← Source.length_trace, List.take_left]

/-- Rolling back to where a run began takes away all that the run recorded. -/
theorem rollback_replayed {s s' t : Scene σ} (h : Replays body s a s' ds)
    (hr : rollback s.source.recorded.length s' = .ok () t) :
    t.source.trace = s.source.trace ∧ t.world = s.world := by
  obtain ⟨u, hu, htrace, hworld⟩ := rollback_grown h.trace
  rw [hr] at hu
  cases hu
  exact ⟨htrace, hworld.trans h.world⟩

theorem reject_eq (s : Scene σ) : reject s =
    if s.source.attempts ≤ s.source.rejected + 1 then
      .error (.exhausted (s.source.rejected + 1))
        { s with source.rejected := s.source.rejected + 1 }
    else .ok () { s with source.rejected := s.source.rejected + 1 } := by
  by_cases hle : s.source.attempts ≤ s.source.rejected + 1
  · rw [if_pos hle]
    exact onSource_of_error ((Source.reject_eq s.source).trans (if_pos hle))
  · rw [if_neg hle]
    exact onSource_of_ok ((Source.reject_eq s.source).trans (if_neg hle))

theorem reject_eq_ok {s t : Scene σ} (h : reject s = .ok () t) :
    s.source.rejected + 1 < s.source.attempts ∧
      t = { s with source.rejected := s.source.rejected + 1 } := by
  rw [reject_eq] at h
  split at h
  · cases h
  · rename_i hlt
    cases h
    exact ⟨Int.not_le.mp hlt, rfl⟩

theorem reject_eq_error {s t : Scene σ} (h : reject s = .error fault t) :
    s.source.attempts ≤ s.source.rejected + 1 ∧ fault = .exhausted (s.source.rejected + 1) ∧
      t = { s with source.rejected := s.source.rejected + 1 } := by
  rw [reject_eq] at h
  split at h
  · rename_i hle
    cases h
    exact ⟨hle, rfl, rfl⟩
  · cases h

theorem reject_ok {s t : Scene σ} (h : reject s = .ok () t) :
    t.source.trace = s.source.trace ∧ t.world = s.world := by
  obtain ⟨-, rfl⟩ := reject_eq_ok h
  exact ⟨rfl, rfl⟩

/-- A filter that comes to a value ends with a run of its body that it accepts, from a scene which
the rejected runs left as it was but for the source's counters. -/
theorem retry_ok {body : Sampler σ α}
    (hb : ∀ s a s', body s = .ok a s' → ∃ ds, Replays body s a s' ds)
    (h : retry body accept fuel s = .ok a s') :
    ∃ t, t.source.trace = s.source.trace ∧ t.world = s.world ∧ accept a = .ok true ∧
      body t = .ok a s' := by
  induction fuel generalizing s with
  | zero => cases h
  | succ fuel ih =>
    obtain ⟨mark, s₀, hm, h⟩ := Act.bind_eq_ok.mp h
    cases hm
    obtain ⟨b, s₁, hs₁, h⟩ := Act.bind_eq_ok.mp h
    obtain ⟨c, s₂, hc, h⟩ := Act.bind_eq_ok.mp h
    obtain ⟨ha, rfl⟩ := Act.ofExcept_eq_ok.mp hc
    cases c with
    | true =>
      cases h
      exact ⟨s, rfl, rfl, ha, hs₁⟩
    | false =>
      obtain ⟨_, s₃, hs₃, h⟩ := Act.bind_eq_ok.mp h
      obtain ⟨_, s₄, hs₄, h⟩ := Act.bind_eq_ok.mp h
      obtain ⟨ds, hds⟩ := hb s b s₁ hs₁
      obtain ⟨htrace, hworld⟩ := rollback_replayed hds hs₃
      obtain ⟨htrace', hworld'⟩ := reject_ok hs₄
      obtain ⟨t, ht, hw, ha, hlast⟩ := ih h
      exact ⟨t, ht.trans (htrace'.trans htrace), hw.trans (hworld'.trans hworld), ha, hlast⟩

theorem retry_accepted {body : Sampler σ α} (hb : body s = .ok a s')
    (ha : accept a = .ok true) (fuel : Nat) :
    retry body accept (fuel + 1) s = .ok a s' := by
  have hm : mark s = .ok s.source.recorded.length s := rfl
  have hc : (Act.ofExcept (accept a) : Sampler σ Bool) s' = .ok true s' := by
    rw [ha]
    rfl
  exact (Act.bind_ok hm).trans ((Act.bind_ok hb).trans (Act.bind_ok hc))

theorem replays_assuming {body : Sampler σ α}
    (hb : ∀ s a s', body s = .ok a s' → ∃ ds, Replays body s a s' ds)
    (h : body.assuming accept s = .ok a s') :
    ∃ ds, Replays (body.assuming accept) s a s' ds := by
  obtain ⟨t, ht, hw, ha, hlast⟩ := retry_ok hb h
  obtain ⟨ds, hds⟩ := hb t a s' hlast
  refine ⟨ds, hds.world.trans hw, by rw [hds.trace, ht], ?_⟩
  intro u rest hu
  exact retry_accepted (hds.again u rest hu) ha u.source.patience

/-- The induction over what a sampler is made of. -/
theorem Plain.replays {body : Sampler σ α} (h : body.Plain) (hr : body s = .ok a s') :
    ∃ ds, Replays body s a s' ds := by
  induction h generalizing s s' with
  | ofExcept e => exact ⟨[], replays_ofExcept hr⟩
  | draw b => exact ⟨[⟨b, a⟩], replays_draw hr⟩
  | bind _ _ ih ih' =>
    obtain ⟨b, t, hb, hn⟩ := Act.bind_eq_ok.mp hr
    obtain ⟨ds, hds⟩ := ih hb
    obtain ⟨es, hes⟩ := ih' b hn
    exact ⟨ds ++ es, hds.bind hes⟩
  | assuming accept _ ih => exact replays_assuming (fun _ _ _ => ih) hr

end Sampler

namespace Gen

/-- The whole outcome of a replay: the source served exactly the draws of the first run. -/
theorem generate_again {g : Gen σ α} (hg : g.sample.Plain) {e : Example α}
    {before after : Xorshift × σ} (h : g.generate attempts forced before = .ok e after)
    (suffix : List Int) (attempts' : Int) (s : Xorshift × σ) :
    g.generate attempts' (e.trace.values ++ suffix) s =
      .ok ⟨e.value, (Source.start s.1 (e.trace.values ++ suffix) attempts').serve e.trace suffix, 0⟩
        s := by
  unfold generate at h
  split at h
  · rename_i a scene hs
    cases h
    obtain ⟨ds, hds⟩ := hg.replays hs
    have ht : scene.source.trace = ds := by simpa using hds.trace
    have ha := hds.again ⟨Source.start s.1 (ds.values ++ suffix) attempts', s.2⟩ suffix rfl
    simp only [Example.trace, ht, generate, ha]
    rfl
  · cases h

/-- Forcing what a composed generator once recorded gives the same value from the same draws, with
nothing rejected, and asks neither the generator nor the attempts for anything. -/
theorem generate_replay {g : Gen σ α} (hg : g.Composed) {e : Example α}
    {before after : Xorshift × σ} (h : g.generate attempts forced before = .ok e after)
    (suffix : List Int) (attempts' : Int) (s : Xorshift × σ) :
    ∃ e', g.generate attempts' (e.trace.values ++ suffix) s = .ok e' s ∧
      e'.value = e.value ∧ e'.trace = e.trace ∧ e'.rejected = 0 := by
  refine ⟨_, generate_again hg.plain h suffix attempts' s, rfl, ?_, rfl⟩
  simp [Example.trace]

/-- A number of the parity that was drawn before it. -/
def ofDrawnParity : Gen Unit Int :=
  (draw .bit).flatMap fun n => (draw .percent).assuming fun a => .ok (a % 2 = n)

theorem composed_ofDrawnParity : ofDrawnParity.Composed :=
  .flatMap (.draw .bit) fun _ => .assuming _ (.draw .percent)

/-- The replay neither sees the rejected draw of the first run nor needs an attempt. -/
theorem generate_replay_rejected :
    ∃ e after e', ofDrawnParity.generate 5 [1, 4, 3] (.ofSeed 1, ()) = .ok e after ∧
      e.trace.values = [1, 3] ∧ e.rejected = 1 ∧
      ofDrawnParity.generate 0 ([1, 3] ++ [7]) (.ofSeed 2, ()) = .ok e' (.ofSeed 2, ()) ∧
      e'.value = 3 ∧ e'.trace.values = [1, 3] ∧ e'.rejected = 0 := by
  have h : ofDrawnParity.generate 5 [1, 4, 3] (.ofSeed 1, ()) = .ok _ _ := rfl
  obtain ⟨e', he, hv, ht, hr⟩ := generate_replay composed_ofDrawnParity h [7] 0 (.ofSeed 2, ())
  exact ⟨_, _, e', h, rfl, rfl, he, hv, by rw [ht]; rfl, hr⟩

end Gen

end Refute

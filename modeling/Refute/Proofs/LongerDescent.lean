import Refute.Proofs.Descent
import Refute.Proofs.Outlasting

namespace Refute

/-- What a larger budget might have put off. -/
inductive Ending.Cut : Ending → Prop where
  | spent : Cut .spent
  | exhausted : Cut .exhausted

namespace Descent

open Act

/-- Alike but for the current examples, which `V` relates. -/
def Alike (V : Example α → Example α → Prop) (d d' : Descent σ α β) : Prop :=
  ∃ current, V d.current current ∧ d' = { d with current }

/-- Results of one kind, with descents that are alike, unless the first result is cut short. -/
def Abreast (cut : γ → Prop) (V : Example α → Example α → Prop) (r r' : γ × Descent σ α β) :
    Prop :=
  cut r.1 ∨ r.1 = r'.1 ∧ Alike V r.2 r'.2

variable {p : Property σ α β} {attempts more : Int} {V : Example α → Example α → Prop}
  {d d' : Descent σ α β}

theorem Alike.found (h : Alike V d d') : d'.found = d.found := by
  obtain ⟨_, -, rfl⟩ := h
  rfl

theorem Alike.replays (h : Alike V d d') : d'.replays = d.replays := by
  obtain ⟨_, -, rfl⟩ := h
  rfl

theorem Alike.trace (h : Alike V d d') (hp : p.Outlives attempts more V) :
    d'.current.trace = d.current.trace := by
  obtain ⟨_, hv, rfl⟩ := h
  exact (hp.like hv).trace.symm

/-- What was found stays found, behind what is found later. -/
theorem keeps_found (base : List β) :
    Keeps p attempts propose (fun d => base <:+ d.found) fun d => base <:+ d.found where
  reseed _ h := h
  replay := by
    intro d d' c asked reply h _ _ ho
    have hfound : base <:+ d'.found := by
      cases ho with
      | accepted => exact h.trans (List.suffix_cons _ _)
      | failed | exhausted | endless | rejected | untested | unfinished | holds | notSimpler =>
        exact h
    split
    · exact hfound
    · exact hfound

theorem found_suffix_run (p : Property σ α β) (attempts : Int) (propose : Trace → Proposals)
    (budget : Budget) (n : Nat) (d : Descent σ α β) :
    d.found <:+ (run p attempts propose budget n d).2.found := by
  have h := (run_course p attempts propose budget n d).keeps (keeps_found d.found)
    (List.suffix_refl _)
  split at h
  · exact h
  · exact h

/-- A cycle that accepts no candidate finds nothing. -/
theorem Pass.found_eq (h : Pass p attempts budget ps d (some ending) d') : d'.found = d.found := by
  generalize hr : some ending = result at h
  induction h with
  | done | unmade | spent => rfl
  | accepted => cases hr
  | tried _ _ _ _ ih => exact ih hr
  | discarded _ _ _ ho _ ih => exact (ih hr).trans (ho.found_eq nofun).2.1
  | exhausted _ _ _ _ ho | endless _ _ _ _ ho => exact (ho.found_eq nofun).2.1

theorem judge_abreast (hp : p.Outlives attempts more V) (h : Alike V d d') (verdict : Verdict)
    (he : V e e') : Abreast (· = .exhausted) V (judge p d verdict e) (judge p d' verdict e') := by
  obtain ⟨current, hv, rfl⟩ := h
  cases verdict with
  | holds => exact .inr ⟨rfl, current, hv, rfl⟩
  | fails cause =>
    unfold judge
    dsimp only
    rw [(hp.like he).trace, (hp.like hv).trace, (hp.like he).value]
    split
    · exact .inr ⟨rfl, e', he, rfl⟩
    · exact .inr ⟨rfl, current, hv, rfl⟩

theorem replay_abreast (hp : p.Outlives attempts more V) (h : Alike V d d') (c : List Int) :
    Abreast (· = .exhausted) V (replay p attempts c d) (replay p more c d') := by
  obtain ⟨current, hv, rfl⟩ := h
  have hg := hp.generate c d.lab d.lab rfl
  unfold replay
  dsimp only
  generalize p.generate attempts c d.lab = r at hg
  generalize p.generate more c d.lab = r' at hg
  cases hg with
  | gaveOut hx =>
    left
    dsimp only
    rw [Reply.ofFault_exhausted hx]
  | alike hg =>
    cases hg with
    | error fault hl =>
      cases hl
      exact .inr ⟨rfl, current, hv, rfl⟩
    | @ok e e' lab _ he hl =>
      cases hl
      dsimp only
      rw [(hp.like hv).rejected, (hp.like he).rejected]
      split
      · exact .inr ⟨rfl, current, hv, rfl⟩
      · have hx := hp.examine he lab lab rfl
        generalize p.examine e lab = x at hx
        generalize p.examine e' lab = x' at hx
        cases hx with
        | error fault hl =>
          cases hl
          exact .inr ⟨rfl, current, hv, rfl⟩
        | @ok x x' lab _ hx hl =>
          obtain ⟨verdict, f⟩ := x
          obtain ⟨_, f'⟩ := x'
          obtain ⟨rfl, hf⟩ := hx
          cases hl
          refine judge_abreast hp ?_ verdict hf
          exact ⟨current, hv, rfl⟩

/-- The induction over the candidates of a cycle. -/
theorem cycle_abreast (hp : p.Outlives attempts more V) (hle : limit ≤ wider) (ps : Proposals)
    (h : Alike V d d') :
    Abreast (fun result => ∃ ending, result = some ending ∧ ending.Cut) V
      (cycle p attempts (some limit) ps d) (cycle p more (some wider) ps d') := by
  induction ps generalizing d d' with
  | done => exact .inr ⟨rfl, h⟩
  | next propose rest ih =>
    obtain ⟨current, hv, rfl⟩ := h
    unfold cycle
    dsimp only
    split
    · exact .inr ⟨rfl, current, hv, rfl⟩
    · rename_i c random _
      by_cases hs : limit ≤ d.replays
      · left
        simp only [Budget.spent, decide_eq_true hs, if_true]
        exact ⟨.spent, rfl, .spent⟩
      · have hs' : ¬ wider ≤ d.replays := fun hw => hs (Nat.le_trans hle hw)
        simp only [Budget.spent, decide_eq_false hs, decide_eq_false hs', Bool.false_eq_true,
          if_false]
        split
        · exact ih _ ⟨current, hv, rfl⟩
        · have hr := replay_abreast hp (d := d.reseed random) ⟨current, hv, rfl⟩ c
          dsimp only [reseed] at hr
          generalize replay p attempts c _ = x at hr ⊢
          generalize replay p more c _ = x' at hr ⊢
          obtain ⟨reply, left⟩ := x
          obtain ⟨_, left'⟩ := x'
          rcases hr with hr | ⟨hr, hleft⟩
          · cases hr
            exact .inl ⟨.exhausted, rfl, .exhausted⟩
          · cases hr
            cases reply with
            | accepted => exact .inr ⟨rfl, hleft⟩
            | discarded => exact ih _ hleft
            | exhausted => exact .inr ⟨rfl, hleft⟩
            | endless => exact .inr ⟨rfl, hleft⟩

theorem run_of_last (hs : Budget.spent budget d.replays = false) (ht : d.current.trace ≠ [])
    (hc : cycle p attempts budget (propose d.current.trace) d = (some ending, d₁)) (n : Nat) :
    run p attempts propose budget (n + 1) d = (ending, d₁) := by
  simp [run, hs, List.isEmpty_iff, ht, hc]

theorem run_of_accepted (hs : Budget.spent budget d.replays = false) (ht : d.current.trace ≠ [])
    (hc : cycle p attempts budget (propose d.current.trace) d = (none, d₁)) (n : Nat) :
    run p attempts propose budget (n + 1) d = run p attempts propose budget n d₁ := by
  simp [run, hs, List.isEmpty_iff, ht, hc]

/-- With a cycle for each replay, neither descent stops for want of cycles. The induction is over
the cycles of the first. -/
theorem run_abreast (hp : p.Outlives attempts more V) (hle : limit ≤ wider)
    (propose : Trace → Proposals) (h : Alike V d d') (hn : limit ≤ n + d.replays)
    (hn' : wider ≤ n' + d'.replays) :
    Abreast Ending.Cut V (run p attempts propose (some limit) n d)
        (run p more propose (some wider) n' d') ∧
      (run p attempts propose (some limit) n d).2.found <:+
        (run p more propose (some wider) n' d').2.found := by
  have hfound : d.found <:+ (run p more propose (some wider) n' d').2.found :=
    h.found ▸ found_suffix_run p more propose (some wider) n' d'
  induction n generalizing n' d d' with
  | zero => exact ⟨.inl .spent, hfound⟩
  | succ n ih =>
    have hreplays := h.replays
    have htrace := h.trace hp
    by_cases hs : limit ≤ d.replays
    · rw [run, Budget.spent, decide_eq_true hs, if_pos rfl]
      exact ⟨.inl .spent, hfound⟩
    have hleft : Budget.spent (some limit) d.replays = false := decide_eq_false hs
    have hleft' : Budget.spent (some wider) d'.replays = false := decide_eq_false (by omega)
    obtain ⟨m, rfl⟩ : ∃ m, n' = m + 1 := ⟨n' - 1, by omega⟩
    by_cases ht : d.current.trace = []
    · rw [run, run, hleft, hleft', htrace, ht]
      exact ⟨.inr ⟨rfl, h⟩, h.found ▸ List.suffix_refl _⟩
    have hc := cycle_abreast hp hle (propose d.current.trace) h
    have hpass := cycle_pass p attempts (some limit) (propose d.current.trace) d
    generalize hfirst : cycle p attempts (some limit) (propose d.current.trace) d = x at hc hpass
    obtain ⟨result, e⟩ := x
    rcases hc with ⟨ending, hresult, hcut⟩ | ⟨hresult, halike⟩
    · cases hresult
      rw [run_of_last hleft ht hfirst]
      exact ⟨.inl hcut, hpass.found_eq ▸ hfound⟩
    · have ht' : d'.current.trace ≠ [] := by rwa [htrace]
      generalize hsecond : cycle p more (some wider) (propose d.current.trace) d' = x'
        at hresult halike
      obtain ⟨_, e'⟩ := x'
      cases hresult
      rw [← htrace] at hsecond
      cases result with
      | some ending =>
        rw [run_of_last hleft ht hfirst, run_of_last hleft' ht' hsecond]
        exact ⟨.inr ⟨rfl, halike⟩, halike.found ▸ List.suffix_refl _⟩
      | none =>
        rw [run_of_accepted hleft ht hfirst, run_of_accepted hleft' ht' hsecond]
        have hlt : d.replays < e.replays := hpass.replays_lt
        have hreplays' : e'.replays = e.replays := halike.replays
        exact ih halike (by omega) (by omega) (halike.found ▸ found_suffix_run ..)

end Descent

/-- Shrinking with more replays and attempts goes on from what shrinking with fewer has found. -/
theorem Property.shrink_abreast {p : Property σ α β} (hp : p.Outlives attempts more V)
    (hle : replays ≤ wider) (propose : Trace → Proposals) (lab : Lab σ β) (h : V e e') :
    Descent.Abreast Ending.Cut V (p.shrink attempts propose replays lab e)
        (p.shrink more propose wider lab e') ∧
      (p.shrink attempts propose replays lab e).2.found <:+
        (p.shrink more propose wider lab e').2.found := by
  refine Descent.run_abreast hp hle propose ⟨e', h, ?_⟩ (Nat.le_add_right _ _)
    (Nat.le_add_right _ _)
  rw [Descent.start, Descent.start, (hp.like h).trace]

end Refute

import Refute.Proofs.Descent
import Refute.Proofs.Simpler

namespace Refute

/-- One candidate on its way to become the current example: the lab when it was replayed, what the
replay made of it, the lab then, and what the property left of both. -/
structure Acceptance (σ α β : Type) where
  candidate : List Int
  before : Lab σ β
  made : Example α
  between : Lab σ β
  kept : Example α
  after : Lab σ β
  cause : Option Fault

namespace Acceptance

variable (p : Property σ α β) (attempts : Int) (propose : Trace → Proposals)
  (lab : Lab σ β) (first : Example α)

/-- The newest example, and the lab it was left in; acceptances are listed newest first. -/
def latest : List (Acceptance σ α β) → Example α × Lab σ β
  | [] => (first, lab)
  | a :: _ => (a.kept, a.after)

/-- What holds of a candidate that took the place of `prev`, which had been left in the lab
`since`. -/
structure Sound (prev : Example α) (since : Lab σ β) (a : Acceptance σ α β) : Prop where
  proposed : ∃ asked, (propose prev.trace).Offers asked a.candidate a.before.random
  since : since.journal <:+ a.before.journal
  /-- No replay since shrinking began was forced by the same values. -/
  fresh : ∃ news, a.before.journal = news ++ lab.journal ∧ a.candidate ∉ Journal.replayed news
  differs : a.candidate ≠ first.trace.values
  replayed : p.generate attempts a.candidate a.before = .ok a.made a.between
  falsified : p.examine a.made a.between = .ok (.fails a.cause, a.kept) a.after
  rejected : a.kept.rejected ≤ prev.rejected
  simpler : a.kept.trace.simplerThan prev.trace

inductive Chain : List (Acceptance σ α β) → Prop where
  | start : Chain []
  | accept {as : List (Acceptance σ α β)} {a : Acceptance σ α β} : Chain as →
      Sound p attempts propose lab first (latest lab first as).1 (latest lab first as).2 a →
      Chain (a :: as)

/-- A descent from `first` that accepted `as` and nothing else. -/
structure Chained (as : List (Acceptance σ α β)) (d : Descent σ α β) : Prop where
  chain : Chain p attempts propose lab first as
  found : d.found = as.map fun a => p.outcome a.kept.value a.after.world
  current : d.current = (latest lab first as).1
  cause : d.cause = as.head?.bind Acceptance.cause
  since : (latest lab first as).2.journal <:+ d.lab.journal
  /-- Tried is what was replayed, and the trace that shrinking began with. -/
  tried : ∃ news, d.lab.journal = news ++ lab.journal ∧
    ∀ c, d.tried.contains c = true ↔ c = first.trace.values ∨ c ∈ Journal.replayed news

variable {p attempts propose lab first}

theorem chained_start :
    Chained p attempts propose lab first [] (Descent.start lab first) := by
  refine ⟨.start, rfl, rfl, rfl, List.suffix_rfl, [], rfl, ?_⟩
  intro c
  have hc : (Descent.start lab first).tried.contains c = [first.trace.values].contains c :=
    Std.TreeSet.contains_ofList
  rw [hc, List.contains_iff_mem, List.mem_singleton]
  exact (or_iff_left List.not_mem_nil).symm

/-- After a replay, tried is what was tried before and the candidate. -/
theorem Chained.tried_insert {as : List (Acceptance σ α β)} {d d' : Descent σ α β}
    (h : Chained p attempts propose lab first as d)
    (hr : Descent.Outcome p attempts c d reply d') :
    ∃ news, d'.lab.journal = news ++ lab.journal ∧ ∀ c, d'.tried.contains c = true ↔
      c = first.trace.values ∨ c ∈ Journal.replayed news := by
  obtain ⟨news, hj, ht⟩ := h.tried
  obtain ⟨new, hj', hn, -⟩ := hr.journal
  refine ⟨new ++ news, by rw [hj', hj, List.append_assoc], ?_⟩
  intro c'
  have hc : c' ∈ Journal.replayed (new ++ news) ↔ c' = c ∨ c' ∈ Journal.replayed news := by
    have ha : Journal.replayed (new ++ news) = Journal.replayed new ++ Journal.replayed news :=
      List.filterMap_append
    rw [ha, hn, List.mem_append, List.mem_singleton]
  rw [hr.tried_eq, Descent.contains_insert, ht, hc]
  exact or_left_comm

theorem Chained.unaccepted {as : List (Acceptance σ α β)} {d d' : Descent σ α β}
    (h : Chained p attempts propose lab first as d)
    (hr : Descent.Outcome p attempts c d reply d') (ha : reply ≠ .accepted) :
    Chained p attempts propose lab first as d' := by
  obtain ⟨hcurrent, hfound, hcause⟩ := hr.found_eq ha
  obtain ⟨new, hj, -⟩ := hr.journal
  have hs : d.lab.journal <:+ d'.lab.journal := ⟨new, hj.symm⟩
  exact ⟨h.chain, hfound.trans h.found, hcurrent.trans h.current, hcause.trans h.cause,
    h.since.trans hs, h.tried_insert hr⟩

theorem Chained.accepted {as : List (Acceptance σ α β)} {d d' : Descent σ α β}
    (h : Chained p attempts propose lab first as d) (hc : d.tried.contains c = false)
    (ho : (propose d.current.trace).Offers asked c d.lab.random)
    (hr : Descent.Outcome p attempts c d .accepted d') :
    ∃ a, Chained p attempts propose lab first (a :: as) d' := by
  have htried := h.tried_insert hr
  cases hr with
  | @accepted e lab₁ raised e' lab₂ hg hle ht hs =>
    obtain ⟨news, hj, hn⟩ := h.tried
    have hne : ¬ (c = first.trace.values ∨ c ∈ Journal.replayed news) := by
      rw [← hn, hc]
      exact Bool.false_ne_true
    obtain ⟨hdiffers, hfresh⟩ := not_or.mp hne
    obtain ⟨-, -, hrejected⟩ := Property.examine_ok ht
    refine ⟨⟨c, d.lab, e, lab₁, e', lab₂, raised⟩, .accept h.chain ?_, ?_, rfl, rfl,
      List.suffix_rfl, htried⟩
    · rw [h.current] at ho hle hs
      exact ⟨⟨asked, ho⟩, h.since, ⟨news, hj, hfresh⟩, hdiffers, hg, ht, hrejected ▸ hle, hs⟩
    · exact congrArg (p.outcome e'.value lab₂.world :: ·) h.found

theorem chained_keeps : Descent.Keeps p attempts propose
    (fun d => ∃ as, Chained p attempts propose lab first as d)
    (fun d => ∃ as, Chained p attempts propose lab first as d) where
  reseed := fun random ⟨as, h⟩ => ⟨as, h.chain, h.found, h.current, h.cause, h.since, h.tried⟩
  replay := by
    rintro d d' c asked reply ⟨as, h⟩ hc ho hr
    rw [ite_self]
    by_cases ha : reply = .accepted
    · subst ha
      obtain ⟨a, has⟩ := h.accepted hc ho hr
      exact ⟨a :: as, has⟩
    · exact ⟨as, h.unaccepted hr ha⟩

/-- Whatever property is shrunk, and however shrinking ends. -/
theorem exists_chained (p : Property σ α β) (attempts : Int) (propose : Trace → Proposals)
    (replays : Nat) (lab : Lab σ β) (first : Example α) :
    ∃ as, Chained p attempts propose lab first as
      (p.shrink attempts propose replays lab first).2 := by
  have hc := Descent.run_course p attempts propose (some replays) replays (.start lab first)
  have hs : ∃ as, Chained p attempts propose lab first as (.start lab first) := ⟨[], chained_start⟩
  have hk := hc.keeps chained_keeps hs
  rwa [ite_self] at hk

/-- What holds between an accepted example and the one that it replaced holds between it and all
examples before. -/
theorem Chain.pairwise_of {R : Example α → Example α → Prop}
    (trans : ∀ {e e' e''}, R e e' → R e' e'' → R e e'')
    (replaced : ∀ {prev since a}, Sound p attempts propose lab first prev since a → R a.kept prev)
    {as : List (Acceptance σ α β)} (h : Chain p attempts propose lab first as) :
    (as.map kept ++ [first]).Pairwise R := by
  induction h with
  | start => exact List.pairwise_singleton _ _
  | @accept as a _ ha ih =>
    refine List.pairwise_cons.mpr ⟨fun e he => ?_, ih⟩
    cases as with
    | nil =>
      obtain rfl := List.mem_singleton.mp he
      exact replaced ha
    | cons b as =>
      rcases List.mem_cons.mp he with rfl | he
      · exact replaced ha
      · exact trans (replaced ha) ((List.pairwise_cons.mp ih).1 e he)

/-- Each accepted trace is simpler than all traces before it, not only than the last. -/
theorem Chain.pairwise {as : List (Acceptance σ α β)} (h : Chain p attempts propose lab first as) :
    (as.map kept ++ [first]).Pairwise fun e e' => e.trace.simplerThan e'.trace :=
  h.pairwise_of (R := fun e e' => e.trace.simplerThan e'.trace) Trace.simplerThan_trans
    Sound.simpler

theorem Chain.sound {as : List (Acceptance σ α β)} (h : Chain p attempts propose lab first as)
    (ha : a ∈ as) : ∃ prev since, Sound p attempts propose lab first prev since a := by
  induction h with
  | start => cases ha
  | accept _ hs ih =>
    rcases List.mem_cons.mp ha with rfl | ha
    · exact ⟨_, _, hs⟩
    · exact ih ha

end Acceptance

/-- Shrinking a predicate of values finds a chain of examples from the first to the last, each a
replay of a new candidate for the one before it, simpler, with no more rejections, and false; the
cause kept is that of the last. So it is whether shrinking ends by itself, is cut short by its
budget, or runs out of attempts. -/
theorem Property.shrink_chain (gen : Gen σ α) (holds : α → Except Fault Bool) (attempts : Int)
    (propose : Trace → Proposals) (replays : Nat) (lab : Lab σ α) (first : Example α) :
    ∃ as : List (Acceptance σ α α),
      Acceptance.Chained (ofPredicate gen holds) attempts propose lab first as
        ((ofPredicate gen holds).shrink attempts propose replays lab first).2 ∧
      (∀ a ∈ as, a.kept.value = a.made.value ∧ a.kept.trace = a.made.trace ∧
        Falsifies holds a.kept.value a.cause) ∧
      (as.map Acceptance.kept ++ [first]).Pairwise fun e e' => e.trace.simplerThan e'.trace := by
  obtain ⟨as, h⟩ :=
    Acceptance.exists_chained (ofPredicate gen holds) attempts propose replays lab first
  refine ⟨as, h, fun a ha => ?_, h.chain.pairwise⟩
  obtain ⟨_, _, hs⟩ := h.chain.sound ha
  obtain ⟨-, hvalue, -⟩ := examine_ok hs.falsified
  obtain ⟨htrace, hfalsifies⟩ := examine_ofPredicate hs.falsified
  rw [hvalue]
  exact ⟨rfl, htrace, hfalsifies⟩

end Refute

import Mathlib.Data.List.Shortlex
import Refute.Trace.Basic

namespace Refute.Trace

theorem simplerThan_iff_shortlex {t u : Trace} :
    t.simplerThan u ↔ List.Shortlex (· < ·) t.distances u.distances := by
  simp [simplerThan, List.shortlex_def]

theorem simplerThan_irrefl (t : Trace) : ¬ t.simplerThan t := by
  simp [simplerThan]

theorem simplerThan_trans {t u v : Trace} (h : t.simplerThan u) (h' : u.simplerThan v) :
    t.simplerThan v := by
  simp only [simplerThan, Bool.or_eq_true, Bool.and_eq_true, decide_eq_true_eq] at h h' ⊢
  rcases h with h | ⟨hl, hd⟩
  · left
    rcases h' with h' | ⟨hl', -⟩ <;> omega
  · rcases h' with h' | ⟨hl', hd'⟩
    · left
      omega
    · exact .inr ⟨hl.trans hl', List.lt_trans hd hd'⟩

theorem simplerThan_wellFounded : WellFounded fun t u : Trace => t.simplerThan u = true := by
  have h : (fun t u : Trace => t.simplerThan u = true) =
      InvImage (List.Shortlex (· < ·)) distances := by
    funext t u
    exact propext simplerThan_iff_shortlex
  rw [h]
  exact InvImage.wf distances (List.Shortlex.wf Nat.lt_wfRel.wf)

/-- Nothing is simpler than a trace without draws. -/
theorem not_simplerThan_nil (t : Trace) : ¬ t.simplerThan [] := by
  rw [simplerThan_iff_shortlex]
  exact List.not_shortlex_nil_right

end Refute.Trace

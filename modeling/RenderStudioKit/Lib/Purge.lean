import RenderStudioKit.Lib.Runs

/-!
# Purging a run

A machine answers every step with outputs. Steps that change nothing an observer sees, neither in
the state nor in the outputs, can be taken out of any run without the observer noticing.
-/

namespace Runs

variable {σ α ω ν : Type*}

/-- The outputs of a run. -/
def outputs (step : σ → α → σ) (out : σ → α → List ω) : σ → List α → List ω
  | _, [] => []
  | s, a :: run => out s a ++ outputs step out (step s a) run

section

variable {step : σ → α → σ} {out : σ → α → List ω}

@[simp] lemma outputs_nil (s : σ) : outputs step out s [] = [] := rfl

@[simp] lemma outputs_cons (s : σ) (a : α) (run : List α) :
    outputs step out s (a :: run) = out s a ++ outputs step out (step s a) run := rfl

/-- The unwinding rule: if a step that is not relevant shows nothing, and what a relevant step
shows depends on nothing but what was seen before, then a run shows what its relevant steps alone
show. -/
theorem purge (Inv : σ → Prop) (view : σ → ν) {seen : ω → Bool} {relevant : α → Bool}
    (keep : ∀ s a, Inv s → Inv (step s a))
    (silent : ∀ s a, Inv s → relevant a = false →
      view (step s a) = view s ∧ (out s a).filter seen = [])
    (consistent : ∀ s t a, Inv s → Inv t → view s = view t → relevant a = true →
      view (step s a) = view (step t a) ∧ (out s a).filter seen = (out t a).filter seen)
    {s t : σ} (hs : Inv s) (ht : Inv t) (hview : view s = view t) (run : List α) :
    view (final step s run) = view (final step t (run.filter relevant)) ∧
      (outputs step out s run).filter seen =
        (outputs step out t (run.filter relevant)).filter seen := by
  induction run generalizing s t with
  | nil => exact ⟨hview, rfl⟩
  | cons a run ih =>
    rw [outputs_cons, List.filter_append]
    cases ha : relevant a with
    | true =>
      obtain ⟨hnext, hout⟩ := consistent s t a hs ht hview ha
      obtain ⟨hlast, hrest⟩ := ih (keep s a hs) (keep t a ht) hnext
      rw [List.filter_cons_of_pos ha, outputs_cons, List.filter_append]
      exact ⟨hlast, by rw [hout, hrest]⟩
    | false =>
      obtain ⟨hsame, hnone⟩ := silent s a hs ha
      obtain ⟨hlast, hrest⟩ := ih (keep s a hs) ht (hsame.trans hview)
      rw [List.filter_cons_of_neg (by simp [ha]), hnone, List.nil_append]
      exact ⟨hlast, hrest⟩

end

end Runs

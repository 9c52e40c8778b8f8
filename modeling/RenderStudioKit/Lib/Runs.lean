import Mathlib.Order.Basic

/-!
# Runs of a deterministic machine

A machine is a function from a state and an action to the next state; a run is a list of
actions. `AllStates` speaks about every state a run visits, `AllSteps` about every step it
takes, in the state before the step. The rules below reduce statements about whole runs to
statements about one step.
-/

namespace Runs

variable {σ τ α β : Type*}

/-- The last state of a run. -/
def final (step : σ → α → σ) (s : σ) (run : List α) : σ :=
  run.foldl step s

/-- `P` holds in every state the run visits, the first and the last one included. -/
def AllStates (step : σ → α → σ) (P : σ → Prop) : σ → List α → Prop
  | s, [] => P s
  | s, a :: run => P s ∧ AllStates step P (step s a) run

/-- `ok` holds of every step the run takes, in the state before it. -/
def AllSteps (step : σ → α → σ) (ok : σ → α → Prop) : σ → List α → Prop
  | _, [] => True
  | s, a :: run => ok s a ∧ AllSteps step ok (step s a) run

instance AllSteps.decide (step : σ → α → σ) (ok : σ → α → Prop) [∀ s a, Decidable (ok s a)] :
    (s : σ) → (run : List α) → Decidable (AllSteps step ok s run)
  | _, [] => .isTrue trivial
  | s, a :: run =>
    have := AllSteps.decide step ok (step s a) run
    inferInstanceAs (Decidable (ok s a ∧ AllSteps step ok (step s a) run))

instance AllStates.decide (step : σ → α → σ) (P : σ → Prop) [∀ s, Decidable (P s)] :
    (s : σ) → (run : List α) → Decidable (AllStates step P s run)
  | s, [] => inferInstanceAs (Decidable (P s))
  | s, a :: run =>
    have := AllStates.decide step P (step s a) run
    inferInstanceAs (Decidable (P s ∧ AllStates step P (step s a) run))

section

variable {step : σ → α → σ}

@[simp] lemma final_nil (s : σ) : final step s [] = s := rfl

@[simp] lemma final_cons (s : σ) (a : α) (run : List α) :
    final step s (a :: run) = final step (step s a) run := rfl

lemma final_append (s : σ) (run run' : List α) :
    final step s (run ++ run') = final step (final step s run) run' :=
  List.foldl_append

@[simp] lemma allSteps_nil (ok : σ → α → Prop) (s : σ) : AllSteps step ok s [] := trivial

@[simp] lemma allSteps_cons (ok : σ → α → Prop) (s : σ) (a : α) (run : List α) :
    AllSteps step ok s (a :: run) ↔ ok s a ∧ AllSteps step ok (step s a) run := Iff.rfl

@[simp] lemma allStates_nil (P : σ → Prop) (s : σ) : AllStates step P s [] ↔ P s := Iff.rfl

@[simp] lemma allStates_cons (P : σ → Prop) (s : σ) (a : α) (run : List α) :
    AllStates step P s (a :: run) ↔ P s ∧ AllStates step P (step s a) run := Iff.rfl

lemma allSteps_append (ok : σ → α → Prop) (s : σ) (run run' : List α) :
    AllSteps step ok s (run ++ run') ↔
      AllSteps step ok s run ∧ AllSteps step ok (final step s run) run' := by
  induction run generalizing s with
  | nil => simp
  | cons a run ih => simp [ih, and_assoc]

lemma AllStates.mono {P Q : σ → Prop} (h : ∀ s, P s → Q s) {s : σ} {run : List α}
    (hrun : AllStates step P s run) : AllStates step Q s run := by
  induction run generalizing s with
  | nil => exact h s hrun
  | cons a run ih => exact ⟨h s hrun.1, ih hrun.2⟩

lemma AllStates.first {P : σ → Prop} {s : σ} {run : List α} (hrun : AllStates step P s run) :
    P s := by
  cases run with
  | nil => exact hrun
  | cons a run => exact hrun.1

lemma AllStates.last {P : σ → Prop} {s : σ} {run : List α} (hrun : AllStates step P s run) :
    P (final step s run) := by
  induction run generalizing s with
  | nil => exact hrun
  | cons a run ih => exact ih hrun.2

lemma AllStates.take {P : σ → Prop} {s : σ} {run : List α} (hrun : AllStates step P s run)
    (k : Nat) : P (final step s (run.take k)) := by
  induction run generalizing s k with
  | nil => simpa using hrun
  | cons a run ih =>
    cases k with
    | zero => exact hrun.1
    | succ k => exact ih hrun.2 k

lemma AllSteps.get {ok : σ → α → Prop} {s : σ} {run : List α} (hrun : AllSteps step ok s run)
    {k : Nat} {a : α} (hk : run[k]? = some a) : ok (final step s (run.take k)) a := by
  induction run generalizing s k with
  | nil => simp at hk
  | cons b run ih =>
    cases k with
    | zero =>
      obtain rfl := Option.some.inj hk
      exact hrun.1
    | succ k => exact ih hrun.2 hk

lemma final_take_succ (s : σ) {run : List α} {k : Nat} {a : α} (hk : run[k]? = some a) :
    final step s (run.take (k + 1)) = step (final step s (run.take k)) a := by
  rw [List.take_add_one, hk, final_append]
  rfl

lemma AllStates.and {P Q : σ → Prop} {s : σ} {run : List α} (hP : AllStates step P s run)
    (hQ : AllStates step Q s run) : AllStates step (fun s => P s ∧ Q s) s run := by
  induction run generalizing s with
  | nil => exact ⟨hP, hQ⟩
  | cons a run ih => exact ⟨⟨hP.1, hQ.1⟩, ih hP.2 hQ.2⟩

lemma AllStates.allSteps {P : σ → Prop} {s : σ} {run : List α} (hrun : AllStates step P s run) :
    AllSteps step (fun s _ => P s) s run := by
  induction run generalizing s with
  | nil => trivial
  | cons a run ih => exact ⟨hrun.1, ih hrun.2⟩

lemma AllSteps.mono {ok ok' : σ → α → Prop} (h : ∀ s a, ok s a → ok' s a) {s : σ}
    {run : List α} (hrun : AllSteps step ok s run) : AllSteps step ok' s run := by
  induction run generalizing s with
  | nil => trivial
  | cons a run ih => exact ⟨h s a hrun.1, ih hrun.2⟩

lemma AllSteps.and {ok ok' : σ → α → Prop} {s : σ} {run : List α}
    (h : AllSteps step ok s run) (h' : AllSteps step ok' s run) :
    AllSteps step (fun s a => ok s a ∧ ok' s a) s run := by
  induction run generalizing s with
  | nil => trivial
  | cons a run ih => exact ⟨⟨h.1, h'.1⟩, ih h.2 h'.2⟩

lemma allSteps_of_invariant {Inv : σ → Prop} {ok : σ → α → Prop} {run : List α}
    (keep : ∀ s, ∀ a ∈ run, Inv s → Inv (step s a)) (holds : ∀ s, ∀ a ∈ run, Inv s → ok s a)
    {s : σ} (hs : Inv s) : AllSteps step ok s run := by
  induction run generalizing s with
  | nil => trivial
  | cons a run ih =>
    refine ⟨holds s a List.mem_cons_self hs, ih ?_ ?_ (keep s a List.mem_cons_self hs)⟩
    · exact fun s b hb => keep s b (List.mem_cons_of_mem a hb)
    · exact fun s b hb => holds s b (List.mem_cons_of_mem a hb)

lemma allSteps_of_forall {ok : σ → α → Prop} {run : List α} (h : ∀ s, ∀ a ∈ run, ok s a) (s : σ) :
    AllSteps step ok s run := by
  have keep : ∀ s, ∀ a ∈ run, (fun _ => True) s → (fun _ => True) (step s a) :=
    fun _ _ _ _ => trivial
  exact allSteps_of_invariant keep (fun s a ha _ => h s a ha) trivial

/-- The invariant rule: what one admitted step preserves holds in every state of a run
whose steps are all admitted. -/
theorem allStates_of_invariant {Inv : σ → Prop} {ok : σ → α → Prop}
    (keep : ∀ s a, Inv s → ok s a → Inv (step s a)) {s : σ} {run : List α} (hs : Inv s)
    (hrun : AllSteps step ok s run) : AllStates step Inv s run := by
  induction run generalizing s with
  | nil => exact hs
  | cons a run ih => exact ⟨hs, ih (keep s a hs hrun.1) hrun.2⟩

/-- The invariant rule for steps: what holds of an admitted step under an invariant that such steps
keep holds of every step of a run whose steps are all admitted. -/
theorem allSteps_of_admitted {Inv : σ → Prop} {ok good : σ → α → Prop}
    (keep : ∀ s a, Inv s → ok s a → Inv (step s a)) (holds : ∀ s a, Inv s → ok s a → good s a)
    {s : σ} {run : List α} (hs : Inv s) (hrun : AllSteps step ok s run) :
    AllSteps step good s run := by
  induction run generalizing s with
  | nil => trivial
  | cons a run ih => exact ⟨holds s a hs hrun.1, ih (keep s a hs hrun.1) hrun.2⟩

/-- The invariant rule for machines that admit every step. -/
theorem final_of_invariant (Inv : σ → Prop) (keep : ∀ s a, Inv s → Inv (step s a)) {s : σ}
    (hs : Inv s) (run : List α) : Inv (final step s run) := by
  induction run generalizing s with
  | nil => exact hs
  | cons a run ih => exact ih (keep s a hs)

/-- The progress rule: if a helpful step brings what is left down by one, and no other admitted step
brings it up, a run brings it down by the number of its helpful steps. -/
theorem final_of_progress {P : Nat → σ → Prop} {ok : σ → α → Prop} {helpful : α → Bool}
    (keep : ∀ k s a, P k s → ok s a → P (if helpful a then k - 1 else k) (step s a)) {k : Nat} {s : σ}
    {run : List α} (hs : P k s) (hrun : AllSteps step ok s run) :
    P (k - run.countP helpful) (final step s run) := by
  induction run generalizing k s with
  | nil => exact hs
  | cons a run ih =>
    have hnext := ih (keep k s a hs hrun.1) hrun.2
    rw [List.countP_cons, final_cons]
    split_ifs at hnext ⊢
    · rwa [Nat.sub_sub, Nat.add_comm] at hnext
    · exact hnext

/-- The exactness rule: if admitted steps keep an invariant that implies `P`, and every
other step breaks `P`, then `P` holds throughout a run exactly when all its steps are
admitted. -/
theorem allStates_iff_allSteps {Inv P : σ → Prop} {ok : σ → α → Prop}
    (holds : ∀ s, Inv s → P s) (keep : ∀ s a, Inv s → ok s a → Inv (step s a))
    (breaks : ∀ s a, Inv s → ¬ok s a → ¬P (step s a)) {s : σ} {run : List α} (hs : Inv s) :
    AllStates step P s run ↔ AllSteps step ok s run := by
  constructor
  · intro h
    induction run generalizing s with
    | nil => trivial
    | cons a run ih =>
      have hok : ok s a := by
        by_contra hn
        exact breaks s a hs hn h.2.first
      exact ⟨hok, ih (keep s a hs hok) h.2⟩
  · intro h
    exact (allStates_of_invariant keep hs h).mono holds

/-- The exactness rule for steps: if, under an invariant that good steps keep, a step is good
exactly when it is admitted, then all steps of a run are good exactly when all are admitted. -/
theorem allSteps_iff_allSteps {Inv : σ → Prop} {good ok : σ → α → Prop}
    (exact_step : ∀ s a, Inv s → (good s a ↔ ok s a))
    (keep : ∀ s a, Inv s → good s a → Inv (step s a)) {s : σ} {run : List α} (hs : Inv s) :
    AllSteps step good s run ↔ AllSteps step ok s run := by
  induction run generalizing s with
  | nil => exact Iff.rfl
  | cons a run ih =>
    rw [allSteps_cons, allSteps_cons, ← exact_step s a hs]
    exact and_congr_right fun hgood => ih (keep s a hs hgood)

/-- The actions of another machine that the steps of a run are seen as. -/
def trace (step : σ → α → σ) (seen : σ → α → List β) : σ → List α → List β
  | _, [] => []
  | s, a :: run => seen s a ++ trace step seen (step s a) run

/-- The simulation rule: if, under an invariant that admitted steps keep, an admitted step is seen as
some steps of another machine, then a run of admitted steps is seen as the run of these. -/
theorem final_simulates {step' : τ → β → τ} {view : σ → τ} {Inv : σ → Prop} {ok : σ → α → Prop}
    {seen : σ → α → List β} (keep : ∀ s a, Inv s → ok s a → Inv (step s a))
    (simulates : ∀ s a, Inv s → ok s a → view (step s a) = final step' (view s) (seen s a)) {s : σ}
    {run : List α} (hs : Inv s) (hrun : AllSteps step ok s run) :
    view (final step s run) = final step' (view s) (trace step seen s run) := by
  induction run generalizing s with
  | nil => rfl
  | cons a run ih =>
    rw [final_cons, ih (keep s a hs hrun.1) hrun.2, simulates s a hs hrun.1, trace, final_append]

lemma trace_self (s : σ) (run : List α) : trace step (fun _ a => [a]) s run = run := by
  induction run generalizing s with
  | nil => rfl
  | cons a run ih => rw [trace, ih, List.singleton_append]

lemma filterMap_trace {γ : Type*} {seen : σ → α → List β} {part : β → Option γ} {own : α → Option γ}
    (h : ∀ s a, (seen s a).filterMap part = (own a).toList) (s : σ) (run : List α) :
    (trace step seen s run).filterMap part = run.filterMap own := by
  induction run generalizing s with
  | nil => rfl
  | cons a run ih =>
    rw [trace, List.filterMap_append, h, ih, List.filterMap_cons]
    cases own a <;> rfl

end

section

variable {step : σ → α → σ} (step' : τ → α → τ) (view : τ → σ)

lemma final_view (hview : ∀ t a, view (step' t a) = step (view t) a) (t : τ) (run : List α) :
    view (final step' t run) = final step (view t) run := by
  induction run generalizing t with
  | nil => rfl
  | cons a run ih => rw [final_cons, ih, hview, final_cons]

lemma AllSteps.of_view (hview : ∀ t a, view (step' t a) = step (view t) a)
    {ok : σ → α → Prop} (t : τ) {run : List α} (h : AllSteps step ok (view t) run) :
    AllSteps step' (fun t a => ok (view t) a) t run := by
  induction run generalizing t with
  | nil => trivial
  | cons a run ih =>
    refine ⟨h.1, ih (step' t a) ?_⟩
    rw [hview]
    exact h.2

end

end Runs
